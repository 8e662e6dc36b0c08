import AmuxApi.Conc.Logic
import AmuxApi.DeviceAuth.Model

/- No token is left that nobody received.

   A token is issued before it is written into the session. From then on it is in hand of the call that
   has issued it, in the session, in hand of the poll that has taken it, or it was answered; if it cannot
   be written, it is revoked. This holds as long as the clean-up does not expire a session that was
   approved and not polled, does not delete one whose poll still runs, and the revocation and the SELECT
   do not fail (`noLoss`): every token that is active is in one of these places
   (`active_token_accounted`).

   The clean-up expires an approved session that was not polled for ten minutes and clears its token, but
   leaves the token itself active (`token_left`). -/
namespace AmuxApi.DeviceAuth
open Conc Function Mem List

/-- No token gets lost in this step. -/
def noLoss {ι : Type} : Guard ι (Mem ι) := fun _ m m' => m'.slips == m.slips

section
variable {ι : Type}

/-- What a call has in hand. `minted`: a token that it has issued. `claimed`: the session, with its
token. `read`: the token, to be answered. `free`: nothing. -/
inductive Hand
  | free
  | minted (token : Nat)
  | claimed (token : Nat)
  | read (token : Nat)

def Hand.carries : Hand → Option Nat
  | .free => none
  | .minted token => some token
  | .claimed token => some token
  | .read token => some token

def Hand.polls : Hand → Bool
  | .claimed _ => true
  | .read _ => true
  | _ => false

/-- The session holds the token for delivery. -/
def Mem.Keeps (m : Mem ι) (token : Nat) : Prop :=
  ∃ x, m.session = some x ∧ x.status = .authorized ∧ x.accessToken = some token

def Mem.Active (m : Mem ι) (token : Nat) : Prop := ∃ row, m.tables.tokens[token]? = some row ∧ row.status = .active

/-- `first`: the first token that is issued for the session. -/
structure Accounted (first : Nat) (m : Mem ι) (g : ι → Hand) : Prop where
  active : ∀ t, first ≤ t → m.Active t → m.Keeps t ∨ (∃ i, (g i).carries = some t) ∨ t ∈ m.delivered
  inHand : ∀ i t, (g i).carries = some t → (i, t) ∈ m.inHand
  polls : ∀ i, (g i).polls = true → i ∈ m.claims ∧ ∃ x, m.session = some x ∧ x.status = .used
  claimed : ∀ i t, g i = .claimed t → ∀ x, m.session = some x → x.accessToken = some t
  one : ∀ i j, (g i).polls = true → (g j).polls = true → i = j
  written : ∀ x, m.session = some x → x.status = .authorized → ∃ t, x.accessToken = some t

variable {first : Nat} {m m' : Mem ι} {g : ι → Hand} {i : ι} {x : Session}

section
variable (h : Accounted first m g)
include h

theorem Accounted.nobody_polls (hnot : ∀ x, m.session = some x → x.status ≠ .used) (j : ι) :
    (g j).polls = false := by
  refine eq_false_of_ne_true fun hpolls => ?_
  obtain ⟨-, x, hx, hused⟩ := h.polls j hpolls
  exact hnot x hx hused

theorem Accounted.unpolled (hx : m.session = some x) (hstatus : x.status ≠ .used) :
    ∀ j, (g j).polls = false := by
  refine h.nobody_polls fun y hy => ?_
  rw [hx] at hy
  cases hy
  exact hstatus

/-! Steps that meet a session which holds no token, while nobody polls. -/

theorem Accounted.idle (hpolls : ∀ j, (g j).polls = false)
    (hbefore : ∀ x, m.session = some x → x.status ≠ .authorized)
    (hafter : ∀ x, m'.session = some x → x.status ≠ .authorized) (htables : m'.tables = m.tables)
    (hinHand : m'.inHand = m.inHand) (hdelivered : m'.delivered = m.delivered) : Accounted first m' g := by
  have hno : ∀ {P : Prop} j, (g j).polls = true → P := by
    intro P j hj
    rw [hpolls j] at hj
    cases hj
  refine ⟨fun t ht hactive => ?_, ?_, fun j hj => hno j hj, fun j t hj =>
    hno j (by rw [hj]; rfl), fun j _ hj => hno j hj,
    fun y hy hstatus => absurd hstatus (hafter y hy)⟩
  · unfold Mem.Active at hactive
    rw [htables] at hactive
    rw [hdelivered]
    rcases h.active t ht hactive with ⟨y, hy, hstatus, -⟩ | helse
    · exact absurd hstatus (hbefore y hy)
    · exact .inr helse
  · rw [hinHand]
    exact h.inHand

theorem Accounted.pending (hx : m.session = some x) (hpending : x.status = .pending)
    (hafter : ∀ x, m'.session = some x → x.status ≠ .authorized) (htables : m'.tables = m.tables)
    (hinHand : m'.inHand = m.inHand) (hdelivered : m'.delivered = m.delivered) : Accounted first m' g := by
  refine h.idle (h.unpolled hx (by rw [hpending]; nofun)) (fun y hy => ?_) hafter htables hinHand hdelivered
  rw [hx] at hy
  cases hy
  rw [hpending]
  nofun

theorem Accounted.reject :
    Accounted first (if m.hasStatus .pending then (m.mapSession Session.expire).lapse else m) g := by
  split_ifs with hstatus
  · obtain ⟨x, hx, hpending⟩ := (Option.any_eq_true ..).mp hstatus
    refine h.pending hx (of_decide_eq_true hpending) (fun y hy => ?_) rfl rfl rfl
    replace hy : m.session.map Session.expire = some y := hy
    obtain ⟨z, -, rfl⟩ := Option.map_eq_some_iff.mp hy
    exact nofun
  · exact h

theorem Accounted.deletePending (now : Int) :
    Accounted first (if m.session.any fun x => x.expiresAt < now && x.status = .pending then
      { m with session := none }.lapse else m) g := by
  split_ifs with hany
  · obtain ⟨x, hx, hcond⟩ := (Option.any_eq_true ..).mp hany
    rw [Bool.and_eq_true, decide_eq_true_eq, decide_eq_true_eq] at hcond
    exact h.pending hx hcond.2 nofun rfl rfl rfl
  · exact h

theorem Accounted.insertSession (hnone : m.session = none) {createdAt expiresAt : Int} :
    Accounted first { m with session := some { createdAt, expiresAt } } g := by
  have hno : ∀ {P : Session → Prop} y, m.session = some y → P y := by
    intro P y hy
    rw [hnone] at hy
    cases hy
  refine h.idle (h.nobody_polls hno) hno (fun y hy => ?_) rfl rfl rfl
  cases hy
  exact nofun

/-- The session was used or has expired, and no poll of it runs. -/
theorem Accounted.deleteOld {now : Int}
    (hany : (m.session.any fun x => x.createdAt < now - 3600 && (x.status = .used || x.status = .expired)) = true)
    (hclaims : m.claims = []) {slips : Nat} : Accounted first { m with session := none, slips } g := by
  obtain ⟨x, hx, hcond⟩ := (Option.any_eq_true ..).mp hany
  rw [Bool.and_eq_true, Bool.or_eq_true] at hcond
  refine h.idle (fun j => ?_) (fun y hy hauthorized => ?_) nofun rfl rfl rfl
  · refine eq_false_of_ne_true fun hpolls => ?_
    have hmem := (h.polls j hpolls).1
    rw [hclaims] at hmem
    cases hmem
  · rw [hx] at hy
    cases hy
    rw [hauthorized] at hcond
    rcases hcond.2 with hused | hexpired
    · cases hused
    · cases hexpired

end

/-! Steps about nothing of this. -/

structure Unrelated (m m' : Mem ι) : Prop where
  session : m'.session = m.session
  tables : m'.tables = m.tables
  inHand : m'.inHand = m.inHand
  claims : m'.claims = m.claims
  delivered : m'.delivered = m.delivered

theorem Accounted.unrelated (h : Accounted first m g) (hm : Unrelated m m') : Accounted first m' g := by
  refine ⟨?_, ?_, ?_, ?_, h.one, ?_⟩
  · unfold Mem.Active Mem.Keeps
    rw [hm.session, hm.tables, hm.delivered]
    exact h.active
  · rw [hm.inHand]
    exact h.inHand
  · rw [hm.claims, hm.session]
    exact h.polls
  · rw [hm.session]
    exact h.claimed
  · rw [hm.session]
    exact h.written

/-! Steps of a call that change what it has in hand. -/

variable [DecidableEq ι]

def Located (m : Mem ι) (g : ι → Hand) (i : ι) (γ : Hand) (t : Nat) : Prop :=
  m.Keeps t ∨ γ.carries = some t ∨ (∃ j, j ≠ i ∧ (g j).carries = some t) ∨ t ∈ m.delivered

variable {γ : Hand}

omit [DecidableEq ι] in
theorem Accounted.located (h : Accounted first m g) (hi : g i = γ) {t : Nat} (ht : first ≤ t) (hactive : m.Active t) :
    Located m g i γ t := by
  rcases h.active t ht hactive with hkeeps | ⟨j, hj⟩ | hdelivered
  · exact .inl hkeeps
  · by_cases hji : j = i
    · subst hji hi
      exact .inr (.inl hj)
    · exact .inr (.inr (.inl ⟨j, hji, hj⟩))
  · exact .inr (.inr (.inr hdelivered))

theorem Located.update {t : Nat} (h : Located m g i γ t) :
    m.Keeps t ∨ (∃ j, (update g i γ j).carries = some t) ∨ t ∈ m.delivered := by
  rcases h with hkeeps | hown | ⟨j, hj, hcarries⟩ | hdelivered
  · exact .inl hkeeps
  · exact .inr (.inl ⟨i, by rw [update_self]; exact hown⟩)
  · exact .inr (.inl ⟨j, by rw [update_of_ne hj]; exact hcarries⟩)
  · exact .inr (.inr hdelivered)

section
variable (h : Accounted first m g)
include h

section
variable (hactive : ∀ t, first ≤ t → m'.Active t → Located m' g i γ t)
variable (hown : ∀ t, γ.carries = some t → (i, t) ∈ m'.inHand)
variable (hothers : ∀ j t, j ≠ i → (j, t) ∈ m.inHand → (j, t) ∈ m'.inHand)
include hown hothers

theorem inHand_update (j : ι) (t : Nat) (hj : (update g i γ j).carries = some t) : (j, t) ∈ m'.inHand := by
  by_cases hji : j = i
  · subst hji
    rw [update_self] at hj
    exact hown t hj
  · rw [update_of_ne hji] at hj
    exact hothers j t hji (h.inHand j t hj)

include hactive

theorem Accounted.token (hi : (g i).polls = false) (hγ : γ.polls = false)
    (hsession : m'.session = m.session) (hclaims : m'.claims = m.claims) : Accounted first m' (update g i γ) := by
  -- who polls is another call, as before
  have hpolls : ∀ {j}, (update g i γ j).polls = true → j ≠ i := by
    rintro j hj rfl
    rw [update_self, hγ] at hj
    cases hj
  refine ⟨fun t ht ha => (hactive t ht ha).update, inHand_update h hown hothers, fun j hj => ?_, fun j t hj => ?_,
    fun j k hj hk => ?_, ?_⟩
  · rw [hclaims, hsession]
    have hji := hpolls hj
    rw [update_of_ne hji] at hj
    exact h.polls j hj
  · rw [hsession]
    have hji := hpolls (by rw [hj]; rfl)
    rw [update_of_ne hji] at hj
    exact h.claimed j t hj
  · have hji := hpolls hj
    have hki := hpolls hk
    rw [update_of_ne hji] at hj
    rw [update_of_ne hki] at hk
    exact h.one j k hj hk
  · rw [hsession]
    exact h.written

/-- A step about the session, while no other call polls. -/
theorem Accounted.sole (hsole : ∀ j, j ≠ i → (g j).polls = false)
    (hpolls : γ.polls = true → i ∈ m'.claims ∧ ∃ x, m'.session = some x ∧ x.status = .used)
    (hclaimed : ∀ t, γ = .claimed t → ∀ x, m'.session = some x → x.accessToken = some t)
    (hwritten : ∀ x, m'.session = some x → x.status = .authorized → ∃ t, x.accessToken = some t) :
    Accounted first m' (update g i γ) := by
  have hself : ∀ {j}, (update g i γ j).polls = true → j = i := by
    intro j hj
    by_contra hji
    rw [update_of_ne hji, hsole j hji] at hj
    cases hj
  refine ⟨fun t ht ha => (hactive t ht ha).update, inHand_update h hown hothers, fun j hj => ?_, fun j t hj => ?_,
    fun j k hj hk => (hself hj).trans (hself hk).symm, hwritten⟩
  · obtain rfl := hself hj
    rw [update_self] at hj
    exact hpolls hj
  · obtain rfl := hself (by rw [hj]; rfl)
    rw [update_self] at hj
    exact hclaimed t hj

end

/-! Issuing and revoking. -/

theorem Accounted.mint (hi : g i = .free) (hash : String → String) (r : Request) :
    Accounted first
      { m with
        tables := Identity.createDeviceToken hash m.now r.userId r.name r.sourceMeta r.body m.tables
        inHand := (i, m.tables.tokens.length) :: m.inHand }
      (update g i (.minted m.tables.tokens.length)) := by
  refine h.token (fun t ht hactive => ?_) (fun t ht => ?_) (fun j t _ hmem => mem_cons_of_mem _ hmem)
    (by rw [hi]; rfl) rfl rfl rfl
  · -- the new token is in hand, and the others are where they were
    obtain ⟨row, hrow, hstatus⟩ := hactive
    by_cases hlt : t < m.tables.tokens.length
    · have hbefore : m.Active t := ⟨row, (List.getElem?_append_left hlt).symm.trans hrow, hstatus⟩
      rcases h.located hi ht hbefore with hkeeps | hnone | helse
      · exact .inl hkeeps
      · cases hnone
      · exact .inr (.inr helse)
    · have hlength : t < m.tables.tokens.length + 1 := by
        obtain ⟨hlt', -⟩ := List.getElem?_eq_some_iff.mp hrow
        exact Nat.lt_of_lt_of_eq hlt' (length_append.trans rfl)
      obtain rfl : t = m.tables.tokens.length := by omega
      exact .inr (.inl rfl)
  · cases ht
    exact mem_cons_self

end

theorem active_of_revoke {now : Int} {id t : Nat} {reason : String} {tables : Identity.Tables}
    (h : ∃ row, (Identity.revokeUserAccessToken now id reason tables).tokens[t]? = some row ∧ row.status = .active) :
    t ≠ id ∧ ∃ row, tables.tokens[t]? = some row ∧ row.status = .active := by
  obtain ⟨row, hrow, hstatus⟩ := h
  unfold Identity.revokeUserAccessToken at hrow
  rw [List.getElem?_modify] at hrow
  obtain ⟨old, hold, hrow⟩ := Option.map_eq_some_iff.mp hrow
  by_cases hid : id = t
  · rw [if_pos hid] at hrow
    subst hrow
    split at hstatus
    · cases hstatus
    · rename_i hnot
      exact absurd (.inl hstatus) hnot
  · rw [if_neg hid] at hrow
    subst hrow
    exact ⟨Ne.symm hid, old, hold, hstatus⟩

variable {token : Nat}

section
variable (h : Accounted first m g)
include h

theorem Accounted.revoke (hi : g i = .minted token) :
    Accounted first
      (release i
        { m with tables := Identity.revokeUserAccessToken m.now token "session-authorize-failed" m.tables } token)
      (update g i .free) := by
  refine h.token (fun t ht hactive => ?_) nofun (fun j t hj hmem => ?_) (by rw [hi]; rfl) rfl rfl rfl
  · obtain ⟨hne, hbefore⟩ := active_of_revoke hactive
    rcases h.located hi ht hbefore with hkeeps | hown | helse
    · exact .inl hkeeps
    · cases hown
      exact absurd rfl hne
    · exact .inr (.inr helse)
  · refine (mem_erase_of_ne fun heq => hj ?_).mpr hmem
    cases heq
    rfl

/-! The session. -/

theorem Accounted.authorize {userId now : Int} (hi : g i = .minted token)
    (hawaits : m.awaits now = true) : Accounted first (m.authorize i userId token) (update g i .free) := by
  obtain ⟨x, hx, hcond⟩ := (Option.any_eq_true ..).mp hawaits
  unfold Session.awaits at hcond
  rw [Bool.and_eq_true, decide_eq_true_eq] at hcond
  have hsession : (m.authorize i userId token).session = some (x.authorize userId token) := by
    show m.session.map _ = _
    rw [hx]
    rfl
  have hnobody := h.unpolled hx (by rw [hcond.1]; nofun)
  refine h.sole (fun t ht hactive => ?_) nofun (fun j t hj hmem => ?_) (fun j _ => hnobody j)
    nofun nofun fun y hy _ => ?_
  · rcases h.located hi ht hactive with ⟨y, hy, hauthorized, -⟩ | hown | helse
    · rw [hx] at hy
      cases hy
      rw [hcond.1] at hauthorized
      cases hauthorized
    · cases hown
      exact .inl ⟨_, hsession, rfl, rfl⟩
    · exact .inr (.inr helse)
  · refine (mem_erase_of_ne fun heq => hj ?_).mpr hmem
    cases heq
    rfl
  · rw [hsession] at hy
    cases hy
    exact ⟨token, rfl⟩

theorem Accounted.claim (hi : g i = .free) (hstatus : m.hasStatus .authorized = true) :
    ∃ token, Accounted first
      { m.mapSession ({ · with status := .used }) with
        inHand := m.held.toList.map (i, ·) ++ m.inHand
        claims := i :: m.claims }
      (update g i (.claimed token)) := by
  obtain ⟨x, hx, hauthorized⟩ := (Option.any_eq_true ..).mp hstatus
  replace hauthorized := of_decide_eq_true hauthorized
  obtain ⟨token, htoken⟩ := h.written x hx hauthorized
  have hheld : m.held = some token := by
    unfold held
    rw [hx]
    exact htoken
  have hsession : m.session.map (fun x => { x with status := .used }) = some { x with status := .used } := by
    rw [hx]
    rfl
  have hnobody := h.unpolled hx (by rw [hauthorized]; nofun)
  refine ⟨token, h.sole (fun t ht hactive => ?_) (fun t ht => ?_)
    (fun j t _ hmem => mem_append_right _ hmem) (fun j _ => hnobody j) (fun _ => ⟨mem_cons_self, _, hsession, rfl⟩)
    (fun t ht y hy => ?_) fun y hy hstatus' => ?_⟩
  · rcases h.located hi ht hactive with ⟨y, hy, -, htoken'⟩ | hnone | helse
    · -- the token of the session is now in hand
      rw [hx] at hy
      cases hy
      exact .inr (.inl (htoken.symm.trans htoken'))
    · cases hnone
    · exact .inr (.inr helse)
  · cases ht
    refine mem_append_left _ ?_
    rw [hheld]
    exact mem_singleton_self _
  · cases ht
    replace hy : m.session.map _ = some y := hy
    rw [hsession] at hy
    cases hy
    exact htoken
  · replace hy : m.session.map _ = some y := hy
    rw [hsession] at hy
    cases hy
    cases hstatus'

omit [DecidableEq ι] in
theorem Accounted.others (hi : (g i).polls = true) : ∀ j, j ≠ i → (g j).polls = false := by
  intro j hj
  exact eq_false_of_ne_true fun hpolls => hj (h.one j i hpolls hi)

theorem Accounted.read (hi : g i = .claimed token) :
    Accounted first m (update g i (.read token)) := by
  have hpolls : (g i).polls = true := by
    rw [hi]
    rfl
  refine h.sole (fun t ht hactive => h.located hi ht hactive) (fun t ht => h.inHand i t ?_)
    (fun _ _ _ hmem => hmem) (h.others hpolls) (fun _ => h.polls i hpolls) nofun h.written
  rw [hi]
  exact ht

theorem Accounted.clear (hi : g i = .read token)
    (hsession : m'.session = m.session ∨ m'.session = m.session.map ({ · with accessToken := none }))
    (htables : m'.tables = m.tables) (hinHand : m'.inHand = m.inHand.filter (·.1 ≠ i))
    (hdelivered : m'.delivered = token :: m.delivered) : Accounted first m' (update g i .free) := by
  have hpolls : (g i).polls = true := by
    rw [hi]
    rfl
  obtain ⟨-, x, hx, hused⟩ := h.polls i hpolls
  refine h.sole (fun t ht hactive => ?_) nofun (fun j t hj hmem => ?_) (h.others hpolls)
    nofun nofun fun y hy hauthorized => ?_
  · unfold Mem.Active at hactive
    rw [htables] at hactive
    unfold Located
    rw [hdelivered]
    rcases h.located hi ht hactive with ⟨y, hy, hauthorized, -⟩ | hown | hother | hbefore
    · rw [hx] at hy
      cases hy
      rw [hused] at hauthorized
      cases hauthorized
    · cases hown
      exact .inr (.inr (.inr mem_cons_self))
    · exact .inr (.inr (.inl hother))
    · exact .inr (.inr (.inr (mem_cons_of_mem _ hbefore)))
  · rw [hinHand]
    exact mem_filter.mpr ⟨hmem, decide_eq_true hj⟩
  · rcases hsession with hold | hcleared
    · rw [hold, hx] at hy
      cases hy
      rw [hused] at hauthorized
      cases hauthorized
    · rw [hcleared, hx] at hy
      cases hy
      rw [hused] at hauthorized
      cases hauthorized

end

/-! Programs. -/

omit [DecidableEq ι] in
theorem not_lost (hguard : noLoss i m m' = true) (hslips : m'.slips = m.slips + 1) : False := by
  unfold noLoss at hguard
  rw [beq_iff_eq, hslips] at hguard
  exact Nat.succ_ne_self _ hguard

variable {α : Type} {answer : Mem ι → α}

theorem accounted_get : wp (Accounted first) noLoss i (get answer) (fun _ γ' => γ' = γ) γ :=
  wp_get fun _ _ _ _ => rfl

theorem accounted_query : wp (Accounted first) noLoss i (query answer) (fun _ γ' => γ' = γ) γ :=
  wp_query (fun _ _ _ _ => rfl) rfl

/-- A call that has ended has nothing in hand. -/
def EmptyHanded (_ : Answer) (γ : Hand) : Prop := γ = .free

theorem accounted_insertSession (expiresAt : Int) :
    wp (Accounted first) noLoss i (insertSession expiresAt : Prog (Mem ι) Answer) EmptyHanded .free := by
  intro m g ok hinv hi _ _
  refine ⟨.free, inv_update_self ?_ hi, rfl⟩
  dsimp only
  split_ifs with hnone
  · exact hinv.insertSession hnone.2
  · exact hinv

theorem accounted_authorize :
    wp (Accounted first) noLoss i (oauthDeviceAuthorize : Prog (Mem ι) Answer) EmptyHanded .free := by
  refine wp_known accounted_query fun existing => ?_
  split
  · exact wp_pure rfl
  refine wp_known accounted_get fun now => ?_
  refine wp_known accounted_query fun below => ?_
  split
  · exact accounted_insertSession _
  · exact wp_pure rfl

theorem accounted_create (hash : String → String) (r : Request) :
    wp (Accounted first) noLoss i (createUserAccessToken i hash r)
      (fun token γ => γ = token.elim .free .minted) .free := by
  intro m g ok hinv hi _ _
  cases ok with
  | true => exact ⟨.minted m.tables.tokens.length, hinv.mint hi hash r, rfl⟩
  | false => exact ⟨.free, inv_update_self hinv hi, rfl⟩

theorem accounted_write {userId : Int} :
    wp (Accounted first) noLoss i (authorizeDesktopSession i userId token)
      (fun ok γ => γ = if ok then .free else .minted token) (.minted token) :=
  wp_known accounted_get fun _ => wp_when (fun _ _ hinv hi hawaits _ => ⟨.free, hinv.authorize hi hawaits, rfl⟩) rfl

theorem accounted_revoke :
    wp (Accounted first) noLoss i (revokeUserAccessToken i token) (fun _ γ => γ = .free) (.minted token) := by
  intro m g ok hinv hi _ hguard
  cases ok with
  | true => exact ⟨.free, hinv.revoke hi, rfl⟩
  | false => exact (not_lost hguard rfl).elim

theorem accounted_confirm (hash : String → String) (action : Action) :
    wp (Accounted first) noLoss i (oauthDeviceConfirm i hash action) EmptyHanded .free := by
  cases action with
  | reject => exact wp_bind (wp_statement_keep fun _ _ h _ => h.reject)
  | approve r =>
    refine wp_known (accounted_create hash r) fun token => ?_
    cases token with
    | none => exact wp_pure rfl
    | some id =>
      refine wp_known accounted_write fun ok => ?_
      cases ok with
      | true => exact wp_pure rfl
      | false => exact wp_bind accounted_revoke

theorem accounted_claim :
    wp (Accounted first) noLoss i (claimSession i)
      (fun won γ => if won then ∃ token, γ = .claimed token else γ = .free) .free := by
  refine wp_when (fun m g hinv hi hstatus _ => ?_) rfl
  obtain ⟨token, hinv'⟩ := hinv.claim hi hstatus
  exact ⟨.claimed token, hinv', token, rfl⟩

theorem accounted_read :
    wp (Accounted first) noLoss i (readSession i)
      (fun found γ => γ = .read token ∧ ∃ x, found = some x ∧ x.accessToken = some token) (.claimed token) := by
  intro m g ok hinv hi _ hguard
  by_cases hfound : ok = true ∧ m.usedSession.isSome = true
  · refine ⟨.read token, ?_, rfl, ?_⟩
    · dsimp only
      rw [if_pos hfound]
      exact hinv.read hi
    · obtain ⟨x, hx⟩ := Option.isSome_iff_exists.mp hfound.2
      refine ⟨x, ?_, hinv.claimed i token hi x (Option.filter_eq_some_iff.mp hx).1⟩
      rw [if_pos hfound.1, hx]
  · dsimp only at hguard
    rw [if_neg hfound] at hguard
    exact (not_lost hguard rfl).elim

theorem accounted_answer {x : Session} (htoken : x.accessToken = some token) :
    wp (Accounted first) noLoss i (clearToken i x) EmptyHanded (.read token) := by
  intro m g ok hinv hi _ _
  refine ⟨.free, ?_, rfl⟩
  have hdelivered : x.accessToken.toList ++ m.delivered = token :: m.delivered := by
    rw [htoken]
    rfl
  cases ok with
  | true => exact hinv.clear hi (.inr rfl) rfl rfl hdelivered
  | false => exact hinv.clear hi (.inl rfl) rfl rfl hdelivered

theorem accounted_consume : wp (Accounted first) noLoss i (consumeDesktopSession i) EmptyHanded .free := by
  refine wp_seq accounted_claim fun won γ hγ => ?_
  cases won with
  | false =>
    obtain rfl : γ = .free := hγ
    exact wp_pure rfl
  | true =>
    obtain ⟨token, rfl⟩ : ∃ token, γ = .claimed token := hγ
    refine wp_seq accounted_read fun found γ hγ => ?_
    obtain ⟨rfl, x, rfl, htoken⟩ := hγ
    exact accounted_answer htoken

theorem accounted_checkStatus (x : Session) : wp (Accounted first) noLoss i (checkStatus i x) EmptyHanded .free := by
  rw [checkStatus]
  cases x.status with
  | pending => exact wp_bind accounted_get
  | authorized => exact accounted_consume
  | used | expired => exact wp_pure rfl

theorem accounted_check : wp (Accounted first) noLoss i (oauthDeviceCheck i) EmptyHanded .free := by
  refine wp_bind (wp_query (fun m _ _ _ => ?_) (wp_pure rfl))
  cases m.session with
  | none => exact wp_pure rfl
  | some x => exact accounted_checkStatus x

theorem accounted_cleanup :
    wp (Accounted first) noLoss i (cleanupExpiredDesktopSessions : Prog (Mem ι) Answer) EmptyHanded .free := by
  refine wp_known accounted_get fun now => ?_
  refine wp_known (wp_statement_keep fun _ _ h _ => h.deletePending now) fun ok => ?_
  split
  · refine wp_known (wp_statement_keep fun m g h hguard => ?_) fun ok => ?_
    · -- a session with a token is not expired
      split_ifs with hany
      · rw [if_pos hany] at hguard
        exact (not_lost hguard rfl).elim
      · exact h
    · split
      · refine wp_bind (wp_statement_keep fun m g h hguard => ?_)
        split
        · rename_i hany
          refine h.deleteOld hany ?_
          by_contra hclaims
          rw [if_pos hany] at hguard
          refine not_lost hguard ?_
          rw [if_neg hclaims]
        · exact h
      · exact wp_pure rfl
  · exact wp_pure rfl

theorem accounted_call (hash : String → String) (call : Call) :
    wp (Accounted first) noLoss i (call.prog hash i) EmptyHanded .free := by
  cases call with
  | authorize => exact accounted_authorize
  | confirm action => exact accounted_confirm hash action
  | check => exact accounted_check
  | cleanup => exact accounted_cleanup
  | wait seconds =>
    refine wp_atomically fun m g hinv hi _ => ⟨.free, inv_update_self (hinv.unrelated ?_) hi, rfl⟩
    unfold wait
    dsimp only
    split <;> exact ⟨rfl, rfl, rfl, rfl, rfl⟩

/-! What was delivered was answered. -/

def Undelivered (m m' : Mem ι) : Prop := m'.delivered = m.delivered

section
omit [DecidableEq ι]

theorem undelivered_statement {f : Mem ι → Mem ι} (h : ∀ m, (f m).delivered = m.delivered) :
    (statement f).Each Undelivered := each_act h fun _ => rfl

theorem undelivered_get : (get answer).Each Undelivered :=
  each_atomically fun _ => rfl

theorem undelivered_query : (query answer).Each Undelivered := fun _ _ => ⟨rfl, trivial⟩

theorem undelivered_authorize : (oauthDeviceAuthorize : Prog (Mem ι) Answer).Each Undelivered := by
  refine each_bind (fun existing => ?_) undelivered_query
  split
  · exact each_pure _
  refine each_bind (fun now => each_bind (fun below => ?_) undelivered_query) undelivered_get
  split
  · intro ok m
    refine ⟨?_, trivial⟩
    dsimp only
    split <;> rfl
  · exact each_pure _

theorem undelivered_cleanup : (cleanupExpiredDesktopSessions : Prog (Mem ι) Answer).Each Undelivered := by
  refine each_bind (fun now => each_bind (fun ok => ?_) (undelivered_statement fun m => ?_)) undelivered_get
  · split
    · refine each_bind (fun ok => ?_) (undelivered_statement fun m => ?_)
      · split
        · refine each_bind (fun ok => each_pure _) (undelivered_statement fun m => ?_)
          split <;> rfl
        · exact each_pure _
      · split <;> rfl
    · exact each_pure _
  · split <;> rfl

end

theorem undelivered_confirm (hash : String → String) (action : Action) :
    (oauthDeviceConfirm i hash action).Each Undelivered := by
  cases action with
  | reject =>
    refine each_bind (fun _ => each_pure _) (undelivered_statement fun m => ?_)
    split <;> rfl
  | approve r =>
    refine each_bind (fun token => ?_) (each_act (fun _ => rfl) fun _ => rfl)
    · cases token with
      | none => exact each_pure _
      | some id =>
        refine each_bind (fun ok => ?_) (each_bind (fun now => ?_) undelivered_get)
        · split
          · exact each_pure _
          · exact each_bind (fun _ => each_pure _) (each_act (fun _ => rfl) fun _ => rfl)
        · intro ok m
          refine ⟨?_, trivial⟩
          dsimp only
          split <;> rfl

def AnsweredWith (token : Nat) (answer : Answer) : Prop := ∃ userId, answer = .authorized userId (some token)

theorem announces_consume : (consumeDesktopSession i).Announces delivered AnsweredWith := by
  refine announces_bind (fun won => ?_) fun ok m => ⟨?_, trivial⟩
  · split
    · refine announces_bind (fun found => ?_) fun ok m => ⟨?_, trivial⟩
      · cases found with
        | none => exact announces_pure _
        | some x =>
          intro ok m
          refine .inr ⟨_, x.accessToken.toList, rfl, ?_, fun token htoken => ?_⟩
          · cases ok with
            | true | false => rfl
          · rw [Option.mem_toList] at htoken
            exact ⟨x.userId, by rw [htoken]⟩
      · dsimp only
        split <;> rfl
    · exact announces_pure _
  · dsimp only
    split <;> rfl

theorem announces_check : (oauthDeviceCheck i).Announces delivered AnsweredWith := by
  refine announces_bind (fun found => ?_) undelivered_query
  cases found with
  | none => exact announces_pure _
  | some session =>
    cases session with
    | none => exact announces_pure _
    | some x =>
      show (checkStatus i x).Announces _ _
      rw [checkStatus]
      cases x.status with
      | pending => exact announces_bind (fun _ => announces_pure _) undelivered_get
      | authorized => exact announces_consume
      | used | expired => exact announces_pure _

theorem announces_call (hash : String → String) (call : Call) :
    (call.prog hash i).Announces delivered AnsweredWith := by
  cases call with
  | authorize => exact announces_of_each undelivered_authorize
  | confirm action => exact announces_of_each (undelivered_confirm hash action)
  | check => exact announces_check
  | cleanup => exact announces_of_each undelivered_cleanup
  | wait seconds =>
    refine announces_of_each (each_atomically fun m => ?_)
    unfold wait
    dsimp only
    split <;> rfl

omit [DecidableEq ι] in
theorem accounted_start (session : Option (Int × Int)) (tables : Identity.Tables) (now : Int) :
    Accounted tables.tokens.length (start session tables now) fun _ : ι => .free := by
  refine ⟨fun t ht hactive => ?_, nofun, fun _ h => absurd h Bool.false_ne_true,
    fun _ _ h => Hand.noConfusion h, fun _ _ h => absurd h Bool.false_ne_true, fun x hx hauthorized => ?_⟩
  · obtain ⟨row, hrow, -⟩ := hactive
    obtain ⟨hlt, -⟩ := List.getElem?_eq_some_iff.mp hrow
    exact absurd hlt (Nat.not_lt.mpr ht)
  · obtain ⟨times, -, rfl⟩ := Option.map_eq_some_iff.mp hx
    cases hauthorized

/-- **Every active token is accounted for.** As long as no step loses a token (`noLoss`), in every state
that is reached a token which was issued for the session and is active is held by the session for
delivery, was answered by a poll, or is in hand of a call that still runs. -/
theorem active_token_accounted (hash : String → String) (session : Option (Int × Int)) (tables : Identity.Tables)
    (now : Int) (calls : ι → Call) (s : Sys ι (Mem ι) Answer)
    (hs : Reach noLoss ⟨start session tables now, fun i => (calls i).prog hash i⟩ s) (token : Nat)
    (hissued : tables.tokens.length ≤ token) (hactive : s.mem.Active token) :
    s.mem.Keeps token ∨ (∃ i userId, s.prog i = .ret (.authorized userId (some token))) ∨
      ∃ i, (i, token) ∈ s.mem.inHand ∧ (s.prog i).result = none := by
  obtain ⟨g, hgood⟩ :=
    reach_sound (accounted_start session tables now) (fun i => accounted_call hash (calls i)) hs
  rcases hgood.inv.active token hissued hactive with hkeeps | ⟨i, hi⟩ | hdelivered
  · exact .inl hkeeps
  · refine .inr (.inr ⟨i, hgood.inv.inHand i token hi, ?_⟩)
    -- a call that has returned has nothing in hand
    cases hresult : (s.prog i).result with
    | none => rfl
    | some answer =>
      have hfree : g i = .free := hgood.returned (Prog.eq_ret_of_result hresult)
      rw [hfree] at hi
      cases hi
  · obtain ⟨i, answer, hanswer, userId, rfl⟩ :=
      (hs.announced (fun i => announces_call hash (calls i)) rfl).2 token hdelivered
    exact .inr (.inl ⟨i, userId, hanswer⟩)

end

/-! An approval, and what follows it. -/

section

def afterApproval (second third : Call) : Option Bool → Call
  | none => .confirm (.approve exampleRequest)
  | some false => second
  | some true => third

def approved (second third : Call) : Sys (Option Bool) (Mem (Option Bool)) Answer :=
  ⟨start (some (1000, 1300)) ⟨[], []⟩ 1000, fun i => (afterApproval second third i).prog id i⟩

def polled : List (Option Bool × Bool) := List.replicate 3 (none, true) ++ List.replicate 4 (some false, true)

def cleaned : List (Option Bool × Bool) :=
  List.replicate 3 (none, true) ++ (some false, true) :: List.replicate 4 (some true, true)

def Mem.statusOf {ι : Type} (m : Mem ι) (token : Nat) : Option Identity.TokenStatus :=
  m.tables.tokens[token]?.map (·.status)

theorem Mem.active_of_statusOf {ι : Type} {m : Mem ι} {token : Nat} (h : m.statusOf token = some .active) :
    m.Active token := by
  obtain ⟨row, hrow, hstatus⟩ := Option.map_eq_some_iff.mp h
  exact ⟨row, hrow, hstatus⟩

/-- A session that is polled: the token is active, and was answered. -/
theorem polled_token_accounted :
    (after noLoss (approved .check .cleanup) polled).mem.Active 0 ∧
      ((after noLoss (approved .check .cleanup) polled).mem.Keeps 0 ∨
        (∃ i userId, (after noLoss (approved .check .cleanup) polled).prog i = .ret (.authorized userId (some 0))) ∨
        ∃ i, (i, 0) ∈ (after noLoss (approved .check .cleanup) polled).mem.inHand ∧
          ((after noLoss (approved .check .cleanup) polled).prog i).result = none) := by
  have hstatus : (after noLoss (approved .check .cleanup) polled).mem.statusOf 0 = some .active := by decide +kernel
  have hrun : (run noLoss (approved .check .cleanup) polled).isSome = true := by decide +kernel
  have hactive := active_of_statusOf hstatus
  exact ⟨hactive, active_token_accounted id _ _ _ _ _ (reach_run .start (run_after hrun)) 0 (Nat.le_refl 0) hactive⟩

/-- A session that is approved and not polled for more than ten minutes: the clean-up clears the token
of the session, all calls have returned and none has answered with the token, and it is still active. -/
theorem token_left :
    ∃ s, Reach anyStep (approved (.wait 601) .cleanup) s ∧ s.mem.Active 0 ∧ ¬ s.mem.Keeps 0 ∧ s.mem.inHand = [] ∧
      ∀ i, ∃ answer, s.prog i = .ret answer ∧ ∀ userId, answer ≠ .authorized userId (some 0) := by
  obtain ⟨s, hs, hstatus, hexpired, hinHand, hfirst, hsecond, hthird⟩ :
      ∃ s, Reach anyStep (approved (.wait 601) .cleanup) s ∧ s.mem.statusOf 0 = some .active ∧
        s.mem.session.map (·.status) = some .expired ∧ s.mem.inHand = [] ∧ (s.prog none).result = some .success ∧
        (s.prog (some false)).result = some .success ∧ (s.prog (some true)).result = some .success :=
    exists_of_run cleaned (by decide +kernel)
  have hsuccess : ∀ {i}, (s.prog i).result = some .success →
      ∃ answer, s.prog i = .ret answer ∧ ∀ userId, answer ≠ .authorized userId (some 0) := by
    intro i hi
    exact ⟨.success, Prog.eq_ret_of_result hi, nofun⟩
  refine ⟨s, hs, active_of_statusOf hstatus, ?_, hinHand, fun i => ?_⟩
  · rintro ⟨x, hx, hauthorized, -⟩
    rw [hx, Option.map_some, hauthorized] at hexpired
    cases hexpired
  · cases i with
    | none => exact hsuccess hfirst
    | some b =>
      cases b with
      | false => exact hsuccess hsecond
      | true => exact hsuccess hthird

end

end AmuxApi.DeviceAuth
