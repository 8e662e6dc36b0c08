import AmuxApi.Conc.Logic
import AmuxApi.DeviceAuth.Model

/- A token is delivered once, and it is that of the approval.

   The status of the session only goes on: from pending to authorized by one approval, and from there to
   used by one poll; a session that was rejected is never approved. The poll that has won reads the row
   that the approval has written: nothing changes it but the poll itself, and the clean-up at most deletes
   it. So whatever the calls and however they interleave, at most one poll answers with a token, and it is
   that of the only approval, made before the session expired, as long as no approval is written after
   that (`token_delivered_once`). The time that an approval compares with may be outdated by its UPDATE,
   and then an expired session is approved (`approved_after_expiry`).

   The proof. `Session.Fits` says which approvals go with which status. A poll that has taken the session
   knows that the row, if it is still there, is used and carries what was approved (`Grip.Holds`); no
   other poll has taken it (`Delivery.one`). -/
namespace AmuxApi.DeviceAuth
open Conc Function Option

/-- An approval is written before the session expires. -/
def inTime {ι : Type} : Guard ι (Mem ι) := fun _ m m' => m'.approvals.length == m.approvals.length || m.awaits m.now

section
variable {ι : Type}

/-- What a call knows. `issued`: it has issued a token for a user. `claimed`: it has taken the session.
`got`: it has read what it will answer. -/
inductive Grip
  | out
  | issued (token : Nat) (userId : Int)
  | claimed
  | got (userId : Int) (token : Nat)

def Grip.taken : Grip → Bool
  | .claimed => true
  | .got _ _ => true
  | _ => false

def Mem.Owns (m : Mem ι) (userId : Int) (token : Nat) : Prop :=
  ∃ row, m.tables.tokens[token]? = some row ∧ row.userId = userId

def Session.Carries (x : Session) (a : Approval ι) : Prop := x.userId = a.userId ∧ x.accessToken = some a.token

/-- The approvals that go with the status of the session. -/
def Session.Fits (approvals : List (Approval ι)) (x : Session) : Prop :=
  match x.status with
  | .pending => approvals = []
  | .authorized => ∃ a, approvals = [a] ∧ x.Carries a
  | .used => approvals ≠ []
  | .expired => True

def Grip.Holds (m : Mem ι) : Grip → Prop
  | .out => True
  | .issued token userId => m.Owns userId token
  | .claimed => ∃ a, m.approvals = [a] ∧ ∀ x, m.session = some x → x.status = .used ∧ x.Carries a
  | .got userId token =>
    (∃ a, m.approvals = [a] ∧ a.userId = userId ∧ a.token = token) ∧ ∀ x, m.session = some x → x.status = .used

structure Delivery (deadline : Int) (m : Mem ι) (g : ι → Grip) : Prop where
  approved : m.approvals = [] ∨ ∃ a, m.approvals = [a] ∧ a.time < deadline ∧ m.Owns a.userId a.token
  row : ∀ x, m.session = some x → x.expiresAt = deadline ∧ x.Fits m.approvals
  grip : ∀ i, (g i).Holds m
  one : ∀ i j, (g i).taken = true → (g j).taken = true → i = j
  lapsed : m.lapsed = true → m.approvals = [] ∧ ∀ x, m.session = some x → x.status = .pending → deadline ≤ m.now

variable {deadline : Int} {m m' : Mem ι} {g : ι → Grip} {i : ι} {x : Session}

/-! Sessions that nobody has taken. -/

variable {γ : Grip}

theorem Grip.Holds.used (h : γ.Holds m) (hγ : γ.taken = true) (hx : m.session = some x) : x.status = .used := by
  cases γ with
  | out | issued token userId => cases hγ
  | claimed =>
    obtain ⟨a, -, hrow⟩ := h
    exact (hrow x hx).1
  | got userId token => exact h.2 x hx

theorem Delivery.untaken (h : Delivery deadline m g) (hx : m.session = some x) (hstatus : x.status ≠ .used) (j : ι) :
    (g j).taken = false :=
  eq_false_of_ne_true fun htaken => hstatus ((h.grip j).used htaken hx)

theorem Delivery.others_untaken (h : Delivery deadline m g) (hi : (g i).taken = true) :
    ∀ j, j ≠ i → (g j).taken = false := by
  intro j hj
  exact eq_false_of_ne_true fun htaken => hj (h.one j i htaken hi)

/-- What a call knows that has not taken the session stays true. -/
theorem Grip.Holds.keep (h : γ.Holds m) (hγ : γ.taken = false)
    (howns : ∀ userId token, m.Owns userId token → m'.Owns userId token) : γ.Holds m' := by
  cases γ with
  | out => trivial
  | issued token userId => exact howns userId token h
  | claimed | got userId token => cases hγ

/-- A step while nobody has taken the session: what is left to show is about the row and the approvals. -/
theorem Delivery.untaken_step (h : Delivery deadline m g) (huntaken : ∀ j, (g j).taken = false)
    (htables : m'.tables = m.tables)
    (happroved : m'.approvals = [] ∨ ∃ a, m'.approvals = [a] ∧ a.time < deadline ∧ m'.Owns a.userId a.token)
    (hrow : ∀ x, m'.session = some x → x.expiresAt = deadline ∧ x.Fits m'.approvals)
    (hlapsed : m'.lapsed = true →
      m'.approvals = [] ∧ ∀ x, m'.session = some x → x.status = .pending → deadline ≤ m'.now) :
    Delivery deadline m' g := by
  refine ⟨happroved, hrow, fun j => (h.grip j).keep (huntaken j) fun userId token howns => ?_,
    fun j k hj => ?_, hlapsed⟩
  · unfold Mem.Owns
    rw [htables]
    exact howns
  · rw [huntaken j] at hj
    cases hj

theorem eq_of_map {f : Session → Session} {y : Session} (hx : m.session = some x) (hy : m.session.map f = some y) :
    y = f x := by
  rw [hx] at hy
  exact (some.inj hy).symm

theorem pending_of_hasStatus {status : Status} (h : m.hasStatus status = true) :
    ∃ x, m.session = some x ∧ x.status = status := by
  obtain ⟨x, hx, hstatus⟩ := (any_eq_true ..).mp h
  exact ⟨x, hx, of_decide_eq_true hstatus⟩

section
variable (h : Delivery deadline m g)
include h

/-- A pending session has no approval yet. -/
theorem Delivery.none_approved (hx : m.session = some x) (hpending : x.status = .pending) :
    m.approvals = [] := by
  have hfits := (h.row x hx).2
  unfold Session.Fits at hfits
  rw [hpending] at hfits
  exact hfits

/-! Statements. -/

theorem Delivery.reject :
    Delivery deadline (if m.hasStatus .pending then (m.mapSession Session.expire).lapse else m) g := by
  split_ifs with hstatus
  · obtain ⟨x, hx, hpending⟩ := pending_of_hasStatus hstatus
    have hnone := h.none_approved hx hpending
    refine h.untaken_step (h.untaken hx (by rw [hpending]; nofun)) rfl (.inl hnone) (fun y hy => ?_)
      fun _ => ⟨hnone, fun y hy hpending' => ?_⟩
    · rw [eq_of_map hx hy]
      exact ⟨(h.row x hx).1, trivial⟩
    · rw [eq_of_map hx hy] at hpending'
      cases hpending'
  · exact h

theorem Delivery.deletePending (now : Int) :
    Delivery deadline (if m.session.any fun x => x.expiresAt < now && x.status = .pending then
      { m with session := none }.lapse else m) g := by
  split_ifs with hany
  · obtain ⟨x, hx, hcond⟩ := (any_eq_true ..).mp hany
    rw [Bool.and_eq_true, decide_eq_true_eq, decide_eq_true_eq] at hcond
    have hnone := h.none_approved hx hcond.2
    refine h.untaken_step (h.untaken hx (by rw [hcond.2]; nofun)) rfl (.inl hnone) (fun y hy => ?_)
      fun _ => ⟨hnone, fun y hy => ?_⟩
    · cases hy
    · cases hy
  · exact h

theorem Delivery.expireAuthorized (now : Int) :
    Delivery deadline (if m.session.any fun x => x.createdAt < now - 600 && x.status = .authorized then
      { m.mapSession fun x => { x.expire with accessToken := none } with slips := m.slips + 1 } else m) g := by
  split_ifs with hany
  · obtain ⟨x, hx, hcond⟩ := (any_eq_true ..).mp hany
    rw [Bool.and_eq_true, decide_eq_true_eq, decide_eq_true_eq] at hcond
    refine h.untaken_step (h.untaken hx (by rw [hcond.2]; nofun)) rfl h.approved (fun y hy => ?_)
      fun hlapsed => ⟨(h.lapsed hlapsed).1, fun y hy hpending => ?_⟩
    · rw [eq_of_map hx hy]
      exact ⟨(h.row x hx).1, trivial⟩
    · rw [eq_of_map hx hy] at hpending
      cases hpending
  · exact h

theorem Delivery.deleteOld (now : Int) :
    Delivery deadline
      (if m.session.any fun x => x.createdAt < now - 3600 && (x.status = .used || x.status = .expired) then
      { m with session := none, slips := if m.claims = [] then m.slips else m.slips + 1 } else m) g := by
  split
  · have hgone : ∀ {P : Session → Prop} x, (none : Option Session) = some x → P x := by
      exact nofun
    refine ⟨h.approved, hgone, fun j => ?_, h.one, fun hlapsed => ⟨(h.lapsed hlapsed).1, hgone⟩⟩
    have hgrip := h.grip j
    cases hγ : g j with
    | out => trivial
    | issued token userId =>
      rw [hγ] at hgrip
      exact hgrip
    | claimed =>
      rw [hγ] at hgrip
      obtain ⟨a, ha, -⟩ := hgrip
      exact ⟨a, ha, hgone⟩
    | got userId token =>
      rw [hγ] at hgrip
      exact ⟨hgrip.1, hgone⟩
  · exact h

theorem Delivery.wait (seconds : Nat) : Delivery deadline (m.wait seconds) g := by
  have hlater : m.now ≤ m.now + seconds := Int.le_add_of_nonneg_right (Int.natCast_nonneg seconds)
  unfold Mem.wait
  dsimp only
  split_ifs with hover
  · obtain ⟨x, hx, hpending⟩ := pending_of_hasStatus hover.1
    refine ⟨h.approved, h.row, h.grip, h.one, fun _ => ⟨h.none_approved hx hpending, fun y hy _ => ?_⟩⟩
    replace hy : m.session = some y := hy
    have hawaits := hover.2
    unfold Mem.awaits at hawaits
    rw [hy, any_some] at hawaits
    rw [hx] at hy
    cases hy
    unfold Session.awaits at hawaits
    rw [hpending, (h.row x hx).1, decide_eq_true rfl, Bool.true_and, decide_eq_false_iff_not] at hawaits
    exact Int.not_lt.mp hawaits
  · exact ⟨h.approved, h.row, h.grip, h.one, fun hlapsed =>
      ⟨(h.lapsed hlapsed).1, fun y hy hpending => Int.le_trans ((h.lapsed hlapsed).2 y hy hpending) hlater⟩⟩

theorem Delivery.tables (hsession : m'.session = m.session)
    (happrovals : m'.approvals = m.approvals) (hlapsed : m'.lapsed = m.lapsed) (hnow : m'.now = m.now)
    (howns : ∀ userId token, m.Owns userId token → m'.Owns userId token) : Delivery deadline m' g := by
  refine ⟨?_, ?_, fun j => ?_, h.one, ?_⟩
  · rw [happrovals]
    rcases h.approved with hnone | ⟨a, ha, htime, hown⟩
    · exact .inl hnone
    · exact .inr ⟨a, ha, htime, howns _ _ hown⟩
  · rw [hsession, happrovals]
    exact h.row
  · have hgrip := h.grip j
    unfold Grip.Holds at hgrip ⊢
    rw [hsession, happrovals]
    cases hγ : g j with
    | issued token userId =>
      rw [hγ] at hgrip
      exact howns userId token hgrip
    | out => trivial
    | claimed | got userId token =>
      rw [hγ] at hgrip
      exact hgrip
  · rw [hsession, happrovals, hlapsed, hnow]
    exact h.lapsed

end

variable {token : Nat}

theorem owns_create (hash : String → String) (now userId : Int) (name sourceMeta body : String) {owner : Int}
    {tables : Identity.Tables} (h : ∃ row, tables.tokens[token]? = some row ∧ row.userId = owner) :
    ∃ row, (Identity.createDeviceToken hash now userId name sourceMeta body tables).tokens[token]? = some row ∧
      row.userId = owner := by
  obtain ⟨row, hrow, howner⟩ := h
  refine ⟨row, ?_, howner⟩
  obtain ⟨hlt, -⟩ := List.getElem?_eq_some_iff.mp hrow
  exact (List.getElem?_append_left hlt).trans hrow

theorem owns_revoke (now : Int) (id : Nat) (reason : String) {owner : Int} {tables : Identity.Tables}
    (h : ∃ row, tables.tokens[token]? = some row ∧ row.userId = owner) :
    ∃ row, (Identity.revokeUserAccessToken now id reason tables).tokens[token]? = some row ∧ row.userId = owner := by
  obtain ⟨row, hrow, howner⟩ := h
  unfold Identity.revokeUserAccessToken
  rw [List.getElem?_modify, hrow]
  refine ⟨_, rfl, ?_⟩
  split
  · dsimp only
    split <;> exact howner
  · exact howner

variable [DecidableEq ι] {userId : Int}

section
variable (h : Delivery deadline m g)
include h

theorem Delivery.regrip (hγ : γ.Holds m)
    (htaken : γ.taken = true → ∀ j, j ≠ i → (g j).taken = false) : Delivery deadline m (update g i γ) := by
  refine ⟨h.approved, h.row, (forall_update_iff g fun _ γ => γ.Holds m).mpr ⟨hγ, fun j _ => h.grip j⟩,
    fun j k hj hk => ?_, h.lapsed⟩
  by_cases hji : j = i
  · by_cases hki : k = i
    · exact hji.trans hki.symm
    · rw [hji, update_self] at hj
      rw [update_of_ne hki, htaken hj k hki] at hk
      cases hk
  · rw [update_of_ne hji] at hj
    by_cases hki : k = i
    · rw [hki, update_self] at hk
      rw [htaken hk j hji] at hj
      cases hj
    · rw [update_of_ne hki] at hk
      exact h.one j k hj hk

/-- An approval that is written was made before the session expired, and is the only one. -/
theorem Delivery.authorize (howns : m.Owns userId token)
    (hawaits : m.awaits m.now = true) : Delivery deadline (m.authorize i userId token) g := by
  obtain ⟨x, hx, hcond⟩ := (any_eq_true ..).mp hawaits
  unfold Session.awaits at hcond
  rw [Bool.and_eq_true, decide_eq_true_eq, decide_eq_true_eq] at hcond
  obtain ⟨hpending, htime⟩ := hcond
  rw [(h.row x hx).1] at htime
  have happrovals : (m.authorize i userId token).approvals = [⟨i, userId, token, m.now⟩] := by
    show _ :: m.approvals = _
    rw [h.none_approved hx hpending]
  refine h.untaken_step (h.untaken hx (by rw [hpending]; nofun)) rfl
    (.inr ⟨_, happrovals, htime, howns⟩) (fun y hy => ?_) fun hlapsed => ?_
  · rw [eq_of_map hx hy, happrovals]
    exact ⟨(h.row x hx).1, ⟨_, rfl, rfl, rfl⟩⟩
  · have hover : deadline ≤ m.now := (h.lapsed hlapsed).2 x hx hpending
    exact absurd htime (Int.not_lt.mpr hover)

/-- A poll takes an authorized session. -/
theorem Delivery.claim (hstatus : m.hasStatus .authorized = true)
    {inHand : List (ι × Nat)} {claims : List ι} :
    Delivery deadline { m.mapSession ({ · with status := .used }) with inHand, claims } (update g i .claimed) := by
  obtain ⟨x, hx, hauthorized⟩ := pending_of_hasStatus hstatus
  have hfits := (h.row x hx).2
  unfold Session.Fits at hfits
  rw [hauthorized] at hfits
  obtain ⟨a, ha, hcarries⟩ := hfits
  have huntaken := h.untaken hx (by rw [hauthorized]; nofun)
  refine Delivery.regrip (h.untaken_step huntaken rfl h.approved (fun y hy => ?_) fun hlapsed => ?_) ?_
    fun _ j _ => huntaken j
  · rw [eq_of_map hx hy]
    refine ⟨(h.row x hx).1, ?_⟩
    show m.approvals ≠ []
    rw [ha]
    exact List.cons_ne_nil _ _
  · have hnone := (h.lapsed hlapsed).1
    rw [ha] at hnone
    cases hnone
  · refine ⟨a, ha, fun y hy => ?_⟩
    rw [eq_of_map hx hy]
    exact ⟨rfl, hcarries⟩

theorem Delivery.clear (hi : g i = .got userId token)
    (hsession : m'.session = m.session ∨ m'.session = m.session.map ({ · with accessToken := none }))
    (happrovals : m'.approvals = m.approvals) (hlapsed : m'.lapsed = m.lapsed) (htables : m'.tables = m.tables) :
    Delivery deadline m' g := by
  have hgrip := h.grip i
  rw [hi] at hgrip
  obtain ⟨⟨a, ha, hsame⟩, hused⟩ := hgrip
  have hothers := h.others_untaken (by rw [hi]; rfl)
  have hrow : ∀ y, m'.session = some y → y.status = .used ∧ y.expiresAt = deadline := by
    intro y hy
    rcases hsession with hold | hcleared
    · rw [hold] at hy
      exact ⟨hused y hy, (h.row y hy).1⟩
    · rw [hcleared] at hy
      obtain ⟨x, hx, rfl⟩ := map_eq_some_iff.mp hy
      exact ⟨hused x hx, (h.row x hx).1⟩
  have howns : ∀ owner id, m.Owns owner id → m'.Owns owner id := by
    intro owner id hown
    unfold Mem.Owns
    rw [htables]
    exact hown
  refine ⟨?_, fun y hy => ⟨(hrow y hy).2, ?_⟩, fun j => ?_, h.one, fun hl => ?_⟩
  · rw [happrovals]
    rcases h.approved with hnone | ⟨b, hb, htime, hown⟩
    · exact .inl hnone
    · exact .inr ⟨b, hb, htime, howns _ _ hown⟩
  · unfold Session.Fits
    rw [(hrow y hy).1, happrovals, ha]
    exact List.cons_ne_nil _ _
  · by_cases hj : j = i
    · subst hj
      rw [hi]
      refine ⟨⟨a, ?_, hsame⟩, fun y hy => (hrow y hy).1⟩
      rw [happrovals]
      exact ha
    · exact (h.grip j).keep (hothers j hj) howns
  · rw [hlapsed] at hl
    have hnone := (h.lapsed hl).1
    rw [ha] at hnone
    cases hnone

end

/-! Programs. -/

theorem delivery_clock : wp (Delivery deadline) inTime i (clock : Prog (Mem ι) Int) (fun _ γ' => γ' = γ) γ :=
  wp_get fun _ _ _ _ => rfl

/-- An answer with a token is what the call has got. -/
def Answered (answer : Answer) (γ : Grip) : Prop :=
  ∀ userId accessToken, answer = .authorized userId accessToken →
    ∃ token, accessToken = some token ∧ γ = .got userId token

theorem delivery_cleanup :
    wp (Delivery deadline) inTime i (cleanupExpiredDesktopSessions : Prog (Mem ι) Answer) Answered γ := by
  refine wp_seq delivery_clock fun now _ _ => ?_
  refine wp_seq (wp_statement_keep fun _ _ h _ => h.deletePending now) fun ok _ _ => ?_
  split
  · refine wp_seq (wp_statement_keep fun _ _ h _ => h.expireAuthorized now) fun ok _ _ => ?_
    split
    · refine wp_seq (wp_statement_keep fun _ _ h _ => h.deleteOld now) fun ok _ _ => ?_
      cases ok with
      | true => exact wp_pure nofun
      | false => exact wp_pure nofun
    · exact wp_pure nofun
  · exact wp_pure nofun

theorem delivery_create (hash : String → String) (r : Request) :
    wp (Delivery deadline) inTime i (createUserAccessToken i hash r)
      (fun token γ => ∀ id, token = some id → γ = .issued id r.userId) .out := by
  intro m g ok hinv hi _ _
  cases ok with
  | false => exact ⟨.out, inv_update_self hinv hi, nofun⟩
  | true =>
    refine ⟨.issued m.tables.tokens.length r.userId, ?_, fun id hid => by cases hid; rfl⟩
    refine Delivery.regrip (hinv.tables rfl rfl rfl rfl fun _ _ => owns_create hash m.now _ _ _ _) ?_ nofun
    exact ⟨_, List.getElem?_concat_length, rfl⟩

theorem delivery_authorize :
    wp (Delivery deadline) inTime i (authorizeDesktopSession i userId token) (fun _ γ => γ = .issued token userId)
      (.issued token userId) := by
  refine wp_known delivery_clock fun now => ?_
  refine wp_when (fun m g hinv hi _ hguard => ⟨.issued token userId, inv_update_self ?_ hi, rfl⟩) rfl
  have howns := hinv.grip i
  rw [hi] at howns
  -- there is one more approval, so it is in time
  have hone : ((m.authorize i userId token).approvals.length == m.approvals.length) = false :=
    beq_eq_false_iff_ne.mpr (Nat.succ_ne_self _)
  rw [inTime, hone, Bool.false_or] at hguard
  exact hinv.authorize howns hguard

theorem delivery_revoke : wp (Delivery deadline) inTime i (revokeUserAccessToken i token) (fun _ γ' => γ' = γ) γ := by
  intro m g ok hinv hi _ _
  refine ⟨γ, inv_update_self ?_ hi, rfl⟩
  cases ok with
  | true => exact hinv.tables rfl rfl rfl rfl fun _ _ => owns_revoke m.now token _
  | false => exact hinv.tables rfl rfl rfl rfl fun _ _ howns => howns

theorem delivery_confirm (hash : String → String) (action : Action) :
    wp (Delivery deadline) inTime i (oauthDeviceConfirm i hash action) Answered .out := by
  cases action with
  | reject =>
    exact wp_seq (wp_statement_keep fun _ _ h _ => h.reject) fun _ _ _ => wp_pure nofun
  | approve r =>
    refine wp_seq (delivery_create hash r) fun token γ hγ => ?_
    cases token with
    | none => exact wp_pure nofun
    | some id =>
      obtain rfl := hγ id rfl
      refine wp_seq delivery_authorize fun ok γ _ => ?_
      cases ok with
      | true => exact wp_pure nofun
      | false => exact wp_seq delivery_revoke fun _ _ _ => wp_pure nofun

theorem delivery_claim :
    wp (Delivery deadline) inTime i (claimSession i) (fun won γ => won = true → γ = .claimed) .out :=
  wp_when (fun _ _ hinv _ hstatus _ => ⟨.claimed, hinv.claim hstatus, fun _ => rfl⟩) nofun

theorem delivery_read :
    wp (Delivery deadline) inTime i (readSession i)
      (fun found γ => ∀ x, found = some x → ∃ token, x.accessToken = some token ∧
        γ = .got x.userId token) .claimed := by
  intro m g ok hinv hi _ _
  by_cases hfound : ok = true ∧ m.usedSession.isSome = true
  · obtain ⟨x, hx⟩ := isSome_iff_exists.mp hfound.2
    have hsession : m.session = some x := (filter_eq_some_iff.mp hx).1
    have hgrip := hinv.grip i
    rw [hi] at hgrip
    obtain ⟨a, ha, hrow⟩ := hgrip
    obtain ⟨hused, huser, htoken⟩ := hrow x hsession
    refine ⟨.got x.userId a.token, ?_, fun y hy => ?_⟩
    · dsimp only
      rw [if_pos hfound]
      refine hinv.regrip ⟨⟨a, ha, huser.symm, rfl⟩, fun y hy => (hrow y hy).1⟩ fun _ => ?_
      exact hinv.others_untaken (by rw [hi]; rfl)
    · rw [if_pos hfound.1, hx] at hy
      cases hy
      exact ⟨a.token, htoken, rfl⟩
  · refine ⟨.claimed, inv_update_self ?_ hi, fun x hx => ?_⟩
    · dsimp only
      rw [if_neg hfound]
      exact hinv.tables rfl rfl rfl rfl fun _ _ howns => howns
    · cases ok with
      | false => cases hx
      | true =>
        refine absurd ⟨rfl, ?_⟩ hfound
        replace hx : m.usedSession = some x := hx
        rw [hx]
        rfl

theorem delivery_deliver {x : Session} (htoken : x.accessToken = some token) :
    wp (Delivery deadline) inTime i (clearToken i x) Answered (.got x.userId token) := by
  intro m g ok hinv hi _ _
  refine ⟨.got x.userId token, inv_update_self ?_ hi, fun userId accessToken h => ?_⟩
  · cases ok with
    | true => exact hinv.clear hi (.inr rfl) rfl rfl rfl
    | false => exact hinv.clear hi (.inl rfl) rfl rfl rfl
  · cases h
    exact ⟨token, htoken, rfl⟩

theorem delivery_consume : wp (Delivery deadline) inTime i (consumeDesktopSession i) Answered .out := by
  refine wp_seq delivery_claim fun won γ hγ => ?_
  cases won with
  | false => exact wp_pure nofun
  | true =>
    obtain rfl := hγ rfl
    refine wp_seq delivery_read fun found γ hγ => ?_
    cases found with
    | none => exact wp_pure nofun
    | some x =>
      obtain ⟨token, htoken, rfl⟩ := hγ x rfl
      exact delivery_deliver htoken

theorem delivery_checkStatus (x : Session) : wp (Delivery deadline) inTime i (checkStatus i x) Answered .out := by
  rw [checkStatus]
  cases x.status with
  | pending =>
    refine wp_seq delivery_clock fun now _ _ => ?_
    split
    · exact wp_pure nofun
    · exact wp_pure nofun
  | authorized => exact delivery_consume
  | used | expired => exact wp_pure nofun

theorem delivery_check : wp (Delivery deadline) inTime i (oauthDeviceCheck i) Answered .out := by
  refine wp_bind (wp_query (fun m _ _ _ => ?_) ?_)
  · cases m.session with
    | none => exact wp_pure nofun
    | some x => exact delivery_checkStatus x
  · exact wp_pure nofun

theorem delivery_call (hash : String → String) (call : Call) (hcall : call ≠ .authorize) :
    wp (Delivery deadline) inTime i (call.prog hash i) Answered .out := by
  cases call with
  | authorize => exact absurd rfl hcall
  | confirm action => exact delivery_confirm hash action
  | check => exact delivery_check
  | cleanup => exact delivery_cleanup
  | wait seconds =>
    exact wp_atomically fun m g hinv hi _ => ⟨.out, inv_update_self (hinv.wait seconds) hi, nofun⟩

omit [DecidableEq ι] in
theorem delivery_start (createdAt expiresAt : Int) (tables : Identity.Tables) (now : Int) :
    Delivery expiresAt (Mem.start (some (createdAt, expiresAt)) tables now) fun _ : ι => .out := by
  have hsession : ∀ x, (Mem.start (some (createdAt, expiresAt)) tables now : Mem ι).session = some x →
      x = { createdAt, expiresAt } := by
    intro x hx
    cases hx
    rfl
  refine ⟨.inl rfl, fun x hx => ?_, fun _ => trivial, fun _ _ h => absurd h Bool.false_ne_true,
    fun hlapsed => ⟨rfl, fun _ _ _ => ?_⟩⟩
  · rw [hsession x hx]
    exact ⟨rfl, rfl⟩
  · exact of_decide_eq_true hlapsed

/-- **A token is delivered once.** Whatever the approvals, rejections, polls and clean-ups of a session,
and however they interleave, as long as no approval is written after the session has expired: at most
one poll answers with a token; it is the token, of the user, of the only approval that was written, at a
time before the session expired; and none does if the session was rejected or has expired before an
approval. -/
theorem token_delivered_once (hash : String → String) (createdAt expiresAt : Int) (tables : Identity.Tables) (now : Int)
    (calls : ι → Call) (hcalls : ∀ i, calls i ≠ .authorize) (s : Sys ι (Mem ι) Answer)
    (hs : Reach inTime
      ⟨Mem.start (some (createdAt, expiresAt)) tables now, fun i => (calls i).prog hash i⟩ s) :
    (∀ i j u t u' t', s.prog i = .ret (.authorized u t) → s.prog j = .ret (.authorized u' t') → i = j) ∧
      (∀ i u t, s.prog i = .ret (.authorized u t) →
        ∃ a, s.mem.approvals = [a] ∧ a.userId = u ∧ t = some a.token ∧ a.time < expiresAt ∧ s.mem.Owns u a.token) ∧
      (s.mem.lapsed = true → ∀ i u t, s.prog i ≠ .ret (.authorized u t)) := by
  obtain ⟨g, hgood⟩ :=
    reach_sound (delivery_start createdAt expiresAt tables now) (fun i => delivery_call hash (calls i) (hcalls i)) hs
  -- what a poll has answered with is what was approved
  have hanswer : ∀ {i u t}, s.prog i = .ret (.authorized u t) →
      ∃ a, g i = .got u a.token ∧ t = some a.token ∧ s.mem.approvals = [a] ∧ a.userId = u := by
    intro i u t hi
    obtain ⟨token, htoken, hgot⟩ := hgood.returned hi u t rfl
    have hgrip := hgood.inv.grip i
    rw [hgot] at hgrip
    obtain ⟨⟨a, ha, huser, rfl⟩, -⟩ := hgrip
    exact ⟨a, hgot, htoken, ha, huser⟩
  refine ⟨fun i j u t u' t' hi hj => ?_, fun i u t hi => ?_, fun hlapsed i u t hi => ?_⟩
  · obtain ⟨a, hgi, -⟩ := hanswer hi
    obtain ⟨b, hgj, -⟩ := hanswer hj
    exact hgood.inv.one i j (by rw [hgi]; rfl) (by rw [hgj]; rfl)
  · obtain ⟨a, -, htoken, ha, huser⟩ := hanswer hi
    rcases hgood.inv.approved with hnone | ⟨b, hb, htime, howns⟩
    · rw [ha] at hnone
      cases hnone
    · rw [ha] at hb
      cases hb
      exact ⟨a, ha, huser, htoken, htime, huser ▸ howns⟩
  · obtain ⟨a, -, -, ha, -⟩ := hanswer hi
    have hnone := (hgood.inv.lapsed hlapsed).1
    rw [ha] at hnone
    cases hnone

end

/-! A grant. -/

section

def approvedAndPolled (wait : Nat) : Nat → Call
  | 0 => .confirm (.approve exampleRequest)
  | 1 => .wait wait
  | _ => .check

/-- A session that expires at 1300. -/
def desktop (now : Int) (wait : Nat) : Sys Nat (Mem Nat) Answer :=
  ⟨Mem.start (some (1000, 1300)) ⟨[], []⟩ now, fun i => (approvedAndPolled wait i).prog id i⟩

/-- The approval is made, both polls see the session as authorized, and go on in turn. -/
def pollsInTurn : List (Nat × Bool) :=
  [(0, true), (0, true), (0, true), (2, true), (3, true), (2, true), (3, true), (2, true), (2, true)]

/-- One of them has the token, and the other finds the session expired. -/
theorem one_poll_wins :
    ((after inTime (desktop 1000 5) pollsInTurn).prog 2).result = some (.authorized 7 (some 0)) ∧
      ((after inTime (desktop 1000 5) pollsInTurn).prog 3).result = some .expired ∧
      ∀ j u t, (after inTime (desktop 1000 5) pollsInTurn).prog j = .ret (.authorized u t) → 2 = j := by
  have hfirst : ((after inTime (desktop 1000 5) pollsInTurn).prog 2).result = some (.authorized 7 (some 0)) := by
    decide +kernel
  have hrun : (run inTime (desktop 1000 5) pollsInTurn).isSome = true := by decide +kernel
  have hcalls : ∀ i, approvedAndPolled 5 i ≠ .authorize := by
    intro i
    match i with
    | 0 | 1 | n + 2 => exact nofun
  refine ⟨hfirst, by decide +kernel, fun j u t hj => ?_⟩
  exact (token_delivered_once id 1000 1300 ⟨[], []⟩ 1000 (approvedAndPolled 5) hcalls _
    (reach_run .start (run_after hrun))).1 2 j _ _ u t (Prog.eq_ret_of_result hfirst) hj

/-- The approval reads the time at 1299, and its UPDATE runs at 1304; then the session is polled. -/
def lateUpdate : List (Nat × Bool) := [(0, true), (0, true), (1, true), (0, true)] ++ List.replicate 4 (2, true)

/-- The session had expired before it was approved, and its token is delivered. -/
theorem approved_after_expiry :
    ∃ s, Reach anyStep (desktop 1299 5) s ∧ s.mem.lapsed = true ∧ s.mem.approvals.map (·.time) = [1304] ∧
      ∃ i, s.prog i = .ret (.authorized 7 (some 0)) := by
  obtain ⟨s, hs, hlapsed, htime, hanswer⟩ :
      ∃ s, Reach anyStep (desktop 1299 5) s ∧ s.mem.lapsed = true ∧ s.mem.approvals.map (·.time) = [1304] ∧
        (s.prog 2).result = some (.authorized 7 (some 0)) :=
    exists_of_run lateUpdate (by decide +kernel)
  exact ⟨s, hs, hlapsed, htime, 2, Prog.eq_ret_of_result hanswer⟩

end

end AmuxApi.DeviceAuth
