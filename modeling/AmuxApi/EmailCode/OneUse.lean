import AmuxApi.Conc.Logic
import AmuxApi.EmailCode.Model

/- Each code is good for one thing, and each email for one user.

   Neither a registration nor a binding takes the code out of the map. What keeps a code from being used
   again is that its email is then taken, and that the next request looks at this; and what keeps two
   requests with one code apart is that one is over before the other begins. Both are conditions here
   (`inTurn`): a request passes the check of its code only while no other request that has passed it, for
   this purpose and email, still runs; a binding passes it only if no user has the email; and a user gives
   up an email by a binding only when there is no valid code for the email and no request that has shown
   one. In a run that meets them no two users have one email, and no code authorises two things
   (`code_authorises_once`).

   Without them two users bind the email of one code, one after the other, and two requests with one
   token both set a new password (`code_used_twice`). -/
namespace AmuxApi.EmailCode
open Conc Function Codes List

/-- Nothing that the conditions exclude happens in this step. -/
def inTurn {ι : Type} : Guard ι (Mem ι) := fun _ m m' => m'.slips == m.slips

def Distinct (users : List User) : Prop :=
  users.Pairwise fun x y => x.deleted = false → y.deleted = false → x.email = y.email → x.email = ""

instance (users : List User) : Decidable (Distinct users) := inferInstanceAs (Decidable (List.Pairwise _ users))

/-! The map. -/

namespace Codes

variable {codes : Codes} {key : Key} {code : Nat} {now : Int} {v : VerificationValue} {p : Key × VerificationValue}

theorem mem_of_find (h : codes.find key = some v) : (key, v) ∈ codes := by
  obtain ⟨p, hp, rfl⟩ := Option.map_eq_some_iff.mp h
  have hkey := List.find?_some hp
  rw [decide_eq_true_eq] at hkey
  rw [← hkey]
  exact mem_of_find?_eq_some hp

theorem mem_deleteKey : p ∈ codes.deleteKey key ↔ p ∈ codes ∧ p.1 ≠ key := by
  unfold deleteKey
  rw [mem_filter, decide_eq_true_eq]

theorem mem_of_mem_registerCode (h : p ∈ codes.registerCode key code now) : p = (key, ⟨code, now⟩) ∨ p ∈ codes := by
  have hstored : p ∈ (key, ⟨code, now⟩) :: codes.deleteKey key := by
    unfold registerCode at h
    dsimp only at h
    split at h
    · exact (mem_filter.mp h).1
    · exact h
  exact (mem_cons.mp hstored).imp_right fun hp => (mem_deleteKey.mp hp).1

/-- A code that passes is in the map, and has not expired. -/
theorem exists_of_verifyCode (h : codes.verifyCode key code now = true) :
    ∃ v, (key, v) ∈ codes ∧ v.expired now = false ∧ v.code = code := by
  obtain ⟨v, hv, hcond⟩ := (Option.any_eq_true ..).mp h
  rw [Bool.and_eq_true, Bool.not_eq_true', decide_eq_true_eq] at hcond
  exact ⟨v, mem_of_find hv, hcond⟩

theorem anyValid_of_mem (h : (key, v) ∈ codes) (hvalid : v.expired now = false) : codes.anyValid key now = true := by
  refine any_eq_true.mpr ⟨(key, v), h, ?_⟩
  rw [hvalid, decide_eq_true rfl]
  rfl

end Codes

/-! The users. -/

theorem orOld_of_ne {new old : String} (h : new ≠ "") : orOld new old = new := if_neg h

section
variable {users : List User} {userId : Nat} {u : User} {snapshot : Option User} {email : String}

theorem Distinct.append (h : Distinct users) (hnew : ∀ x ∈ users, x.email ≠ u.email) : Distinct (users ++ [u]) := by
  refine pairwise_append.mpr ⟨h, pairwise_singleton _ u, fun x hx y hy _ _ hemail => ?_⟩
  rw [mem_singleton.mp hy] at hemail
  exact absurd hemail (hnew x hx)

theorem Distinct.modify (h : Distinct users) (hne : email ≠ "") (hnew : ∀ x ∈ users, x.email ≠ email) :
    Distinct (users.modify userId (User.write snapshot email)) := by
  refine pairwise_iff_getElem.mpr fun k l hk hl hlt => ?_
  rw [length_modify] at hk hl
  rw [getElem_modify, getElem_modify]
  have hwritten : ∀ x : User, (x.write snapshot email).email = email := fun _ => orOld_of_ne hne
  by_cases hkId : userId = k
  · -- the row that was written is the first of the two
    rw [if_pos hkId, if_neg (by omega)]
    intro _ _ hemail
    rw [hwritten] at hemail
    exact absurd hemail.symm (hnew _ (getElem_mem hl))
  · by_cases hlId : userId = l
    · rw [if_neg hkId, if_pos hlId]
      intro _ _ hemail
      rw [hwritten] at hemail
      exact absurd hemail (hnew _ (getElem_mem hk))
    · rw [if_neg hkId, if_neg hlId]
      exact pairwise_iff_getElem.mp h k l hk hl hlt

theorem Distinct.map (h : Distinct users) {f : User → User} (hemail : ∀ x, (f x).email = x.email)
    (hdeleted : ∀ x, (f x).deleted = x.deleted) : Distinct (users.map f) := by
  refine pairwise_map.mpr (h.imp fun hxy => ?_)
  rw [hemail, hemail, hdeleted, hdeleted]
  exact hxy

end

variable {code : Nat} {password : String}

section
variable {ι : Type} {m m' : Mem ι} {email : String} {users : List User} {code slips : Nat}

theorem not_taken_iff : m.taken email = false ↔ ∀ u ∈ m.users, u.email ≠ email := by
  unfold Mem.taken
  rw [any_eq_false]
  simp only [decide_eq_true_eq]

theorem isBusy_iff {key : Key} : m.isBusy key = true ↔ ∃ i, (i, key) ∈ m.busy := by
  unfold Mem.isBusy
  rw [any_eq_true]
  constructor
  · rintro ⟨⟨i, k⟩, hmem, hk⟩
    exact ⟨i, of_decide_eq_true hk ▸ hmem⟩
  · rintro ⟨i, hmem⟩
    exact ⟨(i, key), hmem, decide_eq_true rfl⟩

/-! What the state keeps. -/

/-- The code that is in the map for the key has authorised nothing. -/
def Mem.Unspent (m : Mem ι) (key : Key) : Prop := ∀ v, (key, v) ∈ m.codes → v.code ∉ m.authorised

/-- `bound`: a code for an email that was used, and would still pass, is for an email that is taken.
`reset`: a code for a new password that was used is in the map only while a request for it runs. -/
structure Sound (m : Mem ι) : Prop where
  distinct : Distinct m.users
  once : m.authorised.Nodup
  sent : ∀ c ∈ m.authorised, c < m.sentFor.length
  named : ∀ key ∈ m.sentFor, key.email ≠ ""
  stored : ∀ key v, (key, v) ∈ m.codes → m.sentFor[v.code]? = some key
  bound : ∀ email v, (⟨.emailVerification, email⟩, v) ∈ m.codes → v.expired m.now = false → v.code ∈ m.authorised →
    m.taken email = true
  reset : ∀ email, m.isBusy ⟨.passwordReset, email⟩ = false → m.Unspent ⟨.passwordReset, email⟩

theorem sound_start {now : Int} (h : Distinct users) : Sound (Mem.start users now : Mem ι) where
  distinct := h
  once := nodup_nil
  sent := fun _ hc => absurd hc not_mem_nil
  named := fun _ hkey => absurd hkey not_mem_nil
  stored := fun _ _ hv => absurd hv not_mem_nil
  bound := fun _ _ hv => absurd hv not_mem_nil
  reset := fun _ _ _ hv => absurd hv not_mem_nil

variable {c : Nat}

section
variable (h : Sound m)
include h

theorem Sound.fresh : m.sentFor.length ∉ m.authorised :=
  fun hmem => absurd (h.sent _ hmem) (Nat.lt_irrefl _)

theorem Sound.send {key : Key} (hkey : key.email ≠ "") :
    Sound { m with codes := m.codes.registerCode key m.sentFor.length m.now, sentFor := m.sentFor ++ [key] } where
  __ := h
  sent := fun c hc => by
    rw [length_append]
    exact Nat.lt_add_right _ (h.sent c hc)
  named := fun k hk => by
    rcases mem_append.mp hk with hk | hk
    · exact h.named k hk
    · exact mem_singleton.mp hk ▸ hkey
  stored := fun k v hv => by
    rcases mem_of_mem_registerCode hv with hnew | hold
    · cases hnew
      exact List.getElem?_concat_length
    · have hget := h.stored k v hold
      rw [List.getElem?_append_left (List.getElem?_eq_some_iff.mp hget).1]
      exact hget
  bound := fun e v hv hvalid hused => by
    rcases mem_of_mem_registerCode hv with hnew | hold
    · cases hnew
      exact absurd hused h.fresh
    · exact h.bound e v hold hvalid hused
  reset := fun e hbusy v hv => by
    rcases mem_of_mem_registerCode hv with hnew | hold
    · cases hnew
      exact h.fresh
    · exact h.reset e hbusy v hold

theorem Sound.begin (entry : ι × Key) :
    Sound { m with busy := entry :: m.busy, slips } :=
  { h with reset := fun e hbusy => h.reset e (Bool.or_eq_false_iff.mp hbusy).2 }

theorem Sound.finish [DecidableEq ι] {i : ι} {key : Key}
    (hunspent : key.purpose = .passwordReset → m.Unspent key) : Sound { m with busy := m.busy.erase (i, key) } := by
  refine { h with reset := fun e hbusy => ?_ }
  by_cases hkey : key = ⟨.passwordReset, e⟩
  · subst hkey
    exact hunspent rfl
  -- who is busy with another key still is
  refine h.reset e (eq_false_of_ne_true fun hbefore => ?_)
  obtain ⟨j, hj⟩ := isBusy_iff.mp hbefore
  have hstill : (j, (⟨.passwordReset, e⟩ : Key)) ∈ m.busy.erase (i, key) :=
    (mem_erase_of_ne fun heq => hkey (Prod.mk.inj heq).2.symm).mpr hj
  have : ({ m with busy := m.busy.erase (i, key) } : Mem ι).isBusy ⟨.passwordReset, e⟩ = true :=
    isBusy_iff.mpr ⟨j, hstill⟩
  rw [this] at hbusy
  cases hbusy

theorem Sound.deleteKey (key : Key) : Sound { m with codes := m.codes.deleteKey key } where
  __ := h
  stored := fun k v hv => h.stored k v (mem_deleteKey.mp hv).1
  bound := fun e v hv => h.bound e v (mem_deleteKey.mp hv).1
  reset := fun e hbusy v hv => h.reset e hbusy v (mem_deleteKey.mp hv).1

theorem Sound.wait (seconds : Nat) : Sound { m with now := m.now + seconds } := by
  refine { h with bound := fun e v hv hvalid => h.bound e v hv ?_ }
  unfold VerificationValue.expired at hvalid ⊢
  rw [decide_eq_false_iff_not] at hvalid ⊢
  dsimp only at hvalid
  omega

/-- A code is used for the first time, by a request that is busy with what it was sent for. -/
theorem Sound.authorise {key : Key}
    (hc : m.sentFor[c]? = some key) (hnew : c ∉ m.authorised) (hbusy : m.isBusy key = true) (hdistinct : Distinct users)
    (hm' : m' = { m with users, authorised := c :: m.authorised, slips })
    (hown : key.purpose = .emailVerification → m'.taken key.email = true)
    (hkept : ∀ e v, (⟨.emailVerification, e⟩, v) ∈ m.codes → v.expired m.now = false → m.taken e = true →
      m'.taken e = true) : Sound m' := by
  subst hm'
  refine ⟨hdistinct, nodup_cons.mpr ⟨hnew, h.once⟩,
    forall_mem_cons.mpr ⟨(List.getElem?_eq_some_iff.mp hc).1, h.sent⟩, h.named, h.stored,
    fun e v hv hvalid hused => ?_, fun e hidle v hv hused => ?_⟩
  · rcases mem_cons.mp hused with heq | hused
    · have hkey := h.stored _ v hv
      rw [heq, hc] at hkey
      cases hkey
      exact hown rfl
    · exact hkept e v hv hvalid (h.bound e v hv hvalid hused)
  · rcases mem_cons.mp hused with heq | hused
    · have hkey := h.stored _ v hv
      rw [heq, hc] at hkey
      cases hkey
      replace hidle : m.isBusy ⟨.passwordReset, e⟩ = false := hidle
      rw [hbusy] at hidle
      cases hidle
    · exact h.reset e hidle v hv hused

end

/-! What a request knows. -/

/-- `checked`: a registration whose code has passed. `vacant`: its email, or that of a binding, is not
taken. `bound`: the email was written. `resetting`: the token has passed. `reset`: the password was
written. `closed`: the token is out of the map. -/
inductive Phase
  | out
  | checked (email : String) (code : Nat)
  | vacant (email : String) (code : Nat)
  | bound (email : String)
  | resetting (email : String) (code : Nat)
  | reset (email : String)
  | closed (email : String)

def Phase.key : Phase → Option Key
  | .out => none
  | .checked email _ => some ⟨.emailVerification, email⟩
  | .vacant email _ => some ⟨.emailVerification, email⟩
  | .bound email => some ⟨.emailVerification, email⟩
  | .resetting email _ => some ⟨.passwordReset, email⟩
  | .reset email => some ⟨.passwordReset, email⟩
  | .closed email => some ⟨.passwordReset, email⟩

def Phase.Holds (m : Mem ι) : Phase → Prop
  | .checked email code =>
      m.sentFor[code]? = some ⟨.emailVerification, email⟩ ∧ (code ∈ m.authorised → m.taken email = true)
  | .vacant email code =>
      m.sentFor[code]? = some ⟨.emailVerification, email⟩ ∧ code ∉ m.authorised ∧ m.taken email = false
  | .resetting email code =>
      m.sentFor[code]? = some ⟨.passwordReset, email⟩ ∧ code ∉ m.authorised ∧ m.Unspent ⟨.passwordReset, email⟩
  | .closed email => m.Unspent ⟨.passwordReset, email⟩
  | _ => True

/-- What a step of another request does not change for a request that is busy with the key. -/
structure Frame (key : Key) (m m' : Mem ι) : Prop where
  sent : ∀ c : Nat, m.sentFor[c]? = some key → m'.sentFor[c]? = some key
  authorised : ∀ c : Nat, m.sentFor[c]? = some key → c ∈ m'.authorised → c ∈ m.authorised
  taken : key.purpose = .emailVerification → m'.taken key.email = m.taken key.email
  unspent : m.Unspent key → m'.Unspent key

theorem Frame.same {key : Key} (husers : m'.users = m.users) (hcodes : m'.codes = m.codes)
    (hsent : m'.sentFor = m.sentFor) (hauth : m'.authorised = m.authorised) : Frame key m m' where
  sent := fun c hc => hsent ▸ hc
  authorised := fun c _ hc => hauth ▸ hc
  taken := fun _ => by
    unfold Mem.taken
    rw [husers]
  unspent := fun h v hv => by
    rw [hcodes] at hv
    rw [hauth]
    exact h v hv

variable {phase : Phase} {key : Key}

theorem Phase.Holds.frame (h : phase.Holds m) (hframe : ∀ key, phase.key = some key → Frame key m m') :
    phase.Holds m' := by
  cases phase with
  | out => trivial
  | checked email code =>
    have f := hframe _ rfl
    refine ⟨f.sent code h.1, fun hused => ?_⟩
    have htaken : m'.taken email = m.taken email := f.taken rfl
    rw [htaken]
    exact h.2 (f.authorised code h.1 hused)
  | vacant email code =>
    have f := hframe _ rfl
    refine ⟨f.sent code h.1, fun hused => h.2.1 (f.authorised code h.1 hused), ?_⟩
    have htaken : m'.taken email = m.taken email := f.taken rfl
    rw [htaken]
    exact h.2.2
  | bound email => trivial
  | resetting email code =>
    have f := hframe _ rfl
    exact ⟨f.sent code h.1, fun hused => h.2.1 (f.authorised code h.1 hused), f.unspent h.2.2⟩
  | reset email => trivial
  | closed email => exact (hframe _ rfl).unspent h

/-- The request may end in this phase. -/
def Phase.Over (key : Key) (phase : Phase) : Prop := phase.key = some key ∧ ∀ email, phase ≠ .reset email

theorem Phase.Over.unspent (h : phase.Over key) (hholds : phase.Holds m)
    (hkey : key.purpose = .passwordReset) : m.Unspent key := by
  obtain ⟨hphase, hnot⟩ := h
  cases phase with
  | out => cases hphase
  | checked email code | vacant email code | bound email =>
    cases hphase
    cases hkey
  | resetting email code =>
    cases hphase
    exact hholds.2.2
  | reset email => exact absurd rfl (hnot email)
  | closed email =>
    cases hphase
    exact hholds

/-! All requests. -/

structure Held (m : Mem ι) (g : ι → Phase) : Prop where
  busy : ∀ i key, (g i).key = some key → (i, key) ∈ m.busy
  single : ∀ i j key, (g i).key = some key → (g j).key = some key → i = j
  holds : ∀ i, (g i).Holds m

def Inv (m : Mem ι) (g : ι → Phase) : Prop := Sound m ∧ Held m g

variable {g : ι → Phase} {i : ι}

theorem Held.at (h : Held m g) (hi : g i = phase) : phase.Holds m := hi ▸ h.holds i

theorem Held.isBusy (h : Held m g) (hkey : (g i).key = some key) : m.isBusy key = true :=
  isBusy_iff.mpr ⟨i, h.busy i key hkey⟩

theorem Held.step [DecidableEq ι] (h : Held m g) (hbusy : ∀ j key, j ≠ i → (j, key) ∈ m.busy → (j, key) ∈ m'.busy)
    (hown : ∀ key, phase.key = some key → (i, key) ∈ m'.busy)
    (hsingle : ∀ key, phase.key = some key → ∀ j, j ≠ i → (g j).key ≠ some key) (hholds : phase.Holds m')
    (hframe : ∀ j key, j ≠ i → (g j).key = some key → Frame key m m') : Held m' (update g i phase) := by
  refine ⟨?_, fun j k key hj hk => ?_, ?_⟩
  · refine (forall_update_iff g fun j γ => ∀ key, γ.key = some key → (j, key) ∈ m'.busy).mpr ⟨hown, ?_⟩
    exact fun j hij key hj => hbusy j key hij (h.busy j key hj)
  · by_cases hij : j = i <;> by_cases hik : k = i
    · rw [hij, hik]
    · rw [hij, update_self] at hj
      rw [update_of_ne hik] at hk
      exact absurd hk (hsingle key hj k hik)
    · rw [update_of_ne hij] at hj
      rw [hik, update_self] at hk
      exact absurd hj (hsingle key hk j hij)
    · rw [update_of_ne hij] at hj
      rw [update_of_ne hik] at hk
      exact h.single j k key hj hk
  · refine (forall_update_iff g fun _ γ => γ.Holds m').mpr ⟨hholds, fun j hij => ?_⟩
    exact (h.holds j).frame fun key hkey => hframe j key hij hkey

/-- A step of a request that stays busy with its key. -/
theorem Held.advance [DecidableEq ι] (h : Held m g) (hphase : phase.key = (g i).key) (hbusy : m'.busy = m.busy)
    (hholds : phase.Holds m') (hframe : ∀ key, (g i).key ≠ some key → (∃ j, (g j).key = some key) → Frame key m m') :
    Held m' (update g i phase) := by
  refine h.step (fun j key _ hj => hbusy ▸ hj) (fun key hkey => hbusy ▸ h.busy i key (hphase ▸ hkey))
    (fun key hkey j hij hj => hij (h.single j i key hj (hphase ▸ hkey))) hholds
    fun j key hij hj => hframe key (fun hi => hij (h.single j i key hj hi)) ⟨j, hj⟩

theorem Held.same (h : Held m g) (hbusy : m'.busy = m.busy) (hframe : ∀ key, Frame key m m') : Held m' g :=
  ⟨fun i key hi => hbusy ▸ h.busy i key hi, h.single, fun i => (h.holds i).frame fun key _ => hframe key⟩

variable {key' : Key}

theorem frame_send (h : Sound m) {key : Key} : Frame key' m
      { m with codes := m.codes.registerCode key m.sentFor.length m.now, sentFor := m.sentFor ++ [key] } where
  sent := fun c hc => by
    rw [List.getElem?_append_left (List.getElem?_eq_some_iff.mp hc).1]
    exact hc
  authorised := fun _ _ hc => hc
  taken := fun _ => rfl
  unspent := fun hunspent v hv => by
    rcases mem_of_mem_registerCode hv with hnew | hold
    · cases hnew
      exact h.fresh
    · exact hunspent v hold

theorem frame_deleteKey {key : Key} : Frame key' m { m with codes := m.codes.deleteKey key } where
  sent := fun _ hc => hc
  authorised := fun _ _ hc => hc
  taken := fun _ => rfl
  unspent := fun hunspent v hv => hunspent v (mem_deleteKey.mp hv).1

/-- A code that was sent for another key is used. -/
theorem frame_authorise (h : Sound m) {key : Key} (hc : m.sentFor[c]? = some key) (hkey : key ≠ key')
    (hm' : m' = { m with users, authorised := c :: m.authorised, slips })
    (htaken : key'.purpose = .emailVerification → m'.taken key'.email = m.taken key'.email) : Frame key' m m' := by
  have hother : ∀ d : Nat, m.sentFor[d]? = some key' → d ≠ c := by
    rintro d hd rfl
    rw [hc] at hd
    exact hkey (Option.some.inj hd)
  subst hm'
  refine ⟨fun _ hd => hd, fun d hd hused => ?_, htaken, fun hunspent v hv hused => ?_⟩
  · exact (mem_cons.mp hused).resolve_left (hother d hd)
  · exact hunspent v hv ((mem_cons.mp hused).resolve_left (hother v.code (h.stored key' v hv)))

/-- A request uses its code. `hgone`: an email that is taken no longer is one of no code and no request. -/
theorem Inv.use [DecidableEq ι] (h : Inv m g)
    (hi : (g i).key = some key) (hphase : phase.key = some key) (hc : m.sentFor[c]? = some key)
    (hnew : c ∉ m.authorised) (hdistinct : Distinct users)
    (hm' : m' = { m with users, authorised := c :: m.authorised, slips }) (hholds : phase.Holds m')
    (hown : key.purpose = .emailVerification → m'.taken key.email = true)
      (hothers : ∀ e, key ≠ ⟨.emailVerification, e⟩ → m'.taken e = m.taken e ∨
      m.codes.anyValid ⟨.emailVerification, e⟩ m.now = false ∧ m.isBusy ⟨.emailVerification, e⟩ = false) :
    Inv m' (update g i phase) := by
  obtain ⟨hsound, hheld⟩ := h
  refine ⟨hsound.authorise hc hnew (hheld.isBusy hi) hdistinct hm' hown fun e v hv hvalid htaken => ?_,
    hheld.advance (hphase.trans hi.symm) (by rw [hm']) hholds fun key' hne hbusy =>
      frame_authorise hsound hc (fun heq => hne (heq ▸ hi)) hm' fun hpurpose => ?_⟩
  · by_cases hkey : key = ⟨.emailVerification, e⟩
    · subst hkey
      exact hown rfl
    · rcases hothers e hkey with hsame | ⟨hnone, -⟩
      · rw [hsame]
        exact htaken
      · rw [anyValid_of_mem hv hvalid] at hnone
        cases hnone
  · obtain ⟨purpose, e⟩ := key'
    replace hpurpose : purpose = .emailVerification := hpurpose
    subst hpurpose
    rcases hothers e (fun heq => hne (heq ▸ hi)) with hsame | ⟨-, hidle⟩
    · exact hsame
    · obtain ⟨j, hj⟩ := hbusy
      rw [hheld.isBusy hj] at hidle
      cases hidle

theorem Inv.insertUser [DecidableEq ι] (h : Inv m g) {r : Registration} (hi : g i = .vacant r.email r.code) :
    Inv { m with users := m.users ++ [r.user], authorised := r.code :: m.authorised }
      (update g i (.bound r.email)) := by
  obtain ⟨hc, hnew, hfree⟩ := h.2.at hi
  have hany : ∀ e, (m.users ++ [r.user]).any (·.email = e) = (m.taken e || decide (r.email = e)) := by
    intro e
    rw [any_append, any_cons, any_nil, Bool.or_false]
    rfl
  refine h.use (by rw [hi]; rfl) rfl hc hnew (h.1.distinct.append (not_taken_iff.mp hfree)) rfl trivial (fun _ => ?_)
    fun e hne => .inl ?_
  · exact (hany r.email).trans (by rw [decide_eq_true rfl, Bool.or_true])
  · have hother : r.email ≠ e := fun heq => hne (heq ▸ rfl)
    exact (hany e).trans (by rw [decide_eq_false hother, Bool.or_false])

/-! Binding. -/

theorem givesUp_eq_false {old new : String} (h : m.givesUp old new = false) (hnew : new ≠ "") (hne : old ≠ new) :
    m.codes.anyValid ⟨.emailVerification, old⟩ m.now = false ∧ m.isBusy ⟨.emailVerification, old⟩ = false := by
  unfold Mem.givesUp at h
  rw [decide_eq_true hnew, decide_eq_true hne] at h
  exact Bool.or_eq_false_iff.mp h

section
variable {users : List User} {userId : Nat} {u : User} {snapshot : Option User}

/-- The row that is written has the new email, the others what they had. -/
theorem getElem_written {k : Nat} {x : User} (hne : email ≠ "")
    (hx : (users.modify userId (User.write snapshot email))[k]? = some x) :
    userId = k ∧ x.email = email ∨ userId ≠ k ∧ users[k]? = some x := by
  rw [List.getElem?_modify] at hx
  obtain ⟨y, hy, rfl⟩ := Option.map_eq_some_iff.mp hx
  by_cases hk : userId = k
  · refine .inl ⟨hk, ?_⟩
    rw [if_pos hk]
    exact orOld_of_ne hne
  · refine .inr ⟨hk, ?_⟩
    rw [if_neg hk]
    exact hy

theorem any_written (hu : users[userId]? = some u) (hne : email ≠ "") :
    (users.modify userId (User.write snapshot email)).any (·.email = email) = true := by
  refine any_eq_true.mpr ⟨u.write snapshot email, mem_iff_getElem?.mpr ⟨userId, ?_⟩,
    decide_eq_true (orOld_of_ne hne)⟩
  rw [List.getElem?_modify, hu]
  exact congrArg some (if_pos rfl)

theorem any_written_of_ne {e : String} (hu : users[userId]? = some u) (hne : email ≠ "") (hemail : email ≠ e)
    (hold : u.email ≠ e) :
    (users.modify userId (User.write snapshot email)).any (·.email = e) = users.any (·.email = e) := by
  rw [Bool.eq_iff_iff, any_eq_true, any_eq_true]
  constructor
  · rintro ⟨x, hx, hcond⟩
    obtain ⟨k, hk⟩ := mem_iff_getElem?.mp hx
    rcases getElem_written hne hk with ⟨-, hnew⟩ | ⟨-, hsame⟩
    · exact absurd (hnew.symm.trans (of_decide_eq_true hcond)) hemail
    · exact ⟨x, mem_of_getElem? hsame, hcond⟩
  · rintro ⟨x, hx, hcond⟩
    obtain ⟨k, hk⟩ := mem_iff_getElem?.mp hx
    have hother : userId ≠ k := by
      rintro rfl
      rw [hu] at hk
      cases hk
      exact hold (of_decide_eq_true hcond)
    refine ⟨x, mem_iff_getElem?.mpr ⟨k, ?_⟩, hcond⟩
    rw [List.getElem?_modify, hk]
    exact congrArg some (if_neg hother)

theorem Inv.updateUser [DecidableEq ι] (h : Inv m g) {slips : Nat} (hi : g i = .vacant email code)
    (hu : m.existing userId = some u) (hkeeps : m.givesUp u.email email = false) :
    Inv { m with
        users := m.users.modify userId (User.write snapshot email), authorised := code :: m.authorised, slips }
      (update g i (.bound email)) := by
  obtain ⟨hc, hnew, hfree⟩ := h.2.at hi
  have hne : email ≠ "" := h.1.named _ (mem_of_getElem? hc)
  have hrow := (Option.filter_eq_some_iff.mp hu).1
  have hfree' := not_taken_iff.mp hfree
  refine h.use (by rw [hi]; rfl) rfl hc hnew (h.1.distinct.modify hne hfree') rfl trivial
    (fun _ => any_written hrow hne) fun e hkey => ?_
  have hother : email ≠ e := fun heq => hkey (heq ▸ rfl)
  by_cases hold : u.email = e
  · refine .inr ?_
    rw [← hold]
    exact givesUp_eq_false hkeeps hne (hfree' u (mem_of_getElem? hrow))
  · exact .inl (any_written_of_ne hrow hne hother hold)

end

/-! A new password. -/

theorem Inv.updatePassword [DecidableEq ι] (h : Inv m g) (hi : g i = .resetting email code) :
    Inv { m with
        users := m.users.map fun u => if u.email = email && !u.deleted then { u with password } else u
        authorised := code :: m.authorised }
      (update g i (.reset email)) := by
  obtain ⟨hc, hnew, -⟩ := h.2.at hi
  have hemail : ∀ u : User, (if u.email = email && !u.deleted then { u with password } else u).email = u.email := by
    intro u
    split <;> rfl
  have hdeleted : ∀ u : User,
      (if u.email = email && !u.deleted then { u with password } else u).deleted = u.deleted := by
    intro u
    split <;> rfl
  refine h.use (by rw [hi]; rfl) rfl hc hnew (h.1.distinct.map hemail hdeleted) rfl trivial
    (fun hpurpose => Purpose.noConfusion hpurpose) fun e _ => .inl ?_
  unfold Mem.taken
  rw [any_map]
  exact congrArg m.users.any (funext fun u => by rw [comp_apply, hemail])

/-! What is known of a code that has passed, and of a user that does not exist. -/

theorem checked_of_verifyCode (h : Sound m)
    (hvalid : m.codes.verifyCode ⟨.emailVerification, email⟩ code m.now = true) :
      (Phase.checked email code).Holds m := by
  obtain ⟨v, hv, hcurrent, rfl⟩ := exists_of_verifyCode hvalid
  exact ⟨h.stored _ v hv, h.bound email v hv hcurrent⟩

theorem not_taken_of_not_exist {username : String} (hne : email ≠ "")
    (h : m.userExistOrDeleted username email = false) : m.taken email = false := by
  refine not_taken_iff.mpr fun u hu hemail => any_eq_false.mp h u hu ?_
  rw [decide_eq_true hne, decide_eq_true hemail, Bool.and_self, Bool.or_true]

end

/-! The requests, step by step. -/

section
variable {ι : Type} [DecidableEq ι] {i : ι} {env : Settings} {key : Key} {code : Nat} {phase : Phase} {r : Registration}

theorem wp_registerVerificationCodeWithKey (hkey : key.email ≠ "") :
    wp Inv inTurn i (registerVerificationCodeWithKey key) (fun _ _ => True) .out := by
  refine wp_atomically fun m g hinv hi _ => ⟨.out, inv_update_self ?_ hi, trivial⟩
  exact ⟨hinv.1.send hkey, hinv.2.same rfl fun _ => frame_send hinv.1⟩

variable {email : String}

theorem wp_isEmailAlreadyTaken : wp Inv inTurn i (isEmailAlreadyTaken email) (fun _ γ => γ = .out) .out :=
  wp_bind (wp_query (fun _ _ _ _ => rfl) rfl)

theorem ne_empty_of_requiredEmail (h : requiredEmail env email = true) : email ≠ "" :=
  of_decide_eq_true (Bool.and_eq_true_iff.mp h).1

theorem wp_sendEmailVerification : wp Inv inTurn i (sendEmailVerification env email) (fun _ _ => True) .out := by
  unfold sendEmailVerification
  split_ifs with hallowed
  · have hne := ne_empty_of_requiredEmail (Bool.and_eq_true_iff.mp hallowed).1
    refine wp_known wp_isEmailAlreadyTaken fun taken => ?_
    cases taken with
    | true => exact wp_pure trivial
    | false => exact wp_seq (wp_registerVerificationCodeWithKey hne) fun _ _ _ => trivial
  · exact wp_pure trivial

theorem wp_sendPasswordResetEmail : wp Inv inTurn i (sendPasswordResetEmail env email) (fun _ _ => True) .out := by
  unfold sendPasswordResetEmail
  split_ifs with hrequired
  · have hne := ne_empty_of_requiredEmail hrequired
    refine wp_known wp_isEmailAlreadyTaken fun taken => ?_
    cases taken with
    | true => exact wp_seq (wp_registerVerificationCodeWithKey hne) fun _ _ _ => trivial
    | false => exact wp_pure trivial
  · exact wp_pure trivial

theorem wp_finish {answer : Bool} (hover : phase.Over key) :
    wp Inv inTurn i (finish i key answer) (fun _ _ => True) phase := by
  refine wp_atomically fun m g hinv hi _ => ⟨.out, ⟨?_, ?_⟩, trivial⟩
  · exact hinv.1.finish (hover.unspent (hi ▸ hinv.2.holds i))
  refine hinv.2.step (fun j k hj hmem => ?_) (fun k hk => ?_) (fun k hk => ?_) trivial
    fun j k _ _ => Frame.same rfl rfl rfl rfl
  · exact (mem_erase_of_ne fun heq => hj (Prod.mk.inj heq).1).mpr hmem
  · cases hk
  · cases hk

/-- What follows a code that has passed begins in `phase`, and ends in one that may end. -/
theorem wp_withCode {careless : Mem ι → Bool} {rest : Prog (Mem ι) Bool} (phase : Phase)
    (hkey : phase.key = some key)
    (hpass : ∀ m, Sound m → m.codes.verifyCode key code m.now = true → m.isBusy key = false → careless m = false →
      phase.Holds m)
    (hrest : wp Inv inTurn i rest (fun _ γ => γ.Over key) phase) :
    wp Inv inTurn i (withCode i key code careless rest) (fun _ _ => True) .out := by
  refine wp_bind (wp_atomically fun m g hinv hi hguard => ?_)
  by_cases hvalid : m.codes.verifyCode key code m.now = true
  · rw [if_pos hvalid] at hguard ⊢
    rw [if_pos hvalid]
    replace hguard := eq_of_beq hguard
    dsimp only at hguard
    have hclear : (m.isBusy key || careless m) = false := by
      refine eq_false_of_ne_true fun hslip => ?_
      rw [if_pos hslip] at hguard
      omega
    obtain ⟨hidle, hcareful⟩ := Bool.or_eq_false_iff.mp hclear
    refine ⟨phase, ⟨hinv.1.begin (i, key), ?_⟩, wp_bind (wp_mono (fun _ _ hover => wp_finish hover) hrest)⟩
    refine hinv.2.step (fun _ _ _ hmem => mem_cons_of_mem _ hmem) (fun k hk => ?_) (fun k hk j _ hj => ?_)
      ((hpass m hinv.1 hvalid hidle hcareful).frame fun _ _ => Frame.same rfl rfl rfl rfl)
      fun _ _ _ _ => Frame.same rfl rfl rfl rfl
    · rw [hkey] at hk
      cases hk
      exact mem_cons_self
    · rw [hkey] at hk
      cases hk
      rw [hinv.2.isBusy hj] at hidle
      cases hidle
  · rw [if_neg hvalid, if_neg hvalid]
    exact ⟨.out, inv_update_self hinv hi, wp_pure trivial⟩

/-! Registering. -/

section
variable (henabled : env.emailVerificationEnabled = true)
include henabled

theorem wp_insertUser :
    wp Inv inTurn i (insertUser env r) (fun _ γ => γ.Over ⟨.emailVerification, r.email⟩)
      (.vacant r.email r.code) := by
  refine wp_statement (fun m g hinv hi _ => ⟨.bound r.email, ?_, rfl, nofun⟩)
    ⟨rfl, nofun⟩
  rw [if_pos henabled]
  exact hinv.insertUser hi

theorem wp_registerUser (hne : r.email ≠ "") :
    wp Inv inTurn i (registerUser env r) (fun _ γ => γ.Over ⟨.emailVerification, r.email⟩)
      (.checked r.email r.code) := by
  have hrefused : (Phase.checked r.email r.code).Over ⟨.emailVerification, r.email⟩ :=
    ⟨rfl, nofun⟩
  refine wp_bind (wp_query_note (fun m g hinv hi => ?_) (wp_pure hrefused))
  cases hexist : m.userExistOrDeleted r.username r.email with
  | true => exact ⟨_, inv_update_self hinv hi, wp_pure hrefused⟩
  | false =>
    -- the email is free, so the code was not used either
    have hphase := hinv.2.at hi
    have hfree := not_taken_of_not_exist hne hexist
    have hnew : r.code ∉ m.authorised := by
      intro hused
      rw [hphase.2 hused] at hfree
      cases hfree
    refine ⟨.vacant r.email r.code, ⟨hinv.1, ?_⟩, wp_insertUser henabled⟩
    exact hinv.2.advance (by rw [hi]; rfl) rfl ⟨hphase.1, hnew, hfree⟩ fun _ _ _ => Frame.same rfl rfl rfl rfl

theorem wp_register :
    wp Inv inTurn i (register env i r) (fun _ _ => True) .out := by
  unfold register
  by_cases hopen : (env.registerEnabled && env.passwordRegisterEnabled && env.isUser r.user) = true
  · rw [if_pos hopen, if_pos henabled]
    split_ifs with hempty
    · exact wp_pure trivial
    · exact wp_withCode (.checked r.email r.code) rfl (fun m hsound hvalid _ _ => checked_of_verifyCode hsound hvalid)
        (wp_registerUser henabled hempty)
  · rw [if_neg hopen]
    exact wp_pure trivial

end

/-! Binding. -/

theorem wp_updateUser {userId : Nat} {snapshot : Option User} :
    wp Inv inTurn i (updateUser userId snapshot email code) (fun _ γ => γ.Over ⟨.emailVerification, email⟩)
      (.vacant email code) := by
  refine wp_statement (fun m g hinv hi hguard => ?_) ⟨rfl, nofun⟩
  by_cases hfound : (m.existing userId).isSome = true
  · rw [if_pos hfound] at hguard ⊢
    obtain ⟨u, hu⟩ := Option.isSome_iff_exists.mp hfound
    replace hguard := eq_of_beq hguard
    dsimp only at hguard
    have hkeeps : m.givesUp u.email email = false := by
      refine eq_false_of_ne_true fun hslip => ?_
      rw [hu, Option.any_some, if_pos hslip] at hguard
      omega
    exact ⟨.bound email, hinv.updateUser hi hu hkeeps, rfl, nofun⟩
  · rw [if_neg hfound]
    exact ⟨.vacant email code, inv_update_self hinv hi, rfl, nofun⟩

theorem wp_emailBind {userId : Nat} : wp Inv inTurn i (emailBind i userId email code) (fun _ _ => True) .out := by
  refine wp_withCode (.vacant email code) rfl (fun m hsound hvalid _ hfree => ?_) ?_
  · obtain ⟨hsent, hbound⟩ := checked_of_verifyCode hsound hvalid
    refine ⟨hsent, fun hused => ?_, hfree⟩
    rw [hbound hused] at hfree
    cases hfree
  · have hupdate : ∀ snapshot : Option User, wp Inv inTurn i
        (updateUser userId snapshot email code >>= fun ok => if ok then cacheUpdateUserProfileFields else pure false)
        (fun _ γ => γ.Over ⟨.emailVerification, email⟩) (.vacant email code) := by
      intro snapshot
      refine wp_seq wp_updateUser fun ok γ hover => ?_
      cases ok with
      | true => exact wp_statement (fun _ _ hinv hi _ => ⟨γ, inv_update_self hinv hi, hover⟩) hover
      | false => exact wp_pure hover
    exact wp_bind (wp_bind (wp_query (fun _ _ _ _ => hupdate _) (hupdate _)))

/-! A new password. -/

theorem wp_updatePassword {email : String} : wp Inv inTurn i (updatePassword email password code)
      (fun ok γ => γ = if ok then .reset email else .resetting email code) (.resetting email code) :=
  wp_statement (fun _ _ hinv hi _ => ⟨.reset email, hinv.updatePassword hi, rfl⟩) rfl

theorem wp_deleteKey :
    wp Inv inTurn i (deleteKey ⟨.passwordReset, email⟩) (fun _ γ => γ.Over ⟨.passwordReset, email⟩)
      (.reset email) := by
  refine wp_atomically fun m g hinv hi _ =>
    ⟨.closed email, ⟨hinv.1.deleteKey _, ?_⟩, rfl, nofun⟩
  refine hinv.2.advance (by rw [hi]; rfl) rfl (fun v hv => ?_) fun _ _ _ => frame_deleteKey
  exact absurd rfl (mem_deleteKey.mp hv).2

theorem wp_resetPassword {email : String} :
    wp Inv inTurn i (resetPassword i email password code) (fun _ _ => True) .out := by
  unfold resetPassword
  split_ifs with hempty
  · exact wp_pure trivial
  refine wp_withCode (.resetting email code) rfl (fun m hsound hvalid hidle _ => ?_) ?_
  · obtain ⟨v, hv, -, rfl⟩ := exists_of_verifyCode hvalid
    have hunspent := hsound.reset email hidle
    exact ⟨hsound.stored _ v hv, hunspent v hv, hunspent⟩
  · refine wp_known wp_updatePassword fun ok => ?_
    cases ok with
    | true => exact wp_deleteKey
    | false => exact wp_pure ⟨rfl, nofun⟩

/-! Runs. -/

theorem wp_prog (henabled : env.emailVerificationEnabled = true) :
    ∀ call : Call, wp Inv inTurn i (call.prog env i) (fun _ _ => True) .out
  | .sendEmailVerification _ => wp_sendEmailVerification
  | .sendPasswordResetEmail _ => wp_sendPasswordResetEmail
  | .register _ => wp_register henabled
  | .emailBind _ _ _ => wp_emailBind
  | .resetPassword _ _ _ => wp_resetPassword
  | .wait seconds => wp_atomically fun _ _ hinv hi _ =>
    ⟨.out, inv_update_self ⟨hinv.1.wait seconds, hinv.2.same rfl fun _ => Frame.same rfl rfl rfl rfl⟩ hi, trivial⟩

omit [DecidableEq ι] in
theorem inv_start {users : List User} {now : Int} (h : Distinct users) :
    Inv (Mem.start users now : Mem ι) fun _ => .out :=
  ⟨sound_start h, nofun, nofun, fun _ => trivial⟩

/-- **A code authorises one thing, an email belongs to one user.** With email verification, in any run of
any requests whose steps are all in turn: no two users that exist have one email, and each code that was
sent has authorised at most one registration, binding or new password. -/
theorem code_authorises_once (env : Settings) (henabled : env.emailVerificationEnabled = true) (users : List User)
    (now : Int) (husers : Distinct users) (calls : ι → Call) {s : Sys ι (Mem ι) Bool}
    (hs : Reach inTurn ⟨Mem.start users now, fun i => (calls i).prog env i⟩ s) :
    Distinct s.mem.users ∧ s.mem.authorised.Nodup := by
  obtain ⟨g, hgood⟩ := reach_sound (inv_start husers) (fun i => wp_prog henabled (calls i)) hs
  exact ⟨hgood.inv.1.distinct, hgood.inv.1.once⟩

end

/-! Runs with one code. -/

def twoUsers : List User := [{ username := "first", password := "hash" }, { username := "second", password := "hash" }]

def afterCode (second third : Call) : Nat → Call
  | 0 => .sendEmailVerification "name@host"
  | 1 => second
  | 2 => third
  | _ => .wait 0

def codeSent (second third : Call) : Sys Nat (Mem Nat) Bool :=
  ⟨Mem.start twoUsers 1000, fun i => (afterCode second third i).prog {} i⟩

/-- The code is sent, each of the two requests runs to its end before the next. -/
def oneByOne (second third : Nat) : List (Nat × Bool) :=
  List.replicate 2 (0, true) ++ List.replicate second (1, true) ++ List.replicate third (2, true)

def boundThenRegistered : Sys Nat (Mem Nat) Bool :=
  codeSent (.emailBind 0 "name@host" 0)
    (.register { username := "third", password := "password", email := "name@host", code := 0 })

/-- A user binds the email, and a registration with the same code is refused. -/
theorem code_bound_then_refused :
    (after inTurn boundThenRegistered (oneByOne 5 3)).mem.authorised = [0] ∧
      Distinct (after inTurn boundThenRegistered (oneByOne 5 3)).mem.users ∧
      (after inTurn boundThenRegistered (oneByOne 5 3)).mem.authorised.Nodup := by
  have hrun : (run inTurn boundThenRegistered (oneByOne 5 3)).isSome = true := by decide +kernel
  have hauth : (after inTurn boundThenRegistered (oneByOne 5 3)).mem.authorised = [0] := by decide +kernel
  have hdistinct : Distinct twoUsers := by decide
  exact ⟨hauth, code_authorises_once {} rfl twoUsers 1000 hdistinct _ (reach_run .start (run_after hrun))⟩

def boundTwice : Sys Nat (Mem Nat) Bool := codeSent (.emailBind 0 "name@host" 0) (.emailBind 1 "name@host" 0)

def resetTwice : Nat → Call
  | 0 => .sendPasswordResetEmail "name@host"
  | 1 => .resetPassword "name@host" "one" 0
  | 2 => .resetPassword "name@host" "two" 0
  | _ => .wait 0

def tokenSent : Sys Nat (Mem Nat) Bool :=
  ⟨Mem.start [{ username := "first", password := "hash", email := "name@host" }] 1000,
    fun i => (resetTwice i).prog {} i⟩

/-- Both requests check the token before either has taken it out of the map. -/
def bothChecked : List (Nat × Bool) :=
  List.replicate 2 (0, true) ++ [(1, true), (2, true)] ++ List.replicate 3 (1, true) ++ List.replicate 3 (2, true)

/-- Two users bind one email with one code, one after the other; and two requests set a new password with
one token. All of these requests succeed. -/
theorem code_used_twice :
    (∃ s, Reach anyStep boundTwice s ∧ ¬ Distinct s.mem.users ∧ s.mem.authorised = [0, 0] ∧
      s.prog 1 = .ret true ∧ s.prog 2 = .ret true) ∧
    ∃ s, Reach anyStep tokenSent s ∧ s.mem.authorised = [0, 0] ∧ s.prog 1 = .ret true ∧ s.prog 2 = .ret true := by
  obtain ⟨s, hs, husers, hauth, hfirst, hsecond⟩ : ∃ s, Reach anyStep boundTwice s ∧ ¬ Distinct s.mem.users ∧
      s.mem.authorised = [0, 0] ∧ (s.prog 1).result = some true ∧ (s.prog 2).result = some true :=
    exists_of_run (oneByOne 5 5) (by decide +kernel)
  obtain ⟨t, ht, hauth', hfirst', hsecond'⟩ : ∃ s, Reach anyStep tokenSent s ∧ s.mem.authorised = [0, 0] ∧
      (s.prog 1).result = some true ∧ (s.prog 2).result = some true :=
    exists_of_run bothChecked (by decide +kernel)
  exact ⟨⟨s, hs, husers, hauth, Prog.eq_ret_of_result hfirst, Prog.eq_ret_of_result hsecond⟩,
    t, ht, hauth', Prog.eq_ret_of_result hfirst', Prog.eq_ret_of_result hsecond'⟩

end AmuxApi.EmailCode
