import Mathlib.Data.Set.Card
import AmuxApi.Limiter.Model

/- The slots are counted right.

   A request goes through phases (`Phase`), each with the program that is left of it. A step
   takes one slot, gives one back, or touches none (`Transition`), and with it the keys the
   request holds change (`Phase.holds`). So in every state that is reached, whatever the
   requests and their order, the count of a key is the number of requests that hold it
   (`slots_counted`). -/
namespace AmuxApi.Limiter
open Conc Function Request

/-! Phases of a request. -/

inductive Phase
  /-- the slot of the user is yet to be asked for -/
  | asking
  /-- the slot of the token is yet to be asked for; that of the user, if it has a limit, is taken -/
  | tokenPending
  /-- there was no slot of the token, and that of the user is yet to be given back -/
  | rollback
  | serving
  /-- served, and the slot of the user is yet to be given back -/
  | closing
  /-- served, and only the slot of the token is yet to be given back -/
  | leaving
  | done (reply : Reply)
  deriving DecidableEq, Repr

def Phase.prog (req : Request) : Phase → Prog Shards Reply
  | .asking => do
    afterAcquire req (← acquireMemoryConcurrencySlots req.userKey req.userLimit req.tokenKey req.clampedLimit)
  | .tokenPending => do
    afterAcquire req (← acquireTokenSlot (req.userKey ≠ "") req.userKey req.tokenKey req.clampedLimit)
  | .rollback => do
    releaseMemorySlot req.userKey
    return abortWithConcurrencyExceeded req .tokenExceeded
  | .serving => afterAcquire req .ok
  | .closing => do
    releaseMemoryConcurrencySlots req.userKey req.tokenKey
    return .passed
  | .leaving => do
    releaseMemorySlot req.tokenKey
    return .passed
  | .done reply => return reply

/-- The keys whose slots the request has, for good or for the time being. -/
def Phase.holds (req : Request) : Phase → String → Prop
  | .asking, _ => False
  | .tokenPending, k => k = req.userKey ∧ k ≠ ""
  | .rollback, k => k = req.userKey ∧ k ≠ ""
  | .serving, k => (k = req.userKey ∨ k = req.tokenKey) ∧ k ≠ ""
  | .closing, k => (k = req.userKey ∨ k = req.tokenKey) ∧ k ≠ ""
  | .leaving, k => k = req.tokenKey ∧ k ≠ ""
  | .done _, _ => False

/-- A phase a request can be in: it asks for, and gives back, what has a limit. -/
def Phase.Fits (req : Request) : Phase → Prop
  | .asking => req.userKey ≠ ""
  | .tokenPending => req.tokenKey ≠ ""
  | .rollback => req.userKey ≠ ""
  | .closing => req.userKey ≠ ""
  | .leaving => req.tokenKey ≠ ""
  | _ => True

/-! Where a request goes when a level has no limit. -/

def Request.afterUser (req : Request) : Phase := if req.tokenKey = "" then .serving else .tokenPending

def Request.first (req : Request) : Phase := if req.userKey = "" then req.afterUser else .asking

def Request.afterRefusal (req : Request) : Phase :=
  if req.userKey = "" then .done (abortWithConcurrencyExceeded req .tokenExceeded) else .rollback

def Request.afterClosing (req : Request) : Phase := if req.tokenKey = "" then .done .passed else .leaving

def Request.afterServing (req : Request) : Phase := if req.userKey = "" then req.afterClosing else .closing

theorem Request.userLimit_pos {req : Request} (h : req.userKey ≠ "") : 0 < req.userLimit := by
  unfold userKey at h
  split at h
  · exact (‹_ ∧ _› : _ ∧ _).1
  · exact absurd rfl h

theorem Request.clampedLimit_pos {req : Request} (h : req.tokenKey ≠ "") : 0 < req.clampedLimit := by
  unfold tokenKey at h
  split at h
  · exact (‹_ ∧ _› : _ ∧ _).1
  · exact absurd rfl h

variable {key k : String} {m m' : Shards}

section
variable {req : Request}

theorem afterUser_prog : req.afterUser.prog req =
    (acquireTokenSlot (req.userKey ≠ "") req.userKey req.tokenKey req.clampedLimit >>= afterAcquire req) := by
  unfold afterUser
  split_ifs with htoken
  · rw [acquireTokenSlot, if_neg (by simp [htoken])]
    rfl
  · rfl

theorem afterRefusal_prog : req.afterRefusal.prog req =
    ((if req.userKey = "" then pure () else releaseMemorySlot req.userKey) >>= fun _ =>
      pure (abortWithConcurrencyExceeded req .tokenExceeded)) := by
  unfold afterRefusal
  split_ifs with huser
  · rfl
  · rfl

theorem afterClosing_prog : req.afterClosing.prog req =
    ((if req.tokenKey = "" then pure () else releaseMemorySlot req.tokenKey) >>= fun _ => pure .passed) := by
  unfold afterClosing
  split_ifs with htoken
  · rfl
  · rfl

theorem release_eq (userKey tokenKey : String) : releaseMemoryConcurrencySlots userKey tokenKey =
    ((if userKey = "" then pure () else releaseMemorySlot userKey) >>= fun _ =>
      if tokenKey = "" then pure () else releaseMemorySlot tokenKey) := by
  unfold releaseMemoryConcurrencySlots
  by_cases huser : userKey = ""
  · rw [if_pos huser, if_neg (by simp [huser])]
    by_cases htoken : tokenKey = ""
    · rw [if_pos htoken, if_neg (by simp [htoken])]
      rfl
    · rw [if_neg htoken, if_pos htoken]
      rfl
  · rw [if_neg huser, if_pos huser]
    by_cases htoken : tokenKey = ""
    · rw [if_pos htoken, if_neg (by simp [htoken])]
    · rw [if_neg htoken, if_pos htoken]

theorem afterServing_prog : req.afterServing.prog req =
    (releaseMemoryConcurrencySlots req.userKey req.tokenKey >>= fun _ => pure .passed) := by
  unfold afterServing
  by_cases huser : req.userKey = ""
  · rw [if_pos huser, afterClosing_prog, release_eq, if_pos huser]
    rfl
  · rw [if_neg huser]
    rfl

theorem asking_prog (h : req.userKey ≠ "") : Phase.asking.prog req = (acquireMemorySlot req.userKey req.userLimit >>=
    fun ok => (if ok then acquireTokenSlot true req.userKey req.tokenKey req.clampedLimit else pure .userExceeded) >>=
      afterAcquire req) := by
  rw [Phase.prog, acquireMemoryConcurrencySlots, if_pos ⟨h, userLimit_pos h⟩, Prog.bind_assoc]

theorem tokenPending_prog (h : req.tokenKey ≠ "") : Phase.tokenPending.prog req =
    (acquireMemorySlot req.tokenKey req.clampedLimit >>= fun ok =>
      (if ok then pure .ok else do
        if req.userKey ≠ "" then releaseMemorySlot req.userKey
        return .tokenExceeded) >>= afterAcquire req) := by
  rw [Phase.prog, acquireTokenSlot, if_pos ⟨h, clampedLimit_pos h⟩, Prog.bind_assoc]
  simp only [decide_eq_true_eq]

theorem first_prog : req.first.prog req = tokenConcurrencyLimit req := by
  unfold tokenConcurrencyLimit
  have hunlimited : req.userKey = "" → req.tokenKey = "" → req.first.prog req = (do next; return .passed) := by
    intro huser htoken
    rw [first, if_pos huser, afterUser, if_pos htoken, Phase.prog, afterAcquire, huser, htoken]
    rfl
  split
  · -- neither of the two limits is set
    have huser : req.userKey = "" := by
      by_contra h
      exact absurd (userLimit_pos h) (by omega)
    have htoken : req.tokenKey = "" := by
      by_contra h
      have hpos := clampedLimit_pos h
      unfold clampedLimit clampTokenMaxConcurrency at hpos
      split at hpos
      · omega
      · split at hpos <;> omega
    exact hunlimited huser htoken
  · split_ifs with hkeys
    · exact hunlimited hkeys.1 hkeys.2
    · unfold first
      split_ifs with huser
      · rw [afterUser_prog, acquireMemoryConcurrencySlots]
        simp [huser]
      · rfl

/-! What a step does. -/

inductive Transition (req : Request) (m : Shards) : Phase → Phase → Shards → Prop
  | refuseUser (h : req.userLimit ≤ m.inUse req.userKey) :
      Transition req m .asking (.done (abortWithConcurrencyExceeded req .userExceeded)) m
  | takeUser (h : ¬ req.userLimit ≤ m.inUse req.userKey) : Transition req m .asking req.afterUser (m.take req.userKey)
  | refuseToken (h : req.clampedLimit ≤ m.inUse req.tokenKey) : Transition req m .tokenPending req.afterRefusal m
  | takeToken (h : ¬ req.clampedLimit ≤ m.inUse req.tokenKey) :
      Transition req m .tokenPending .serving (m.take req.tokenKey)
  | rollback : Transition req m .rollback (.done (abortWithConcurrencyExceeded req .tokenExceeded))
    (m.release req.userKey)
  | served : Transition req m .serving req.afterServing m
  | releaseUser : Transition req m .closing req.afterClosing (m.release req.userKey)
  | releaseToken : Transition req m .leaving (.done .passed) (m.release req.tokenKey)

/-- Asking for a slot: either there is none, or one more is taken. -/
theorem acquire_cases {α : Type} {limit : Int} {g : Bool → Prog Shards α} {ready : Shards → Bool}
    {f : Bool → Shards → Shards} {next : Bool → Shards → Prog Shards α}
    (h : (acquireMemorySlot key limit >>= g) = .act ready f next) (ok : Bool) (m : Shards) :
    (limit ≤ m.inUse key ∧ f ok m = m ∧ next ok m = g false) ∨
      (¬ limit ≤ m.inUse key ∧ f ok m = m.take key ∧ next ok m = g true) := by
  cases h
  by_cases hfull : limit ≤ m.inUse key
  · exact .inl ⟨hfull, if_pos hfull, congrArg g (by simp [hfull])⟩
  · exact .inr ⟨hfull, if_neg hfull, congrArg g (by simp [hfull])⟩

/-- Everything a step of a request can do. -/
theorem Phase.transition {p : Phase} (hfits : p.Fits req) {ready : Shards → Bool} {f : Bool → Shards → Shards}
    {next : Bool → Shards → Prog Shards Reply} (h : p.prog req = .act ready f next) (ok : Bool) (m : Shards) :
    ∃ p', next ok m = p'.prog req ∧ Transition req m p p' (f ok m) := by
  cases p with
  | asking =>
    have huser : req.userKey ≠ "" := hfits
    rw [asking_prog huser] at h
    obtain ⟨hfull, hf, hnext⟩ | ⟨hfree, hf, hnext⟩ := acquire_cases h ok m
    · rw [hf]
      exact ⟨.done _, hnext, .refuseUser hfull⟩
    · rw [hf]
      refine ⟨req.afterUser, ?_, .takeUser hfree⟩
      rw [hnext, afterUser_prog, decide_eq_true huser]
      rfl
  | tokenPending =>
    rw [tokenPending_prog hfits] at h
    obtain ⟨hfull, hf, hnext⟩ | ⟨hfree, hf, hnext⟩ := acquire_cases h ok m
    · rw [hf]
      refine ⟨req.afterRefusal, ?_, .refuseToken hfull⟩
      rw [hnext, afterRefusal_prog]
      by_cases huser : req.userKey = ""
      · simp only [huser]
        rfl
      · simp only [if_neg huser, if_pos huser]
        rfl
    · rw [hf]
      exact ⟨.serving, hnext, .takeToken hfree⟩
  | rollback =>
    cases h
    exact ⟨_, rfl, .rollback⟩
  | serving =>
    cases h
    exact ⟨_, afterServing_prog.symm, .served⟩
  | closing =>
    have huser : req.userKey ≠ "" := hfits
    rw [Phase.prog, release_eq, if_neg huser] at h
    cases h
    exact ⟨_, afterClosing_prog.symm, .releaseUser⟩
  | leaving =>
    cases h
    exact ⟨_, rfl, .releaseToken⟩
  | done reply => cases h

/-- The phase a request goes to is one it can be in. -/
theorem Transition.fits {p p' : Phase} (h : Transition req m p p' m') (hp : p.Fits req) : p'.Fits req := by
  cases h with
  | refuseUser _ => trivial
  | takeUser _ =>
    unfold afterUser
    split
    · trivial
    · assumption
  | refuseToken _ =>
    unfold afterRefusal
    split
    · trivial
    · assumption
  | takeToken _ | rollback => trivial
  | served =>
    unfold afterServing afterClosing
    split
    · split
      · trivial
      · assumption
    · assumption
  | releaseUser =>
    unfold afterClosing
    split
    · trivial
    · assumption
  | releaseToken => trivial

/-! The keys that are held. -/

theorem first_holds (k : String) : ¬ req.first.holds req k := by
  unfold first afterUser
  by_cases huser : req.userKey = ""
  · by_cases htoken : req.tokenKey = ""
    · simp [Phase.holds, huser, htoken]
    · rw [if_neg htoken]
      simp [Phase.holds, huser]
  · rw [if_neg huser]
    simp [Phase.holds]

theorem afterUser_holds (k : String) : req.afterUser.holds req k ↔ k = req.userKey ∧ k ≠ "" := by
  unfold afterUser
  split_ifs with htoken
  · simp only [Phase.holds, htoken]
    tauto
  · rfl

theorem afterRefusal_holds (k : String) : req.afterRefusal.holds req k ↔ k = req.userKey ∧ k ≠ "" := by
  unfold afterRefusal
  by_cases huser : req.userKey = ""
  · simp only [huser]
    tauto
  · rw [if_neg huser]
    rfl

theorem afterClosing_holds (k : String) : req.afterClosing.holds req k ↔ k = req.tokenKey ∧ k ≠ "" := by
  unfold afterClosing
  by_cases htoken : req.tokenKey = ""
  · simp only [htoken]
    tauto
  · rw [if_neg htoken]
    rfl

theorem afterServing_holds (k : String) :
    req.afterServing.holds req k ↔ (k = req.userKey ∨ k = req.tokenKey) ∧ k ≠ "" := by
  unfold afterServing
  split_ifs with huser
  · rw [afterClosing_holds, huser]
    tauto
  · rfl

/-- The limit a request has for a key. -/
def Request.limitOf (req : Request) (k : String) : Int := if k = req.userKey then req.userLimit else req.clampedLimit

/-- A slot of `key` is taken below the limit, given back, or nothing changes. -/
inductive Change (req : Request) (m : Shards) (p p' : Phase) : Shards → Prop
  | none (h : ∀ k, p'.holds req k ↔ p.holds req k) : Change req m p p' m
  | take (key : String) (hfree : ¬ p.holds req key) (hlimit : ¬ req.limitOf key ≤ m.inUse key)
      (h : ∀ k, p'.holds req k ↔ k = key ∨ p.holds req k) : Change req m p p' (m.take key)
  | release (key : String) (hfree : ¬ p'.holds req key) (h : ∀ k, p.holds req k ↔ k = key ∨ p'.holds req k) :
      Change req m p p' (m.release key)

theorem nonempty_key (h : key ≠ "") : k = key ∧ k ≠ "" ↔ k = key :=
  ⟨fun hk => hk.1, fun hk => ⟨hk, hk ▸ h⟩⟩

theorem nonempty_or {other : String} (h : key ≠ "") :
    (k = key ∨ k = other) ∧ k ≠ "" ↔ k = key ∨ k = other ∧ k ≠ "" := by
  rw [or_and_right, nonempty_key h]

theorem Transition.change {p p' : Phase} (h : Transition req m p p' m') (hp : p.Fits req) : Change req m p p' m' := by
  have hapart : req.userKey ≠ "" → req.tokenKey ≠ req.userKey := fun hu he => req.keys_apart hu he.symm
  cases h with
  | refuseUser _ => exact .none fun k => by simp [Phase.holds]
  | takeUser hlimit =>
    have huser : req.userKey ≠ "" := hp
    refine .take req.userKey (by simp [Phase.holds]) (by rwa [limitOf, if_pos rfl]) fun k => ?_
    rw [afterUser_holds, Phase.holds, or_false]
    exact nonempty_key huser
  | refuseToken _ => exact .none fun k => by rw [afterRefusal_holds, Phase.holds]
  | takeToken hlimit =>
    have htoken : req.tokenKey ≠ "" := hp
    have hne : req.tokenKey ≠ req.userKey := by
      intro he
      exact hapart (he ▸ htoken) he
    refine .take req.tokenKey (fun hk => hne hk.1) (by rwa [limitOf, if_neg hne]) fun k => ?_
    simp only [Phase.holds]
    rw [or_comm, nonempty_or htoken]
  | rollback =>
    have huser : req.userKey ≠ "" := hp
    refine .release req.userKey (by simp [Phase.holds]) fun k => ?_
    simp only [Phase.holds, or_false]
    exact nonempty_key huser
  | served => exact .none fun k => by rw [afterServing_holds, Phase.holds]
  | releaseUser =>
    have huser : req.userKey ≠ "" := hp
    refine .release req.userKey (fun hk => ?_) fun k => ?_
    · rw [afterClosing_holds] at hk
      exact hapart huser hk.1.symm
    · rw [afterClosing_holds]
      exact nonempty_or huser
  | releaseToken =>
    have htoken : req.tokenKey ≠ "" := hp
    refine .release req.tokenKey (by simp [Phase.holds]) fun k => ?_
    simp only [Phase.holds, or_false]
    exact nonempty_key htoken

end

/-! The maps. -/

namespace Shards
variable {m : Shards} {key k : String}

theorem inUse_set_self (entry : Option Nat) : (m.set key entry).inUse key = entry.getD 0 := by
  simp [inUse, set]

theorem inUse_set_of_ne (entry : Option Nat) (h : k ≠ key) : (m.set key entry).inUse k = m.inUse k := by
  unfold inUse set
  by_cases hshard : shardFor k = shardFor key
  · rw [hshard, update_self, update_of_ne h]
  · rw [update_of_ne hshard]

theorem inUse_take : (m.take key).inUse k = m.inUse k + if k = key then 1 else 0 := by
  by_cases h : k = key
  · subst h
    rw [if_pos rfl]
    exact inUse_set_self _
  · rw [if_neg h]
    exact inUse_set_of_ne _ h

theorem inUse_release : (m.release key).inUse k = m.inUse k - if k = key then 1 else 0 := by
  by_cases h : k = key
  · subst h
    rw [release, inUse_set_self, if_pos rfl]
    split
    · show 0 = m.inUse k - 1
      omega
    · rfl
  · rw [if_neg h]
    exact inUse_set_of_ne _ h

/-- Every entry is in the shard of its key, and is not zero. -/
def Tidy (m : Shards) : Prop := ∀ j k n, m j k = some n → j = shardFor k ∧ 0 < n

theorem Tidy.set {entry : Option Nat} (h : m.Tidy) (hentry : ∀ n, entry = some n → 0 < n) : (m.set key entry).Tidy := by
  intro j k n hn
  unfold Shards.set at hn
  by_cases hj : j = shardFor key
  · subst hj
    rw [update_self] at hn
    by_cases hk : k = key
    · subst hk
      rw [update_self] at hn
      exact ⟨rfl, hentry n hn⟩
    · rw [update_of_ne hk] at hn
      exact h _ _ _ hn
  · rw [update_of_ne hj] at hn
    exact h _ _ _ hn

theorem Tidy.take (h : m.Tidy) : (m.take key).Tidy := by
  refine h.set fun n hn => ?_
  cases hn
  exact Nat.succ_pos _

theorem Tidy.release (h : m.Tidy) : (m.release key).Tidy := by
  refine h.set fun n hn => ?_
  split_ifs at hn
  cases hn
  omega

theorem Tidy.empty (h : m.Tidy) (hfree : ∀ k, m.inUse k = 0) (j : Fin 32) (k : String) : m j k = none := by
  cases hentry : m j k with
  | none => rfl
  | some n =>
    obtain ⟨rfl, hn⟩ := h j k n hentry
    have hzero := hfree k
    rw [inUse, hentry] at hzero
    exact absurd hzero (Nat.ne_of_gt hn)

end Shards

/-! All requests. -/

section
variable {ι : Type} [DecidableEq ι] {reqs : ι → Request} {phase : ι → Phase} {i : ι} {p' : Phase} {k : String}

def holders (reqs : ι → Request) (phase : ι → Phase) (k : String) : Set ι := {i | (phase i).holds (reqs i) k}

theorem holders_same (h : p'.holds (reqs i) k ↔ (phase i).holds (reqs i) k) :
    holders reqs (update phase i p') k = holders reqs phase k := by
  ext j
  by_cases hj : j = i
  · subst hj
    simp [holders, h]
  · simp [holders, update_of_ne hj]

/-- The request holds one key more than before. -/
theorem holders_more (hfree : ¬ (phase i).holds (reqs i) key)
    (h : ∀ k, p'.holds (reqs i) k ↔ k = key ∨ (phase i).holds (reqs i) k) (k : String) :
    ((holders reqs (update phase i p') k).Finite ↔ (holders reqs phase k).Finite) ∧
      ((holders reqs phase k).Finite →
        (holders reqs (update phase i p') k).ncard = (holders reqs phase k).ncard + if k = key then 1 else 0) := by
  by_cases hk : k = key
  · subst hk
    have hinsert : holders reqs (update phase i p') k = insert i (holders reqs phase k) := by
      ext j
      by_cases hj : j = i
      · subst hj
        simp [holders, h]
      · simp [holders, hj]
    have hout : i ∉ holders reqs phase k := hfree
    rw [hinsert, if_pos rfl]
    exact ⟨Set.finite_insert, fun hfinite => Set.ncard_insert_of_notMem hout hfinite⟩
  · rw [holders_same ((h k).trans (or_iff_right hk)), if_neg hk]
    exact ⟨.rfl, fun _ => rfl⟩

/-- Every request is in a phase, and every count is the number of holders. -/
structure Counted (reqs : ι → Request) (s : Sys ι Shards Reply) (phase : ι → Phase) : Prop where
  prog : ∀ i, s.prog i = (phase i).prog (reqs i)
  fits : ∀ i, (phase i).Fits (reqs i)
  tidy : s.mem.Tidy
  finite : ∀ k, (holders reqs phase k).Finite
  count : ∀ k, s.mem.inUse k = (holders reqs phase k).ncard

theorem Change.counted (h : Change (reqs i) m (phase i) p' m') (htidy : m.Tidy)
    (hfinite : ∀ k, (holders reqs phase k).Finite) (hcount : ∀ k, m.inUse k = (holders reqs phase k).ncard) :
    m'.Tidy ∧ (∀ k, (holders reqs (update phase i p') k).Finite) ∧
      ∀ k, m'.inUse k = (holders reqs (update phase i p') k).ncard := by
  cases h with
  | none h =>
    have hsame : ∀ k, holders reqs (update phase i p') k = holders reqs phase k := fun k => holders_same (h k)
    exact ⟨htidy, fun k => hsame k ▸ hfinite k, fun k => by rw [hsame, hcount]⟩
  | take key hfree _ h =>
    refine ⟨htidy.take, fun k => (holders_more hfree h k).1.mpr (hfinite k), fun k => ?_⟩
    rw [Shards.inUse_take, hcount, (holders_more hfree h k).2 (hfinite k)]
  | release key hfree h =>
    -- before, the request held one key more than after
    have hback : update (update phase i p') i (phase i) = phase := by rw [update_idem, update_eq_self]
    have hfree' : ¬ (update phase i p' i).holds (reqs i) key := by rwa [update_self]
    have h' : ∀ k, (phase i).holds (reqs i) k ↔ k = key ∨ (update phase i p' i).holds (reqs i) k := by rwa [update_self]
    have hmore := holders_more hfree' h'
    rw [hback] at hmore
    have hfinite' := fun k => (hmore k).1.mp (hfinite k)
    refine ⟨htidy.release, hfinite', fun k => ?_⟩
    rw [Shards.inUse_release, hcount, (hmore k).2 (hfinite' k), Nat.add_sub_cancel]

/-- A step changes the phase of the request that makes it. -/
theorem Counted.step {s s' : Sys ι Shards Reply} (h : Counted reqs s phase) {ok : Bool}
    (hstep : Conc.step s i ok = some s') :
    ∃ p', Change (reqs i) s.mem (phase i) p' s'.mem ∧ Counted reqs s' (update phase i p') := by
  obtain ⟨ready, f, next, hprog, -, hmem, hprog'⟩ := step_some hstep
  obtain ⟨p', hnext, htransition⟩ := Phase.transition (h.fits i) ((h.prog i).symm.trans hprog) ok s.mem
  rw [← hmem] at htransition
  have hchange := htransition.change (h.fits i)
  obtain ⟨htidy, hfinite, hcount⟩ := hchange.counted h.tidy h.finite h.count
  refine ⟨p', hchange, fun j => ?_, fun j => ?_, htidy, hfinite, hcount⟩
  · rw [hprog']
    by_cases hj : j = i
    · subst hj
      rw [update_self, update_self, hnext]
    · rw [update_of_ne hj, update_of_ne hj, h.prog j]
  · exact (forall_update_iff phase fun j p => p.Fits (reqs j)).mpr
      ⟨htransition.fits (h.fits i), fun j _ => h.fits j⟩ j

end

def noSlots : Shards := fun _ _ => none

theorem counted_start {ι : Type} (reqs : ι → Request) :
    Counted reqs ⟨noSlots, fun i => tokenConcurrencyLimit (reqs i)⟩ fun i => (reqs i).first := by
  have hnone : ∀ k, holders reqs (fun i => (reqs i).first) k = ∅ := by
    intro k
    simp [holders, first_holds]
  refine ⟨fun i => first_prog.symm, fun i => ?_, nofun, fun k => ?_, fun k => ?_⟩
  · unfold first afterUser
    split
    · split
      · trivial
      · assumption
    · assumption
  · rw [hnone]
    exact Set.finite_empty
  · rw [hnone, Set.ncard_empty]
    rfl

theorem counted_reach {ι : Type} [DecidableEq ι] {reqs : ι → Request} {s : Sys ι Shards Reply}
    (hs : Reach anyStep ⟨noSlots, fun i => tokenConcurrencyLimit (reqs i)⟩ s) : ∃ phase, Counted reqs s phase := by
  induction hs with
  | start => exact ⟨_, counted_start reqs⟩
  | step i ok _ hstep _ ih =>
    obtain ⟨phase, h⟩ := ih
    obtain ⟨p', _, h'⟩ := h.step hstep
    exact ⟨_, h'⟩

/-! Which requests are in flight. -/

section
variable {req : Request} {p : Phase}

theorem done_of_ret {reply : Reply} (hfits : p.Fits req) (h : p.prog req = .ret reply) : p = .done reply := by
  cases p with
  | asking =>
    rw [asking_prog hfits] at h
    cases h
  | tokenPending =>
    rw [tokenPending_prog hfits] at h
    cases h
  | rollback | serving => cases h
  | closing =>
    have huser : req.userKey ≠ "" := hfits
    rw [Phase.prog, release_eq, if_neg huser] at h
    cases h
  | leaving => cases h
  | done reply' =>
    cases h
    rfl

def firstStep {α : Type} : Prog Shards α → Shards
  | .ret _ => noSlots
  | .act _ f _ => f true noSlots

theorem firstStep_acquire {α : Type} {limit : Int} {g : Bool → Prog Shards α} (h : 0 < limit) :
    firstStep (acquireMemorySlot key limit >>= g) = noSlots.take key :=
      if_neg (by simpa [Shards.inUse, noSlots] using h)

theorem noSlots_inUse (k : String) : noSlots.inUse k = 0 := rfl

theorem noSlots_release (key k : String) : (noSlots.release key).inUse k = 0 := by
  rw [Shards.inUse_release, noSlots_inUse, Nat.zero_sub]

/-- The key a request asks for first. -/
def Request.firstKey (req : Request) : String := if req.userKey = "" then req.tokenKey else req.userKey

theorem firstStep_first (h : req.firstKey ≠ "") : (firstStep (req.first.prog req)).inUse req.firstKey = 1 := by
  unfold firstKey at h ⊢
  by_cases huser : req.userKey = ""
  · rw [if_pos huser] at h ⊢
    rw [first, if_pos huser, afterUser, if_neg h, tokenPending_prog h,
      firstStep_acquire (clampedLimit_pos h), Shards.inUse_take, noSlots_inUse, if_pos rfl]
  · rw [if_neg huser, first, if_neg huser, asking_prog huser,
      firstStep_acquire (userLimit_pos huser), Shards.inUse_take, noSlots_inUse, if_pos rfl]

theorem firstStep_holds (hfits : p.Fits req) (hk : p.holds req k) :
    (firstStep (p.prog req)).inUse req.firstKey = 0 := by
  cases p with
  | asking => exact hk.elim
  | tokenPending =>
    have huser : req.userKey ≠ "" := fun h => hk.2 (hk.1.trans h)
    rw [tokenPending_prog hfits, firstStep_acquire (clampedLimit_pos hfits), firstKey, if_neg huser,
      Shards.inUse_take, noSlots_inUse, if_neg (req.keys_apart huser)]
  | rollback => exact noSlots_release _ _
  | serving => rfl
  | closing =>
    rw [Phase.prog, release_eq, if_neg hfits]
    exact noSlots_release _ _
  | leaving => exact noSlots_release _ _
  | done _ => exact hk.elim

/-- A request that holds a slot has begun: its first step is not the one that takes the first slot. -/
theorem begun_of_holds (hfits : p.Fits req) (hk : p.holds req k) : p.prog req ≠ tokenConcurrencyLimit req := by
  rw [← first_prog]
  intro h
  have hkey : req.firstKey ≠ "" := by
    unfold firstKey
    cases p <;> simp_all [Phase.holds] <;> grind
  have hzero := firstStep_holds hfits hk
  rw [h, firstStep_first hkey] at hzero
  cases hzero

end

/-- **The slots are counted right.** In every state that is reached, every request is in one of
the phases, and the count of every key is the number of requests that hold a slot of it. A step
that takes a slot stays within the limit its request has for the key. A request that has been
answered, with success or not, holds nothing, and when no request has begun without being
answered, the maps are empty. -/
theorem slots_counted {ι : Type} [DecidableEq ι] (reqs : ι → Request) (s : Sys ι Shards Reply)
    (hs : Reach anyStep ⟨noSlots, fun i => tokenConcurrencyLimit (reqs i)⟩ s) :
    ∃ phase : ι → Phase, (∀ i, s.prog i = (phase i).prog (reqs i)) ∧
      (∀ k, (holders reqs phase k).Finite ∧ s.mem.inUse k = (holders reqs phase k).ncard) ∧
      (∀ i ok s', Conc.step s i ok = some s' → ∀ k, s.mem.inUse k < s'.mem.inUse k →
        (s'.mem.inUse k : Int) ≤ (reqs i).limitOf k) ∧
      (∀ i reply, s.prog i = .ret reply → ∀ k, i ∉ holders reqs phase k) ∧
      ((∀ i, s.prog i = tokenConcurrencyLimit (reqs i) ∨ ∃ reply, s.prog i = .ret reply) →
        ∀ j k, s.mem j k = none) := by
  obtain ⟨phase, h⟩ := counted_reach hs
  have hanswered : ∀ i reply, s.prog i = .ret reply → ∀ k, i ∉ holders reqs phase k := by
    intro i reply hret k hk
    have hdone := done_of_ret (h.fits i) ((h.prog i).symm.trans hret)
    have hk : (phase i).holds (reqs i) k := hk
    rw [hdone] at hk
    exact hk
  refine ⟨phase, h.prog, fun k => ⟨h.finite k, h.count k⟩, ?_, hanswered, ?_⟩
  · intro i ok s' hstep k hmore
    obtain ⟨p', hchange, -⟩ := h.step hstep
    generalize s'.mem = m' at hchange hmore ⊢
    cases hchange with
    | none _ => exact absurd hmore (Nat.lt_irrefl _)
    | take key _ hlimit _ =>
      rw [Shards.inUse_take] at hmore ⊢
      by_cases hk : k = key
      · subst hk
        rw [if_pos rfl]
        omega
      · rw [if_neg hk] at hmore
        exact absurd hmore (Nat.lt_irrefl _)
    | release key _ _ =>
      rw [Shards.inUse_release] at hmore
      omega
  · intro hidle
    refine h.tidy.empty fun k => ?_
    have hnone : holders reqs phase k = ∅ := by
      ext i
      refine ⟨fun hi => ?_, fun hi => hi.elim⟩
      rcases hidle i with hfirst | ⟨reply, hret⟩
      · exact begun_of_holds (h.fits i) hi ((h.prog i).symm.trans hfirst)
      · exact hanswered i reply hret k hi
    rw [h.count, hnone, Set.ncard_empty]

/-! Two requests with one token, which may have one at a time. -/

def exampleRequest (requestId : String) : Request where
  userId := 7
  tokenId := 3
  tokenLimit := 1
  maxConcurrency := some 2
  defaultUserMaxConcurrency := 0
  requestId := requestId

inductive Which
  | first | second
  deriving DecidableEq, Repr

def exampleRequests : Which → Request
  | .first => exampleRequest "r1"
  | .second => exampleRequest "r2"

/-- The first is being served, and the second has to give the slot of the user back: two hold
it, one of them for the time being. -/
theorem second_holds_for_a_while :
    ∃ s, Reach anyStep ⟨noSlots, fun i => tokenConcurrencyLimit (exampleRequests i)⟩ s ∧
      (s.mem.inUse "concurrency:user:7", s.mem.inUse "concurrency:token:3") = (2, 1) ∧
      ∃ phase : Which → Phase, (∀ i, s.prog i = (phase i).prog (exampleRequests i)) ∧
        (holders exampleRequests phase "concurrency:user:7").ncard = 2 := by
  obtain ⟨s, hs, hcounts⟩ : ∃ s, Reach anyStep ⟨noSlots, fun i => tokenConcurrencyLimit (exampleRequests i)⟩ s ∧
      (s.mem.inUse "concurrency:user:7", s.mem.inUse "concurrency:token:3") = (2, 1) :=
    exists_of_run (List.replicate 2 (.first, true) ++ List.replicate 2 (.second, true)) (by decide +kernel)
  obtain ⟨phase, hprog, hcount, -⟩ := slots_counted exampleRequests s hs
  have htwo : s.mem.inUse "concurrency:user:7" = 2 := congrArg Prod.fst hcounts
  exact ⟨s, hs, hcounts, phase, hprog, by rw [← (hcount _).2, htwo]⟩

end AmuxApi.Limiter
