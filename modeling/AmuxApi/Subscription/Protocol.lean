import AmuxApi.Subscription.Model
import AmuxApi.Txn.Logic

/- What the subscription functions do to the tables, one commit at a time.

   `Effect` lists everything a commit can be: resets only, a charge with its record, a
   settlement, or a record given back. Each is said row by row (`Along`): what becomes of
   the row of every key.

   The functions read a row first and write it later, and a reset is computed from the row
   as it was read. `St seen now` is what is known of a row now that was `seen` before; the
   proofs are for every protocol whose rely keeps it (`Disciplined`), and there are two:
   `shared`, where other calls come in between (only the terms of the subscription
   stay), and `undisturbed`, where nothing does (`seen = now`). -/
namespace AmuxApi.Subscription
open Txn

/-! What a commit does. -/

/-- The used amount after `delta` has been applied: more is added, less stops at 0. -/
def UserSubscription.adjust (s : UserSubscription) (delta : Int) : UserSubscription :=
  { s with amountUsed := if delta < 0 ∧ s.amountUsed + delta < 0 then 0 else s.amountUsed + delta }

/-- The WHERE clause of a charge. -/
def UserSubscription.Admits (s : UserSubscription) (delta : Int) : Prop :=
  0 < delta → s.amountTotal ≤ 0 ∨ s.amountUsed + delta ≤ s.amountTotal

section
variable (env : Env) (St : UserSubscription → UserSubscription → Prop)

/-- The row is left, or turned as a call has decided from what it saw of it. -/
def Turned (s s' : UserSubscription) : Prop :=
  s' = s ∨ ∃ seen plan now turn, St seen s ∧ seen.nextResetTime = s.nextResetTime ∧
    dueTurn env plan now seen = some turn ∧ s' = turn.apply s

def TurnedRow (v v' : Option UserSubscription) : Prop :=
  v' = v ∨ ∃ s s', v = some s ∧ v' = some s' ∧ Turned env St s s'

def turns : (k : Key) → Row k → Row k → Prop
  | .sub _, v, v' => TurnedRow env St v v'
  | .record _, v, v' => v' = v
  | .plan _, v, v' => v' = v

/-- A new record of `requestId`, and its amount on its subscription; other subscriptions are
at most turned. -/
def charges (requestId : String) (r : Record) : (k : Key) → Row k → Row k → Prop
  | .sub id, v, v' =>
    if id = r.userSubscriptionId then ∃ s s', v = some s ∧ Turned env St s s' ∧ s'.Admits r.preConsumed ∧
      v' = some (s'.adjust r.preConsumed)
    else TurnedRow env St v v'
  | .record requestId', v, v' => if requestId' = requestId then v = none ∧ v' = some r else v' = v
  | .plan _, v, v' => v' = v

end

def settles (id delta : Int) : (k : Key) → Row k → Row k → Prop
  | .sub id', v, v' =>
    if id' = id then ∃ s, v = some s ∧ s.Admits delta ∧ v' = some (s.adjust delta) else v' = v
  | .record _, v, v' => v' = v
  | .plan _, v, v' => v' = v

/-- Record `r` of `requestId` goes from consumed to refunded, and what it had consumed is
given back. -/
def givesBack (requestId : String) (r : Record) : (k : Key) → Row k → Row k → Prop
  | .sub id, v, v' =>
    if id = r.userSubscriptionId ∧ 0 < r.preConsumed then ∃ s, v = some s ∧ v' = some (s.adjust (-r.preConsumed))
    else v' = v
  | .record requestId', v, v' =>
    if requestId' = requestId then v = some r ∧ r.status = .consumed ∧ v' = some { r with status := .refunded }
    else v' = v
  | .plan _, v, v' => v' = v

/-- Everything a commit of request `r` can be. -/
inductive Effect (env : Env) (St : UserSubscription → UserSubscription → Prop) (r : Request) (d d' : Tables) : Prop
  | turn (h : Along (turns env St) d d')
  | charge (cache : Int → Option Plan) (requestId : String) (userId amount now id : Int)
      (hr : r = .preConsume cache requestId userId amount now) (hpos : 0 < amount)
      (h : Along (charges env St requestId ⟨userId, id, amount, .consumed⟩) d d')
  | settle (id delta : Int) (hr : r = .settle id delta) (h : Along (settles id delta) d d')
  | giveBack (requestId : String) (rec : Record) (hr : r = .refund requestId)
      (h : Along (givesBack requestId rec) d d')

section
variable {env : Env} {St : UserSubscription → UserSubscription → Prop}

theorem Turned.refl (s : UserSubscription) : Turned env St s s := .inl rfl

theorem TurnedRow.refl (v : Option UserSubscription) : TurnedRow env St v v := .inl rfl

theorem turns_refl (k : Key) (v : Row k) : turns env St k v v := by
  cases k with
  | sub id => exact .refl v
  | record requestId | plan id => exact rfl

theorem TurnedRow.of_some {s : UserSubscription} {v : Option UserSubscription} (h : TurnedRow env St (some s) v) :
    ∃ s', v = some s' ∧ Turned env St s s' := by
  rcases h with rfl | ⟨s₀, s', e, rfl, ht⟩
  · exact ⟨s, rfl, .refl s⟩
  · cases e
    exact ⟨s', rfl, ht⟩

end

/-! The protocols. -/

/-- The fields of a record that never change. -/
def Record.charge (r : Record) : Int × Int × Int := (r.userId, r.userSubscriptionId, r.preConsumed)

def isRefunded (d : Tables) (requestId : String) : Bool :=
  (d (.record requestId)).any fun r => r.status = .refunded

/-- A record keeps what it has charged, and does not change once it is refunded. -/
def KinRecord (v v' : Option Record) : Prop :=
  ∀ r, v = some r → ∃ r', v' = some r' ∧ r'.charge = r.charge ∧ (r.status = .refunded → r' = r)

theorem KinRecord.of_eq {v v' : Option Record} (e : v' = v) : KinRecord v v' :=
  fun r hr => ⟨r, e.trans hr, rfl, fun _ => rfl⟩

variable {d d' : Tables}

theorem KinRecord.refunded {requestId : String}
    (h : KinRecord (d (.record requestId)) (d' (.record requestId))) (hd : isRefunded d requestId = true) :
    isRefunded d' requestId = true := by
  simp only [isRefunded, Option.any_eq_true, decide_eq_true_eq] at hd ⊢
  obtain ⟨r, hr, hst⟩ := hd
  obtain ⟨r', hr', -, hkeep⟩ := h r hr
  exact ⟨r', hr', hkeep hst ▸ hst⟩

/-- What the proofs need of a protocol: between two statements of a call, subscriptions stay
as `St` says, none appears, and records keep what they have charged. -/
class Disciplined {ι : Type} (env : outParam Env) (St : outParam (UserSubscription → UserSubscription → Prop))
    (req : outParam (ι → Request)) (P : Proto ι Row Empty) : Prop extends P.Order where
  seen : ∀ s, St s s
  guar : ∀ i own d d', Effect env St (req i) d d' → P.guar i own d d'
  absent : ∀ d d' id, P.rely d d' → d (.sub id) = none → d' (.sub id) = none
  sub : ∀ d d' id s₀ s, P.rely d d' → d (.sub id) = some s → St s₀ s → ∃ s', d' (.sub id) = some s' ∧ St s₀ s'
  record : ∀ d d' requestId, P.rely d d' → KinRecord (d (.record requestId)) (d' (.record requestId))

/-- The terms of a subscription, which no commit here changes. -/
def UserSubscription.terms (s : UserSubscription) : Int × Int × Int × Int × Int × SubStatus :=
  (s.userId, s.planId, s.amountTotal, s.startTime, s.endTime, s.status)

def SameTerms (s s' : UserSubscription) : Prop := s'.terms = s.terms

def KinRow (v v' : Option UserSubscription) : Prop :=
  (v = none → v' = none) ∧ ∀ s, v = some s → ∃ s', v' = some s' ∧ SameTerms s s'

theorem KinRow.refl (v : Option UserSubscription) : KinRow v v := ⟨id, fun s h => ⟨s, h, rfl⟩⟩

/-- What no commit here undoes. -/
structure Kin (d d' : Tables) : Prop where
  sub : ∀ id, KinRow (d (.sub id)) (d' (.sub id))
  record : ∀ requestId, KinRecord (d (.record requestId)) (d' (.record requestId))

theorem Kin.refl (d : Tables) : Kin d d := ⟨fun _ => .refl _, fun _ => .of_eq rfl⟩

theorem Kin.trans {d1 d2 d3 : Tables} (h : Kin d1 d2) (h' : Kin d2 d3) : Kin d1 d3 where
  sub id := by
    refine ⟨fun hd => (h'.sub id).1 ((h.sub id).1 hd), fun s hs => ?_⟩
    obtain ⟨s2, h2, e2⟩ := (h.sub id).2 s hs
    obtain ⟨s3, h3, e3⟩ := (h'.sub id).2 s2 h2
    exact ⟨s3, h3, e3.trans e2⟩
  record requestId r hr := by
    obtain ⟨r2, h2, e2, f2⟩ := h.record requestId r hr
    obtain ⟨r3, h3, e3, f3⟩ := h'.record requestId r2 h2
    refine ⟨r3, h3, e3.trans e2, fun hst => ?_⟩
    have := f2 hst
    subst this
    exact f3 hst

theorem Kin.record_stays (h : Kin d d') {requestId : String} (hd : (d (.record requestId)).isSome) :
    (d' (.record requestId)).isSome := by
  obtain ⟨r, hr⟩ := Option.isSome_iff_exists.mp hd
  obtain ⟨r', hr', -⟩ := h.record requestId r hr
  rw [hr']
  rfl

section
variable {env : Env} {St : UserSubscription → UserSubscription → Prop}

theorem kinRow_some {s s' : UserSubscription} (h : SameTerms s s') : KinRow (some s) (some s') :=
  ⟨nofun, fun _ e => ⟨s', rfl, Option.some.inj e ▸ h⟩⟩

theorem sameTerms_adjust (s : UserSubscription) (delta : Int) : SameTerms s (s.adjust delta) := rfl

theorem Turned.sameTerms {s s' : UserSubscription} (h : Turned env St s s') : SameTerms s s' := by
  rcases h with rfl | ⟨_, _, _, turn, _, _, _, rfl⟩
  · exact rfl
  · cases turn <;> exact rfl

theorem TurnedRow.kin {v v' : Option UserSubscription} (h : TurnedRow env St v v') : KinRow v v' := by
  rcases h with rfl | ⟨s, s', rfl, rfl, h⟩
  · exact .refl _
  · exact kinRow_some h.sameTerms

theorem Effect.kin {r : Request} (h : Effect env St r d d') : Kin d d' := by
  cases h with
  | turn h => exact ⟨fun id => (h (.sub id)).kin, fun requestId => .of_eq (h (.record requestId))⟩
  | charge cache requestId userId amount now id hr hpos h =>
    refine ⟨fun id' => ?_, fun requestId' => ?_⟩
    · have := h (.sub id')
      simp only [charges] at this
      split at this
      · obtain ⟨s, s', hs, ht, -, hs'⟩ := this
        rw [hs, hs']
        exact kinRow_some (ht.sameTerms.trans rfl)
      · exact this.kin
    · have := h (.record requestId')
      simp only [charges] at this
      split at this
      -- the charged request had no record before
      · rw [this.1]
        nofun
      · exact .of_eq this
  | settle id delta hr h =>
    refine ⟨fun id' => ?_, fun requestId => .of_eq (h (.record requestId))⟩
    have := h (.sub id')
    simp only [settles] at this
    split at this
    · obtain ⟨s, hs, -, hs'⟩ := this
      rw [hs, hs']
      exact kinRow_some (sameTerms_adjust s delta)
    · rw [this]
      exact .refl _
  | giveBack requestId rec hr h =>
    refine ⟨fun id' => ?_, fun requestId' => ?_⟩
    · have := h (.sub id')
      simp only [givesBack] at this
      split at this
      · obtain ⟨s, hs, hs'⟩ := this
        rw [hs, hs']
        exact kinRow_some (sameTerms_adjust s _)
      · rw [this]
        exact .refl _
    · have := h (.record requestId')
      simp only [givesBack] at this
      split at this
      · obtain ⟨hd, hc, hd'⟩ := this
        intro r hrec
        rw [hd] at hrec
        cases hrec
        exact ⟨_, hd', rfl, fun hst => by rw [hc] at hst; cases hst⟩
      · exact .of_eq this

end

section
variable {ι : Type} (env : Env) (req : ι → Request)

/-- Any number of calls at once. -/
def shared (g : Guard ι Row) : Proto ι Row Empty where
  rely := Kin
  guar i _ d d' := Effect env SameTerms (req i) d d'
  prot _ _ := False
  guard := g

/-- One call with nothing in between. -/
def undisturbed (r : Request) : Proto Unit Row Empty where
  rely d d' := d' = d
  guar _ _ d d' := Effect env Eq r d d'
  prot _ _ := False
  guard := anyUpdate

instance shared_sound (g : Guard ι Row) : (shared env req g).Sound where
  refl := Kin.refl
  trans _ _ _ := Kin.trans
  guar _ _ _ _ := Effect.kin

instance shared_disciplined (g : Guard ι Row) : Disciplined env SameTerms req (shared env req g) where
  toOrder := (shared_sound env req g).toOrder
  seen _ := rfl
  guar _ _ _ _ h := h
  absent _ _ id h := (h.sub id).1
  sub _ _ id s₀ s h hs hst := by
    obtain ⟨s', hs', e⟩ := (h.sub id).2 s hs
    exact ⟨s', hs', e.trans hst⟩
  record _ _ requestId h := h.record requestId

instance undisturbed_disciplined (r : Request) : Disciplined env Eq (fun _ => r) (undisturbed env r) where
  refl _ := rfl
  trans _ _ _ h h' := h'.trans h
  seen _ := rfl
  guar _ _ _ _ h := h
  absent _ _ _ h hd := by rw [h]; exact hd
  sub _ _ _ _ s h hs hst := ⟨s, by rw [h]; exact hs, hst⟩
  record _ _ _ h := .of_eq (by rw [h])

end

end AmuxApi.Subscription
