import AmuxApi.Subscription.Calls

/- A subscription is never overspent and never below zero. What a commit adds to
   `amountUsed` was admitted by a WHERE clause or cut off by a CASE that was evaluated on the
   stored row, so each kind of commit keeps the bound (`Effect.inBounds`), and it holds in
   every interleaving (`used_within_total`). -/
namespace AmuxApi.Subscription
open Txn

/-- What is used of a limited subscription is between 0 and its total. -/
def UserSubscription.InBounds (s : UserSubscription) : Prop :=
  0 < s.amountTotal → 0 ≤ s.amountUsed ∧ s.amountUsed ≤ s.amountTotal

instance (s : UserSubscription) : Decidable s.InBounds := inferInstanceAs (Decidable (_ → _))

/-! What a commit keeps. -/

section
variable {s s' : UserSubscription} {v v' : Option UserSubscription}

theorem Turn.apply_inBounds (turn : Turn) (h : s.InBounds) : (turn.apply s).InBounds := by
  cases turn with
  | keep | fill next base => exact h
  | clear next base => exact fun ht => ⟨le_refl 0, le_of_lt ht⟩

theorem UserSubscription.adjust_inBounds {delta : Int} (h : s.InBounds) (hadmits : s.Admits delta) :
    (s.adjust delta).InBounds := by
  intro ht
  have hs := h ht
  have ht : 0 < s.amountTotal := ht
  simp only [UserSubscription.adjust]
  by_cases hpos : 0 < delta
  · -- the row is limited, so the WHERE clause has compared the sum with the total
    have hle := (hadmits hpos).resolve_left (by omega)
    omega
  · split <;> omega

section
variable {env : Env} {St : UserSubscription → UserSubscription → Prop}

theorem Turned.inBounds (h : Turned env St s s') (hs : s.InBounds) : s'.InBounds := by
  rcases h with rfl | ⟨_, _, _, turn, _, _, _, rfl⟩
  · exact hs
  · exact turn.apply_inBounds hs

theorem TurnedRow.inBounds (h : TurnedRow env St v v') (hv : ∀ s, v = some s → s.InBounds) :
    ∀ s, v' = some s → s.InBounds := by
  rcases h with rfl | ⟨s, s', rfl, rfl, ht⟩
  · exact hv
  · rintro _ ⟨⟩
    exact ht.inBounds (hv s rfl)

/-- What the charges, settlements and refunds have in common. -/
theorem adjusted_inBounds {delta : Int} (hs : s.InBounds) (hadmits : s.Admits delta)
    (hv' : v' = some (s.adjust delta)) : ∀ s, v' = some s → s.InBounds := by
  subst hv'
  rintro _ ⟨⟩
  exact UserSubscription.adjust_inBounds hs hadmits

/-- One case for each kind of commit. -/
theorem Effect.inBounds {r : Request} {d d' : Tables} {id : Int} (h : Effect env St r d d')
    (hd : ∀ s, d (.sub id) = some s → s.InBounds) : ∀ s, d' (.sub id) = some s → s.InBounds := by
  cases h with
  | turn h => exact TurnedRow.inBounds (h (.sub id)) hd
  | charge cache requestId userId amount now id' hr hpos h =>
    have hrow := h (.sub id)
    simp only [charges] at hrow
    split at hrow
    · obtain ⟨s, s', hs, ht, hadmits, hs'⟩ := hrow
      exact adjusted_inBounds (ht.inBounds (hd s hs)) hadmits hs'
    · exact hrow.inBounds hd
  | settle id' delta hr h =>
    have hrow := h (.sub id)
    simp only [settles] at hrow
    split at hrow
    · obtain ⟨s, hs, hadmits, hs'⟩ := hrow
      exact adjusted_inBounds (hd s hs) hadmits hs'
    · rw [hrow]
      exact hd
  | giveBack requestId rec hr h =>
    have hrow := h (.sub id)
    simp only [givesBack] at hrow
    split_ifs at hrow with hback
    · obtain ⟨s, hs, hs'⟩ := hrow
      exact adjusted_inBounds (hd s hs) (fun hpos => by omega) hs'
    · rw [hrow]
      exact hd

end

end

/-- **Never overspent, never negative.** Any number of pre-consumptions, settlements,
refunds and reset tasks, in any interleaving and with any statements failing: a subscription
with a total that starts in bounds is in bounds in every state reached. -/
theorem used_within_total {ι : Type} [DecidableEq ι] (env : Env) (req : ι → Request) (d : Tables) (id : Int)
    (hd : ∀ sub, d (.sub id) = some sub → sub.InBounds) (s : Sys ι Row Empty Reply)
      (hs : Reach anyUpdate (calls env req d) s) :
    ∀ sub, s.db (.sub id) = some sub → 0 < sub.amountTotal → 0 ≤ sub.amountUsed ∧ sub.amountUsed ≤ sub.amountTotal := by
  have hgood := calls_good hs
  exact hgood.kept.rule (I := fun _ d' => ∀ sub, d' (.sub id) = some sub → sub.InBounds) hd
    (fun i hist b a ih heff => Effect.inBounds heff ih) hgood.chain

theorem exampleIds_nodup : ([1, 2] : List Int).Nodup := by decide

def exampleEnv : Env := ⟨Go.utc, [1, 2], exampleIds_nodup, 100⟩

/-- A subscription of user 7 to plan 5 with a quota of 100, reset every 1000 seconds. -/
def exampleSub (used endTime : Int) : UserSubscription :=
  ⟨7, 5, 100, used, 1000, endTime, .active, 1000, 2000⟩

/-- The tables with the given subscriptions, plan 5 and no records. -/
def exampleTables (subs : Int → Option UserSubscription) : Tables
  | .sub id => subs id
  | .record _ => none
  | .plan id => if id = 5 then some ⟨"custom", 1000⟩ else none

def noCache : Int → Option Plan := fun _ => none

/-- Two requests of 60 meet a subscription with 100: both find room, one is charged. -/
theorem second_request_refused :
    let req : Bool → Request := fun b => .preConsume noCache (if b then "r1" else "r2") 7 60 1500
    let d := exampleTables fun id => if id = 1 then some (exampleSub 0 9000) else none
    ∃ s, Reach anyUpdate (calls exampleEnv req d) s ∧ s.db (.sub 1) = some (exampleSub 60 9000) ∧
      ∀ sub, s.db (.sub 1) = some sub → 0 < sub.amountTotal →
        0 ≤ sub.amountUsed ∧ sub.amountUsed ≤ sub.amountTotal := by
  intro req d
  obtain ⟨s, hs, hp⟩ : ∃ s, Reach anyUpdate (calls exampleEnv req d) s ∧
      s.db (.sub 1) = some (exampleSub 60 9000) :=
    exists_of_run
      (List.replicate 3 (true, true) ++ List.replicate 3 (false, true) ++ List.replicate 3 (true, true) ++
        List.replicate 4 (false, true)) (by decide +kernel)
  refine ⟨s, hs, hp, used_within_total exampleEnv req d 1 (fun sub h => ?_) s hs⟩
  cases h
  decide

/-- **No interleaving undoes** the terms of a subscription, what a record has charged, or its refund:
whatever a state of a run has of them, every later state has. -/
theorem run_kin {ι : Type} [DecidableEq ι] {env : Env} {req : ι → Request} {d : Tables} {s s'}
    (hs : Reach anyUpdate (calls env req d) s) (hs' : Reach anyUpdate s s') : Kin s.db s'.db :=
  (calls_good hs).between .refl .trans (fun _ _ _ _ heff => Effect.kin heff) hs'

/-- `r1` is charged, and then refunded. -/
theorem refunded_run_kin :
    let d := exampleTables fun _ => some (exampleSub 0 9000)
    let c := calls exampleEnv (fun b : Bool => if b then .preConsume noCache "r1" 7 60 1500 else .refund "r1") d
    ∃ s s', Reach anyUpdate c s ∧ Reach anyUpdate s s' ∧ Kin s.db s'.db ∧
      (s.db (.record "r1")).map (·.status) = some .consumed ∧
        (s'.db (.record "r1")).map (·.status) = some .refunded := by
  intro d c
  have hrun : ((run anyUpdate c (List.replicate 6 (true, true))).bind fun s =>
      (run anyUpdate s (List.replicate 4 (false, true))).map fun s' =>
        ((s.db (.record "r1")).map (·.status), (s'.db (.record "r1")).map (·.status))) =
      some (some .consumed, some .refunded) := by decide +kernel
  obtain ⟨s, hs, hrun⟩ := Option.bind_eq_some_iff.mp hrun
  obtain ⟨s', hs', e⟩ := Option.map_eq_some_iff.mp hrun
  have hs := reach_run .init hs
  have hs' := reach_run .init hs'
  simp only [Prod.mk.injEq] at e
  exact ⟨s, s', hs, hs', run_kin hs hs', e⟩

end AmuxApi.Subscription
