import Mathlib.Algebra.Order.BigOperators.Ring.Finset
import AmuxApi.ChannelChain.Model

/- How often a channel is chosen. Each random number below the total weight chooses one candidate:
   the walk reads it off the list that has every candidate as often as it weighs (`tickets`). So as
   many numbers choose a candidate as it weighs, and the order of the candidates decides which
   numbers those are, not how many, just when an `int` holds what all of them weigh
   (`picked_by_weight`).

   A weight is any `uint`: where the sum overflows the choice is not by weight (`second_never_picked`). -/
namespace AmuxApi.ChannelChain

def sumOfWeights (candidates : List Channel) : Nat := (candidates.map fun c => c.weight.getD 0).sum

/-- What a candidate weighs: 100 where no candidate has a weight, else its own weight, times 100
where the weights are small on average. -/
def effectiveWeight (candidates : List Channel) (c : Channel) : Nat :=
  if sumOfWeights candidates = 0 then 100
  else if sumOfWeights candidates / candidates.length < 10 then c.weight.getD 0 * 100
  else c.weight.getD 0

/-- The random numbers that choose `c`. -/
def timesPicked (candidates : List Channel) (c : Channel) : Nat :=
  (List.range (smoothing candidates).totalWeight.toNat).countP fun rand => pickChannelByWeight rand candidates = some c

/-- An `int` holds what the candidates weigh. -/
def Addable (candidates : List Channel) : Prop := (candidates.map (effectiveWeight candidates)).sum < 2 ^ 63

theorem bmod_small {n : Int} (h0 : -(2 ^ 63) ≤ n) (h1 : n < 2 ^ 63) : Int.bmod n (2 ^ 64) = n :=
  Int.bmod_eq_of_le (by omega) (by omega)

/-! The walk. -/

/-- Every candidate as often as it weighs. -/
def tickets (weigh : Channel → Nat) (candidates : List Channel) : List Channel :=
  candidates.flatMap fun c => List.replicate (weigh c) c

section
variable {weigh : Channel → Nat} {candidates : List Channel}

theorem tickets_cons (c : Channel) (cs : List Channel) :
    tickets weigh (c :: cs) = List.replicate (weigh c) c ++ tickets weigh cs := List.flatMap_cons

theorem walkWeights_eq {factor adjustment : Int} {cs : List Channel}
    (hweigh : ∀ c ∈ cs, c.getWeight * factor + adjustment = weigh c)
      (hlen : (tickets weigh cs).length < 2 ^ 63) {r : Nat}
    (hr : r < 2 ^ 63) : walkWeights factor adjustment r cs = (tickets weigh cs)[r]? := by
  induction cs generalizing r with
  | nil => simp [walkWeights, tickets]
  | cons c cs ih =>
    rw [tickets_cons, List.length_append, List.length_replicate] at hlen
    simp only [walkWeights, hweigh c List.mem_cons_self]
    rw [tickets_cons, bmod_small (by omega) (by omega)]
    by_cases hfirst : r < weigh c
    · rw [List.getElem?_append_left (by simpa using hfirst)]
      simp [hfirst]
    · rw [if_neg (by omega), List.getElem?_append_right (by simpa using hfirst), List.length_replicate,
        show (r : Int) - weigh c = (r - weigh c : Nat) by omega]
      exact ih (fun c' h => hweigh c' (List.mem_cons_of_mem _ h)) (by omega) (by omega)

theorem count_tickets (c : Channel) : (tickets weigh candidates).count c = candidates.count c * weigh c := by
  induction candidates with
  | nil => simp [tickets]
  | cons c' cs ih =>
    rw [tickets_cons, List.count_append, ih, List.count_replicate]
    by_cases hc : c' = c
    · simp [hc, Nat.add_mul, Nat.add_comm]
    · simp [hc]

theorem countP_range_getElem (l : List Channel) (c : Channel) :
    (List.range l.length).countP (fun r => l[r]? = some c) = l.count c := by
  have hread : (List.range l.length).map (l[·]?) = l.map some := by
    refine List.ext_getElem (by simp) fun r hr _ => ?_
    simp
  have hcount := congrArg (List.countP fun x => decide (x = some c)) hread
  simpa [Function.comp_def, List.count_eq_countP, beq_eq_decide] using hcount

/-! The smoothing. -/

theorem length_tickets : (tickets weigh candidates).length = (candidates.map weigh).sum := by
  simp [tickets]

/-- Of small weights the sum is counted a hundred times. -/
theorem effective_sum (hsum : sumOfWeights candidates ≠ 0) : (candidates.map (effectiveWeight candidates)).sum =
    if sumOfWeights candidates / candidates.length < 10 then sumOfWeights candidates * 100
    else sumOfWeights candidates := by
  unfold effectiveWeight
  simp only [hsum, if_false]
  split
  · rw [List.sum_map_mul_right]
    rfl
  · rfl

theorem Addable.weights (h : Addable candidates) : sumOfWeights candidates < 2 ^ 63 := by
  by_cases hsum : sumOfWeights candidates = 0
  · rw [hsum]
    decide
  · unfold Addable at h
    rw [effective_sum hsum] at h
    split at h <;> omega

theorem getWeight_eq (h : Addable candidates) {c : Channel} (hc : c ∈ candidates) : c.getWeight = c.weight.getD 0 := by
  have hle : c.weight.getD 0 ≤ sumOfWeights candidates :=
    List.single_le_sum (by simp) _ (List.mem_map.mpr ⟨c, hc, rfl⟩)
  have := h.weights
  exact bmod_small (by omega) (by omega)

/-- What the walk subtracts for a candidate is what it weighs, and in all that is the total weight. -/
structure Smoothed (candidates : List Channel) (s : Smoothing) : Prop where
  weigh : ∀ c ∈ candidates, c.getWeight * s.factor + s.adjustment = effectiveWeight candidates c
  total : s.totalWeight = (tickets (effectiveWeight candidates) candidates).length
  small : s.totalWeight < 2 ^ 63

section
variable (h : Addable candidates)
include h

theorem smoothed_scaled (factor : Nat)
    (hweigh : effectiveWeight candidates = fun c => c.weight.getD 0 * factor) {total : Int}
    (htotal : total = sumOfWeights candidates * factor) (hsmall : total < 2 ^ 63) :
    Smoothed candidates ⟨factor, 0, total⟩ := by
  refine ⟨fun c hc => ?_, ?_, hsmall⟩
  · rw [hweigh, getWeight_eq h hc]
    push_cast
    ring
  · have hlength : (tickets (effectiveWeight candidates) candidates).length = sumOfWeights candidates * factor := by
      simp [hweigh, tickets, sumOfWeights, List.sum_map_mul_right]
    rw [hlength, htotal]
    rfl

theorem smoothing_smoothed : Smoothed candidates (smoothing candidates) := by
  have hweights := h.weights
  have hsum : Int.bmod (candidates.map (·.getWeight)).sum (2 ^ 64) = sumOfWeights candidates := by
    have hcast : (candidates.map (·.getWeight)).sum = sumOfWeights candidates := by
      rw [List.map_congr_left fun c hc => getWeight_eq h hc, sumOfWeights, Nat.cast_list_sum, List.map_map]
      rfl
    rw [hcast]
    exact bmod_small (by omega) (by omega)
  have hdiv : (sumOfWeights candidates : Int).tdiv candidates.length =
      (sumOfWeights candidates / candidates.length : Nat) := rfl
  simp only [smoothing, hsum]
  by_cases hzero : sumOfWeights candidates = 0
  · have hweigh : effectiveWeight candidates = fun _ => 100 := funext fun c => if_pos hzero
    have hadd := h
    simp [Addable, hweigh] at hadd
    rw [if_pos (by omega), bmod_small (by omega) (by omega)]
    refine ⟨fun c hc => ?_, by simp [hweigh, tickets], by dsimp only; omega⟩
    have hnone : c.weight.getD 0 = 0 := by
      have hle : c.weight.getD 0 ≤ sumOfWeights candidates :=
        List.single_le_sum (by simp) _ (List.mem_map.mpr ⟨c, hc, rfl⟩)
      omega
    simp [hweigh, getWeight_eq h hc, hnone]
  rw [if_neg (by omega)]
  by_cases havg : sumOfWeights candidates / candidates.length < 10
  · have hsmall : sumOfWeights candidates * 100 < 2 ^ 63 := by
      have hadd := h
      rwa [Addable, effective_sum hzero, if_pos havg] at hadd
    rw [if_pos (by omega), bmod_small (by omega) (by omega)]
    refine smoothed_scaled h 100 (funext fun c => ?_) rfl (by omega)
    rw [effectiveWeight, if_neg hzero, if_pos havg]
  · rw [if_neg (by omega)]
    refine smoothed_scaled h 1 (funext fun c => ?_) (by omega) (by omega)
    rw [effectiveWeight, if_neg hzero, if_neg havg, Nat.mul_one]

/-- Every random number below the total weight is a ticket, and the last resort is not needed. -/
theorem pick_eq {r : Nat} (hr : r < (smoothing candidates).totalWeight.toNat) :
    (walkWeights (smoothing candidates).factor (smoothing candidates).adjustment r candidates).isSome = true ∧
      pickChannelByWeight r candidates = (tickets (effectiveWeight candidates) candidates)[r]? := by
  have hs := smoothing_smoothed h
  have hsmall := hs.small
  have htotal := hs.total
  have hlt : r < (tickets (effectiveWeight candidates) candidates).length := by omega
  have hwalk := walkWeights_eq hs.weigh (by omega) (r := r) (by omega)
  have hsome : (tickets (effectiveWeight candidates) candidates)[r]?.isSome = true := by simp [hlt]
  refine ⟨by rw [hwalk, hsome], ?_⟩
  unfold pickChannelByWeight
  split
  · simp [tickets]
  · next c =>
    have hone : tickets (effectiveWeight [c]) [c] = List.replicate (effectiveWeight [c] c) c := by simp [tickets]
    rw [hone, List.length_replicate] at hlt
    rw [hone, List.getElem?_replicate, if_pos hlt]
  · rw [if_neg (by omega), Int.emod_eq_of_lt (by omega) (by omega), hwalk]
    obtain ⟨c, hc⟩ := Option.isSome_iff_exists.mp hsome
    rw [hc, Option.some_or]

theorem timesPicked_eq (c : Channel) :
    timesPicked candidates c = candidates.count c * effectiveWeight candidates c := by
  rw [← count_tickets, ← countP_range_getElem, timesPicked, (smoothing_smoothed h).total]
  refine List.countP_congr fun r hr => ?_
  have hpick := (pick_eq h (r := r) (by simpa [(smoothing_smoothed h).total] using hr)).2
  rw [hpick]

end

end

/-- As many random numbers choose a candidate as it weighs, for each time that it is in the list; the last
resort is not reached; and in another order of the candidates there are as many. -/
structure ByWeight (candidates : List Channel) : Prop where
  times : ∀ c, timesPicked candidates c = candidates.count c * effectiveWeight candidates c
  walk : ∀ r : Nat, r < (smoothing candidates).totalWeight →
    (walkWeights (smoothing candidates).factor (smoothing candidates).adjustment r candidates).isSome = true
  order : ∀ candidates', candidates'.Perm candidates →
    (smoothing candidates').totalWeight = (smoothing candidates).totalWeight ∧
      ∀ c, timesPicked candidates' c = timesPicked candidates c

section
variable {candidates : List Channel}

theorem Addable.byWeight (h : Addable candidates) : ByWeight candidates := by
  refine ⟨timesPicked_eq h, fun r hr => (pick_eq h (by omega)).1, fun candidates' hperm => ?_⟩
  have hsum : sumOfWeights candidates' = sumOfWeights candidates := (hperm.map _).sum_eq
  have hweigh : effectiveWeight candidates' = effectiveWeight candidates := by
    funext c
    simp only [effectiveWeight, hsum, hperm.length_eq]
  have h' : Addable candidates' := by
    rw [Addable, hweigh, (hperm.map _).sum_eq]
    exact h
  refine ⟨?_, fun c => ?_⟩
  · rw [(smoothing_smoothed h').total, (smoothing_smoothed h).total, hweigh]
    exact congrArg Nat.cast (hperm.flatMap_right _).length_eq
  · rw [timesPicked_eq h', timesPicked_eq h, hweigh, hperm.count_eq]

theorem bmod_lt (n : Int) : Int.bmod n (2 ^ 64) < 2 ^ 63 := by
  have := Int.bmod_lt (x := n) (m := 2 ^ 64) (by decide)
  omega

theorem totalWeight_lt (candidates : List Channel) : (smoothing candidates).totalWeight < 2 ^ 63 := by
  unfold smoothing
  dsimp only
  split
  · simp only [bmod_lt]
  split
  · simp only [bmod_lt]
  · simp only [bmod_lt]

/-- Every ticket has a random number of its own, and the random numbers are an `int`. -/
theorem ByWeight.addable (h : ByWeight candidates) : Addable candidates := by
  have hcount : List.Subperm ((tickets (effectiveWeight candidates) candidates).map some)
      ((List.range (smoothing candidates).totalWeight.toNat).map (pickChannelByWeight · candidates)) := by
    refine List.subperm_ext_iff.mpr fun x hx => ?_
    obtain ⟨c, -, rfl⟩ := List.mem_map.mp hx
    rw [List.count_map_of_injective _ _ (Option.some_injective _), count_tickets, ← h.times c, timesPicked,
      List.count_eq_countP, List.countP_map]
    refine (List.countP_congr fun r _ => ?_).le
    simp
  have hle := hcount.length_le
  have hlt := totalWeight_lt candidates
  rw [List.length_map, List.length_map, List.length_range, length_tickets] at hle
  unfold Addable
  omega

end

/-- **A single candidate is always chosen, and several by their weight**, if and only if there is one or an `int`
holds what they weigh. -/
theorem picked_by_weight (candidates : List Channel) :
    (if candidates.length ≤ 1 then ∀ rand, pickChannelByWeight rand candidates = candidates.head?
      else ByWeight candidates) ↔ candidates.length ≤ 1 ∨ Addable candidates := by
  split
  · rename_i hone
    refine ⟨fun _ => .inl hone, fun _ rand => ?_⟩
    rcases candidates with - | ⟨c, - | ⟨c', rest⟩⟩
    · rfl
    · rfl
    · simp at hone
  · rename_i hmore
    exact ⟨fun h => .inr h.addable, fun h => (h.resolve_left hmore).byWeight⟩

def weighted (id : Int) (weight : Nat) : Channel := { id, priority := none, weight := some weight }

theorem picked_by_weight_two : timesPicked [weighted 1 10, weighted 2 30] (weighted 2 30) = 30 := by
  have h := (picked_by_weight [weighted 1 10, weighted 2 30]).mpr (.inr (by unfold Addable; decide))
  exact (ByWeight.times h (weighted 2 30)).trans (by decide)

/-- Weights whose sum is 2^63: the sum is negative, so is taken to be small, and 100 times it is
0. The first candidate is always chosen, and the second one, which weighs 1, never. -/
theorem second_never_picked : (smoothing [weighted 1 (2 ^ 63 - 1), weighted 2 1]).totalWeight = 0 ∧
    ∀ rand, pickChannelByWeight rand [weighted 1 (2 ^ 63 - 1), weighted 2 1] = some (weighted 1 (2 ^ 63 - 1)) := by
  refine ⟨by decide, fun rand => ?_⟩
  unfold pickChannelByWeight
  exact if_pos (by decide)

end AmuxApi.ChannelChain
