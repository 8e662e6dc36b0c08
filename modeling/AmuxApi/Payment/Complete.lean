import AmuxApi.Payment.Protocol

/- Orders are credited once. The four completion functions, and the handlers that only
   call them, race on the same rows; the claim inside the transaction decides.

   `completions_credit_once`: in every interleaving, the commits that complete an order
   are for different orders, they are exactly the orders that went from pending to
   success, and every balance is the first one with each completion's credit applied once.
   A user row that is gone cannot be credited: its order is completed all the same
   (`completed_without_user`). -/
namespace AmuxApi.Payment
open Txn

section
variable {ι : Type} (cfg : Setting) (req : ι → Request)

def completes (c : Commit ι Row) : Bool :=
  statusOf c.before (req c.call).tradeNo = some .pending ∧ statusOf c.after (req c.call).tradeNo = some .success

def completions (hist : List (Commit ι Row)) : List (Commit ι Row) := hist.filter (completes req)

/-- User `u`'s balance after the commit has completed its order. -/
def credited (u : Nat) (c : Commit ι Row) (b : Option Int) : Option Int :=
  match c.before (.topUp (req c.call).tradeNo) with
  | some o => if o.userId = u then b.map ((req c.call).credit cfg o) else b
  | none => b

end

/-! One commit. -/

section
variable {cfg : Setting} {r : Request} {own : List (Change Row)} {d d' : Tables} {t : String} {o : TopUp} {now : Int}
  {f : User → User}

/-- A request that saves no whole row can only complete its order. -/
theorem Effect.completion (h : Effect cfg r own d d') (hr : r.saves = false) :
    d' = d ∨ ∃ o now f, d (.topUp r.tradeNo) = some o ∧ o.status = .pending ∧
      (∀ u, (f u).quota = r.credit cfg o u.quota) ∧ d' = completed d r.tradeNo o now f := by
  have he := Request.not_epay_of_not_saves hr
  cases h with
  | nothing => exact .inl rfl
  | complete o now f _ ho hp hf => exact .inr ⟨o, now, f, ho, hp, hf, rfl⟩
  | fail o o' hr' => rw [hr] at hr'; cases hr'
  | save o o' he' | pay o a b he' => rw [he] at he'; cases he'

theorem statusOf_completed (t' : String) :
    statusOf (completed d t o now f) t' = if t' = t then some .success else statusOf d t' := by
  by_cases e : t' = t
  · subst e; simp [statusOf, completed, TopUp.complete]
  · simp [statusOf, completed, e]

theorem balance_completed {g : Int → Int}
    (hf : ∀ u, (f u).quota = g u.quota) (u : Nat) :
    balance (completed d t o now f) u = if o.userId = u then (balance d u).map g else balance d u := by
  by_cases e : o.userId = u
  · subst e
    simp only [balance, completed, Function.update_self, Option.map_map]
    congr 1
    funext v
    exact hf v
  · simp [balance, completed, Ne.symm e, e]

end

/-! All commits. -/

section
variable {ι : Type} {cfg : Setting} {req : ι → Request} {g : Guard ι Row} {d₀ : Tables}

/-- What the commits so far have done to orders and balances. -/
structure Ledger (cfg : Setting) (req : ι → Request) (d₀ : Tables) (hist : List (Commit ι Row)) (d : Tables) :
    Prop where
  forward : ∀ t, statusOf d t = statusOf d₀ t ∨ (statusOf d₀ t = some .pending ∧ statusOf d t = some .success)
  once : ((completions req hist).map fun c => (req c.call).tradeNo).Nodup
  moved : ∀ t, (∃ c ∈ completions req hist, (req c.call).tradeNo = t) ↔
    statusOf d₀ t = some .pending ∧ statusOf d t = some .success
  balances : ∀ u, balance d u = (completions req hist).foldr (credited cfg req u) (balance d₀ u)

variable {hist : List (Commit ι Row)} {d : Tables} {t : String} {o : TopUp} {now : Int} {f : User → User}

theorem Ledger.pending (h : Ledger cfg req d₀ hist d) (ht : statusOf d t = some .pending) :
    statusOf d₀ t = some .pending := by
  rcases h.forward t with e | ⟨e, _⟩
  · rw [← e]; exact ht
  · exact e

theorem Ledger.nil : Ledger cfg req d₀ [] d₀ where
  forward _ := .inl rfl
  once := List.nodup_nil
  moved t := by
    constructor
    · rintro ⟨c, hc, _⟩
      cases hc
    · rintro ⟨h, h'⟩
      rw [h] at h'
      cases h'
  balances _ := rfl

theorem Ledger.idle (h : Ledger cfg req d₀ hist d) (i : ι) : Ledger cfg req d₀ (⟨i, d, d⟩ :: hist) d := by
  have hskip : completions req (⟨i, d, d⟩ :: hist) = completions req hist := by
    have hno : completes req ⟨i, d, d⟩ = false := by
      simp only [completes, decide_eq_false_iff_not]
      rintro ⟨h, h'⟩
      rw [h] at h'
      cases h'
    simp [completions, hno]
  exact ⟨h.forward, by rw [hskip]; exact h.once, by rw [hskip]; exact h.moved, by rw [hskip]; exact h.balances⟩

theorem Ledger.complete (h : Ledger cfg req d₀ hist d) {i : ι}
    (ho : d (.topUp (req i).tradeNo) = some o) (hp : o.status = .pending)
    (hf : ∀ u, (f u).quota = (req i).credit cfg o u.quota) :
    Ledger cfg req d₀ (⟨i, d, completed d (req i).tradeNo o now f⟩ :: hist)
      (completed d (req i).tradeNo o now f) := by
  have hst : statusOf d (req i).tradeNo = some .pending := by simp [statusOf, ho, hp]
  have hst0 := h.pending hst
  -- only a pending order is completed, so this commit is a completion and the first one of its order
  have hadd : completions req (⟨i, d, completed d (req i).tradeNo o now f⟩ :: hist) =
      ⟨i, d, completed d (req i).tradeNo o now f⟩ :: completions req hist := by
    have hyes : completes req ⟨i, d, completed d (req i).tradeNo o now f⟩ = true := by
      simp [completes, hst, statusOf_completed]
    simp [completions, hyes]
  refine ⟨fun t => ?_, ?_, fun t => ?_, fun u => ?_⟩
  · rw [statusOf_completed]
    split
    · rename_i e; exact .inr ⟨e ▸ hst0, rfl⟩
    · exact h.forward t
  · rw [hadd, List.map_cons, List.nodup_cons]
    refine ⟨fun hmem => ?_, h.once⟩
    obtain ⟨c, hc, e⟩ := List.mem_map.mp hmem
    -- an earlier completion of the order would have left it successful, not pending
    have := ((h.moved _).mp ⟨c, hc, e⟩).2
    rw [hst] at this
    cases this
  · rw [hadd, statusOf_completed]
    by_cases e : t = (req i).tradeNo
    · subst e
      simp [hst0]
    · rw [if_neg e, ← h.moved t]
      simp [Ne.symm e]
  · rw [hadd, List.foldr_cons, ← h.balances u, balance_completed hf, credited]
    simp only [ho]

variable [DecidableEq ι]

/-- The run: from the effect of each commit to the ledger of all of them. -/
theorem ledger_of_effects (hr : ∀ i, (req i).saves = false) (hc : Chain d₀ hist d)
    (hk : Kept (proto cfg req g) hist) : Ledger cfg req d₀ hist d := by
  refine hk.rule .nil (fun i hist b a ih heff => ?_) hc
  rcases Effect.completion heff (hr i) with rfl | ⟨o, now, f, ho, hp, hf, rfl⟩
  · exact ih.idle i
  · exact ih.complete ho hp hf

/-- **Orders are credited once.** Any number of calls of the completion functions (or of
the handlers that only call them), in any interleaving and with any statements failing:
no order is completed twice, the completed orders are exactly those that went from pending
to success, and every user's balance is the first one with the credit of each completed
order of that user applied, once each. -/
theorem completions_credit_once (cfg : Setting) (req : ι → Request) (hreq : ∀ i, (req i).saves = false) (d : Tables)
    (s : Sys ι Row OrderLock (Except Err Unit)) (hs : Reach anyUpdate (payments cfg req d) s) :
    ((completions req s.hist).map fun c => (req c.call).tradeNo).Nodup ∧
    (∀ t, (∃ c ∈ completions req s.hist, (req c.call).tradeNo = t) ↔
      statusOf d t = some .pending ∧ statusOf s.db t = some .success) ∧
    ∀ u, balance s.db u = (completions req s.hist).foldr (credited cfg req u) (balance d u) := by
  have hin : ∀ i, InPlace req anyUpdate i := by
    intro i k f v _
    cases k <;> simp [findsPending, hreq i]
  obtain ⟨hc, hk⟩ := payments_effects hin hs
  have ledger := ledger_of_effects hreq hc hk
  exact ⟨ledger.once, ledger.moved, ledger.balances⟩

end

/-- Stripe delivers the success event twice, and the two calls interleave: both read the
order as pending, one claims it, the other finds it claimed. -/
theorem two_callbacks_credit_once :
    let req : Bool → Request := fun _ => .recharge "T1" "cus_1" 100
    let d := oneOrder "T1" (newTopUp 7 2 16 "stripe" .stripe 90) (some ⟨10, "", ""⟩)
    ∃ s, Reach anyUpdate (payments defaultSetting req d) s ∧ balance s.db 7 = some 1000010 ∧
      ((completions req s.hist).map fun c => (req c.call).tradeNo).Nodup ∧
      ∀ u, balance s.db u = (completions req s.hist).foldr (credited defaultSetting req u) (balance d u) := by
  intro req d
  obtain ⟨s, hs, hp⟩ : ∃ s, Reach anyUpdate (payments defaultSetting req d) s ∧
      balance s.db 7 = some 1000010 :=
    exists_of_run
      ([(true, true), (false, true)] ++ List.replicate 3 (true, true) ++ List.replicate 3 (false, true))
      (by decide +kernel)
  have once := completions_credit_once defaultSetting req (fun _ => rfl) d s hs
  exact ⟨s, hs, hp, once.1, once.2.2⟩

/-- The user was deleted after placing the order: the order goes from pending to success,
and there is no balance to credit. -/
theorem completed_without_user :
    let d := oneOrder "T1" (newTopUp 7 2 16 "stripe" .stripe 90) none
    ∃ s, Reach anyUpdate (payments defaultSetting (fun _ : Unit => .recharge "T1" "cus_1" 100) d) s ∧
      statusOf d "T1" = some .pending ∧ statusOf s.db "T1" = some .success ∧ balance s.db 7 = none := by
  intro d
  obtain ⟨s, hs, hp⟩ : ∃ s, Reach anyUpdate (payments defaultSetting (fun _ : Unit => .recharge "T1" "cus_1" 100) d) s ∧
      statusOf s.db "T1" = some .success ∧ balance s.db 7 = none :=
    exists_of_run (List.replicate 4 ((), true)) (by decide +kernel)
  exact ⟨s, hs, by decide +kernel, hp⟩

end AmuxApi.Payment
