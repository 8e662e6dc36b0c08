import AmuxApi.Payment.Complete

/- The status of an order only moves forward: from pending to success, failed or expired,
   and never out of one of these (`status_only_advances`), in the runs in which an order is
   pending whenever a handler saves its whole row.

   `sessionExpired` is the handler that breaks this without any race: it logs that the
   order is not pending and saves it as expired all the same (`success_then_expired`). The
   other failure handlers do check, but the check and the save are two statements. -/
namespace AmuxApi.Payment
open Txn

/-- The order stays as it is, or leaves pending for good. -/
def Advances (a b : Option Status) : Prop := b = a ∨ (a = some .pending ∧ ∃ st, b = some st ∧ st ≠ .pending)

theorem Advances.refl (a : Option Status) : Advances a a := .inl rfl

theorem Advances.trans {a b c : Option Status} (h : Advances a b) (h' : Advances b c) : Advances a c := by
  rcases h with rfl | ⟨ha, st, hb, hst⟩
  · exact h'
  rcases h' with rfl | ⟨hb', _⟩
  · exact .inr ⟨ha, st, hb, hst⟩
  · -- the first move has left pending already
    rw [hb] at hb'
    exact absurd (Option.some.inj hb') hst

theorem Advances.terminal {st : Status} {b : Option Status} (h : Advances (some st) b) (hst : st ≠ .pending) :
    b = some st := by
  rcases h with e | ⟨e, _⟩
  · exact e
  · exact absurd (Option.some.inj e) hst

/-! One commit. -/

section
variable {cfg : Setting} {r : Request} {own : List (Change Row)} {d d' : Tables}

theorem advances_update {t : String} {o o' : TopUp} (ho : d (.topUp t) = some o)
    (hp : o.status = .pending) (hne : o'.status ≠ .pending) (t' : String) :
    Advances (statusOf d t') (statusOf (Function.update d (.topUp t) (some o')) t') := by
  by_cases e : t' = t
  · subst e
    have hb : statusOf (Function.update d (.topUp t') (some o')) t' = some o'.status := by simp [statusOf]
    rw [hb, statusOf, ho]
    exact .inr ⟨congrArg some hp, o'.status, rfl, hne⟩
  · exact .inl (by simp [statusOf, e])

theorem Effect.advances (h : Effect cfg r own d d') (t : String) : Advances (statusOf d t) (statusOf d' t) := by
  cases h with
  | nothing => exact .refl _
  | complete o now f hr ho hp hf =>
    rw [statusOf_completed]
    split_ifs with e
    · exact .inr ⟨by rw [e, statusOf, ho]; exact congrArg some hp, .success, rfl, by decide⟩
    · exact .refl _
  | fail o o' hr he ho ht hp hf =>
    refine advances_update ho hp ?_ t
    rcases hf with hf | hf <;> rw [hf] <;> decide
  | save o o' he hown ho ht hp hs => exact advances_update ho hp (by rw [hs]; decide) t
  | pay o => exact .inl (by simp [statusOf])

/-- A commit that moves a balance leaves its order success: it completes the order, or it
comes after the save that did. -/
theorem Effect.success_of_credit (h : Effect cfg r own d d')
    (hown : ∀ c ∈ own, Advances (statusOf c.2 r.tradeNo) (statusOf d r.tradeNo)) {u : Nat}
    (hu : balance d u ≠ balance d' u) : statusOf d' r.tradeNo = some .success := by
  cases h with
  | nothing => exact absurd rfl hu
  | complete o now f => simp [statusOf_completed]
  | fail o o' | save o o' => exact absurd (by simp [balance]) hu
  | pay o a b he e ha hb =>
    have h := hown (a, b) (by rw [e]; exact List.mem_singleton.mpr rfl)
    rw [hb] at h
    simpa [statusOf] using h.terminal (by decide)

end

/-! All commits. -/

section
variable {ι : Type} [DecidableEq ι] {cfg : Setting} {req : ι → Request} {g : Guard ι Row}
  {d₀ d : Tables} {hist : List (Commit ι Row)}

/-- What holds of the statuses after the commits so far. -/
structure Forward (req : ι → Request) (d₀ : Tables) (hist : List (Commit ι Row)) (d : Tables) : Prop where
  start : ∀ t, Advances (statusOf d₀ t) (statusOf d t)
  each : ∀ c ∈ hist, ∀ t, Advances (statusOf c.before t) (statusOf c.after t)
  since : ∀ c ∈ hist, ∀ t, Advances (statusOf c.after t) (statusOf d t)
  credit : ∀ c ∈ hist, ∀ u, balance c.before u ≠ balance c.after u →
    statusOf d (req c.call).tradeNo = some .success

theorem Forward.commit (h : Forward req d₀ hist d) {i : ι} {d' : Tables}
    (heff : Effect cfg (req i) (ownChanges i hist) d d') : Forward req d₀ (⟨i, d, d'⟩ :: hist) d' where
  start t := (h.start t).trans (heff.advances t)
  each := List.forall_mem_cons.mpr ⟨heff.advances, h.each⟩
  since := List.forall_mem_cons.mpr ⟨fun _ => .refl _, fun c hc t => (h.since c hc t).trans (heff.advances t)⟩
  credit := by
    refine List.forall_mem_cons.mpr ⟨fun u hu => ?_, fun c hc u hu => ?_⟩
    · refine heff.success_of_credit (fun c hc => ?_) hu
      obtain ⟨c', hc', -, -, e⟩ := mem_ownChanges.mp hc
      rw [← e]
      exact h.since c' hc' _
    · have := heff.advances (req c.call).tradeNo
      rw [h.credit c hc u hu] at this
      exact this.terminal (by decide)

/-- **Statuses only move forward.** Callbacks, failure and expiry events of any orders race
in any interleaving, and an order is pending whenever a failure or expiry event saves it. Then every
commit leaves every order's status, or takes it out of pending; a status other than pending, once
committed, is there for good; and an order for which a balance was moved is success. -/
theorem status_only_advances (cfg : Setting) (req : ι → Request) (d : Tables)
    (s : Sys ι Row OrderLock (Except Err Unit)) (hs : Reach (findsPending req) (payments cfg req d) s) :
    (∀ t, Advances (statusOf d t) (statusOf s.db t)) ∧
    (∀ c ∈ s.hist, ∀ t, Advances (statusOf c.before t) (statusOf c.after t)) ∧
    (∀ c ∈ s.hist, ∀ t st, statusOf c.after t = some st → st ≠ .pending → statusOf s.db t = some st) ∧
    (∀ c ∈ s.hist, ∀ u, balance c.before u ≠ balance c.after u →
      statusOf s.db (req c.call).tradeNo = some .success) := by
  obtain ⟨hc, hk⟩ := payments_effects (fun i k f v h => h) hs
  have fwd : Forward req d s.hist s.db := by
    refine hk.rule ?_ (fun i hist b a ih heff => ih.commit heff) hc
    exact ⟨fun t => .refl _, by simp, by simp, by simp⟩
  refine ⟨fwd.start, fwd.each, fun c hc t st hst hne => ?_, fwd.credit⟩
  have := fwd.since c hc t
  rw [hst] at this
  exact this.terminal hne

end

/-- A failure event and a success callback race: both read the order as pending, the failure
is saved first, and the claim finds nothing to take. -/
theorem failed_order_stays_failed :
    let req : Bool → Request := fun i => if i then .sessionAsyncPaymentFailed 1 "T1" else .recharge "T1" "cus_1" 100
    let d := oneOrder "T1" (newTopUp 7 2 16 "stripe" .stripe 90) (some ⟨10, "", ""⟩)
    ∃ s, Reach (findsPending req) (payments defaultSetting req d) s ∧ statusOf s.db "T1" = some .failed ∧
      ∀ c ∈ s.hist, ∀ t, Advances (statusOf c.before t) (statusOf c.after t) := by
  intro req d
  obtain ⟨s, hs, hp⟩ : ∃ s, Reach (findsPending req) (payments defaultSetting req d) s ∧
      statusOf s.db "T1" = some .failed :=
    exists_of_run
      ([(true, true), (true, true), (false, true)] ++ List.replicate 3 (true, true) ++ List.replicate 3 (false, true))
      (by decide +kernel)
  exact ⟨s, hs, hp, (status_only_advances defaultSetting req d s hs).2.1⟩

/-- The order is paid and credited, then Stripe's expiry event comes in: the order goes from
success to expired. -/
theorem success_then_expired :
    let req : Bool → Request := fun i =>
      if i then .sessionCompleted 1 .notFound "complete" "paid" "T1" "cus_1" 100
      else .sessionExpired 1 .notFound "expired" "T1"
    let d := oneOrder "T1" (newTopUp 7 2 16 "stripe" .stripe 90) (some ⟨10, "", ""⟩)
    ∃ s s', Reach anyUpdate (payments defaultSetting req d) s ∧ Reach anyUpdate s s' ∧
      statusOf s.db "T1" = some .success ∧ balance s.db 7 = some 1000010 ∧
      statusOf s'.db "T1" = some .expired := by
  intro req d
  have hrun : ((run anyUpdate (payments defaultSetting req d)
      [(true, true), (true, true), (true, true), (true, true), (true, true), (true, true)]).bind fun s =>
        (run anyUpdate s [(false, true), (false, true), (false, true), (false, true)]).map fun s' =>
          (statusOf s.db "T1", balance s.db 7, statusOf s'.db "T1")) =
      some (some .success, some 1000010, some .expired) := by decide +kernel
  obtain ⟨s, hs, hrun⟩ := Option.bind_eq_some_iff.mp hrun
  obtain ⟨s', hs', e⟩ := Option.map_eq_some_iff.mp hrun
  simp only [Prod.mk.injEq] at e
  exact ⟨s, s', reach_run .init hs, reach_run .init hs', e.1, e.2.1, e.2.2⟩

end AmuxApi.Payment
