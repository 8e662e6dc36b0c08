import AmuxApi.Payment.Complete

/- An Epay order is credited at most once, as long as `EpayNotify` saves the order while
   it is still pending (`epay_credits_at_most_once`).

   `EpayNotify` reads the order, saves it as success and credits the user in two commits,
   under a mutex of its own process. Nothing in its UPDATE tests the status, so two
   processes that both read the order as pending both credit the user
   (`epay_credits_twice`); so does one that reads the order before an administrator
   completes it elsewhere. -/
namespace AmuxApi.Payment
open Txn Function

/-- A verified Epay success callback or a manual completion, for order `t`. -/
def Request.isEpayOrder (t : String) : Request → Bool
  | .epayNotify _ t' | .manualCompleteTopUp t' _ | .adminCompleteTopUp _ t' _ => t' = t
  | _ => false

variable {t : String} {r : Request}

section
variable (h : r.isEpayOrder t = true)
include h

theorem Request.isEpayOrder_tradeNo : r.tradeNo = t := by
  cases r <;> first | exact of_decide_eq_true h | cases h

theorem Request.isEpayOrder_saves : r.saves = r.isEpay := by
  cases r <;> first | rfl | cases h

/-- Both kinds of request credit the same quota. -/
theorem Request.isEpayOrder_credit {cfg : Setting}
    (o : TopUp) (q : Int) : r.credit cfg o q = q + quotaToAdd cfg o := by
  cases r <;> first | rfl | cases h

end

section
variable {ι : Type} {cfg : Setting} {req : ι → Request} {g : Guard ι Row} {t : String}
  {o : TopUp} {d₀ d : Tables} {hist : List (Commit ι Row)} {i : ι}

/-- The commit takes order `t` from pending to success. -/
def TakesOrder (t : String) (c : Commit ι Row) : Prop :=
  statusOf c.before t = some .pending ∧ statusOf c.after t = some .success

/-- The balances after the order has been credited once. -/
def paidOnce (cfg : Setting) (o : TopUp) (d₀ : Tables) (u : Nat) : Option Int :=
  if o.userId = u then (balance d₀ u).map (· + quotaToAdd cfg o) else balance d₀ u

variable {o' : TopUp}

theorem quotaToAdd_terms {o : TopUp} (h : o'.terms = o.terms) : quotaToAdd cfg o' = quotaToAdd cfg o := by
  rw [quotaToAdd, quotaToAdd, (TopUp.terms_eq h).2]

variable [DecidableEq ι]

/-- Where order `t` stands. Once it is `saved` by an `EpayNotify`, only that call can still
credit it; once `paid`, every `EpayNotify` that saved it has made its second commit. -/
inductive Stage (cfg : Setting) (req : ι → Request) (t : String) (o : TopUp) (d₀ : Tables)
    (hist : List (Commit ι Row)) (d : Tables) : Prop
  | open (hm : ∀ c ∈ hist, ¬ TakesOrder t c) (hb : ∀ u, balance d u = balance d₀ u)
  | saved (i : ι) (hs : statusOf d t = some .success) (hm : ∀ c ∈ hist, TakesOrder t c → c.call = i)
      (hb : ∀ u, balance d u = balance d₀ u)
  | paid (hs : statusOf d t = some .success)
      (hm : ∀ c ∈ hist, TakesOrder t c → (req c.call).isEpay = true → 2 ≤ (ownChanges c.call hist).length)
      (hb : ∀ u, balance d u = paidOnce cfg o d₀ u)

section
variable (h : Stage cfg req t o d₀ hist d)
include h

/-- While the order is pending, nobody has taken it. -/
theorem Stage.of_pending (hp : statusOf d t = some .pending) :
    (∀ c ∈ hist, ¬ TakesOrder t c) ∧ ∀ u, balance d u = balance d₀ u := by
  cases h with
  | «open» hm hb => exact ⟨hm, hb⟩
  | saved i hs | paid hs => rw [hp] at hs; cases hs

theorem Stage.idle (i : ι) : Stage cfg req t o d₀ (⟨i, d, d⟩ :: hist) d := by
  have hno : ¬ TakesOrder t (⟨i, d, d⟩ : Commit ι Row) := by
    rintro ⟨h, h'⟩
    rw [h] at h'
    cases h'
  cases h with
  | «open» hm hb => exact .open (List.forall_mem_cons.mpr ⟨hno, hm⟩) hb
  | saved j hs hm hb => exact .saved j hs (List.forall_mem_cons.mpr ⟨fun h => absurd h hno, hm⟩) hb
  | paid hs hm hb =>
    refine .paid hs (List.forall_mem_cons.mpr ⟨fun h => absurd h hno, fun c hc ht he => ?_⟩) hb
    refine (hm c hc ht he).trans ?_
    by_cases hi : c.call = i
    · rw [hi, ownChanges_self]
      exact Nat.le_succ _
    · rw [ownChanges_other hi]

theorem Stage.complete {now : Int} {f : User → User} (hi : (req i).isEpay = false)
    (ho : d (.topUp t) = some o') (hp : o'.status = .pending) (ht : o'.terms = o.terms)
    (hf : ∀ u, (f u).quota = u.quota + quotaToAdd cfg o') :
    Stage cfg req t o d₀ (⟨i, d, completed d t o' now f⟩ :: hist) (completed d t o' now f) := by
  obtain ⟨hm, hb⟩ := h.of_pending (by simp [statusOf, ho, hp])
  refine .paid (by simp [statusOf_completed]) (List.forall_mem_cons.mpr ⟨fun _ he => ?_, fun c hc h => ?_⟩)
    fun u => ?_
  · rw [hi] at he; cases he
  · exact absurd h (hm c hc)
  · rw [balance_completed (g := (· + quotaToAdd cfg o')) hf, hb u, quotaToAdd_terms ht, paidOnce,
      (TopUp.terms_eq ht).1]

theorem Stage.save (hp : statusOf d t = some .pending) (hs : o'.status = .success) :
    Stage cfg req t o d₀ (⟨i, d, update d (.topUp t) (some o')⟩ :: hist)
      (update d (.topUp t) (some o')) := by
  obtain ⟨hm, hb⟩ := h.of_pending hp
  refine .saved i (by simp [statusOf, hs]) (List.forall_mem_cons.mpr ⟨fun _ => rfl, fun c hc h => ?_⟩) fun u => ?_
  · exact absurd h (hm c hc)
  · rw [← hb u]; simp [balance]

/-- `EpayNotify` credits the user after its save: the order was not credited before. -/
theorem Stage.pay {a b : Tables} (hi : (req i).isEpay = true)
    (hown : ownChanges i hist = [(a, b)]) (ha : statusOf a t = some .pending) (hb : statusOf b t = some .success)
    (ht : o'.terms = o.terms) :
    let d' := update d (.user o'.userId) ((d (.user o'.userId)).map (addQuota (quotaToAdd cfg o')))
    Stage cfg req t o d₀ (⟨i, d, d'⟩ :: hist) d' := by
  intro d'
  obtain ⟨c, hc, hci, rfl, rfl⟩ := mem_ownChanges.mp (by rw [hown]; exact List.mem_singleton.mpr rfl)
  -- crediting the user does not touch the order, so this commit is not itself a taking of it
  have hno : ¬ TakesOrder t (⟨i, d, d'⟩ : Commit ι Row) := by
    rintro ⟨h, h'⟩
    rw [show statusOf d' t = statusOf d t by simp [d', statusOf], h] at h'
    cases h'
  have hbal : ∀ u, balance d' u = if o.userId = u then (balance d u).map (· + quotaToAdd cfg o) else balance d u := by
    intro u
    rw [← (TopUp.terms_eq ht).1, ← quotaToAdd_terms ht]
    by_cases e : o'.userId = u
    · subst e; simp [d', balance, addQuota, comp_def]
    · simp [d', balance, e, Ne.symm e]
  cases h with
  | «open» hm => exact absurd ⟨ha, hb⟩ (hm c hc)
  | saved j hs hm hbal0 =>
    refine .paid (by simpa [d', statusOf] using hs) (List.forall_mem_cons.mpr ⟨fun h => absurd h hno, ?_⟩) fun u => ?_
    · intro c' hc' ht' _
      rw [hm c' hc' ht', ← hm c hc ⟨ha, hb⟩, hci, ownChanges_self, hown]
      simp
    · rw [hbal, hbal0, paidOnce]
  -- in the last stage the one notification that took the order has two commits behind it, this one has one
  | paid hs hm =>
    have := hm c hc ⟨ha, hb⟩ (by rw [hci]; exact hi)
    rw [hci, hown] at this
    simp at this

end

theorem stage_of_effects (hreq : ∀ i, (req i).isEpayOrder t = true) (ho : d₀ (.topUp t) = some o)
    (hc : Chain d₀ hist d) (hk : Kept (proto cfg req g) hist) : SameOrders d₀ d ∧ Stage cfg req t o d₀ hist d := by
  refine hk.rule (I := fun hist d => SameOrders d₀ d ∧ Stage cfg req t o d₀ hist d) ?_
    (fun i hist b a ⟨hsame, ih⟩ heff => ?_) hc
  · exact ⟨.refl _, .open nofun fun _ => rfl⟩
  refine ⟨hsame.trans heff.same, ?_⟩
  have hi := hreq i
  have htn := Request.isEpayOrder_tradeNo hi
  obtain ⟨ob, hob, hterms⟩ := hsame.order ho
  -- every caller is an epay notification or an administrator for this one order: no failure and no other
  -- provider can be among the effects
  cases heff with
  | nothing => exact ih.idle i
  | complete o' now f he ho' hp hf =>
    rw [htn] at ho' ⊢
    rw [hob] at ho'
    cases ho'
    exact ih.complete he hob hp hterms fun u => (hf u).trans (Request.isEpayOrder_credit hi ob u.quota)
  | fail o' o'' hs he =>
    rw [Request.isEpayOrder_saves hi, he] at hs
    cases hs
  | save o' o'' he hown ho' ht hp hs =>
    rw [htn] at ho' ⊢
    exact ih.save (by simp [statusOf, ho', hp]) hs
  | pay o' x y he hown hx hy ho' =>
    rw [htn] at hx hy ho'
    obtain ⟨o'', h'', ht''⟩ := ho'
    rw [hob] at h''
    cases h''
    exact ih.pay he hown hx hy (ht''.symm.trans hterms)

/-- **An Epay order is credited at most once** in every run in which `EpayNotify` saves the
order only while it is pending: however many callbacks and manual completions race, in
however many processes, either no balance has moved or exactly the order's user has been
credited, once. -/
theorem epay_credits_at_most_once (cfg : Setting) (req : ι → Request) (t : String)
    (hreq : ∀ i, (req i).isEpayOrder t = true) (d : Tables) (o : TopUp) (ho : d (.topUp t) = some o)
    (s : Sys ι Row OrderLock (Except Err Unit)) (hs : Reach (findsPending req) (payments cfg req d) s) :
    (∀ u, balance s.db u = balance d u) ∨ (∀ u, balance s.db u = paidOnce cfg o d u) := by
  obtain ⟨hc, hk⟩ := payments_effects (fun i k f v h => h) hs
  cases (stage_of_effects hreq ho hc hk).2 with
  | «open» hm hb => exact .inl hb
  | saved i hs hm hb => exact .inl hb
  | paid hs hm hb => exact .inr hb

end

/-- One callback, run to its end, then a manual completion. -/
theorem epay_then_manual_credits_once :
    let req : Bool → Request := fun i => if i then .epayNotify 1 "T1" else .manualCompleteTopUp "T1" 100
    let o := newTopUp 7 2 16 "alipay" .epay 90
    let d := oneOrder "T1" o (some ⟨10, "", ""⟩)
    ∃ s, Reach (findsPending req) (payments defaultSetting req d) s ∧ balance s.db 7 = some 1000010 ∧
      ((∀ u, balance s.db u = balance d u) ∨ ∀ u, balance s.db u = paidOnce defaultSetting o d u) := by
  intro req o d
  obtain ⟨s, hs, hp⟩ : ∃ s, Reach (findsPending req) (payments defaultSetting req d) s ∧
      balance s.db 7 = some 1000010 :=
    exists_of_run (List.replicate 7 (true, true) ++ [(false, true), (false, true)]) (by decide +kernel)
  exact ⟨s, hs, hp,
    epay_credits_at_most_once defaultSetting req "T1" (by decide) d o (by simp [d, oneOrder]) s hs⟩

/-- Two processes take the callback at once: both read the order as pending, and both
credit the user. -/
theorem epay_credits_twice :
    let req : Bool → Request := fun i => .epayNotify (if i then 1 else 2) "T1"
    let d := oneOrder "T1" (newTopUp 7 2 16 "alipay" .epay 90) (some ⟨10, "", ""⟩)
    ∃ s, Reach anyUpdate (payments defaultSetting req d) s ∧
      balance d 7 = some 10 ∧ balance s.db 7 = some (10 + 1000000 + 1000000) := by
  intro req d
  obtain ⟨s, hs, hp⟩ : ∃ s, Reach anyUpdate (payments defaultSetting req d) s ∧
      balance s.db 7 = some (10 + 1000000 + 1000000) :=
    exists_of_run
      ([(true, true), (false, true), (true, true), (false, true)] ++ List.replicate 5 (true, true) ++
        List.replicate 5 (false, true)) (by decide +kernel)
  exact ⟨s, hs, by decide +kernel, hp⟩

end AmuxApi.Payment
