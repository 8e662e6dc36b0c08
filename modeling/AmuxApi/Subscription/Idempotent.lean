import AmuxApi.Subscription.Bounds

/- One request id, any number of calls. Whoever inserts the record charges, whoever moves
   it to refunded gives back, and both happen in the transaction that does it.

   1. `request_effects` — in every interleaving, a commit of a call that carries the
      request id either charges the recorded subscription by the recorded amount, or gives
      that amount back, or does no more than reset subscriptions; the first happens at
      most once, and so does the second.
   2. `reports_charged_subscription` — a call that succeeds reports the subscription that
      was charged, in every run where an INSERT that is refused has met a record of the
      subscription that was being tried.
   3. `reports_other_subscription` — without that condition it does not: the call that
      loses the race answers with its own candidate. -/
namespace AmuxApi.Subscription
open Txn

section
variable {ι : Type} (env : Env)

def Request.carries (requestId : String) : Request → Bool
  | .preConsume _ r _ _ _ => r = requestId
  | .refund r => r = requestId
  | .settle _ _ => false
  | .resetDue _ _ _ => false

def records (requestId : String) (c : Commit ι Row) : Bool :=
  (c.before (.record requestId)).isNone && (c.after (.record requestId)).isSome

def refunds (requestId : String) (c : Commit ι Row) : Bool :=
  !isRefunded c.before requestId && isRefunded c.after requestId

/-- No subscription is changed but by a reset. -/
def Idle (c : Commit ι Row) : Prop := ∀ id, TurnedRow env SameTerms (c.before (.sub id)) (c.after (.sub id))

/-- `amount` is added to subscription `id`, which may have been reset first; the others are
changed at most by a reset. -/
def Charging (id amount : Int) (c : Commit ι Row) : Prop :=
  (∃ s s', c.before (.sub id) = some s ∧ Turned env SameTerms s s' ∧
    c.after (.sub id) = some { s' with amountUsed := s'.amountUsed + amount }) ∧
  ∀ id', id' ≠ id → TurnedRow env SameTerms (c.before (.sub id')) (c.after (.sub id'))

/-- `amount` is taken off subscription `id`, down to 0; the others stay. -/
def GivingBack (id amount : Int) (c : Commit ι Row) : Prop :=
  (∃ s, c.before (.sub id) = some s ∧ c.after (.sub id) = some { s with amountUsed := max 0 (s.amountUsed - amount) }) ∧
  ∀ id', id' ≠ id → c.after (.sub id') = c.before (.sub id')

/-- What a commit of a request with the request id does. -/
inductive RequestEffect (requestId : String) (r : Request) (c : Commit ι Row) : Prop
  | idle (hrec : c.after (.record requestId) = c.before (.record requestId)) (h : Idle env c)
  | charge (cache : Int → Option Plan) (userId amount now id : Int)
      (hr : r = .preConsume cache requestId userId amount now) (hbefore : c.before (.record requestId) = none)
      (hafter : c.after (.record requestId) = some ⟨userId, id, amount, .consumed⟩) (h : Charging env id amount c)
  | giveBack (rec : Record) (hr : r = .refund requestId) (hbefore : c.before (.record requestId) = some rec)
      (hconsumed : rec.status = .consumed)
      (hafter : c.after (.record requestId) = some { rec with status := .refunded })
      (h : 0 < rec.preConsumed → GivingBack rec.userSubscriptionId rec.preConsumed c)
      (hzero : rec.preConsumed ≤ 0 → ∀ id, c.after (.sub id) = c.before (.sub id))

end

/-! One commit. -/

section
variable {ι : Type} {env : Env} {c : Commit ι Row}

variable {amount : Int} {r : Request}

theorem adjust_neg {s : UserSubscription} (h : 0 < amount) :
    s.adjust (-amount) = { s with amountUsed := max 0 (s.amountUsed - amount) } := by
  have : (if -amount < 0 ∧ s.amountUsed + -amount < 0 then 0 else s.amountUsed + -amount) =
      max 0 (s.amountUsed - amount) := by
    split <;> omega
  rw [UserSubscription.adjust, this]

variable {requestId : String}

theorem charges_charging {userId id : Int} (hpos : 0 < amount)
    (h : Along (charges env SameTerms requestId ⟨userId, id, amount, .consumed⟩) c.before c.after) :
    Charging env id amount c := by
  refine ⟨?_, fun id' hid => ?_⟩
  · have := h (.sub id)
    simp only [charges] at this
    obtain ⟨s, s', hs, ht, -, hs'⟩ := this
    exact ⟨s, s', hs, ht, by simp [hs', UserSubscription.adjust, not_lt.mpr hpos.le]⟩
  · have := h (.sub id')
    simpa only [charges, hid, if_false] using this

theorem givesBack_givingBack {rec : Record} (hpos : 0 < rec.preConsumed)
    (h : Along (givesBack requestId rec) c.before c.after) : GivingBack rec.userSubscriptionId rec.preConsumed c := by
  refine ⟨?_, fun id' hid => ?_⟩
  · have := h (.sub rec.userSubscriptionId)
    simp only [givesBack, true_and, hpos] at this
    obtain ⟨s, hs, hs'⟩ := this
    exact ⟨s, hs, by rw [hs', adjust_neg hpos]⟩
  · have := h (.sub id')
    simpa only [givesBack, hid, false_and, if_false] using this

/-- From the effect of a commit to what it does for its own request id. -/
theorem Effect.request (hr : r.carries requestId = true) (h : Effect env SameTerms r c.before c.after) :
    RequestEffect env requestId r c := by
  cases h with
  | turn h => exact .idle (h (.record requestId)) fun id => h (.sub id)
  | charge cache requestId' userId amount now id hr' hpos h =>
    subst hr'
    obtain rfl : requestId' = requestId := by simpa [Request.carries] using hr
    have hrec := h (.record requestId')
    simp only [charges] at hrec
    exact .charge cache userId amount now id rfl hrec.1 hrec.2 (charges_charging hpos h)
  | settle id delta hr' =>
    subst hr'
    cases hr
  | giveBack requestId' rec hr' h =>
    subst hr'
    obtain rfl : requestId' = requestId := by simpa [Request.carries] using hr
    have hrec := h (.record requestId')
    simp only [givesBack] at hrec
    refine .giveBack rec rfl hrec.1 hrec.2.1 hrec.2.2 (fun hpos => givesBack_givingBack hpos h) fun hle id => ?_
    have := h (.sub id)
    simpa only [givesBack, not_lt.mpr hle, and_false, if_false] using this

/-- The record of a request id is created by a request that carries it. -/
theorem Effect.records_carries (hc : records requestId c = true)
    (h : Effect env SameTerms r c.before c.after) : r.carries requestId = true := by
  simp only [records, Bool.and_eq_true, Option.isNone_iff_eq_none, Option.isSome_iff_exists] at hc
  obtain ⟨hnone, rec, hsome⟩ := hc
  -- a row that stays is not created
  have hstays : ∀ {P : Prop}, c.after (.record requestId) = c.before (.record requestId) → P := fun e => by
    rw [hnone, hsome] at e
    cases e
  cases h with
  | turn h => exact hstays (h (.record requestId))
  | charge cache requestId' userId amount now id hr' hpos h =>
    subst hr'
    by_cases e : requestId = requestId'
    · simp [Request.carries, e]
    · have := h (.record requestId)
      simp only [charges, e] at this
      exact hstays this
  | settle id delta hr' h => exact hstays (h (.record requestId))
  | giveBack requestId' rec hr' h =>
    have := h (.record requestId)
    simp only [givesBack] at this
    split at this
    · rw [hnone] at this
      cases this.1
    · exact hstays this

theorem RequestEffect.charging (hc : records requestId c = true) (h : RequestEffect env requestId r c) :
    ∃ userId id amount,
      c.after (.record requestId) = some ⟨userId, id, amount, .consumed⟩ ∧ Charging env id amount c := by
  simp only [records, Bool.and_eq_true, Option.isNone_iff_eq_none, Option.isSome_iff_exists] at hc
  obtain ⟨hnone, rec, hsome⟩ := hc
  cases h with
  | idle hrec => rw [hnone, hsome] at hrec; cases hrec
  | charge cache userId amount now id hr hbefore hafter h => exact ⟨userId, id, amount, hafter, h⟩
  | giveBack rec hr hbefore => rw [hnone] at hbefore; cases hbefore

end

/-! All commits. -/

section
variable {ι : Type} [DecidableEq ι] {env : Env} {req : ι → Request} {g : Guard ι Row} {d : Tables}
  {s : Sys ι Row Empty Reply} {requestId : String}

/-- **Charged once, given back once.** In every interleaving. -/
theorem request_effects (requestId : String) (hs : Reach g (calls env req d) s) :
    (∀ c ∈ s.hist, (req c.call).carries requestId = true → RequestEffect env requestId (req c.call) c) ∧
    (s.hist.filter (records requestId)).length ≤ 1 ∧ (s.hist.filter (refunds requestId)).length ≤ 1 := by
  have hgood := calls_good hs
  refine ⟨fun c hc hr => ?_, ?_, ?_⟩
  · obtain ⟨_, heff⟩ := hgood.kept.mem hc
    exact Effect.request hr heff
  · refine hgood.kept.once (X := fun d => (d (.record requestId)).isSome = true) (fun c hc => ?_)
      (fun i own b a heff hb => (Effect.kin heff).record_stays hb) hgood.chain
    simp only [records, Bool.and_eq_true, Option.isNone_iff_eq_none] at hc
    exact ⟨by rw [hc.1]; simp, hc.2⟩
  · refine hgood.kept.once (X := fun d => isRefunded d requestId = true) (fun c hc => ?_)
      (fun i own b a heff hb => ((Effect.kin heff).record requestId).refunded hb) hgood.chain
    simp only [refunds, Bool.and_eq_true, Bool.not_eq_true'] at hc
    exact ⟨by rw [hc.1]; simp, hc.2⟩

/-- Where a record comes from: it was there at the start, or a commit has created it. -/
theorem record_origin (hs : Reach g (calls env req d) s) {r : Record} (hr : s.db (.record requestId) = some r) :
    (∃ r0, d (.record requestId) = some r0 ∧ r0.charge = r.charge) ∨
    ∃ c ∈ s.hist, records requestId c = true ∧ ∃ r0, c.after (.record requestId) = some r0 ∧ r0.charge = r.charge := by
  have hgood := calls_good hs
  refine hgood.kept.rule (I := fun hist d' => ∀ r, d' (.record requestId) = some r →
    (∃ r0, d (.record requestId) = some r0 ∧ r0.charge = r.charge) ∨
    ∃ c ∈ hist, records requestId c = true ∧ ∃ r0, c.after (.record requestId) = some r0 ∧ r0.charge = r.charge)
    (fun r hr => .inl ⟨r, hr, rfl⟩) (fun i hist b a ih heff r hr => ?_) hgood.chain r hr
  cases hb : b (.record requestId) with
  | none => exact .inr ⟨_, List.mem_cons_self .., by simp [records, hb, hr], r, hr, rfl⟩
  | some rb =>
    obtain ⟨r', hr', hcharge, -⟩ := (Effect.kin heff).record requestId rb hb
    obtain rfl : r' = r := Option.some.inj (hr'.symm.trans hr)
    rcases ih rb hb with ⟨r0, h0, e⟩ | ⟨c, hc, hrec, r0, h0, e⟩
    · exact .inl ⟨r0, h0, e.trans hcharge.symm⟩
    · exact .inr ⟨c, List.mem_cons_of_mem _ hc, hrec, r0, h0, e.trans hcharge.symm⟩

end

/-- Every INSERT of a record that does not go through has met a record of the subscription
that was being tried. -/
def recordsAlike {ι : Type} : Guard ι Row := fun _ k f v ok => insertsAlike k f v ok

/-- **A request is charged once, and the answer says where.** Any number of calls with one
request id among any others, in every run where an INSERT of a record that does not go
through finds a record of the same subscription: what carries the request id charges one
subscription by the recorded amount, at most once, and gives it back at most once; and every
call that succeeds reports the subscription that was charged, in this run or, where the
record was there from the start, before it. -/
theorem reports_charged_subscription {ι : Type} [DecidableEq ι] (env : Env) (req : ι → Request) (d : Tables)
    (requestId : String) (s : Sys ι Row Empty Reply) (hs : Reach recordsAlike (calls env req d) s) :
    (∀ c ∈ s.hist, (req c.call).carries requestId = true → RequestEffect env requestId (req c.call) c) ∧
    (s.hist.filter (records requestId)).length ≤ 1 ∧ (s.hist.filter (refunds requestId)).length ≤ 1 ∧
    ∀ i cache userId amount now res, req i = .preConsume cache requestId userId amount now →
      (s.prog i).result = some (.preConsumed (.ok res)) →
      (∃ r, d (.record requestId) = some r ∧ r.userSubscriptionId = res.userSubscriptionId) ∨
      ∃ c ∈ s.hist, records requestId c = true ∧ ∃ amount, Charging env res.userSubscriptionId amount c := by
  obtain ⟨heffects, honce, hback⟩ := request_effects requestId hs
  refine ⟨heffects, honce, hback, fun i cache userId amount now res hreq hres => ?_⟩
  have hgood := calls_good hs
  have hpost := hgood.returned (Prog.eq_ret_of_result hres)
  rw [hreq] at hpost
  obtain ⟨r, hr, -, hid⟩ := hpost.2
  have hid := hid (.inl fun _ _ _ _ h => h)
  rcases record_origin hs hr with ⟨r₀, h₀, e⟩ | ⟨c, hc, hrec, r₀, h₀, e⟩
  · exact .inl ⟨r₀, h₀, (congrArg (·.2.1) e).trans hid⟩
  -- the commit that created the record has charged the subscription it names
  obtain ⟨_, heff⟩ := hgood.kept.mem hc
  obtain ⟨u, id, a, hafter, hcharging⟩ := (heffects c hc (Effect.records_carries hrec heff)).charging hrec
  rw [hafter] at h₀
  cases h₀
  have : id = res.userSubscriptionId := (congrArg (·.2.1) e).trans hid
  exact .inr ⟨c, hc, hrec, a, this ▸ hcharging⟩

/-- User 7 has subscription 1, which ends first, and subscription 2. -/
def twoSubs : Tables := exampleTables fun id =>
  if id = 1 then some (exampleSub 0 9000) else if id = 2 then some (exampleSub 0 9999) else none

def sameRequest : Bool → Request := fun _ => .preConsume noCache "r1" 7 60 1500

/-- The second call finds the record of the first, and reports its subscription. -/
theorem second_call_reports_first :
    ∃ s, Reach recordsAlike (calls exampleEnv sameRequest twoSubs) s ∧
      (s.prog false).result = some (.preConsumed (.ok ⟨1, 60, 100, 60, 60⟩)) ∧
      ∃ c ∈ s.hist, records "r1" c = true ∧ ∃ amount, Charging exampleEnv 1 amount c := by
  obtain ⟨s, hs, hres⟩ : ∃ s, Reach recordsAlike (calls exampleEnv sameRequest twoSubs) s ∧
      (s.prog false).result = some (.preConsumed (.ok ⟨1, 60, 100, 60, 60⟩)) :=
    exists_of_run (List.replicate 6 (true, true) ++ List.replicate 3 (false, true)) (by decide +kernel)
  obtain ⟨-, -, -, reports⟩ := reports_charged_subscription exampleEnv sameRequest twoSubs "r1" s hs
  refine ⟨s, hs, hres, ?_⟩
  rcases reports false noCache 7 60 1500 _ rfl hres with ⟨r, hr, -⟩ | h
  · cases hr
  · exact h

/-- Two calls with one request id. Both find no record; the first charges subscription 1;
the second then finds no room there, tries subscription 2, is refused by the unique index,
and answers that subscription 2 was charged. -/
theorem reports_other_subscription :
    ∃ s, Reach anyUpdate (calls exampleEnv sameRequest twoSubs) s ∧
      (s.prog false).result = some (.preConsumed (.ok ⟨2, 60, 100, 0, 0⟩)) ∧
      s.db (.record "r1") = some ⟨7, 1, 60, .consumed⟩ ∧ s.db (.sub 1) = some (exampleSub 60 9000) ∧
      s.db (.sub 2) = some (exampleSub 0 9999) := by
  exact exists_of_run
    ([(true, true), (false, true)] ++ List.replicate 5 (true, true) ++ List.replicate 6 (false, true))
    (by decide +kernel)

end AmuxApi.Subscription
