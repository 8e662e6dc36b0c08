import AmuxApi.Billing.Create

/- The life of a session. `Reserve`, `Settle` and `Refund` come in any order and any number
   of times, and the goroutine of a refund runs at any time after it. The first call that
   settles or refunds the session ends it (`Ending`).

   1. `Paid` — while the session runs, its funding source has given exactly
      `preConsumedQuota`, and every book the session keeps says so.
   2. `ends_reserve`, `ends_settle`, `refund_paid`, `ends_job` — what each call makes of it.
   3. `lifecycle_nets` — a settled session has taken the actual quota, a refunded one
      nothing, and no call after that changes it.
   4. `failed_rollback_overcharges` — a reserve whose rollback fails is taken for good. -/
namespace AmuxApi.Billing
open Txn Session World
open Subscription (Tables Record UserSubscription Turned charges settles givesBack)

/-! What has been taken. -/

/-- The account a source draws on: the wallet, or a subscription. -/
def Funding.account : Funding → Option Int
  | .wallet _ => none
  | .subscription f => some f.subscriptionId

/-- The quota of the wallet, or the used amount of the subscription, before it was charged;
a reset that was due comes first. -/
def Before (env : Subscription.Env) (w : World) : Option Int → Int → Prop
  | none, base => base = w.wallet
  | some id, base => ∃ s s', w.tables (.sub id) = some s ∧ Turned env Eq s s' ∧ base = s'.amountUsed

/-- What has been taken from the account since. -/
def World.taken (w : World) (base : Int) : Option Int → Int
  | none => base - w.wallet
  | some id => (w.tables (.sub id)).elim 0 UserSubscription.amountUsed - base

variable {s : UserSubscription} {delta : Int}

section
variable {d d' : Tables} {w : World} {id : Int}

theorem taken_row {base : Int} (hs : w.tables (.sub id) = some s) : w.taken base (some id) = s.amountUsed - base := by
  simp [taken, hs]

/-- A settlement that does not go below 0 is exact. -/
theorem settles_row (h : Along (settles id delta) d d')
    (hs : d (.sub id) = some s) (hnonneg : 0 ≤ s.amountUsed + delta) :
    d' (.sub id) = some { s with amountUsed := s.amountUsed + delta } := by
  have hrow := h (.sub id)
  simp only [settles] at hrow
  obtain ⟨s', hs', -, hd'⟩ := hrow
  rw [hs] at hs'
  cases hs'
  rw [hd', UserSubscription.adjust, if_neg (by omega)]

theorem settles_record (h : Along (settles id delta) d d') (requestId : String) :
    d' (.record requestId) = d (.record requestId) :=
  h (.record requestId)

theorem givesBack_row {requestId : String} {r : Record}
    (h : Along (givesBack requestId r) d d') (hpre : 0 < r.preConsumed) (hs : d (.sub r.userSubscriptionId) = some s)
    (hnonneg : 0 ≤ s.amountUsed - r.preConsumed) :
    d' (.sub r.userSubscriptionId) = some { s with amountUsed := s.amountUsed - r.preConsumed } := by
  have hrow := h (.sub r.userSubscriptionId)
  simp only [givesBack, true_and, hpre] at hrow
  obtain ⟨s', hs', hd'⟩ := hrow
  rw [hs] at hs'
  cases hs'
  rw [hd', UserSubscription.adjust, if_neg (by omega), Int.sub_eq_add_neg]

end

/-! While the session runs. -/

/-- The subscription has given the record's amount and `extra` on top of `base`. -/
structure Pays (base : Int) (f : SubscriptionFunding) (extra : Int) (w : World) : Prop where
  base_nonneg : 0 ≤ base
  pre_pos : 0 < f.preConsumed
  extra_nonneg : 0 ≤ extra
  id_pos : 0 < extra → 0 < f.subscriptionId
  row : ∃ s, w.tables (.sub f.subscriptionId) = some s ∧ s.amountUsed = base + f.preConsumed + extra
  record : ∃ r, w.tables (.record f.requestId) = some r ∧ r.status = .consumed ∧ r.preConsumed = f.preConsumed ∧
    r.userSubscriptionId = f.subscriptionId

/-- What the source of a running session has given; `pending` is reserved and not booked. -/
def Funding.Given (base : Int) (s : Session) (pending : Int) (w : World) : Funding → Prop
  | .wallet consumed => consumed = s.preConsumedQuota + pending ∧ base - w.wallet = consumed
  | .subscription f => Pays base f (s.extraReserved + pending) w ∧ 0 ≤ s.extraReserved ∧
      f.preConsumed + s.extraReserved = s.preConsumedQuota ∧ w.info.subscriptionId = f.subscriptionId

structure Paid (base : Int) (s : Session) (pending : Int) (w : World) : Prop where
  unfinished : s.fundingSettled = false ∧ s.settled = false ∧ s.refunded = false
  nonneg : 0 ≤ s.preConsumedQuota
  tokenConsumed : s.tokenConsumed = s.preConsumedQuota
  given : s.funding.Given base s pending w

section
variable {base pending : Int} {s : Session} {w w' : World} {f : SubscriptionFunding} {extra : Int}

theorem Paid.taken (h : Paid base s pending w) : w.taken base s.funding.account = s.preConsumedQuota + pending := by
  have hgiven := h.given
  cases hf : s.funding with
  | wallet consumed =>
    rw [hf] at hgiven
    exact hgiven.2.trans hgiven.1
  | subscription f =>
    rw [hf] at hgiven
    obtain ⟨hpays, -, hpre, -⟩ := hgiven
    obtain ⟨row, hrow, hused⟩ := hpays.row
    rw [Funding.account, taken_row hrow]
    omega

/-- Everything but the token is left alone. -/
structure OnlyToken (w w' : World) : Prop where
  wallet : w'.wallet = w.wallet
  tables : w'.tables = w.tables
  info : w'.info = w.info

theorem Paid.same (h : Paid base s pending w) (hw : OnlyToken w w') : Paid base s pending w' := by
  have hgiven := h.given
  refine { h with given := ?_ }
  cases hf : s.funding with
  | wallet consumed =>
    rw [hf] at hgiven
    exact ⟨hgiven.1, by rw [hw.wallet]; exact hgiven.2⟩
  | subscription f =>
    rw [hf] at hgiven
    obtain ⟨hpays, hextra, hpre, hinfo⟩ := hgiven
    refine ⟨{ hpays with row := ?_, record := ?_ }, hextra, hpre, by rw [hw.info]; exact hinfo⟩
    · rw [hw.tables]
      exact hpays.row
    · rw [hw.tables]
      exact hpays.record

theorem Pays.settle (h : Pays base f extra w) {d : Tables}
    (hd : Along (settles f.subscriptionId delta) w.tables d) (hextra : 0 ≤ extra + delta) (hid : 0 < f.subscriptionId) :
    Pays base f (extra + delta) { w with tables := d } := by
  obtain ⟨row, hrow, hused⟩ := h.row
  have hbase := h.base_nonneg
  have hpre := h.pre_pos
  refine { h with extra_nonneg := hextra, id_pos := fun _ => hid, row := ?_, record := ?_ }
  · exact ⟨_, settles_row hd hrow (by omega), by dsimp only; omega⟩
  · obtain ⟨r, hr, hrest⟩ := h.record
    exact ⟨r, (settles_record hd _).trans hr, hrest⟩

end

/-! The beginning. -/

theorem turned_nonneg {env : Subscription.Env} {s' : UserSubscription} (h : Turned env Eq s s')
    (hs : 0 ≤ s.amountUsed) : 0 ≤ s'.amountUsed := by
  rcases h with rfl | ⟨seen, plan, now, turn, -, -, -, rfl⟩
  · exact hs
  · cases turn with
    | keep | fill next start => exact hs
    | clear next start => exact le_refl 0

section
variable {legal : Kind → Answer → Prop} {host : Host} {relay : Relay}

theorem Opened.paid {s : Session} {w w' : World} {quota : Int} (h : Opened legal host.env relay quota s w w')
    (hquota : 0 ≤ s.preConsumedQuota)
    (hnew : s.funding.source = .subscription → w.tables (.record relay.requestId) = none)
    (hused : ∀ id sub, w.tables (.sub id) = some sub → 0 ≤ sub.amountUsed) :
    ∃ base, Before host.env w s.funding.account base ∧ Paid base s 0 w' := by
  have hmax : max 0 s.preConsumedQuota = s.preConsumedQuota := max_eq_right hquota
  have hextra := h.extraReserved
  have hcharged := h.charged
  have hholds := h.holds
  have hpaid : ∀ base, s.funding.Given base s 0 w' → Paid base s 0 w' := fun base hgiven =>
    ⟨h.unfinished, hquota, h.tokenConsumed.trans hmax, hgiven⟩
  cases hf : s.funding with
  | wallet consumed =>
    rw [hf] at hcharged hholds hpaid
    refine ⟨w.wallet, rfl, hpaid _ ⟨?_, ?_⟩⟩
    · rw [show consumed = _ from hholds, hmax, Int.add_zero]
    · rw [hcharged.1, show consumed = _ from hholds]
      omega
  | subscription f =>
    rw [hf] at hcharged hholds hpaid hnew
    obtain ⟨hreq, -, hinfo⟩ := hholds
    -- the record of the request is new, so this call charged: the reset it may have made is part of the base
    obtain ⟨hpos, hpre, halong⟩ := hcharged.2.1 (by rw [hreq]; exact hnew rfl)
    have hrow := halong (.sub f.subscriptionId)
    have hrec := halong (.record f.requestId)
    simp only [charges] at hrow hrec
    obtain ⟨sub, sub', hsub, hturn, -, hsub'⟩ := hrow
    refine ⟨sub'.amountUsed, ⟨sub, sub', hsub, hturn, rfl⟩, hpaid _ ⟨?_, by omega, by omega, hinfo⟩⟩
    refine ⟨turned_nonneg hturn (hused _ _ hsub), by omega, by omega, fun hlt => by omega, ?_, ?_⟩
    · refine ⟨_, hsub', ?_⟩
      rw [UserSubscription.adjust]
      dsimp only
      omega
    · exact ⟨_, hrec.2, rfl, hpre.symm, rfl⟩

/-! Reserve. -/

variable {base : Int} {s : Session} {w : World} {delta : Int}

/-- The same session with `delta` more taken from its source, not booked yet. -/
structure Holding (base : Int) (s s' : Session) (delta : Int) (w : World) : Prop where
  account : s'.funding.account = s.funding.account
  paid : Paid base s' delta w

variable (hd : ∀ k, legal k default)
include hd

theorem ends_reserveFunding (h : Paid base s 0 w) (hdelta : 0 < delta) :
    Ends legal (s.reserveFunding host delta) (Tried w fun s' w' =>
      Holding base s s' delta w' ∧ w'.info.billingSource = w.info.billingSource) w := by
  have hgiven := h.given
  unfold reserveFunding
  split
  · rename_i consumed hf
    rw [hf] at hgiven
    apply (ends_readQuota hd wallet).tried
    · exact fun e => ends_pure rfl
    intro userQuota w' hw
    subst hw
    dsimp only
    split
    · exact ends_pure rfl
    refine Ends.tried (R := fun _ (w1 : World) => w1 = { w' with wallet := w'.wallet - delta })
      (ends_changeQuota hd (fun _ => rfl) fun _ => rfl) ?_ ?_
    · exact fun e => ends_pure rfl
    intro _ w1 hw1
    subst hw1
    refine ends_change (ends_pure ⟨⟨by rw [hf]; rfl, { h with given := ⟨?_, ?_⟩ }⟩, rfl⟩)
    · dsimp only
      have := hgiven.1
      omega
    · dsimp only
      have := hgiven.2
      omega
  · rename_i f hf
    rw [hf] at hgiven
    obtain ⟨hpays, hextra, hpre, hinfo⟩ := hgiven
    refine Ends.tried (R := fun _ (w' : World) =>
        0 < f.subscriptionId ∧ ∃ d, Along (settles f.subscriptionId delta) w.tables d ∧ w' = { w with tables := d })
      (ends_postConsume hd (by omega) (fun _ => rfl) fun d hid hset => ⟨hid, d, hset, rfl⟩) ?_ ?_
    · exact fun e => ends_pure rfl
    intro _ w' hw'
    obtain ⟨hid, d, hset, rfl⟩ := hw'
    refine ends_pure ⟨⟨rfl, { h with given := ?_ }⟩, rfl⟩
    rw [hf]
    refine ⟨?_, hextra, hpre, hinfo⟩
    have := hpays.settle hset (by omega) hid
    rwa [Int.add_zero] at this

theorem ends_rollbackFundingReserve (hundo : UndoSucceeds legal) (h : Paid base s delta w) (hdelta : 0 < delta) :
    Ends legal (s.rollbackFundingReserve delta) (fun s' w' =>
      Holding base s s' 0 w' ∧ w'.info.billingSource = w.info.billingSource) w := by
  have hgiven := h.given
  unfold rollbackFundingReserve
  split
  · rename_i consumed hf
    rw [hf] at hgiven
    refine Ends.call (Q := fun res w' => res = .ok () ∧ w' = { w with wallet := w.wallet + delta })
      (ends_smoothQuota hd hundo (by omega) ⟨rfl, rfl⟩) fun res w' hw' => ?_
    obtain ⟨rfl, rfl⟩ := hw'
    refine ends_change (ends_pure ⟨⟨by rw [hf]; rfl, { h with given := ⟨?_, ?_⟩ }⟩, rfl⟩)
    · dsimp only
      have := hgiven.1
      omega
    · dsimp only
      have := hgiven.2
      omega
  · rename_i f hf
    rw [hf] at hgiven
    obtain ⟨hpays, hextra, hpre, hinfo⟩ := hgiven
    have hid := hpays.id_pos (by omega)
    obtain ⟨row, hrow, -⟩ := hpays.row
    refine (ends_smoothConsume hd hundo hid (by omega) hrow fun d hset => ?_).call
      fun _ _ h => ends_pure h
    refine ⟨⟨rfl, { h with given := ?_ }⟩, rfl⟩
    rw [hf]
    refine ⟨?_, hextra, hpre, hinfo⟩
    have := hpays.settle hset (by omega) hid
    rwa [show s.extraReserved + delta + -delta = s.extraReserved + 0 by omega] at this

theorem ends_reserveToken : Ends legal (reserveToken host relay delta) (fun _ => OnlyToken w) w := by
  unfold reserveToken
  split
  · exact ends_pure ⟨rfl, rfl, rfl⟩
  · refine (ends_preConsumeTokenQuota hd (fun _ => ⟨rfl, rfl, rfl⟩) fun _ => ⟨rfl, rfl, rfl⟩).call
      (Q := fun _ => OnlyToken w) fun res w' h => ?_
    cases res <;> exact ends_pure h

omit hd in
theorem Paid.book (h : Paid base s delta w) (hdelta : 0 < delta) :
    Paid base { s with
      preConsumedQuota := s.preConsumedQuota + delta, tokenConsumed := s.tokenConsumed + delta,
      extraReserved := s.extraReserved + delta } 0 w := by
  have hnonneg := h.nonneg
  have htok := h.tokenConsumed
  have hgiven := h.given
  refine ⟨h.unfinished, by dsimp only; omega, by dsimp only; omega, ?_⟩
  cases hf : s.funding with
  | wallet consumed =>
    rw [hf] at hgiven
    exact ⟨hgiven.1.trans (Int.add_zero _).symm, hgiven.2⟩
  | subscription f =>
    rw [hf] at hgiven
    obtain ⟨hpays, hextra, hpre, hinfo⟩ := hgiven
    exact ⟨by rw [Int.add_zero]; exact hpays, by dsimp only; omega, by dsimp only; omega, hinfo⟩

omit hd in
theorem Paid.sync (h : Paid base s 0 w) : Paid base s 0 { w with info := s.synced w.info } := by
  have hgiven := h.given
  refine { h with given := ?_ }
  cases hf : s.funding with
  | wallet consumed =>
    rw [hf] at hgiven
    exact hgiven
  | subscription f =>
    rw [hf] at hgiven
    obtain ⟨hpays, hextra, hpre, -⟩ := hgiven
    exact ⟨{ hpays with }, hextra, hpre, by simp [synced, hf]⟩

/-- **Reserve** keeps the books, whichever of its steps fails; one that succeeds notes the source
again, one that fails leaves the entry alone. -/
theorem ends_reserve (hundo : UndoSucceeds legal) (h : Paid base s 0 w) (target : Int) :
    Ends legal (s.reserve host relay target) (fun res w' =>
      (Paid base res.1 0 w' ∧ res.1.funding.account = s.funding.account) ∧
        (w'.info.billingSource = w.info.billingSource ∨ w'.info.billingSource = some res.1.funding.source)) w := by
  unfold reserve
  split
  · exact ends_pure ⟨⟨h, rfl⟩, .inl rfl⟩
  rename_i hcond
  have hdelta : 0 < target - s.preConsumedQuota := by
    by_contra hle
    exact hcond (.inr (.inr (.inr (by omega))))
  apply (ends_reserveFunding hd h hdelta).tried
  · exact fun e => ends_pure ⟨⟨h, rfl⟩, .inl rfl⟩
  intro s' w' hres
  obtain ⟨⟨haccount, hpaid⟩, hkept⟩ := hres
  refine (ends_reserveToken hd).call fun res w1 hsame => ?_
  have hpaid := hpaid.same hsame
  cases res with
  -- the token refused: what was just reserved is given back, and the books are those of before
  | error e =>
    refine (ends_rollbackFundingReserve hd hundo hpaid hdelta).call fun s2 w2 h2 => ends_pure ?_
    exact ⟨⟨h2.1.paid, h2.1.account.trans haccount⟩, .inl (by rw [h2.2, hsame.info, hkept])⟩
  | ok _ => exact ends_change (ends_pure ⟨⟨(hpaid.book hdelta).sync, haccount⟩, .inr (synced_source _ _)⟩)

/-! Settle. -/

omit hd in
theorem taken_same {w' : World} (hwallet : w'.wallet = w.wallet) (htables : w'.tables = w.tables)
    (account : Option Int) : w'.taken base account = w.taken base account := by
  cases account <;> simp only [taken, hwallet, htables]

/-- An adjustment of the funding source is exact, unless it would take a subscription below 0. -/
theorem ends_fundingSettle (h : Paid base s 0 w) (hdelta : delta ≠ 0)
    (hactual : 0 ≤ s.preConsumedQuota + delta ∨ s.funding.source = .wallet) :
    Ends legal (s.funding.settle delta)
      (Tried w fun _ w' => w'.taken base s.funding.account = s.preConsumedQuota + delta) w := by
  have hgiven := h.given
  have htaken := h.taken
  cases hf : s.funding with
  | wallet consumed =>
    rw [hf] at hgiven htaken
    have htaken : base - w.wallet = s.preConsumedQuota + 0 := htaken
    simp only [Funding.settle, if_neg hdelta]
    split
    · refine ends_changeQuota hd (fun _ => rfl) fun _ => ?_
      show base - (w.wallet - delta) = _
      omega
    · refine ends_changeQuota hd (fun _ => rfl) fun _ => ?_
      show base - (w.wallet + -delta) = _
      omega
  | subscription f =>
    rw [hf] at hgiven hactual
    have hactual := hactual.resolve_right (by simp [Funding.source])
    obtain ⟨hpays, hextra, hpre, -⟩ := hgiven
    obtain ⟨row, hrow, hused⟩ := hpays.row
    have hbase := hpays.base_nonneg
    simp only [Funding.settle, if_neg hdelta]
    refine ends_postConsume hd hdelta (fun _ => rfl) fun d _ hset => ?_
    -- the row holds at least base and the quota, so giving back the difference is not cut off at 0
    have hrow' := settles_row hset hrow (by omega)
    show taken _ base (some f.subscriptionId) = _
    rw [taken_row hrow']
    dsimp only
    omega

/-- What the token has to do with a charge. -/
def tokenPart (relay : Relay) (quota : Int) : Int := if relay.isPlayground then 0 else quota

theorem ends_settleToken (delta : Int) : Ends legal (settleToken relay delta)
    (fun res w' => OnlyToken w w' ∧ (res.isOk = true → w'.token = w.token - tokenPart relay delta)) w := by
  have herr : ∀ e : String, OnlyToken w w ∧
      ((Except.error e : Except String Unit).isOk = true → w.token = w.token - tokenPart relay delta) :=
    fun e => ⟨⟨rfl, rfl, rfl⟩, nofun⟩
  unfold settleToken
  split
  · next hplay => exact ends_pure ⟨⟨rfl, rfl, rfl⟩, fun _ => by simp [tokenPart, hplay]⟩
  next hplay =>
  split
  · exact ends_changeQuota hd herr fun _ => ⟨⟨rfl, rfl, rfl⟩, fun _ => by simp [tokenPart, hplay]⟩
  · refine ends_changeQuota hd herr fun _ => ⟨⟨rfl, rfl, rfl⟩, fun _ => ?_⟩
    simp only [tokenPart, if_neg hplay]
    omega

/-- **Settle** has changed nothing, or the session is settled and has taken the actual quota. -/
theorem ends_settle (h : Paid base s 0 w) {actual : Int} (hactual : 0 ≤ actual ∨ s.funding.source = .wallet) :
    Ends legal (s.settle relay actual) (fun res w' => (res.1 = s ∧ w' = w ∧ res.2.isOk = false) ∨
      (res.1.settled = true ∧ res.1.funding = s.funding ∧ w'.taken base s.funding.account = actual)) w := by
  obtain ⟨hfunding, hsettled, -⟩ := h.unfinished
  have htaken := h.taken
  unfold settle
  rw [if_neg (by simp [hsettled])]
  split
  · exact ends_pure (.inr ⟨rfl, rfl, by omega⟩)
  rename_i hdelta
  have hfund := ends_fundingSettle hd h hdelta
    (hactual.imp_left fun h => by omega)
  simp only [settleFunding, hfunding, Bool.false_eq_true]
  apply hfund.tried
  · exact fun e => ends_pure (.inl ⟨rfl, rfl, rfl⟩)
  -- a token adjustment that fails is only logged: the funding source has been adjusted by now
  · intro _ w' hres
    refine (ends_settleToken hd _).call fun tokenRes w1 hsame => ?_
    refine ends_change (ends_pure (.inr ⟨rfl, rfl, ?_⟩))
    calc taken _ base s.funding.account = w'.taken base s.funding.account :=
          taken_same hsame.1.wallet hsame.1.tables _
      _ = s.preConsumedQuota + (actual - s.preConsumedQuota) := hres
      _ = actual := by omega

/-! Refund. -/

/-- The job of a refund, as the session was when it was called. -/
def RefundJob.Of (base : Int) (account : Option Int) (w : World) (j : RefundJob) : Prop :=
  ∃ s, Paid base s 0 w ∧ s.funding.account = account ∧
    j = ⟨s.funding, s.tokenConsumed, s.extraReserved, w.info.subscriptionId⟩

/-- What is left on the account after the funding source was refunded: what was reserved on
top of a subscription's record. -/
theorem ends_fundingRefund (h : Paid base s 0 w) :
    Ends legal s.funding.refund (fun res w' => res.isOk = true → match s.funding with
      | .wallet _ => w'.taken base none = 0
      | .subscription f => ∃ row, w'.tables (.sub f.subscriptionId) = some row ∧
          row.amountUsed = base + s.extraReserved) w := by
  have hgiven := h.given
  have hnonneg := h.nonneg
  cases hf : s.funding with
  | wallet consumed =>
    rw [hf] at hgiven
    obtain ⟨hconsumed, hwallet⟩ := hgiven
    simp only [Funding.refund]
    split
    · refine ends_pure fun _ => ?_
      show base - w.wallet = 0
      omega
    · refine ends_changeQuota hd nofun fun _ _ => ?_
      show base - (w.wallet + consumed) = 0
      omega
  | subscription f =>
    rw [hf] at hgiven
    obtain ⟨hpays, hextra, hpre, -⟩ := hgiven
    obtain ⟨row, hrow, hused⟩ := hpays.row
    obtain ⟨r, hr, hst, hrpre, hrid⟩ := hpays.record
    have hbase := hpays.base_nonneg
    have hpos := hpays.pre_pos
    simp only [Funding.refund, if_neg (not_le.mpr hpos)]
    -- three attempts, of which the first that succeeds gives the record back
    refine ends_refundWithRetry (fun _ hok => by cases hok) ?_ 3 (.ok ()) (nofun)
    refine ends_refundSubscriptionPreConsume hd hr hst (fun _ => rfl) fun d hback _ => ?_
    rw [← hrid] at hrow ⊢
    refine ⟨_, givesBack_row hback (by omega) hrow (by omega), ?_⟩
    dsimp only
    omega

/-- **The goroutine of a refund**: when it has refunded the funding source, nothing is taken. -/
theorem ends_job {account : Option Int} {j : RefundJob} (hj : j.Of base account w) :
    Ends legal (j.run relay) (fun done w' => done = true → w'.taken base account = 0) w := by
  obtain ⟨s, h, rfl, rfl⟩ := hj
  refine (ends_fundingRefund hd h).call fun refunded w1 hrefunded => ?_
  -- the extra part is left alone unless the source is a subscription with more than its record
  refine Ends.call (Q := fun extra w2 => refunded.isOk = true → extra.isOk = true →
    w2.taken base s.funding.account = 0) ?_ fun extra w2 hextra => ?_
  · have hgiven := h.given
    unfold RefundJob.refundExtra
    cases hf : s.funding with
    | wallet consumed =>
      rw [hf] at hrefunded
      rw [if_neg (by simp [Funding.source])]
      exact ends_pure fun hok _ => hrefunded hok
    | subscription f =>
      rw [hf] at hgiven hrefunded
      obtain ⟨hpays, hnonneg, -, hinfo⟩ := hgiven
      have hbase := hpays.base_nonneg
      dsimp only
      split
      · rw [hinfo]
        refine ends_postConsume hd (by omega) (fun _ _ h => by cases h) fun d _ hset hok _ => ?_
        obtain ⟨row, hrow, hused⟩ := hrefunded hok
        show taken _ base (some f.subscriptionId) = 0
        rw [taken_row (settles_row hset hrow (by omega))]
        dsimp only
        omega
      · rename_i hcond
        have hzero : s.extraReserved = 0 := by
          by_contra hne
          exact hcond ⟨by omega, rfl, by rw [hinfo]; exact hpays.id_pos (by omega)⟩
        refine ends_pure fun hok _ => ?_
        obtain ⟨row, hrow, hused⟩ := hrefunded hok
        show taken _ base (some f.subscriptionId) = 0
        rw [taken_row hrow]
        omega
  · -- the token is on no account of the funding source
    refine Ends.call (Q := fun _ w3 => w3.wallet = w2.wallet ∧ w3.tables = w2.tables) ?_ fun _ w3 hsame => ?_
    · unfold RefundJob.refundToken
      split
      · exact ends_changeQuota hd (fun _ => ⟨rfl, rfl⟩) fun _ => ⟨rfl, rfl⟩
      · exact ends_pure ⟨rfl, rfl⟩
    · refine ends_pure fun hdone => ?_
      obtain ⟨hok, hok'⟩ := (Bool.and_eq_true _ _).mp hdone
      rw [taken_same hsame.1 hsame.2]
      exact hextra hok hok'

end

/-! A life. -/

/-- `refundJob`: the goroutine of an earlier refund gets to run. -/
inductive Call
  | reserve (targetQuota : Int)
  | settle (actualQuota : Int)
  | refund
  | refundJob
  deriving DecidableEq, Repr

/-- How the session was ended: by the first `Settle` whose adjustment of the funding source
succeeded, or by the first `Refund` that had something to give back. -/
inductive Ending
  | running
  | settled (actualQuota : Int)
  | refunding (job : RefundJob)
  | refunded (done : Bool)
  deriving DecidableEq, Repr

structure Life where
  session : Session
  world : World
  ending : Ending

def Ending.settle (e : Ending) (settled : Bool) (actualQuota : Int) : Ending :=
  match e with
  | .running => if settled then .settled actualQuota else .running
  | e => e

def Ending.refund (e : Ending) (job : Option RefundJob) : Ending :=
  match e, job with
  | .running, some job => .refunding job
  | e, _ => e

/-- One call, with what the environment answers to it. -/
def Life.next (host : Host) (relay : Relay) (l : Life) (answers : Kind → List Answer) : Call → Life
  | .reserve targetQuota =>
    let run := l.session.reserve host relay targetQuota ⟨l.world, answers⟩
    { l with session := run.1.1, world := run.2.world }
  | .settle actualQuota =>
    let run := l.session.settle relay actualQuota ⟨l.world, answers⟩
    ⟨run.1.1, run.2.world, l.ending.settle run.1.1.settled actualQuota⟩
  | .refund =>
    let run := l.session.refund ⟨l.world, answers⟩
    ⟨run.1.1, run.2.world, l.ending.refund run.1.2⟩
  | .refundJob =>
    match l.ending with
    | .refunding job =>
      let run := job.run relay ⟨l.world, answers⟩
      ⟨l.session, run.2.world, .refunded run.1⟩
    | _ => l

/-- The calls the books are for: while the session runs, a reserve that has to give back can,
and a subscription is not settled for less than nothing; a refunded session is not settled. -/
def Life.Allows (l : Life) (answers : Kind → List Answer) : Call → Prop
  | .reserve _ => l.ending = .running → ∀ a ∈ answers .giveBack, a.Smooth
  | .settle actualQuota => l.session.refunded = false ∧
      (l.ending = .running → 0 ≤ actualQuota ∨ l.session.funding.source = .wallet)
  | .refund => True
  | .refundJob => True

inductive Lives (host : Host) (relay : Relay) (l₀ : Life) : Life → Prop
  | opened : Lives host relay l₀ l₀
  | call {l : Life} (answers : Kind → List Answer) (c : Call) (hl : Lives host relay l₀ l) (hc : l.Allows answers c) :
      Lives host relay l₀ (l.next host relay answers c)

/-- What holds at every point of a life. -/
def Ending.Sound (base : Int) (account : Option Int) (s : Session) (w : World) : Ending → Prop
  | .running => Paid base s 0 w
  | .settled actualQuota => s.settled = true ∧ w.taken base account = actualQuota
  | .refunding job => s.refunded = true ∧ job.Of base account w
  | .refunded done => s.refunded = true ∧ (done = true → w.taken base account = 0)

structure Life.Sound (base : Int) (account : Option Int) (l : Life) : Prop where
  drawn : l.session.funding.account = account
  ending : l.ending.Sound base account l.session l.world

section
variable {host : Host} {relay : Relay} {base : Int} {account : Option Int} {l : Life} {answers : Kind → List Answer}

/-- An ended session does nothing any more. -/
theorem Life.Sound.stays (h : l.Sound base account) (hended : l.ending ≠ .running) {c : Call}
    (hc : l.Allows answers c) (hjob : c = .refundJob → ∀ job, l.ending ≠ .refunding job) :
    l.next host relay answers c = l := by
  obtain ⟨s, w, e⟩ := l
  -- every ending shows in the flags the calls look at first
  have hflags : s.settled = true ∨ s.refunded = true := by
    have hsound := h.ending
    cases e with
    | running => exact absurd rfl hended
    | settled actual => exact .inl hsound.1
    | refunding job | refunded done => exact .inr hsound.1
  have hstays : (∀ settled actual, Ending.settle e settled actual = e) ∧ ∀ job, Ending.refund e job = e := by
    cases e with
    | running => exact absurd rfl hended
    | settled | refunding | refunded => exact ⟨fun _ _ => rfl, fun _ => rfl⟩
  cases c with
  | reserve target =>
    have hcond : s.settled ∨ s.refunded ∨ s.trusted ∨ target ≤ s.preConsumedQuota :=
      hflags.imp_right .inl
    simp only [Life.next, reserve, if_pos hcond]
    rfl
  | settle actual =>
    have hsettled : s.settled = true := hflags.resolve_right (by rw [hc.1]; simp)
    simp only [Life.next, settle, hsettled, hstays.1]
    rfl
  | refund =>
    have hcond : s.settled ∨ s.refunded ∨ ¬ s.needsRefund := hflags.imp_right .inl
    simp only [Life.next, refund, if_pos hcond, hstays.2]
    rfl
  | refundJob =>
    cases e with
    | refunding job => exact absurd rfl (hjob rfl job)
    | running | settled | refunded => rfl

/-- **One call** keeps the books. -/
theorem Life.Sound.next (h : l.Sound base account) {c : Call} (hc : l.Allows answers c) :
    (l.next host relay answers c).Sound base account := by
  -- a running session can take any call; an ended one can only run the job of its refund
  by_cases hended : l.ending = .running
  · obtain ⟨s, w, e⟩ := l
    subst hended
    have hdrawn : s.funding.account = account := h.drawn
    have hpaid : Paid base s 0 w := h.ending
    let any : Kind → Answer → Prop := fun _ _ => True
    cases c with
    | reserve target =>
      let legal : Kind → Answer → Prop := fun k a => k = .giveBack → a.Smooth
      have hends : Ends legal (s.reserve host relay target)
          (fun res w' => Paid base res.1 0 w' ∧ res.1.funding.account = s.funding.account) w :=
        (ends_reserve (fun _ _ => ⟨rfl, rfl⟩) (fun a ha => ha rfl) hpaid target).mono fun _ _ h => h.1
      have hrun := hends.run answers fun k a ha hk => hc rfl a (hk ▸ ha)
      exact ⟨hrun.2.trans hdrawn, hrun.1⟩
    | settle actual =>
      have hends : Ends any (s.settle relay actual) (fun res w' => (res.1 = s ∧ w' = w ∧ res.2.isOk = false) ∨
          (res.1.settled = true ∧ res.1.funding = s.funding ∧ w'.taken base s.funding.account = actual)) w :=
        ends_settle (fun _ => trivial) hpaid (hc.2 rfl)
      rcases hends.run answers (fun _ _ _ => trivial) with ⟨hs, hw, -⟩ | ⟨hsettled, hfunding, htaken⟩
      · simp only [Life.next, hs, hw, hpaid.unfinished.2.1]
        exact h
      · refine ⟨(congrArg Funding.account hfunding).trans hdrawn, ?_⟩
        simp only [Life.next, hsettled]
        exact ⟨hsettled, hdrawn ▸ htaken⟩
    | refund =>
      by_cases hneeds : s.needsRefund
      · have hcond : ¬ (s.settled ∨ s.refunded ∨ ¬ s.needsRefund) := by
          simp [hpaid.unfinished.2.1, hpaid.unfinished.2.2, hneeds]
        simp only [Life.next, refund, if_neg hcond]
        exact ⟨hdrawn, rfl, s, hpaid, hdrawn, rfl⟩
      · have hcond : s.settled ∨ s.refunded ∨ ¬ s.needsRefund := .inr (.inr hneeds)
        simp only [Life.next, refund, if_pos hcond]
        exact h
    | refundJob => exact h
  · by_cases hjob : c = .refundJob ∧ ∃ job, l.ending = .refunding job
    · obtain ⟨rfl, job, he⟩ := hjob
      obtain ⟨s, w, e⟩ := l
      subst he
      obtain ⟨hrefunded, hof⟩ := h.ending
      let any : Kind → Answer → Prop := fun _ _ => True
      have hends : Ends any (job.run relay) (fun done w' => done = true → w'.taken base account = 0) w :=
        ends_job (fun _ => trivial) hof
      exact ⟨h.drawn, hrefunded, hends.run answers fun _ _ _ => trivial⟩
    · rw [h.stays hended hc fun hcall job he => hjob ⟨hcall, job, he⟩]
      exact h

/-- **Any sequence of calls** keeps the books. -/
theorem Life.Sound.lives {l₀ : Life} (h : l₀.Sound base account) (hl : Lives host relay l₀ l) :
    l.Sound base account := by
  induction hl with
  | opened => exact h
  | call answers c hl hc ih => exact ih.next hc

end

/-- **A session takes what it is settled for.** Count from before the session was opened (a
reset that was due aside). Once a `Settle` has adjusted the funding source, exactly the
actual quota has been taken; once a `Refund` has run through, nothing; and no later call
changes that. -/
theorem lifecycle_nets (host : Host) (relay : Relay) (quota : Int) (w : World) (answers : Kind → List Answer)
    (s : Session) (w₁ : World) (hopen : opening host (some relay) quota w answers = (.ok s, w₁))
    (hquota : 0 ≤ s.preConsumedQuota)
    (hnew : s.funding.source = .subscription → w.tables (.record relay.requestId) = none)
    (hused : ∀ id sub, w.tables (.sub id) = some sub → 0 ≤ sub.amountUsed) :
    ∃ base, Before host.env w s.funding.account base ∧ ∀ l, Lives host relay ⟨s, w₁, .running⟩ l →
      (∀ actual, l.ending = .settled actual → l.world.taken base s.funding.account = actual) ∧
      (l.ending = .refunded true → l.world.taken base s.funding.account = 0) ∧
      (l.ending ≠ .running → ∀ later c, l.Allows later c → (c = .refundJob → ∀ job, l.ending ≠ .refunding job) →
        (l.next host relay later c).world.taken base s.funding.account = l.world.taken base s.funding.account) := by
  let any : Kind → Answer → Prop := fun _ _ => True
  have hs : ∀ k, ∀ a ∈ answers k, any k a := fun _ _ _ => trivial
  have hrun := opening_attempted (fun _ => trivial) host relay quota w hs
  rw [hopen] at hrun
  obtain ⟨base, hbefore, hpaid⟩ := Opened.paid hrun hquota hnew hused
  refine ⟨base, hbefore, fun l hl => ?_⟩
  have hstart : Life.Sound base s.funding.account ⟨s, w₁, .running⟩ := ⟨rfl, hpaid⟩
  have hsound := hstart.lives hl
  have hending := hsound.ending
  refine ⟨fun actual he => ?_, fun he => ?_, fun hended later c hc hjob => ?_⟩
  · rw [he] at hending
    exact hending.2
  · rw [he] at hending
    exact hending.2 rfl
  · rw [hsound.stays hended hc hjob]

/-! A session of 60 on the wallet of the example. -/

def walletRelay : Relay := exampleRelay "wallet_only" false

def exampleLife : Life where
  session := { funding := .wallet 60, preConsumedQuota := 60, tokenConsumed := 60 }
  world := (opening exampleHost (some walletRelay) 60 exampleWorld fun _ => []).2
  ending := .running

/-- Reserve up to 100, then settle for 70. -/
def settledLife (answers : Kind → List Answer) : Life :=
  (exampleLife.next exampleHost walletRelay answers (.reserve 100)).next exampleHost walletRelay (fun _ => [])
    (.settle 70)

/-- The wallet has paid 70 of its 1000. -/
theorem reserved_then_settled :
    (settledLife fun _ => []).ending = .settled 70 ∧ (settledLife fun _ => []).world.wallet = 930 := by
  have hending : (settledLife fun _ => []).ending = .settled 70 := by decide +kernel
  have hopened : Lives exampleHost walletRelay exampleLife exampleLife := .opened
  have hreserved := hopened.call (fun _ => []) (.reserve 100) (by simp [Life.Allows])
  have hlives : Lives exampleHost walletRelay exampleLife (settledLife fun _ => []) :=
    hreserved.call (fun _ => []) (.settle 70) ⟨by decide +kernel, fun _ => .inl (by decide)⟩
  obtain ⟨base, hbase, hnet⟩ := lifecycle_nets exampleHost walletRelay 60 exampleWorld (fun _ => [])
    exampleLife.session exampleLife.world (Prod.ext (by decide +kernel) rfl) (by decide) (by decide)
    fun id sub h => (exampleWorld_sub id sub h).2
  have htaken : base - (settledLife fun _ => []).world.wallet = 70 := (hnet _ hlives).1 70 hending
  have hbase : base = 1000 := hbase
  exact ⟨hending, by omega⟩

/-- The token cannot be read, so the reserve fails, and giving it back to the wallet fails
too: the session is settled for 70, and the wallet has paid 110. -/
theorem failed_rollback_overcharges :
    let failing : Kind → List Answer
      | .forward => [{}, {}, { fails := true }]
      | .giveBack => [{ fails := true }]
    (settledLife failing).ending = .settled 70 ∧ (settledLife failing).world.taken exampleWorld.wallet none = 110 := by
  decide +kernel

end AmuxApi.Billing
