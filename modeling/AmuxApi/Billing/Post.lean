import AmuxApi.Billing.Lifecycle

/- What relayInfo says of a request's funding source, and the settlement that goes by it.
   Code that runs after the session (a task's completion, the turns of a websocket) does not
   have the session: it finds the source in relayInfo, or in what was copied from there.
   An opened session has put its source there (`Opened`), an opening that failed has left the
   entry as it was (`Restored`); `Reserve` and `Settle` keep it. -/
namespace AmuxApi.Billing
open Txn Funding
open Subscription (settles)

section
variable {legal : Kind → Answer → Prop} {host : Host} {relay : Relay} {w w₀ : World} {s : Session} {quota : Int}

variable (hd : ∀ k, legal k default)
include hd

omit hd in
theorem source_of_account {funding funding' : Funding} (h : funding'.account = funding.account) :
    funding'.source = funding.source := by
  cases funding <;> cases funding' <;> simp_all [account, source]

structure SameSource (w w' : World) : Prop where
  source : w'.info.billingSource = w.info.billingSource
  subscriptionId : w'.info.subscriptionId = w.info.subscriptionId

omit hd in
theorem posted_source (s : Session) (delta : Int) (info : Info) :
    (s.posted delta info).billingSource = info.billingSource ∧
      (s.posted delta info).subscriptionId = info.subscriptionId := by
  unfold Session.posted
  split <;> exact ⟨rfl, rfl⟩

theorem ends_settleFunding (delta : Int) :
    Ends legal (s.settleFunding delta) (fun _ w' => w'.info = w.info ∧ w'.token = w.token) w := by
  unfold Session.settleFunding
  split
  · exact ends_pure ⟨rfl, rfl⟩
  cases s.funding with
  | wallet consumed =>
    simp only [settle]
    split
    · exact ends_pure ⟨rfl, rfl⟩
    split <;> exact ends_changeQuota hd (fun _ => ⟨rfl, rfl⟩) fun _ => ⟨rfl, rfl⟩
  | subscription f =>
    simp only [settle]
    split
    · exact ends_pure ⟨rfl, rfl⟩
    · exact ends_onTables hd fun _ _ _ _ _ => ⟨rfl, rfl⟩

/-- A settlement leaves the source alone, and one that returns no error has also brought the token
to the actual quota. -/
theorem ends_settle_source (actual : Int) : Ends legal (s.settle relay actual) (fun res w' => SameSource w w' ∧
    (s.settled = false → res.2.isOk = true →
      w'.token = w.token - tokenPart relay (actual - s.preConsumedQuota))) w := by
  unfold Session.settle
  split
  · next hsettled => exact ends_pure ⟨⟨rfl, rfl⟩, fun hopen => by simp [hopen] at hsettled⟩
  split
  · next hzero => exact ends_pure ⟨⟨rfl, rfl⟩, fun _ _ => by simp [tokenPart, hzero]⟩
  refine (ends_settleFunding hd _).call fun res w1 h1 => ?_
  obtain ⟨hinfo, htoken⟩ := h1
  cases res with
  | error e => exact ends_pure ⟨⟨by rw [hinfo], by rw [hinfo]⟩, fun _ h => by cases h⟩
  | ok _ =>
    refine (ends_settleToken hd _).call fun res w2 h2 => ?_
    have hinfo2 := h2.1.info.trans hinfo
    refine ends_change (ends_pure ⟨⟨?_, ?_⟩, fun _ hok => ?_⟩)
    · exact (posted_source s _ w2.info).1.trans (by rw [hinfo2])
    · exact (posted_source s _ w2.info).2.trans (by rw [hinfo2])
    · rw [← htoken]
      exact h2.2 hok

/-! What a request has been charged. -/

def Names (info : Info) : Option Int → Prop
  | none => info.billingSource ≠ some .subscription
  | some id => info.billingSource = some .subscription ∧ info.subscriptionId = id

/-- `amount` was taken from the account relayInfo names, counted from `w₀`. -/
structure Booked (env : Subscription.Env) (w₀ : World) (account : Option Int) (base amount : Int)
    (w : World) : Prop where
  before : Before env w₀ account base
  taken : w.taken base account = amount
  names : Names w.info account

/-- A request before its settlement: with a session, that is paid and noted; without one,
nothing was taken. -/
def Due (env : Subscription.Env) (w₀ : World) : Option Session → World → Prop
  | some s, w => ∃ base, Before env w₀ s.funding.account base ∧ Paid base s 0 w ∧
      w.info.billingSource = some s.funding.source
  | none, w => w.wallet = w₀.wallet ∧ w.tables = w₀.tables ∧ w.info.finalPreConsumedQuota = 0 ∧
    w.info.billingSource = none

omit hd in
theorem Paid.names {base : Int} (h : Paid base s 0 w) (hsource : w.info.billingSource = some s.funding.source) :
    Names w.info s.funding.account := by
  have hgiven := h.given
  cases hf : s.funding with
  | wallet consumed =>
    rw [hf] at hsource
    simp [account, Names, hsource, source]
  | subscription f =>
    rw [hf] at hsource hgiven
    exact ⟨hsource, hgiven.2.2.2⟩

omit hd in
theorem Names.same {w' : World} {account : Option Int} (h : Names w.info account) (hs : SameSource w w') :
    Names w'.info account := by
  cases account with
  | none => exact fun hsub => h (hs.source.symm.trans hsub)
  | some id => exact ⟨hs.source.trans h.1, hs.subscriptionId.trans h.2⟩

/-- `quota` was charged to the account by `PostConsumeQuota`. -/
structure PostCharged (relay : Relay) (account : Option Int) (quota : Int) (w w' : World) : Prop where
  token : w'.token = w.token - tokenPart relay quota
  source : SameSource w w'
  preConsumed : w'.info.finalPreConsumedQuota = w.info.finalPreConsumedQuota
  funds : match account with
    | none => w'.wallet = w.wallet - quota
    | some id => if quota = 0 then w'.tables = w.tables else Along (settles id quota) w.tables w'.tables

/-- The account that relayInfo names is charged, and then the token. -/
theorem ends_postConsumeQuota {account : Option Int} (hnames : Names w.info account) :
    Ends legal (postConsumeQuota relay quota)
      (fun res w' => res.isOk = true → PostCharged relay account quota w w') w := by
  refine Ends.call (Q := fun res (w' : World) => res.isOk = true → w'.token = w.token ∧ SameSource w w' ∧
    w'.info.finalPreConsumedQuota = w.info.finalPreConsumedQuota ∧ match account with
      | none => w'.wallet = w.wallet - quota
      | some id => if quota = 0 then w'.tables = w.tables else Along (settles id quota) w.tables w'.tables)
    ?_ fun res w1 h => ?_
  · unfold postConsumeFunding
    refine ends_world ?_
    cases account with
    | none =>
      rw [if_neg hnames]
      split
      · exact ends_changeQuota hd nofun fun _ _ => ⟨rfl, ⟨rfl, rfl⟩, rfl, rfl⟩
      · refine ends_changeQuota hd nofun fun _ _ => ⟨rfl, ⟨rfl, rfl⟩, rfl, ?_⟩
        show w.wallet + -quota = w.wallet - quota
        omega
    | some id =>
      obtain ⟨hsub, rfl⟩ := hnames
      rw [if_pos hsub]
      split
      · exact ends_pure nofun
      split
      · next hzero => exact ends_pure fun _ => ⟨rfl, ⟨rfl, rfl⟩, rfl, by simp⟩
      next hzero =>
      refine Ends.tried (R := fun _ (w' : World) => ∃ d, Along (settles w.info.subscriptionId quota) w.tables d ∧
          w' = { w with tables := d }) (ends_postConsume hd hzero (fun _ => rfl) fun d _ hset => ⟨d, hset, rfl⟩) ?_ ?_
      · exact fun e => ends_pure nofun
      · rintro _ w' ⟨d, hset, rfl⟩
        refine ends_change (ends_pure fun _ => ⟨rfl, ⟨rfl, rfl⟩, rfl, ?_⟩)
        simpa only [if_neg hzero] using hset
  · cases res with
    | error e => exact ends_pure nofun
    | ok _ =>
      obtain ⟨htoken, hsource, hpre, hfunds⟩ := h rfl
      refine (ends_settleToken hd quota).mono fun res w2 h2 hok => ?_
      obtain ⟨⟨hwallet2, htables2, hinfo2⟩, htoken2⟩ := h2
      refine ⟨by rw [htoken2 hok, htoken],
        ⟨by rw [hinfo2]; exact hsource.source, by rw [hinfo2]; exact hsource.subscriptionId⟩,
        by rw [hinfo2]; exact hpre, ?_⟩
      cases account with
      | none => exact hwallet2.trans hfunds
      | some id => simpa only [htables2] using hfunds

/-- A charge past the session: its own account is counted from a base that much further on. -/
def shift (base quota : Int) : Option Int → Int
  | none => base - quota
  | some _ => base + quota

omit hd in
theorem taken_shift (w : World) (base quota : Int) (account : Option Int) :
    w.taken (shift base quota account) account = w.taken base account - quota := by
  cases account with
  | none | some id => simp only [World.taken, shift]; omega

omit hd in
theorem shift_shift (base q q' : Int) (account : Option Int) :
    shift (shift base q account) q' account = shift base (q + q') account := by
  cases account <;> simp only [shift] <;> omega

omit hd in
theorem Paid.charge {base : Int} {w' : World} (h : Paid base s 0 w) (hquota : 0 ≤ quota)
    (hc : PostCharged relay s.funding.account quota w w') : Paid (shift base quota s.funding.account) s 0 w' := by
  have hgiven := h.given
  have hfunds := hc.funds
  refine { h with given := ?_ }
  cases hf : s.funding with
  | wallet consumed =>
    rw [hf] at hgiven hfunds
    refine ⟨hgiven.1, ?_⟩
    show base - quota - w'.wallet = consumed
    have hwallet : w'.wallet = w.wallet - quota := hfunds
    have := hgiven.2
    omega
  | subscription f =>
    rw [hf] at hgiven hfunds
    obtain ⟨hpays, hextra, hpre, hinfo⟩ := hgiven
    obtain ⟨row, hrow, hused⟩ := hpays.row
    obtain ⟨r, hr, hrest⟩ := hpays.record
    have hbase := hpays.base_nonneg
    have hpos := hpays.pre_pos
    refine ⟨?_, hextra, hpre, hc.source.subscriptionId.trans hinfo⟩
    simp only [account] at hfunds
    refine { hpays with base_nonneg := ?_, row := ?_, record := ?_ }
    · show 0 ≤ base + quota
      omega
    · show ∃ row : Subscription.UserSubscription, _ ∧
        row.amountUsed = base + quota + f.preConsumed + (s.extraReserved + 0)
      split at hfunds
      · next hzero => exact ⟨row, by rw [hfunds]; exact hrow, by omega⟩
      · refine ⟨_, settles_row hfunds hrow (by omega), ?_⟩
        dsimp only
        omega
    · split at hfunds
      · exact ⟨r, by rw [hfunds]; exact hr, hrest⟩
      · exact ⟨r, (settles_record hfunds _).trans hr, hrest⟩

/-- **A settlement that returns no error** has brought what was taken to the actual quota. -/
theorem ends_settleBilling {env : Subscription.Env} {billing : Option Session} {actual : Int}
    (h : Due env w₀ billing w) (hactual : 0 ≤ actual) :
    Ends legal (settleBilling relay billing actual)
      (fun res w' => res.2.isOk = true → ∃ account base, Booked env w₀ account base actual w') w := by
  cases billing with
  | some s =>
    obtain ⟨base, hbefore, hpaid, hsource⟩ := h
    refine ((ends_settle hd hpaid (.inl hactual)).and (ends_settle_source hd actual)).call fun res w' h' => ?_
    obtain ⟨htaken, hsame, -⟩ := h'
    refine ends_pure fun hok => ⟨s.funding.account, base, hbefore, ?_, (hpaid.names hsource).same hsame⟩
    rcases htaken with ⟨-, -, herr⟩ | ⟨-, -, htaken⟩
    · rw [herr] at hok
      cases hok
    · exact htaken
  | none =>
    obtain ⟨hwallet, htables, hpre, hsource⟩ := h
    have hnames : Names w.info none := by simp [Names, hsource]
    refine ends_world ?_
    rw [hpre, Int.sub_zero]
    split
    · refine ends_pure fun _ => ⟨none, w₀.wallet, rfl, ?_, hnames⟩
      show w₀.wallet - w.wallet = actual
      omega
    · refine (ends_postConsumeQuota hd hnames).call fun res w' h' => ends_pure fun hok => ?_
      have hcharged := h' hok
      have hwallet' : w'.wallet = w.wallet - actual := hcharged.funds
      refine ⟨none, w₀.wallet, rfl, ?_, hnames.same hcharged.source⟩
      show w₀.wallet - w'.wallet = actual
      omega

end

end AmuxApi.Billing
