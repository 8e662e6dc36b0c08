import AmuxApi.Billing.Post
import AmuxApi.Realtime.Model

/- What a realtime session takes in the end. Three charges meet in it: the session of the
   request, which is settled for the whole usage; and the charge of every turn, which goes
   past the session and is in none of its books.

   `Drawn` follows the two together: the session is paid from a base that moves on with every
   turn. The turns that are charged are a function of the events (`turns`), so what is taken
   is the logged quota and the turns on top of it. It is the logged quota exactly if the turns
   cost nothing (`log_is_net_iff`); a session with one turn of 30 pays 60 (`turn_paid_twice`). -/
namespace AmuxApi.Realtime
open Txn Billing
open Billing (World Service Relay Session Kind Answer Before Paid Names tokenPart shift)

/-! The turns. -/

/-- What is charged when the session closes. -/
def leftover (c : Counters) : List Usage :=
  (if c.usage.totalTokens ≠ 0 then [c.usage] else []) ++ if c.localUsage.totalTokens ≠ 0 then [c.localUsage] else []

/-- The usages that are charged, one after the other, if every charge succeeds. -/
def turns (c : Counters) : List Event → List Usage
  | [] => leftover c
  | e :: rest =>
    match (c.count e).due e with
    | none => turns (c.count e) rest
    | some u => u :: turns ((c.count e).clear e) rest

/-- Only what is being counted matters. -/
structure SameCount (c c' : Counters) : Prop where
  usage : c'.usage = c.usage
  localUsage : c'.localUsage = c.localUsage

variable {c c' : Counters}

theorem SameCount.count (h : SameCount c c') (e : Event) : SameCount (c.count e) (c'.count e) := by
  cases e <;> exact ⟨by simp [Counters.count, h.usage], by simp [Counters.count, h.localUsage]⟩

theorem SameCount.clear (h : SameCount c c') (e : Event) : SameCount (c.clear e) (c'.clear e) := by
  cases e <;> exact ⟨by simp [Counters.clear, h.usage], by simp [Counters.clear, h.localUsage]⟩

theorem SameCount.due (h : SameCount c c') (e : Event) : c'.due e = c.due e := by
  cases e <;> simp [Counters.due, h.usage, h.localUsage]

theorem SameCount.turns (h : SameCount c c') (events : List Event) : turns c' events = turns c events := by
  induction events generalizing c c' with
  | nil => simp only [Realtime.turns, leftover, h.usage, h.localUsage]
  | cons e rest ih =>
    rw [Realtime.turns, Realtime.turns, (h.count e).due e]
    cases (c.count e).due e with
    | none => exact ih (h.count e)
    | some u => rw [ih ((h.count e).clear e)]

/-! Prices are not negative. -/

theorem roundHalf_nonneg {x : Rat} (h : 0 ≤ x) : 0 ≤ roundHalf x := by
  rw [roundHalf, if_pos h]
  apply Int.floor_nonneg.mpr
  linarith

/-- Billing by ratio: a usage that comes out at 0 or less costs 1. -/
theorem calculateAudioQuota_nonneg (st : Setting) {info : QuotaInfo} (h : info.usePrice = false) :
    0 ≤ calculateAudioQuota st info := by
  simp only [calculateAudioQuota, h, Bool.false_eq_true, if_false]
  split
  · exact Int.one_nonneg
  next hcond =>
  apply roundHalf_nonneg
  by_cases hratio : info.groupRatio * info.modelRatio = 0
  · rw [hratio, mul_zero]
  · exact le_of_lt (not_le.mp fun hle => hcond ⟨hratio, hle⟩)

/-- The session is billed by ratio. -/
structure Call.ByRatio (call : Call) : Prop where
  turns : call.usePrice = false
  final : call.priceUsePrice = false
  tiered : call.tiered = none

section
variable {st : Setting} {call : Call}

theorem finalQuota_nonneg (h : call.ByRatio) (u : Usage) : 0 ≤ finalQuota st call u := by
  rw [finalQuota, h.tiered]
  split
  · exact le_refl 0
  · exact calculateAudioQuota_nonneg st h.final

/-! The books. -/

variable {legal : Kind → Answer → Prop} {host : Billing.Host} {relay : Relay} {w₀ w : World}

/-- Beside what its session has taken, the turns have taken `spent`. -/
def Drawn (env : Subscription.Env) (relay : Relay) (w₀ : World) (billing : Option Session) (spent : Int) (w : World) :
    Prop :=
  match billing with
  | some s => ∃ base, Before env w₀ s.funding.account base ∧ Paid (shift base spent s.funding.account) s 0 w ∧
      w.info.billingSource = some s.funding.source ∧ w.token = w₀.token - tokenPart relay (s.preConsumedQuota + spent)
  | none => w.wallet = w₀.wallet - spent ∧ w.info.finalPreConsumedQuota = 0 ∧ w.info.billingSource = none ∧
      w.token = w₀.token - tokenPart relay spent

theorem tokenPart_add (relay : Relay) (q q' : Int) :
    tokenPart relay (q + q') = tokenPart relay q + tokenPart relay q' := by
  unfold tokenPart
  split <;> omega

variable {env : Subscription.Env} {billing : Option Session}

variable {spent : Int} {c : Counters}

theorem Drawn.charge {quota : Int} (h : Drawn env relay w₀ billing spent w) (hd : ∀ k, legal k default)
    (hquota : 0 ≤ quota) :
    Ends legal (postConsumeQuota relay quota)
      (fun res w' => res.isOk = true → Drawn env relay w₀ billing (spent + quota) w') w := by
  cases billing with
  | some s =>
    obtain ⟨base, hbefore, hpaid, hsource, htoken⟩ := h
    refine (ends_postConsumeQuota hd (hpaid.names hsource)).mono fun res w' h' hok => ?_
    have hc := h' hok
    refine ⟨base, hbefore, ?_, hc.source.source.trans hsource, ?_⟩
    · rw [← shift_shift]
      exact hpaid.charge hquota hc
    · have hadd := tokenPart_add relay (s.preConsumedQuota + spent) quota
      rw [hc.token, ← Int.add_assoc]
      omega
  | none =>
    obtain ⟨hwallet, hpre, hsource, htoken⟩ := h
    have hnames : Names w.info none := by simp [Names, hsource]
    refine (ends_postConsumeQuota hd hnames).mono fun res w' h' hok => ?_
    have hc := h' hok
    have hfunds : w'.wallet = w.wallet - quota := hc.funds
    have hadd := tokenPart_add relay spent quota
    refine ⟨by omega, hc.preConsumed.trans hpre, hc.source.source.trans hsource, ?_⟩
    rw [hc.token]
    omega

variable (hd : ∀ k, legal k default)
include hd

/-- **One turn**: it is refused, or it is charged past the session. -/
theorem ends_preWssConsumeQuota (hratio : call.ByRatio) {u : Usage} {Q : Except String Unit → World → Prop}
    (herr : ∀ e, Q (.error e) w) (hpost : Ends legal (postConsumeQuota relay (turnQuota st call u)) Q w) :
    Ends legal (preWssConsumeQuota st call host relay u) Q w := by
  unfold preWssConsumeQuota
  rw [if_neg (by simp [hratio.turns])]
  apply (ends_readQuota hd World.wallet).tried
  · exact fun e => ends_pure (herr e)
  intro userQuota w1 hw1
  subst hw1
  apply (ends_readQuota hd World.token).tried
  · exact fun e => ends_pure (herr e)
  intro remain w2 hw2
  subst hw2
  dsimp only
  split
  · exact ends_pure (herr _)
  split
  · exact ends_pure (herr _)
  · exact hpost

omit hd in
theorem exists_names (w : World) : ∃ account, Names w.info account := by
  by_cases h : w.info.billingSource = some .subscription
  · exact ⟨some w.info.subscriptionId, h, rfl⟩
  · exact ⟨none, h⟩

def quotas (st : Setting) (call : Call) (us : List Usage) : Int := (us.map (turnQuota st call)).sum

section
variable (hratio : call.ByRatio)
include hratio

theorem ends_preConsumeUsage (h : c.charged = true → Drawn env relay w₀ billing spent w)
    (u : Usage) :
    Ends legal (preConsumeUsage st call host relay u c)
      (fun c' w' => SameCount c c' ∧ (c'.charged = true →
        c.charged = true ∧ Drawn env relay w₀ billing (spent + turnQuota st call u) w')) w := by
  have hturn : Ends legal (preWssConsumeQuota st call host relay u) (fun res w' => c.charged = true → res.isOk = true →
      Drawn env relay w₀ billing (spent + turnQuota st call u) w') w := by
    refine ends_preWssConsumeQuota hd hratio nofun ?_
    cases hc : c.charged with
    | true => exact ((h hc).charge hd (calculateAudioQuota_nonneg st hratio.turns)).mono fun _ _ h' _ => h'
    | false =>
      -- the books were lost with an earlier charge, and nothing is claimed of this one
      obtain ⟨account, hnames⟩ := exists_names w
      exact (ends_postConsumeQuota hd hnames).mono fun _ _ _ hfalse => by cases hfalse
  refine hturn.call fun res w' h' => ends_pure ⟨⟨rfl, rfl⟩, fun hok => ?_⟩
  obtain ⟨hc, hres⟩ := (Bool.and_eq_true _ _).mp hok
  exact ⟨hc, h' hc hres⟩

/-- **The events.** What was spent and what is still counted come to the turns of the events. -/
theorem ends_handleEvents (events : List Event) (c : Counters)
    (h : Drawn env relay w₀ billing spent w) :
    Ends legal (handleEvents st call host relay events c)
      (fun c' w' => c'.charged = true → ∃ spent', Drawn env relay w₀ billing spent' w' ∧
        spent' + quotas st call (leftover c') = spent + quotas st call (turns c events)) w := by
  induction events generalizing c spent w with
  | nil => exact ends_pure fun _ => ⟨spent, h, rfl⟩
  | cons e rest ih =>
    rw [handleEvents, turns]
    cases hdue : (c.count e).due e with
    | none => exact ih (c.count e) h
    | some u =>
      refine (ends_preConsumeUsage hd hratio (fun _ => h) u).call fun c1 w1 h1 => ?_
      obtain ⟨hsame, hcharged⟩ := h1
      cases hc : c1.charged with
      | false => exact ends_pure fun hok => absurd hok (by simp [hc])
      | true =>
        refine (ih (c1.clear e) (hcharged hc).2).mono fun c' w' h' hok => ?_
        obtain ⟨spent', hdrawn, hsum⟩ := h' hok
        refine ⟨spent', hdrawn, ?_⟩
        rw [hsum, (hsame.clear e).turns rest]
        simp only [quotas, List.map_cons, List.sum_cons]
        omega

theorem ends_chargeRest (h : c.charged = true → Drawn env relay w₀ billing spent w)
    (u : Usage) :
    Ends legal (chargeRest st call host relay u c)
      (fun c' w' => c'.charged = true → c.charged = true ∧
        Drawn env relay w₀ billing (spent + quotas st call (if u.totalTokens ≠ 0 then [u] else [])) w') w := by
  unfold chargeRest
  split
  · refine (ends_preConsumeUsage hd hratio h u).mono fun c' w' h' hok => ?_
    simpa [quotas] using h'.2 hok
  · exact ends_pure fun hok => ⟨hok, by simpa [quotas] using h hok⟩

theorem ends_close (h : c.charged = true → Drawn env relay w₀ billing spent w) :
    Ends legal (close st call host relay c) (fun c' w' => c'.charged = true → c.charged = true ∧
      Drawn env relay w₀ billing (spent + quotas st call (leftover c)) w') w := by
  refine (ends_chargeRest hd hratio h c.usage).call fun c1 w1 h1 => ?_
  refine (ends_chargeRest hd hratio (fun hc => (h1 hc).2) c.localUsage).mono fun c2 w2 h2 hok => ?_
  obtain ⟨hc1, hdrawn⟩ := h2 hok
  refine ⟨(h1 hc1).1, ?_⟩
  simpa [leftover, quotas, Int.add_assoc] using hdrawn

end

/-! The settlement. -/

/-- What was taken beyond the logged quota is `extra`. -/
structure Net (env : Subscription.Env) (relay : Relay) (w₀ : World) (logged extra : Int) (w : World) : Prop where
  funds : ∃ account base, Before env w₀ account base ∧ w.taken base account = logged + extra
  token : w.token = w₀.token - tokenPart relay (logged + extra)

/-- **The settlement** brings the session to the actual quota; the turns stay on top. -/
theorem ends_settle_drawn {actual : Int} (h : Drawn env relay w₀ billing spent w) (hactual : 0 ≤ actual) :
    Ends legal (settleBilling relay billing actual)
      (fun res w' => res.2.isOk = true → Net env relay w₀ actual spent w') w := by
  cases billing with
  | some s =>
    obtain ⟨base, hbefore, hpaid, hsource, htoken⟩ := h
    refine ((ends_settle hd hpaid (.inl hactual)).and
      (ends_settle_source hd actual)).call fun res w' h' => ends_pure fun hok => ?_
    obtain ⟨htaken, -, htoken'⟩ := h'
    refine ⟨⟨s.funding.account, base, hbefore, ?_⟩, ?_⟩
    · rcases htaken with ⟨-, -, herr⟩ | ⟨-, -, htaken⟩
      · rw [herr] at hok
        cases hok
      · rw [taken_shift] at htaken
        omega
    · have hadd := tokenPart_add relay (s.preConsumedQuota + spent) (actual - s.preConsumedQuota)
      rw [htoken' hpaid.unfinished.2.1 hok, htoken,
        show actual + spent = s.preConsumedQuota + spent + (actual - s.preConsumedQuota) by omega]
      omega
  | none =>
    obtain ⟨hwallet, hpre, hsource, htoken⟩ := h
    refine ends_world ?_
    rw [hpre, Int.sub_zero]
    split
    · next hzero =>
      refine ends_pure fun _ => ⟨⟨none, w₀.wallet, rfl, ?_⟩, by rw [hzero, Int.zero_add]; exact htoken⟩
      show w₀.wallet - w.wallet = _
      omega
    · have hnames : Names w.info none := by simp [Names, hsource]
      refine (ends_postConsumeQuota hd hnames).call fun res w' h' => ends_pure fun hok => ?_
      have hc := h' hok
      have hfunds : w'.wallet = w.wallet - actual := hc.funds
      have hadd := tokenPart_add relay actual spent
      refine ⟨⟨none, w₀.wallet, rfl, ?_⟩, by rw [hc.token, htoken]; omega⟩
      show w₀.wallet - w'.wallet = _
      omega

/-- Of a settlement after a failed charge nothing is claimed. -/
theorem ends_settle_any (billing : Option Session) (actual : Int) :
    Ends legal (settleBilling relay billing actual) (fun _ _ => True) w := by
  cases billing with
  | some s => exact (ends_settle_source hd actual).call fun _ _ _ => ends_pure trivial
  | none =>
    refine ends_world ?_
    split
    · exact ends_pure trivial
    · obtain ⟨account, hnames⟩ := exists_names w
      exact (ends_postConsumeQuota hd hnames).call fun _ _ _ => ends_pure trivial

/-- **A session that is served**: what is taken is the logged quota and the turns. -/
theorem ends_serve (hratio : call.ByRatio) (events : List Event) (h : Drawn env relay w₀ billing 0 w) :
    Ends legal (serve st call host relay events billing)
      (fun res w' => res.2 = true → Net env relay w₀ res.1 (quotas st call (turns {} events)) w') w := by
  refine (ends_handleEvents hd hratio events {} h).call fun c1 w1 h1 => ?_
  -- the books at the close, if no charge has failed so far
  obtain ⟨spent, hspent⟩ : ∃ spent, c1.charged = true → Drawn env relay w₀ billing spent w1 ∧
      spent + quotas st call (leftover c1) = quotas st call (turns {} events) := by
    cases hc : c1.charged with
    | false => exact ⟨0, nofun⟩
    | true =>
      obtain ⟨spent, hdrawn, hsum⟩ := h1 hc
      exact ⟨spent, fun _ => ⟨hdrawn, by rw [hsum, Int.zero_add]⟩⟩
  refine (ends_close hd hratio fun hc => (hspent hc).1).call fun c2 w2 h2 => ?_
  cases hc : c2.charged with
  | false =>
    refine (ends_settle_any hd billing _).call fun res w3 _ => ends_pure fun hok => ?_
    simp [hc] at hok
  | true =>
    obtain ⟨hc1, hdrawn⟩ := h2 hc
    rw [(hspent hc1).2] at hdrawn
    refine (ends_settle_drawn hd hdrawn (finalQuota_nonneg hratio c2.sumUsage)).call fun res w3 h3 =>
      ends_pure fun hok => ?_
    exact h3 ((Bool.and_eq_true _ _).mp hok).2

section
variable (hundo : Billing.UndoSucceeds legal) (hrecord : w.tables (.record relay.requestId) = none)
    (hused : ∀ id sub, w.tables (.sub id) = some sub → 0 ≤ sub.amountUsed)
include hundo hrecord hused

omit hd in
theorem drawn_opened {s : Session} {w' : World} {quota : Int}
    (hopened : Billing.Opened legal host.env relay quota s w w') (hquota : 0 ≤ quota) :
      Drawn host.env relay w (some s) 0 w' := by
  have hnonneg := hopened.nonneg hquota
  obtain ⟨base, hbefore, hpaid⟩ := hopened.paid hnonneg (fun _ => hrecord) hused
  refine ⟨base, hbefore, by cases s.funding.account <;> simpa [shift] using hpaid, hopened.source, ?_⟩
  rw [hopened.token hundo, Int.add_zero, tokenPart, tokenCharge, max_eq_right hnonneg]

theorem ends_realtime (hratio : call.ByRatio) (events : List Event)
    (hquota : 0 ≤ call.quotaToPreConsume) (hinfo : w.info.finalPreConsumedQuota = 0 ∧ w.info.billingSource = none) :
    Ends legal (realtime st call host relay events) (fun res w' => ∀ logged, res = some (logged, true) →
      Net host.env relay w logged (quotas st call (turns {} events)) w') w := by
  have hserved : ∀ {billing : Option Session} {w1 : World}, Drawn host.env relay w billing 0 w1 →
      Ends legal (do return some (← serve st call host relay events billing)) (fun res w' => ∀ logged,
        res = some (logged, true) → Net host.env relay w logged (quotas st call (turns {} events)) w') w1 := by
    intro billing w1 h
    refine (ends_serve hd hratio events h).call fun res w' h' => ends_pure fun logged hres => ?_
    cases hres
    exact h' rfl
  unfold realtime
  split
  · exact hserved ⟨(Int.sub_zero _).symm, hinfo.1, hinfo.2, by simp [tokenPart]⟩
  · refine (ends_newBillingSession hd).call fun res w1 h => ?_
    cases res with
    | error e => exact ends_pure fun _ h => by cases h
    | ok s => exact hserved (drawn_opened hundo hrecord hused h hquota)

end

end

/-- What was logged with whether all charges succeeded, and the world afterwards. -/
def session (st : Setting) (call : Call) (host : Billing.Host) (relay : Relay) (events : List Event) (w : World)
    (answers : Kind → List Answer) : Option (Int × Bool) × World :=
  let run := realtime st call host relay events ⟨w, answers⟩
  (run.1, run.2.world)

/-- **The log says what was taken exactly if the turns cost nothing.** In every session billed
by ratio in which all charges succeed, whatever the events are and however it closes, the
funding source has given the logged quota if and only if the turns that were charged come to
0, and so has the token. -/
theorem log_is_net_iff (st : Setting) (call : Call) (host : Billing.Host) (relay : Relay) (events : List Event)
    (w w' : World) (answers : Kind → List Answer) (logged : Int)
    (hrun : session st call host relay events w answers = (some (logged, true), w')) (hratio : call.ByRatio)
    (hquota : 0 ≤ call.quotaToPreConsume) (hinfo : w.info.finalPreConsumedQuota = 0 ∧ w.info.billingSource = none)
    (hrecord : w.tables (.record relay.requestId) = none)
    (hused : ∀ id sub, w.tables (.sub id) = some sub → 0 ≤ sub.amountUsed) (hundo : ∀ a ∈ answers .giveBack, a.Smooth) :
    ∃ account base, Before host.env w account base ∧
      (w'.taken base account = logged ↔ quotas st call (turns {} events) = 0) ∧
      (relay.isPlayground = false → (w.token - w'.token = logged ↔ quotas st call (turns {} events) = 0)) := by
  have hends : Ends (fun k a => k = .giveBack → a.Smooth) (realtime st call host relay events) _ w :=
    ends_realtime (fun _ _ => ⟨rfl, rfl⟩) (fun a ha => ha rfl) hrecord hused hratio events hquota hinfo
  have hnet := hends.run answers fun k a ha hk => hundo a (hk ▸ ha)
  obtain ⟨hres, rfl⟩ := Prod.mk.inj hrun
  obtain ⟨⟨account, base, hbefore, htaken⟩, htoken⟩ := hnet logged hres
  refine ⟨account, base, hbefore, ?_, fun hplay => ?_⟩
  · rw [htaken]
    omega
  · simp only [tokenPart, hplay, Bool.false_eq_true, if_false] at htoken
    omega

/-! A model at ratio 1, and one in a group at ratio 0. -/

def exampleSetting (group : Rat) : Setting where
  completionRatio _ := 2
  audioRatio _ := 10
  audioCompletionRatio _ := 2
  modelRatio _ := 1
  groupRatio _ := group
  groupGroupRatio _ _ := none
  quotaPerUnit := 500000

def exampleCall (group : Rat) : Call where
  originModelName := "realtime"
  upstreamModelName := "realtime"
  usingGroup := "default"
  userGroup := "default"
  autoGroup := none
  usePrice := false
  freeModel := false
  quotaToPreConsume := 20
  priceUsePrice := false
  priceModelPrice := 0
  priceModelRatio := 1
  priceGroupRatio := group
  tiered := none

def oneTurn : List Event :=
  [.client 3 0, .done { totalTokens := 20, inputTokens := 10, outputTokens := 10, inputText := 10, outputText := 10 }]

/-- The group is free: nothing is logged and nothing is taken. -/
theorem free_turn_net :
    (session (exampleSetting 0) (exampleCall 0) exampleHost walletRelay oneTurn exampleWorld
      fun _ => []).1 = some (0, true) ∧ quotas (exampleSetting 0) (exampleCall 0) (turns {} oneTurn) = 0 ∧
      ∃ account base, Before exampleHost.env exampleWorld account base ∧
        (session (exampleSetting 0) (exampleCall 0) exampleHost walletRelay oneTurn exampleWorld
          fun _ => []).2.taken base account = 0 := by
  have hlogged : (session (exampleSetting 0) (exampleCall 0) exampleHost walletRelay oneTurn
      exampleWorld fun _ => []).1 = some (0, true) := by decide +kernel
  have hfree : quotas (exampleSetting 0) (exampleCall 0) (turns {} oneTurn) = 0 := by decide +kernel
  obtain ⟨account, base, hbefore, hfunds, -⟩ := log_is_net_iff (exampleSetting 0) (exampleCall 0) exampleHost
    walletRelay oneTurn exampleWorld _ (fun _ => []) 0 (Prod.ext hlogged rfl) ⟨rfl, rfl, rfl⟩ (by decide)
    ⟨rfl, rfl⟩ rfl (fun id sub h => (exampleWorld_sub id sub h).2) fun _ h => by cases h
  exact ⟨hlogged, hfree, account, base, hbefore, hfunds.mpr hfree⟩

/-- One turn of 30: the log says 30, the wallet and the token have paid 60. -/
theorem turn_paid_twice :
    (session (exampleSetting 1) (exampleCall 1) exampleHost walletRelay oneTurn exampleWorld
      fun _ => []).1 = some (30, true) ∧
    (session (exampleSetting 1) (exampleCall 1) exampleHost walletRelay oneTurn exampleWorld
      fun _ => []).2.taken exampleWorld.wallet none = 60 ∧
    exampleWorld.token - (session (exampleSetting 1) (exampleCall 1) exampleHost walletRelay
      oneTurn exampleWorld fun _ => []).2.token = 60 := by
  decide +kernel

end AmuxApi.Realtime
