import AmuxApi.Purchase.Model

/- Subscription orders under concurrency: any number of `CompleteSubscriptionOrder` and
   `ExpireSubscriptionOrder` calls for one trade number, interleaved statement by
   statement.

   A completion claims the order with an UPDATE that asks for `pending`, and inserts the
   subscription in the same transaction. From the claim to the commit the order's row is
   taken, so what the claim found is what the commit changes: every commit leaves the
   order and the subscriptions alone, or takes the order from pending to success together
   with one new subscription, or takes it from pending to expired (`Effect`). -/
namespace AmuxApi.Purchase
open Txn Function

inductive OrderCall (env : Env)
  | complete (stamp : Stamp env) (cache : Int → Option SubscriptionPlan) (providerPayload : String)
      (expectedPaymentProvider : Option Payment.Provider)
  | expire (expectedPaymentProvider : Option Payment.Provider) (now : Int)

def OrderCall.prog {env : Env} (tradeNo : String) : OrderCall env → SQL (Except Err Unit)
  | .complete stamp cache payload expected => completeSubscriptionOrder env stamp cache tradeNo payload expected
  | .expire expected now => expireSubscriptionOrder tradeNo expected now

def orderStatus (d : Tables) (tradeNo : String) : Option Payment.Status := (d (.order tradeNo)).map (·.status)

/-- The order is still there, for the same user and plan. -/
def SameTerms (t : String) (d d' : Tables) : Prop :=
  ∀ o, d (.order t) = some o → ∃ o', d' (.order t) = some o' ∧ o'.userId = o.userId ∧ o'.planId = o.planId

/-- What a commit does to the order and to the subscriptions. -/
inductive Effect (t : String) (d d' : Tables) : Prop
  | idle (h : d' = d)
  | complete (o o' : SubscriptionOrder) (id : Int) (sub : UserSubscription) (ho : d (.order t) = some o)
      (hp : o.status = .pending) (ho' : d' (.order t) = some o') (hs : o'.status = .success)
      (hu : o'.userId = o.userId) (hpl : o'.planId = o.planId) (hfree : d (.sub id) = none)
      (hsub : d' (.sub id) = some sub) (hsu : sub.userId = o.userId) (hspl : sub.planId = o.planId)
      (hrest : ∀ id', id' ≠ id → d' (.sub id') = d (.sub id'))
  | expire (o o' : SubscriptionOrder) (ho : d (.order t) = some o) (hp : o.status = .pending)
      (ho' : d' (.order t) = some o') (hs : o'.status = .expired) (hu : o'.userId = o.userId)
      (hpl : o'.planId = o.planId) (hrest : ∀ id, d' (.sub id) = d (.sub id))

theorem SameTerms.refl (t : String) (d : Tables) : SameTerms t d d := fun o ho => ⟨o, ho, rfl, rfl⟩

theorem SameTerms.trans {t : String} {d1 d2 d3 : Tables} (h : SameTerms t d1 d2) (h' : SameTerms t d2 d3) :
    SameTerms t d1 d3 := by
  intro o ho
  obtain ⟨o', ho', hu, hp⟩ := h o ho
  obtain ⟨o'', ho'', hu', hp'⟩ := h' o' ho'
  exact ⟨o'', ho'', hu'.trans hu, hp'.trans hp⟩

theorem Effect.sameTerms {t : String} {d d' : Tables} (h : Effect t d d') : SameTerms t d d' := by
  cases h with
  | idle h => rw [h]; exact .refl t d
  | complete o o' id sub ho hp ho' hs hu hpl | expire o o' ho hp ho' hs hu hpl =>
    intro o1 h1
    rw [ho] at h1
    cases h1
    exact ⟨o', ho', hu, hpl⟩

section
variable {ι : Type} {t : String} {i : ι} {σ : Local Row Empty}

/-- The calls rely on the terms of the order, and guarantee an `Effect`. -/
def orderProto (ι : Type) (t : String) : Proto ι Row Empty where
  rely := SameTerms t
  guar := fun _ _ d d' => Effect t d d'
  prot := fun l _ => l.elim
  guard := anyUpdate

instance orderProto_sound (ι : Type) (t : String) : (orderProto ι t).Sound where
  refl := .refl t
  trans _ _ _ h h' := h.trans h'
  guar _ _ _ _ h := h.sameTerms

/-- The transaction has taken the order from pending to `status`. -/
structure Claimed (t : String) (o : SubscriptionOrder) (status : Payment.Status) (σ : Local Row Empty) : Prop where
  stored : σ.db (.order t) = some o
  pending : o.status = .pending
  written : ∃ o', σ.pend (.order t) = some (some o') ∧ o'.status = status ∧ o'.userId = o.userId ∧
    o'.planId = o.planId

def NoSub (σ : Local Row Empty) : Prop := ∀ id, σ.pend (.sub id) = none

/-- Subscription `id`, which was free, is inserted for the order's user and plan. -/
structure Granted (o : SubscriptionOrder) (id : Int) (σ : Local Row Empty) : Prop where
  free : σ.db (.sub id) = none
  inserted : ∃ sub, σ.pend (.sub id) = some (some sub) ∧ sub.userId = o.userId ∧ sub.planId = o.planId
  others : ∀ id', id' ≠ id → σ.pend (.sub id') = none

inductive Finished (t : String) (σ : Local Row Empty) : Prop
  | idle (h : σ.pend = clean)
  | complete (o : SubscriptionOrder) (id : Int) (hc : Claimed t o .success σ) (hg : Granted o id σ)
  | expire (o : SubscriptionOrder) (hc : Claimed t o .expired σ) (hn : NoSub σ)

variable {o : SubscriptionOrder} {status : Payment.Status}

variable {d : Tables} {k : Key} {env : Env} {v : Row k}

section
variable (hd : (orderProto ι t).Moves σ d)
include hd

theorem Claimed.moves (h : Claimed t o status σ) : Claimed t o status (σ.on d) := by
  obtain ⟨o', hw, hrest⟩ := h.written
  exact ⟨(hd.taken _ (by rw [hw]; rfl)).trans h.stored, h.pending, o', hw, hrest⟩

theorem Granted.moves {id : Int} (h : Granted o id σ) : Granted o id (σ.on d) := by
  obtain ⟨sub, hw, hrest⟩ := h.inserted
  exact ⟨(hd.taken _ (by rw [hw]; rfl)).trans h.free, ⟨sub, hw, hrest⟩, h.others⟩

theorem Finished.moves (h : Finished t σ) : Finished t (σ.on d) := by
  cases h with
  | idle h => exact .idle h
  | complete o id hc hg => exact .complete o id (hc.moves hd) (hg.moves hd)
  | expire o hc hn => exact .expire o (hc.moves hd) hn

end

theorem view_on (h : σ.pend k = some v) : σ.view k = v := by
  simp [Local.view, Txn.view, h]

theorem Finished.effect (h : Finished t σ) : Effect t σ.db σ.view := by
  cases h with
  | idle h =>
    refine .idle ?_
    rw [Local.view, h, view_clean]
  | complete o id hc hg =>
    obtain ⟨o', hw, hs, hu, hp⟩ := hc.written
    obtain ⟨sub, hsub, hsu, hsp⟩ := hg.inserted
    exact .complete o o' id sub hc.stored hc.pending (view_on hw) hs hu hp hg.free (view_on hsub) hsu hsp
      fun id' hne => view_off (hg.others id' hne) _
  | expire o hc hn =>
    obtain ⟨o', hw, hs, hu, hp⟩ := hc.written
    exact .expire o o' hc.stored hc.pending (view_on hw) hs hu hp fun id => view_off (hn id) _

/-! The functions. -/

theorem checkPurchaseLimit_reads (env : Env) (userId planId : Int) (plan : SubscriptionPlan) :
    (checkPurchaseLimit env userId planId plan).Writes fun _ => False := by
  unfold checkPurchaseLimit
  split
  · refine writes_bind (fun r => ?_) writes_select
    cases r with
    | none => trivial
    | some d => dsimp only; split <;> trivial
  · trivial

theorem getUserGroupByIdTx_reads (userId : Int) : (getUserGroupByIdTx userId).Writes fun _ => False := by
  unfold getUserGroupByIdTx
  split
  · trivial
  · exact fun r => by cases r <;> trivial

theorem getSubscriptionPlanById_reads (cache : Int → Option SubscriptionPlan) (id : Int) :
    (getSubscriptionPlanById cache id).Writes fun _ => False := by
  unfold getSubscriptionPlanById
  split
  · trivial
  split
  · trivial
  · refine writes_bind (fun r => ?_) writes_select
    cases r with
    | none => trivial
    | some d => dsimp only; split <;> trivial

theorem upgradeUserGroup_writes (userId : Int) (upgradeGroup : String) :
    (upgradeUserGroup userId upgradeGroup).Writes (· = .user userId) := by
  unfold upgradeUserGroup
  split
  · trivial
  refine writes_bind (fun r => ?_) (writes_of_reads (getUserGroupByIdTx_reads userId))
  cases r with
  | error e => trivial
  | ok currentGroup =>
    dsimp only
    split
    · trivial
    · exact writes_bind (fun r => by cases r <;> trivial) (writes_update rfl)

/-- A postcondition for success; of an error nothing is asked, it rolls back. -/
def OnOk {α : Type} (I : Local Row Empty → Prop) : Except Err α → Local Row Empty → Prop
  | .error _, _ => True
  | .ok _, σ => I σ

theorem stable_onOk {α : Type} {P : Proto ι Row Empty} {I : Local Row Empty → Prop}
    (h : ∀ σ d, I σ → P.Moves σ d → I (σ.on d)) : P.Stable (OnOk I : Except Err α → _) := by
  intro r σ d hr hd
  cases r with
  | error e => trivial
  | ok a => exact h σ d hr hd

theorem wp_error {α : Type} {P : Proto ι Row Empty} {I : Local Row Empty → Prop} (e : Err) :
    wp P i (pure (.error e) : SQL (Except Err α)) (OnOk I) σ :=
  fun _ _ => trivial

theorem Claimed.write (h : Claimed t o status σ) (hk : k ≠ .order t) :
    Claimed t o status { σ with pend := write σ.pend k v } := by
  refine ⟨h.stored, h.pending, ?_⟩
  obtain ⟨o', hw, hrest⟩ := h.written
  exact ⟨o', by rw [← hw]; exact update_of_ne (Ne.symm hk) _ _, hrest⟩

theorem NoSub.write (h : NoSub σ) (hk : ∀ id, k ≠ .sub id) : NoSub { σ with pend := write σ.pend k v } :=
  fun id => (update_of_ne (Ne.symm (hk id)) _ _).trans (h id)

theorem Granted.write {id : Int} (h : Granted o id σ) (hk : ∀ id, k ≠ .sub id) :
    Granted o id { σ with pend := write σ.pend k v } := by
  obtain ⟨sub, hsub, hrest⟩ := h.inserted
  have keep : ∀ id', Txn.write σ.pend k v (.sub id') = σ.pend (.sub id') := fun id' =>
    update_of_ne (Ne.symm (hk id')) _ _
  exact ⟨h.free, ⟨sub, (keep id).trans hsub, hrest⟩, fun id' hne => (keep id').trans (h.others id' hne)⟩

theorem insertSub_some {sub : UserSubscription} {v v' : Option UserSubscription} (h : insertSub sub v = some v') :
    v = none ∧ v' = some sub := by
  cases v with
  | none => exact ⟨rfl, (Option.some.inj h).symm⟩
  | some _ => cases h

/-- Inside a claim, a subscription that is created is granted to the order. -/
theorem wp_create (stamp : Stamp env) {userId planId : Int} (plan : SubscriptionPlan) (source : String)
    (hu : userId = o.userId) (hp : planId = o.planId) (hc : Claimed t o .success σ) (hn : NoSub σ) :
    wp (orderProto ι t) i (createUserSubscriptionFromPlanTx env stamp userId planId plan source)
      (OnOk fun σ' => Claimed t o .success σ' ∧ Granted o stamp.newId σ') σ := by
  unfold createUserSubscriptionFromPlanTx
  split
  · exact wp_error _
  split
  · exact wp_error _
  refine wp_bind (wp_reads (checkPurchaseLimit_reads ..) fun r d hd => ?_)
  cases r with
  | error e => exact wp_error e
  | ok _ =>
    dsimp only
    split
    · exact wp_error _
    -- the group is written while the order's row and every subscription stay as they are
    refine wp_bind (wp_mono ?_ (wp_writes (I := fun σ' => Claimed t o .success σ' ∧ NoSub σ')
      nofun (fun σ' d' h hd' => ⟨h.1.moves hd', h.2⟩) ?_ (upgradeUserGroup_writes ..) ⟨hc.moves hd, hn⟩))
    · intro r σ' h
      obtain ⟨hc', hn'⟩ := h
      cases r with
      | error e => exact wp_error e
      | ok prevGroup =>
        have hstable : (orderProto ι t).Stable
            (OnOk fun σ' => Claimed t o .success σ' ∧ Granted o stamp.newId σ' : Except Err UserSubscription → _) :=
          stable_onOk fun σ' d' h hd' => ⟨h.1.moves hd', h.2.moves hd'⟩
        refine wp_update (fun d' v hd' _ hv => ⟨nofun, wp_pure hstable ?_⟩) (fun d' _ _ _ => wp_error _)
          (fun d' _ _ => wp_error _)
        obtain ⟨hfree, rfl⟩ := insertSub_some hv
        have hfree : d' (.sub stamp.newId) = none := (view_off (hn' _) d').symm.trans hfree
        refine ⟨(hc'.moves hd').write (by simp), hfree, ⟨_, update_self .., hu, hp⟩, fun id hne => ?_⟩
        exact (update_of_ne (by simpa using hne) _ _).trans (hn' id)
    · rintro σ' k v rfl h
      exact ⟨h.1.write (by simp), h.2.write (by simp)⟩

theorem upsertSubscriptionTopUpTx_writes (order : SubscriptionOrder) (now : Int) :
    (upsertSubscriptionTopUpTx t order now).Writes (· = .topUp t) := by
  refine writes_bind (fun r => ?_) writes_select
  cases r with
  | none => trivial
  | some d =>
    refine writes_bind (fun r => ?_) (writes_update rfl)
    match r with
    | none | some false | some true => trivial

theorem setPayload_some {payload : String} {v v' : Option SubscriptionOrder} (h : setPayload payload v = some v') :
    ∃ o, v = some o ∧ v' = some { o with providerPayload := payload } := by
  cases v with
  | none => cases h
  | some o => exact ⟨o, rfl, (Option.some.inj h).symm⟩

theorem wp_grantOrder (stamp : Stamp env) (cache : Int → Option SubscriptionPlan) {o order : SubscriptionOrder}
    (payload : String) (hu : order.userId = o.userId) (hp : order.planId = o.planId) (hc : Claimed t o .success σ)
    (hn : NoSub σ) : wp (orderProto ι t) i (grantOrder env stamp cache t order payload) (OnOk (Finished t)) σ := by
  have hstable : (orderProto ι t).Stable (OnOk (Finished t) : Except Err Unit → _) :=
    stable_onOk fun _ _ h hd => h.moves hd
  refine wp_bind (wp_reads (getSubscriptionPlanById_reads ..) fun r d hd => ?_)
  cases r with
  | error e => exact wp_error e
  | ok plan =>
    refine wp_then (wp_create stamp plan "order" hu hp (hc.moves hd) hn) fun r σ1 h1 => ?_
    cases r with
    | error e => exact wp_error e
    | ok sub =>
      refine wp_bind (wp_mono ?_ (wp_writes
        nofun
        (fun σ' d' h hd' => ⟨h.1.moves hd', h.2.moves hd'⟩) ?_ (upsertSubscriptionTopUpTx_writes order stamp.now) h1))
      · intro r σ2 h2
        obtain ⟨hc2, hg2⟩ := h2
        cases r with
        | error e => exact wp_error e
        | ok _ =>
          dsimp only
          split
          · exact wp_pure hstable (.complete o _ hc2 hg2)
          refine wp_update (fun d' v hd' _ hv => ⟨nofun, wp_pure hstable ?_⟩)
            (fun d' hd' _ _ => wp_pure hstable (.complete o _ (hc2.moves hd') (hg2.moves hd')))
              (fun d' _ _ => wp_error _)
          -- the payload is written over the claimed row, which stays claimed
          obtain ⟨o', hw, hs, hu', hp'⟩ := (hc2.moves hd').written
          obtain ⟨o1, hv1, rfl⟩ := setPayload_some hv
          obtain rfl : o' = o1 := Option.some.inj ((view_on hw).symm.trans hv1)
          refine .complete o stamp.newId ⟨(hc2.moves hd').stored, hc2.pending, _, update_self .., hs, hu', hp'⟩ ?_
          exact (hg2.moves hd').write (by simp)
      · rintro σ' k v rfl h
        exact ⟨h.1.write (by simp), h.2.write (by simp)⟩

theorem claimOrder_some {now : Int} {v v' : Option SubscriptionOrder} (h : claimOrder status now v = some v') :
    ∃ o, v = some o ∧ o.status = .pending ∧ v' = some { o with status, completeTime := now } := by
  cases v with
  | none => cases h
  | some o =>
    simp only [claimOrder] at h
    split_ifs at h
    exact ⟨o, rfl, ‹_›, (Option.some.inj h).symm⟩

/-- The claim that both functions make, from an order that was read before. -/
theorem claim {now : Int} {order : SubscriptionOrder} {v : Option SubscriptionOrder} (hclean : σ.pend = clean)
    (ho : σ.db (.order t) = some order) (hd : (orderProto ι t).Moves σ d)
    (hv : claimOrder status now ((σ.on d).view (.order t)) = some v) :
    ∃ o, Claimed t o status { σ.on d with pend := write σ.pend (.order t) v } ∧
      NoSub { σ.on d with pend := write σ.pend (.order t) v } ∧ order.userId = o.userId ∧ order.planId = o.planId := by
  obtain ⟨o, hview, hpend, rfl⟩ := claimOrder_some hv
  have hstored : d (.order t) = some o := by
    rw [← hview, Local.view_on_clean hclean]
  obtain ⟨o', ho', hu, hp⟩ := hd.rely order ho
  rw [hstored] at ho'
  cases ho'
  have hn : NoSub (σ.on d) := fun id => congrFun hclean _
  exact ⟨o, ⟨hstored, hpend, _, update_self .., rfl, rfl, rfl⟩, hn.write (by simp), hu.symm, hp.symm⟩

/-- **Each call** keeps to the protocol. -/
theorem wp_orderCall (c : OrderCall env) (d : Tables) :
    wp (orderProto ι t) i (c.prog t) (fun _ _ => True) (Local.fresh d) := by
  have hstable : (orderProto ι t).Stable (OnOk (Finished t) : Except Err Unit → _) :=
    stable_onOk fun _ _ h hd => h.moves hd
  have done : ∀ {a : Except Err Unit} {σ : Local Row Empty},
      wp (orderProto ι t) i (pure a) (fun _ _ => True) σ := fun _ _ => trivial
  -- a transaction that ends as `Finished` says
  have tx : ∀ {body : SQL (Except Err Unit)}, wp (orderProto ι t) i body (OnOk (Finished t)) (Local.fresh d) →
      wp (orderProto ι t) i (transaction .db body) (fun _ _ => True) (Local.fresh d) := by
    intro body h
    refine wp_transaction (fun _ _ _ _ _ => trivial) (wp_mono ?_ h)
    intro r σ' hr
    cases r with
    | error e => trivial
    | ok a => exact ⟨Finished.effect hr, trivial, trivial⟩
  cases c with
  | complete stamp cache payload expected =>
    show wp _ i (completeSubscriptionOrder env stamp cache t payload expected) _ _
    unfold completeSubscriptionOrder
    split
    · exact done
    refine tx (wp_select (fun d' hd' => ?_) fun d' _ => wp_error _)
    split
    · exact wp_error _
    rename_i order ho
    split
    · exact wp_error _
    split
    · exact wp_pure hstable (.idle rfl)
    split
    · exact wp_error _
    refine wp_update (fun d1 v hd1 _ hv => ⟨nofun, ?_⟩) (fun d1 _ _ _ => wp_pure hstable (.idle rfl))
      (fun d1 _ _ => wp_error _)
    obtain ⟨o, hc, hn, hu, hp⟩ := claim rfl ho hd1 hv
    exact wp_grantOrder stamp cache payload hu hp hc hn
  | expire expected now =>
    show wp _ i (expireSubscriptionOrder t expected now) _ _
    unfold expireSubscriptionOrder
    split
    · exact done
    refine tx (wp_select (fun d' hd' => ?_) fun d' _ => wp_error _)
    split
    · exact wp_error _
    rename_i order ho
    split
    · exact wp_error _
    split
    · exact wp_pure hstable (.idle rfl)
    refine wp_update (fun d1 v hd1 _ hv => ⟨nofun, ?_⟩) (fun d1 _ _ _ => wp_pure hstable (.idle rfl))
      (fun d1 _ _ => wp_error _)
    obtain ⟨o, hc, hn, -, -⟩ := claim rfl ho hd1 hv
    exact wp_pure hstable (.expire o hc hn)

/-! Whole runs. -/

/-- What the commits so far have made of the order and of the subscriptions. -/
inductive Standing (t : String) (d₀ d : Tables) : Prop
  | untouched (ho : d (.order t) = d₀ (.order t)) (hsub : ∀ id, d (.sub id) = d₀ (.sub id))
  | completed (o : SubscriptionOrder) (id : Int) (sub : UserSubscription) (ho : d₀ (.order t) = some o)
      (hp : o.status = .pending) (hs : orderStatus d t = some .success) (hfree : d₀ (.sub id) = none)
      (hsub : d (.sub id) = some sub) (hsu : sub.userId = o.userId) (hspl : sub.planId = o.planId)
      (hrest : ∀ id', id' ≠ id → d (.sub id') = d₀ (.sub id'))
  | expired (hp : orderStatus d₀ t = some .pending) (hs : orderStatus d t = some .expired)
      (hsub : ∀ id, d (.sub id) = d₀ (.sub id))

theorem orderStatus_of (h : d (.order t) = some o) : orderStatus d t = some o.status := by
  rw [orderStatus, h]
  rfl

/-- A commit that finds the order pending is the first to touch it. -/
theorem Standing.of_pending {d₀ : Tables} (h : Standing t d₀ d) (ho : d (.order t) = some o)
    (hp : o.status = .pending) : d₀ (.order t) = some o ∧ ∀ id, d (.sub id) = d₀ (.sub id) := by
  have hst := (orderStatus_of ho).trans (congrArg some hp)
  cases h with
  | untouched he hsub => exact ⟨he ▸ ho, hsub⟩
  | completed _ _ _ _ _ hs | expired _ hs =>
    rw [hst] at hs
    cases hs

theorem Standing.next {d₀ d' : Tables} (h : Standing t d₀ d) (he : Effect t d d') : Standing t d₀ d' := by
  cases he with
  | idle e => rwa [e]
  | complete o o' id sub ho hp ho' hs hu hpl hfree hsub hsu hspl hrest =>
    obtain ⟨ho0, hsame⟩ := h.of_pending ho hp
    refine .completed o id sub ho0 hp ((orderStatus_of ho').trans (congrArg some hs)) ?_ hsub hsu hspl ?_
    · rw [← hsame]; exact hfree
    · exact fun id' hne => (hrest id' hne).trans (hsame id')
  | expire o o' ho hp ho' hs hu hpl hrest =>
    obtain ⟨ho0, hsame⟩ := h.of_pending ho hp
    exact .expired ((orderStatus_of ho0).trans (congrArg some hp)) ((orderStatus_of ho').trans (congrArg some hs))
      fun id => (hrest id).trans (hsame id)

/-- No commit goes between success and expired. -/
theorem Effect.terminal {d' : Tables} (h : Effect t d d') :
    ¬ (orderStatus d t = some .success ∧ orderStatus d' t = some .expired) ∧
      ¬ (orderStatus d t = some .expired ∧ orderStatus d' t = some .success) := by
  cases h with
  | idle e =>
    rw [e]
    constructor <;> rintro ⟨h, h'⟩ <;> rw [h] at h' <;> cases h'
  | complete o o' id sub ho hp | expire o o' ho hp =>
    rw [orderStatus_of ho, hp]
    constructor <;> rintro ⟨h, -⟩ <;> cases h

end

def orderCalls {ι : Type} [DecidableEq ι] {env : Env} (t : String) (calls : ι → OrderCall env) (d : Tables) :
    Sys ι Row Empty (Except Err Unit) :=
  start d fun i => (calls i).prog t

/-- **One subscription for one order.** Any number of completions and expiries of one order,
in any interleaving and with any statements failing. If the order goes from pending to
success, exactly one subscription has been created, and it is the order's; otherwise none
has. The order never moves between success and expired. -/
theorem one_subscription_per_order {ι : Type} [DecidableEq ι] (env : Env) (t : String) (calls : ι → OrderCall env)
    (d : Tables) (s : Sys ι Row Empty (Except Err Unit)) (hs : Reach anyUpdate (orderCalls t calls d) s) :
    (∀ o, d (.order t) = some o → o.status ≠ .success → orderStatus s.db t = some .success →
      ∃ id sub, d (.sub id) = none ∧ s.db (.sub id) = some sub ∧ sub.userId = o.userId ∧ sub.planId = o.planId ∧
        ∀ id', id' ≠ id → s.db (.sub id') = d (.sub id')) ∧
    (orderStatus s.db t ≠ some .success ∨ orderStatus d t = some .success → ∀ id, s.db (.sub id) = d (.sub id)) ∧
    ∀ c ∈ s.hist, ¬ (orderStatus c.before t = some .success ∧ orderStatus c.after t = some .expired) ∧
      ¬ (orderStatus c.before t = some .expired ∧ orderStatus c.after t = some .success) := by
  have hgood : Good (orderProto ι t) (fun _ _ _ => True) d s :=
    reach_sound (fun i => wp_orderCall (calls i) d) hs
  have hstanding : Standing t d s.db :=
    hgood.kept.rule (I := fun _ d' => Standing t d d') (.untouched rfl fun _ => rfl) (fun _ _ _ _ ih he => ih.next he)
      hgood.chain
  refine ⟨fun o ho hne hdone => ?_, fun hcase => ?_, fun c hc => ?_⟩
  · cases hstanding with
    | untouched he _ =>
      rw [orderStatus_of (he.trans ho)] at hdone
      exact absurd (Option.some.inj hdone) hne
    | completed o' id sub ho' hp hs' hfree hsub hsu hspl hrest =>
      obtain rfl : o = o' := Option.some.inj (ho.symm.trans ho')
      exact ⟨id, sub, hfree, hsub, hsu, hspl, hrest⟩
    | expired _ hs' _ =>
      rw [hs'] at hdone
      cases hdone
  · cases hstanding with
    | untouched _ hsub => exact hsub
    | completed o id sub ho hp hs' =>
      rcases hcase with h | h
      · exact absurd hs' h
      · rw [orderStatus_of ho, hp] at h
        cases h
    | expired _ _ hsub => exact hsub
  · obtain ⟨own, he⟩ := hgood.kept.mem hc
    exact Effect.terminal he

/-! A pending order of user 7 for plan 3, which gives 30 days. -/

def exampleEnv : Env := ⟨Go.utc, [1, 2], by decide, id, List.Perm.refl⟩

def examplePlan : SubscriptionPlan := ⟨⟨"never", 0⟩, "day", 30, 0, 1, "vip", 100⟩

def exampleOrder : SubscriptionOrder := ⟨7, 3, 16, "stripe", some .stripe, .pending, 90, 0, ""⟩

def exampleTables : Tables
  | .plan id => if id = 3 then some examplePlan else none
  | .order t => if t = "T1" then some exampleOrder else none
  | .user id => if id = 7 then some ⟨"default"⟩ else none
  | .sub _ => none
  | .topUp _ => none

def exampleStamp (id : Int) (h : id ∈ exampleEnv.ids) : Stamp exampleEnv := ⟨1000, 1000, id, h⟩

def firstStamp : Stamp exampleEnv := exampleStamp 1 (by decide)

def secondStamp : Stamp exampleEnv := exampleStamp 2 (by decide)

/-- The success event comes twice and the expiry once, and all three read the order as
pending. -/
def threeCalls : Fin 3 → OrderCall exampleEnv
  | 0 => .complete firstStamp (fun _ => none) "{}" (some .stripe)
  | 1 => .complete secondStamp (fun _ => none) "{}" (some .stripe)
  | 2 => .expire (some .stripe) 1000

theorem raced_order_completed_once :
    ∃ s, Reach anyUpdate (orderCalls "T1" threeCalls exampleTables) s ∧
      orderStatus s.db "T1" = some .success ∧ (s.db (.sub 1)).isSome ∧ s.db (.sub 2) = none ∧
      ∃ id sub, exampleTables (.sub id) = none ∧ s.db (.sub id) = some sub ∧ sub.userId = 7 ∧ sub.planId = 3 ∧
        ∀ id', id' ≠ id → s.db (.sub id') = exampleTables (.sub id') := by
  obtain ⟨s, hs, hdone, hone, htwo⟩ : ∃ s, Reach anyUpdate (orderCalls "T1" threeCalls exampleTables) s ∧
      orderStatus s.db "T1" = some .success ∧ (s.db (.sub 1)).isSome ∧ s.db (.sub 2) = none :=
    exists_of_run
      ([(0, true), (1, true), (2, true), (0, true)] ++ List.replicate 9 (0, true) ++
        [(1, true), (1, true), (2, true), (2, true)]) (by decide +kernel)
  have h := one_subscription_per_order exampleEnv "T1" threeCalls exampleTables s hs
  exact ⟨s, hs, hdone, hone, htwo, h.1 exampleOrder rfl (by decide) hdone⟩

end AmuxApi.Purchase
