import AmuxApi.Billing.Model
import AmuxApi.Subscription.Alone

/- What each operation can do, as a rule for `Ends`: one case for its error, which has
   changed nothing, and one for its success. -/
namespace AmuxApi.Billing
open Txn Subscription
open Subscription (Tables Record UserSubscription charges turns settles givesBack)

/-- The operation succeeds: it does not fail, and no statement of its transaction does. -/
def Answer.Smooth (a : Answer) : Prop := a.fails = false ∧ a.faults = []

instance (a : Answer) : Decidable a.Smooth := inferInstanceAs (Decidable (_ ∧ _))

/-- What undoes an earlier operation succeeds. -/
def UndoSucceeds (legal : Kind → Answer → Prop) : Prop := ∀ a, legal .giveBack a → a.Smooth

section
variable {legal : Kind → Answer → Prop} {w : World}

variable (hd : ∀ k, legal k default)
include hd

/-- A read answers anything: a cache may be out of date. -/
theorem ends_readQuota (stored : World → Int) : Ends legal (readQuota stored) (Tried w fun _ w' => w' = w) w := by
  refine ends_ask (hd _) fun a _ => ?_
  split
  · exact ends_pure rfl
  · split
    · exact ends_pure rfl
    · exact ends_world (ends_pure rfl)

variable {Q : Except String Unit → World → Prop}

variable {k : Kind} {quota : Int}

theorem ends_changeQuota {apply : Int → World → World} (herr : ∀ e, Q (.error e) w)
    (hok : 0 ≤ quota → Q (.ok ()) (apply quota w)) : Ends legal (changeQuota apply k quota) Q w := by
  unfold changeQuota
  split
  · exact ends_pure (herr _)
  · refine ends_ask (hd _) fun a _ => ?_
    split
    · exact ends_pure (herr _)
    · exact ends_change (ends_pure (hok (by omega)))

theorem ends_smoothQuota (hsmooth : ∀ a, legal k a → a.Smooth) {apply : Int → World → World} (hquota : 0 ≤ quota)
    (hok : Q (.ok ()) (apply quota w)) : Ends legal (changeQuota apply k quota) Q w := by
  unfold changeQuota
  rw [if_neg (by omega)]
  refine ends_ask (hd _) fun a ha => ?_
  rw [if_neg (by simp [(hsmooth a ha).1])]
  exact ends_change (ends_pure hok)

theorem ends_onTables {α : Type}
    {call : Answer → Subscription.SQL (Except Subscription.Err α)} {Q : Except String α → World → Prop}
    (h : ∀ a d res, legal k a → solo (call a) a.faults w.tables = (d, res) →
      Q (res.mapError Subscription.Err.text) { w with tables := d }) : Ends legal (onTables k call) Q w :=
  ends_ask (hd _) fun a ha => ends_world (ends_change (ends_pure (h a _ _ ha rfl)))

/-- The request is charged, or it was on record and is not charged again. -/
structure SubCharged (env : Subscription.Env) (requestId : String) (userId amount : Int)
    (result : Subscription.PreConsumeResult) (d d' : Tables) : Prop where
  new : d (.record requestId) = none → 0 < amount ∧ result.preConsumed = amount ∧
    Along (charges env Eq requestId ⟨userId, result.userSubscriptionId, amount, .consumed⟩) d d'
  again : (d (.record requestId)).isSome → Along (turns env Eq) d d'

theorem ends_preConsumeUserSubscription {env : Subscription.Env} {requestId : String} {userId amount : Int}
    {Q : Except String Subscription.PreConsumeResult → World → Prop} (herr : ∀ e, Q (.error e) w)
    (hok : ∀ result d, SubCharged env requestId userId amount result w.tables d →
      Q (.ok result) { w with tables := d }) :
    Ends legal (preConsumeUserSubscription env requestId userId amount) Q w := by
  refine ends_onTables hd fun a d res _ hsolo => ?_
  cases res with
  | error e =>
    rw [preConsume_error hsolo]
    exact herr _
  | ok result =>
    exact hok result d ⟨fun hnew => preConsume_new hnew hsolo,
      fun hold => preConsume_again hold hsolo⟩

theorem ends_postConsume {id delta : Int} (hdelta : delta ≠ 0) (herr : ∀ e, Q (.error e) w)
    (hok : ∀ d, 0 < id → Along (settles id delta) w.tables d → Q (.ok ()) { w with tables := d }) :
    Ends legal (postConsumeUserSubscriptionDelta k id delta) Q w := by
  refine ends_onTables hd fun a d res _ hsolo => ?_
  cases res with
  | error e =>
    rw [settle_error hsolo]
    exact herr _
  | ok _ => exact hok d (settle_ok_pos hsolo) (settle_ok hsolo hdelta)

theorem ends_smoothConsume (hsmooth : ∀ a, legal k a → a.Smooth) {id delta : Int} {s : UserSubscription}
    (hid : 0 < id) (hneg : delta < 0) (hs : w.tables (.sub id) = some s)
    (hok : ∀ d, Along (settles id delta) w.tables d → Q (.ok ()) { w with tables := d }) :
    Ends legal (postConsumeUserSubscriptionDelta k id delta) Q w := by
  refine ends_onTables hd fun a d res ha hsolo => ?_
  rw [(hsmooth a ha).2] at hsolo
  have hres : res = .ok () := by
    rw [← settle_smooth hid hneg hs, hsolo]
  subst hres
  exact hok d (settle_ok hsolo (by omega))

theorem ends_refundSubscriptionPreConsume {requestId : String} {r : Record}
    (hr : w.tables (.record requestId) = some r) (hst : r.status = .consumed) (herr : ∀ e, Q (.error e) w)
    (hok : ∀ d, Along (givesBack requestId r) w.tables d → Q (.ok ()) { w with tables := d }) :
    Ends legal (refundSubscriptionPreConsume requestId) Q w := by
  refine ends_onTables hd fun a d res _ hsolo => ?_
  cases res with
  | error e =>
    rw [refund_error hsolo]
    exact herr _
  | ok _ => exact hok d (refund_ok hr hst hsolo)

omit hd in
/-- The retries stop at the first success; a failed attempt has changed nothing. -/
theorem ends_refundWithRetry {fn : Service (Except String Unit)} (herr : ∀ e, Q (.error e) w)
    (hfn : Ends legal fn (Tried w fun _ w' => Q (.ok ()) w') w) (n : Nat) (last : Except String Unit)
    (hlast : n = 0 → Q last w) : Ends legal (refundWithRetry fn n last) Q w := by
  induction n generalizing last with
  | zero => exact ends_pure (hlast rfl)
  | succ n ih =>
    apply hfn.tried
    · exact fun e => ih (.error e) fun _ => herr e
    · exact fun _ _ h => ends_pure h

/-! The token. -/

theorem ends_preConsumeTokenQuota {host : Host} {relay : Relay} (herr : ∀ e, Q (.error e) w)
    (hok : 0 ≤ quota → Q (.ok ()) { w with token := w.token - if relay.isPlayground then 0 else quota }) :
    Ends legal (preConsumeTokenQuota host relay quota) Q w := by
  unfold preConsumeTokenQuota
  split
  · exact ends_pure (herr _)
  have hok := hok (by omega)
  split_ifs with hplay
  · rw [if_pos hplay, Int.sub_zero] at hok
    exact ends_pure hok
  · rw [if_neg hplay] at hok
    apply (ends_readQuota hd World.token).tried
    · exact fun e => ends_pure (herr e)
    intro remain w' hw
    subst hw
    dsimp only
    split
    · exact ends_pure (herr _)
    · exact ends_changeQuota hd herr fun _ => hok

end

end AmuxApi.Billing
