import AmuxApi.Subscription.Calls

/- Each function with the database to itself, any of its statements failing: an error has
   changed nothing, and success has made exactly the commit its request is for. Where
   nobody comes in between, a pre-consumption also reports the subscription on record. -/
namespace AmuxApi.Subscription
open Txn

section
variable {env : Env} {r : Request} {d d' : Tables}

/-- What each of its commits keeps, the call keeps. -/
theorem past_keeps {α : Type} (x : Tables → α) : ∀ {own : List (Change Row)} {d' : Tables},
    Past (undisturbed env r) () d own d' → (∀ c ∈ own, x c.2 = x c.1) → x d' = x d
  | [], _, h, _ => congrArg x h
  | (b, a) :: own, d', ⟨e, _, h⟩, hown => by
    subst e
    have hlast : x a = x b := hown (b, a) (List.mem_cons_self ..)
    rw [hlast]
    exact past_keeps x h fun c hc => hown c (List.mem_cons_of_mem _ hc)

theorem past_none {own : List (Change Row)} (h : Past (undisturbed env r) () d own d') (hown : own = []) : d' = d := by
  rw [hown] at h
  exact h

theorem past_one {own : List (Change Row)} {c : Change Row} (h : Past (undisturbed env r) () d own d')
    (hown : own = [c]) : Effect env Eq r d d' := by
  rw [hown] at h
  obtain ⟨rfl, heff, rfl⟩ := h
  exact heff

theorem turns_record (h : Along (turns env Eq) d d') (requestId : String) :
    d' (.record requestId) = d (.record requestId) :=
  h (.record requestId)

end

/-! Pre-consumption. -/

variable {e : Err}

section
variable {env : Env} {cache : Int → Option Plan} {requestId : String} {userId amount now : Int} {faults : List Bool}
  {d d' : Tables}

theorem preConsume_alone {res : Except Err PreConsumeResult}
    (h : solo (preConsumeUserSubscription env cache requestId userId amount now) faults d = (d', res)) :
    ∃ σ : Local Row Empty, σ.db = d' ∧
      PreConsumePost (undisturbed env (.preConsume cache requestId userId amount now)) () requestId res σ ∧
      Past (undisturbed env (.preConsume cache requestId userId amount now)) () d σ.own d' := by
  obtain ⟨σ, hdb, hpost, hpast⟩ := solo_sound
    (P := undisturbed env (.preConsume cache requestId userId amount now)) rfl (wp_preConsume rfl rfl rfl) faults
  rw [h] at hdb hpost
  rw [hdb] at hpast
  exact ⟨σ, hdb, hpost, hpast⟩

theorem preConsume_error
    (h : solo (preConsumeUserSubscription env cache requestId userId amount now) faults d = (d', .error e)) :
      d' = d := by
  obtain ⟨σ, -, hpost, hpast⟩ := preConsume_alone h
  exact past_none hpast hpost

/-- A request id that is not on record yet is charged. -/
theorem preConsume_new {result : PreConsumeResult} (hnew : d (.record requestId) = none)
    (h : solo (preConsumeUserSubscription env cache requestId userId amount now) faults d = (d', .ok result)) :
    0 < amount ∧ result.preConsumed = amount ∧
      Along (charges env Eq requestId ⟨userId, result.userSubscriptionId, amount, .consumed⟩) d d' := by
  obtain ⟨σ, hdb, ⟨⟨c, hown⟩, r, hr, hpre, hid⟩, hpast⟩ := preConsume_alone h
  have hid := hid (.inr fun _ _ h => h)
  rw [hdb] at hr
  cases past_one hpast hown with
  | turn h =>
    rw [turns_record h, hnew] at hr
    cases hr
  | charge cache' requestId' userId' amount' now' id hreq hpos h =>
    cases hreq
    have hrow := h (.record requestId)
    simp only [charges] at hrow
    rw [hrow.2] at hr
    cases hr
    subst hpre hid
    exact ⟨hpos, rfl, h⟩
  | settle _ _ hreq | giveBack _ _ hreq => cases hreq

/-- A request id on record is not charged again. -/
theorem preConsume_again {result : PreConsumeResult} (hold : (d (.record requestId)).isSome)
    (h : solo (preConsumeUserSubscription env cache requestId userId amount now) faults d = (d', .ok result)) :
    Along (turns env Eq) d d' := by
  obtain ⟨σ, -, ⟨⟨c, hown⟩, -⟩, hpast⟩ := preConsume_alone h
  cases past_one hpast hown with
  | turn h => exact h
  | charge cache' requestId' userId' amount' now' id hreq hpos h =>
    cases hreq
    have hrow := h (.record requestId)
    simp only [charges] at hrow
    rw [hrow.1] at hold
    cases hold
  | settle _ _ hreq | giveBack _ _ hreq => cases hreq

end

/-! Settlement. -/

/-- Settlements and refunds look neither at the clock nor at the list of subscriptions. -/
def bareEnv : Env := ⟨Go.utc, [], List.nodup_nil, 0⟩

section
variable {id delta : Int} {faults : List Bool} {d d' : Tables}

theorem settle_alone {res : Except Err Unit}
    (h : solo (postConsumeUserSubscriptionDelta id delta) faults d = (d', res)) :
    ∃ σ : Local Row Empty, SettlePost id delta res σ ∧ Past (undisturbed bareEnv (.settle id delta)) () d σ.own d' := by
  obtain ⟨σ, hdb, hpost, hpast⟩ := solo_sound
    (P := undisturbed bareEnv (.settle id delta)) rfl (wp_settle rfl rfl rfl) faults
  rw [h] at hdb hpost
  rw [hdb] at hpast
  exact ⟨σ, hpost, hpast⟩

theorem settle_error (h : solo (postConsumeUserSubscriptionDelta id delta) faults d = (d', .error e)) : d' = d := by
  obtain ⟨σ, hpost, hpast⟩ := settle_alone h
  exact past_keeps (fun d => d) hpast hpost

section
variable (h : solo (postConsumeUserSubscriptionDelta id delta) faults d = (d', .ok ()))
include h

theorem settle_ok (hdelta : delta ≠ 0)
    : Along (settles id delta) d d' := by
  obtain ⟨σ, hpost, hpast⟩ := settle_alone h
  rcases hpost with ⟨hzero, -⟩ | ⟨b, a, hown, hset⟩
  · exact absurd hzero hdelta
  · rw [hown] at hpast
    obtain ⟨rfl, -, rfl⟩ := hpast
    exact hset

theorem settle_ok_pos : 0 < id := by
  by_contra hid
  simp only [postConsumeUserSubscriptionDelta, postConsumeUserSubscriptionDeltaTx, if_pos (not_lt.mp hid)] at h
  cases h

end

end

/-- Giving back to a subscription that is there succeeds unless a statement fails. -/
theorem settle_smooth {id delta : Int} {d : Tables} {s : UserSubscription} (hid : 0 < id) (hneg : delta < 0)
    (hs : d (.sub id) = some s) : (solo (postConsumeUserSubscriptionDelta id delta) [] d).2 = .ok () := by
  have hrow : giveBackRow delta (d (.sub id)) = some (some (s.adjust delta)) := by
    simp [hs, giveBackRow, UserSubscription.adjust, hneg]
  simp only [postConsumeUserSubscriptionDelta, postConsumeUserSubscriptionDeltaTx, if_neg (not_le.mpr hid),
    if_neg hneg.ne, if_neg hneg.not_gt, onItsOwn]
  refine Does.solo (Q := fun (r : Except Err Unit) _ => r = .ok ()) ((runs_autocommit hrow).bind ?_)
  exact does_pure rfl

/-! Refund. -/

section
variable {requestId : String} {faults : List Bool} {d d' : Tables}

theorem refund_alone {res : Except Err Unit} (h : solo (refundSubscriptionPreConsume requestId) faults d = (d', res)) :
    ∃ σ : Local Row Empty, σ.db = d' ∧ RefundPost requestId res σ ∧
      Past (undisturbed bareEnv (.refund requestId)) () d σ.own d' := by
  obtain ⟨σ, hdb, hpost, hpast⟩ := solo_sound
    (P := undisturbed bareEnv (.refund requestId)) rfl (wp_refund rfl rfl rfl) faults
  rw [h] at hdb hpost
  rw [hdb] at hpast
  exact ⟨σ, hdb, hpost, hpast⟩

theorem refund_error (h : solo (refundSubscriptionPreConsume requestId) faults d = (d', .error e)) : d' = d := by
  obtain ⟨σ, -, hpost, hpast⟩ := refund_alone h
  exact past_none hpast hpost

/-- A consumed record is given back. -/
theorem refund_ok {r : Record} (hr : d (.record requestId) = some r) (hst : r.status = .consumed)
    (h : solo (refundSubscriptionPreConsume requestId) faults d = (d', .ok ())) :
      Along (givesBack requestId r) d d' := by
  obtain ⟨σ, hdb, ⟨⟨c, hown⟩, href⟩, hpast⟩ := refund_alone h
  rw [hdb] at href
  cases past_one hpast hown with
  | turn h =>
    simp [isRefunded, turns_record h, hr, hst] at href
  | charge _ _ _ _ _ _ hreq | settle _ _ hreq => cases hreq
  | giveBack requestId' rec hreq h =>
    cases hreq
    have hrow := h (.record requestId)
    simp only [givesBack] at hrow
    rw [hr] at hrow
    cases hrow.1
    exact h

end

end AmuxApi.Subscription
