import AmuxApi.Subscription.Protocol

/- Each function against a disciplined protocol: every commit it makes is one of the
   `Effect`s of its request, and `Post` is what its answer says about its commits.

   The one thing `Post` does not say outright is which subscription a successful
   pre-consumption reports: where the INSERT of the record is refused, the source answers
   with the subscription it was about to charge and not with the one on record. The two
   agree under the condition `Honest`, or when nobody else is there (`Still`). -/
namespace AmuxApi.Subscription
open Txn Function List

/-- An INSERT of a record that does not go through finds a record of the same subscription. -/
def insertsAlike : (k : Key) → (Row k → Option (Row k)) → Row k → Bool → Bool
  | .record _, f, v, ok =>
    match f none, v with
    | some (some new), some old => old.userSubscriptionId = new.userSubscriptionId
    | some (some _), none => ok
    | _, _ => true
  | .sub _, _, _, _ => true
  | .plan _, _, _, _ => true

section
variable {ι : Type} {env : Env} {St : UserSubscription → UserSubscription → Prop} {req : ι → Request}
  {P : Proto ι Row Empty} {i : ι} {σ : Local Row Empty} {d : Tables} {past : List (Change Row)}

def Honest (P : Proto ι Row Empty) (i : ι) : Prop :=
  ∀ k f v ok, P.guard i k f v ok = true → insertsAlike k f v ok = true

/-- The others do nothing. -/
def Still (P : Proto ι Row Empty) : Prop := ∀ d d', P.rely d d' → d' = d

/-- The record of the request has the amount of the answer, and the subscription too. -/
def Reported (P : Proto ι Row Empty) (i : ι) (result : PreConsumeResult) (v : Option Record) : Prop :=
  ∃ r, v = some r ∧ r.preConsumed = result.preConsumed ∧
    (Honest P i ∨ Still P → r.userSubscriptionId = result.userSubscriptionId)

theorem Reported.kin {result : PreConsumeResult} {v v' : Option Record} (h : Reported P i result v)
    (hk : KinRecord v v') : Reported P i result v' := by
  obtain ⟨r, hr, hpre, hid⟩ := h
  obtain ⟨r', hr', e, -⟩ := hk r hr
  exact ⟨r', hr', (congrArg (·.2.2) e).trans hpre, fun hs => (congrArg (·.2.1) e).trans (hid hs)⟩

/-! What the statements do to their rows. -/

variable {v v' : Option UserSubscription} {record : Record}

theorem claimTurn_some {prev : Int} {turn : Turn} (h : claimTurn prev turn v = some v') :
    ∃ s, v = some s ∧ s.nextResetTime = prev ∧ v' = some (turn.apply s) := by
  cases v with
  | none => cases h
  | some s =>
    simp only [claimTurn] at h
    split_ifs at h
    exact ⟨s, rfl, ‹_›, (Option.some.inj h).symm⟩

variable {delta : Int}

theorem chargeRow_some (hpos : 0 < delta) (h : chargeRow delta v = some v') :
    ∃ s, v = some s ∧ s.Admits delta ∧ v' = some (s.adjust delta) := by
  cases v with
  | none => cases h
  | some s =>
    simp only [chargeRow] at h
    split_ifs at h with hwhere
    refine ⟨s, rfl, fun _ => hwhere, ?_⟩
    rw [← Option.some.inj h]
    simp [UserSubscription.adjust, not_lt.mpr hpos.le]

theorem giveBackRow_some (hneg : delta < 0) (h : giveBackRow delta v = some v') :
    ∃ s, v = some s ∧ s.Admits delta ∧ v' = some (s.adjust delta) := by
  cases v with
  | none => cases h
  | some s =>
    refine ⟨s, rfl, fun hpos => absurd hpos (not_lt.mpr hneg.le), ?_⟩
    rw [← Option.some.inj h]
    simp [UserSubscription.adjust, hneg]

theorem insertRecord_some {v v' : Option Record} (h : insertRecord record v = some v') :
    v = none ∧ v' = some record := by
  cases v with
  | none => exact ⟨rfl, (Option.some.inj h).symm⟩
  | some _ => cases h

theorem insertRecord_none {v : Option Record} (h : insertRecord record v = none) : ∃ r', v = some r' := by
  cases v with
  | none => cases h
  | some r' => exact ⟨r', rfl⟩

theorem claimRefund_some {v v' : Option Record} (h : claimRefund v = some v') :
    ∃ r, v = some r ∧ r.status = .consumed ∧ v' = some { r with status := .refunded } := by
  cases v with
  | none => cases h
  | some r =>
    simp only [claimRefund] at h
    split_ifs at h
    exact ⟨r, rfl, ‹_›, (Option.some.inj h).symm⟩

/-! What stays true while others move. -/

variable [hP : Disciplined env St req P]
include hP

variable {id : Int}

theorem Disciplined.view_none (h : σ.view (.sub id) = none) (hd : P.Moves σ d) : (σ.on d).view (.sub id) = none := by
  cases hp : σ.pend (.sub id) with
  | none =>
    rw [Local.view_off hp] at h
    rw [Local.view_on_off hp]
    exact hP.absent _ _ id hd.rely h
  | some v =>
    rw [← h]
    simp [Local.view, Local.on, Txn.view, hp]

variable {requestId : String} {r : Record}

/-- A record keeps what it has charged. -/
theorem Disciplined.view_record (hd : P.Moves σ d) :
    KinRecord (σ.view (.record requestId)) ((σ.on d).view (.record requestId)) := by
  cases hp : σ.pend (.record requestId) with
  | none =>
    rw [Local.view_off hp, Local.view_on_off hp]
    exact hP.record _ _ requestId hd.rely
  | some v =>
    refine .of_eq ?_
    simp [Local.view, Local.on, Txn.view, hp]

/-- So far the call has only turned subscriptions. -/
structure Turning (env : Env) (St : UserSubscription → UserSubscription → Prop) (σ : Local Row Empty) : Prop where
  subs : Along (turns env St) σ.db σ.view
  records : ∀ requestId, σ.pend (.record requestId) = none

omit hP in
theorem Turning.moves (h : Turning env St σ) (hd : P.Moves σ d) : Turning env St (σ.on d) :=
  ⟨h.subs.moves (fun k _ v => turns_refl k v) hd, h.records⟩

omit hP in
theorem Turning.wrote (h : Turning env St σ) : Wrote (turns env St) σ := ⟨h.subs, fun k _ v => turns_refl k v⟩

omit hP in
theorem turning_clean (h : σ.pend = clean) : Turning env St σ := by
  refine ⟨fun k => ?_, fun _ => congrFun h _⟩
  rw [Local.view_off (congrFun h k)]
  exact turns_refl k _

/-- A row read earlier, and not written since by this call. -/
structure Seen (St : UserSubscription → UserSubscription → Prop) (σ : Local Row Empty) (c : Int × UserSubscription) :
    Prop where
  unwritten : σ.pend (.sub c.1) = none
  stored : ∃ s, σ.db (.sub c.1) = some s ∧ St c.2 s

variable {c : Int × UserSubscription}

theorem Seen.moves (h : Seen St σ c) (hd : P.Moves σ d) : Seen St (σ.on d) c := by
  obtain ⟨s, hs, hst⟩ := h.stored
  exact ⟨h.unwritten, hP.sub _ _ c.1 c.2 s hd.rely hs hst⟩

/-- The call is in the loop over its candidates, with `rest` still to come; `past` are the
commits it has made before. -/
structure Trying (env : Env) (St : UserSubscription → UserSubscription → Prop) (past : List (Change Row))
    (rest : List (Int × UserSubscription)) (σ : Local Row Empty) : Prop extends Turning env St σ where
  own : σ.own = past
  seen : ∀ c ∈ rest, Seen St σ c

variable {rest : List (Int × UserSubscription)}

theorem Trying.moves (h : Trying env St past rest σ) (hd : P.Moves σ d) : Trying env St past rest (σ.on d) :=
  ⟨h.toTurning.moves hd, h.own, fun c hc => (h.seen c hc).moves hd⟩

/-! The steps of a transaction. -/

omit hP in
theorem wp_getPlan {planId : Int} {Q : Except Err Plan → Local Row Empty → Prop} (hQ : P.Stable Q) (h : ∀ r, Q r σ) :
    wp P i (getSubscriptionPlanByIdTx cache planId) Q σ := by
  unfold getSubscriptionPlanByIdTx
  split
  · exact wp_pure hQ (h _)
  split
  · exact wp_pure hQ (h _)
  refine wp_select (fun d hd => ?_) fun d hd => wp_pure hQ (hQ _ _ _ (h _) hd)
  dsimp only
  split <;> exact wp_pure hQ (hQ _ _ _ (h _) hd)

omit hP in
/-- A reset that is claimed turns its row, and no other. -/
theorem Trying.claim {plan : Plan} {now : Int} {turn : Turn} {v : Option UserSubscription}
    (h : Trying env St past ((id, sub) :: rest) σ) (hid : ∀ c ∈ rest, c.1 ≠ id)
    (hdue : dueTurn env plan now sub = some turn) (hv : claimTurn sub.nextResetTime turn (σ.view (.sub id)) = some v) :
    Trying env St past rest { σ with pend := write σ.pend (.sub id) v } := by
  have hseen := h.seen (id, sub) (mem_cons_self ..)
  obtain ⟨s', hs', hst⟩ := hseen.stored
  obtain ⟨s, hs, hnext, rfl⟩ := claimTurn_some hv
  rw [Local.view_off hseen.unwritten] at hs
  obtain rfl : s' = s := Option.some.inj (hs'.symm.trans hs)
  refine ⟨⟨?_, fun requestId => ?_⟩, h.own, fun c hc => ⟨?_, (h.seen c (mem_cons_of_mem _ hc)).stored⟩⟩
  · refine h.subs.write ?_ fun _ _ _ _ h => h
    exact .inr ⟨s', _, hs, rfl, .inr ⟨sub, plan, now, turn, hst, hnext.symm, hdue, rfl⟩⟩
  · simp only [write, update_of_ne (show Key.record requestId ≠ .sub id by simp)]
    exact h.records requestId
  · simp only [write, update_of_ne (show Key.sub c.1 ≠ .sub id by simp [hid c hc])]
    exact (h.seen c (mem_cons_of_mem _ hc)).unwritten

omit hP in
theorem Trying.skip (h : Trying env St past (c :: rest) σ) : Trying env St past rest σ :=
  ⟨h.toTurning, h.own, fun c' hc' => h.seen c' (mem_cons_of_mem _ hc')⟩

/-- It writes the row of subscription `id`, if any. -/
theorem wp_maybeReset {plan : Plan} {now : Int} (h : Trying env St past ((id, sub) :: rest) σ)
    (hid : ∀ c ∈ rest, c.1 ≠ id) :
    wp P i (maybeResetUserSubscriptionWithPlanTx env id sub plan now)
      (fun _ σ' => Trying env St past rest σ' ∧ (∀ k, k ≠ .sub id → σ'.pend k = σ.pend k) ∧
        (Still P → σ'.db = σ.db)) σ := by
  have hQ : P.Stable fun (_ : Except Err (UserSubscription × Bool)) σ' =>
      Trying env St past rest σ' ∧ (∀ k, k ≠ .sub id → σ'.pend k = σ.pend k) ∧ (Still P → σ'.db = σ.db) :=
    fun _ _ _ h hd => ⟨h.1.moves hd, h.2.1, fun hs => (hs _ _ hd.rely).trans (h.2.2 hs)⟩
  have hskip : ∀ {d}, P.Moves σ d → Trying env St past rest (σ.on d) ∧
      (∀ k, k ≠ .sub id → (σ.on d).pend k = σ.pend k) ∧ (Still P → (σ.on d).db = σ.db) :=
    fun hd => ⟨(h.moves hd).skip, fun _ _ => rfl, fun hs => hs _ _ hd.rely⟩
  unfold maybeResetUserSubscriptionWithPlanTx
  split
  · exact wp_pure hQ ⟨h.skip, fun _ _ => rfl, fun _ => rfl⟩
  · exact wp_pure hQ ⟨h.skip, fun _ _ => rfl, fun _ => rfl⟩
  rename_i turn _ hdue
  refine wp_update (fun d v hd _ hv => ⟨nofun, ?_⟩) (fun d hd _ _ => ?_) fun d hd _ => ?_
  · exact wp_pure hQ ⟨(h.moves hd).claim hid hdue hv, fun k hk => update_of_ne hk _ _,
      fun hs => hs _ _ hd.rely⟩
  · -- the row has moved on: it is read again
    refine wp_select (fun d' hd' => ?_) fun d' hd' => wp_pure hQ (hskip (hd.trans hd'))
    dsimp only
    split <;> exact wp_pure hQ (hskip (hd.trans hd'))
  · exact wp_pure hQ (hskip hd)

/-- A settlement inside a transaction: it adjusts the row it finds, or fails. -/
theorem wp_postConsumeTx {Q : Except Err Unit → Local Row Empty → Prop} (hzero : delta ≠ 0)
    (herr : ∀ e d, P.Moves σ d → Q (.error e) (σ.on d))
    (hwrite : ∀ d s, P.Moves σ d → (σ.on d).view (.sub id) = some s → s.Admits delta →
      ∀ d', P.Moves { σ.on d with pend := write σ.pend (.sub id) (some (s.adjust delta)) } d' →
        Q (.ok ()) { σ.on d' with pend := write σ.pend (.sub id) (some (s.adjust delta)) }) :
    wp P i (postConsumeUserSubscriptionDeltaTx inTx id delta) Q σ := by
  have hfail : ∀ e d, P.Moves σ d → wp P i (pure (.error e)) Q (σ.on d) :=
    fun e d hd d' hd' => herr e d' (hd.trans hd')
  unfold postConsumeUserSubscriptionDeltaTx
  split
  · exact fun d hd => herr _ d hd
  split_ifs with hpos
  · refine wp_update (fun d v hd _ hv => ⟨nofun, ?_⟩) (fun d hd _ _ => ?_) fun d hd _ => hfail _ d hd
    · obtain ⟨s, hs, hadm, rfl⟩ := chargeRow_some hpos hv
      exact hwrite d s hd hs hadm
    · refine wp_select (fun d' hd' => ?_) fun d' hd' => hfail _ d' (hd.trans hd')
      dsimp only
      split <;> exact hfail _ d' (hd.trans hd')
  · refine wp_update (fun d v hd _ hv => ⟨nofun, ?_⟩) (fun d hd _ hv => ?_) fun d hd _ => hfail _ d hd
    · obtain ⟨s, hs, hadm, rfl⟩ := giveBackRow_some (by omega) hv
      exact hwrite d s hd hs hadm
    -- nothing matched, so the row is not there, and it does not appear
    have hnone : (σ.on d).view (.sub id) = none := by
      cases hrow : (σ.on d).view (.sub id) with
      | none => rfl
      | some s => rw [hrow] at hv; cases hv
    refine wp_select (fun d' hd' => ?_) fun d' hd' => hfail _ d' (hd.trans hd')
    dsimp only
    rw [hP.view_none hnone hd']
    exact hfail _ d' (hd.trans hd')

/-! Pre-consumption. -/

/-- What the body of the transaction leaves behind when it succeeds. -/
def PreConsumed (env : Env) (St : UserSubscription → UserSubscription → Prop) (P : Proto ι Row Empty) (i : ι)
    (r : Request) (requestId : String) (res : Except Err PreConsumeResult) (σ : Local Row Empty) : Prop :=
  σ.own = [] ∧ ∀ result, res = .ok result →
    Effect env St r σ.db σ.view ∧ Reported P i result (σ.view (.record requestId))

/-- A body that returns an error, or has only turned rows. -/
theorem Turning.preConsumed {r : Request} {res : Except Err PreConsumeResult} (h : Turning env St σ)
    (hown : σ.own = []) (hrep : ∀ result, res = .ok result → Reported P i result (σ.view (.record requestId))) :
    wp P i (pure res) (PreConsumed env St P i r requestId) σ :=
  fun _ hd => ⟨hown, fun result hres => ⟨.turn (h.moves hd).subs, (hrep result hres).kin (hP.view_record hd)⟩⟩

/-- The answer to an INSERT that was refused: the record found is of the subscription that
was tried, or, with nobody else there, none is found. -/
theorem wp_duplicate {r : Request} (h : Turning env St σ)
    (hown : σ.own = []) (hsame : Honest P i ∨ Still P →
      (∃ old, σ.view (.record requestId) = some old ∧ old.userSubscriptionId = id) ∨
      (Still P ∧ σ.view (.record requestId) = none)) :
    wp P i (do
      match ← select with
      | none => return .error .db
      | some d =>
        match d (.record requestId) with
        | none => return .error .db
        | some dup =>
          if dup.status = .refunded then return .error .alreadyRefunded
          else return .ok (reported id dup.preConsumed sub))
      (PreConsumed env St P i r requestId) σ := by
  refine wp_select (fun d hd => ?_) fun d hd => (h.moves hd).preConsumed hown (by simp)
  dsimp only
  split
  · exact (h.moves hd).preConsumed hown (by simp)
  rename_i dup hdup
  split
  · exact (h.moves hd).preConsumed hown (by simp)
  refine (h.moves hd).preConsumed hown fun result hres => ?_
  cases hres
  refine ⟨dup, hdup, rfl, fun hs => ?_⟩
  -- either the record was there before the statement, and kept its subscription, or nothing moves and it is
  -- still missing
  rcases hsame hs with ⟨old, hold, hid⟩ | ⟨hstill, hnone⟩
  · obtain ⟨r', hr', e, -⟩ := hP.view_record hd _ hold
    obtain rfl : r' = dup := Option.some.inj (hr'.symm.trans hdup)
    exact (congrArg (·.2.1) e).trans hid
  · rw [show σ.on d = σ from congrArg σ.on (hstill _ _ hd.rely), hnone] at hdup
    cases hdup

omit hP in
theorem charges_off {k : Key} {v v' : Row k} (hrec : k ≠ .record requestId) (hsub : k ≠ .sub r.userSubscriptionId)
    (h : turns env St k v v') : charges env St requestId r k v v' := by
  cases k with
  | sub id => simp only [charges]; rw [if_neg (by simpa using hsub)]; exact h
  | record requestId' => simp only [charges]; rw [if_neg (by simpa using hrec)]; exact h
  | plan id => exact h

omit hP in
/-- The record is new, and now its amount is on its subscription. -/
theorem charge_after_record {s : UserSubscription}
    (h : Wrote (update (turns env St) (.record requestId) (charges env St requestId r (.record requestId))) σ)
    (hs : σ.view (.sub r.userSubscriptionId) = some s) (hadm : s.Admits r.preConsumed)
    (hd : P.Moves { σ with pend := write σ.pend (.sub r.userSubscriptionId) (some (s.adjust r.preConsumed)) } d) :
    Along (charges env St requestId r) d
      ({ σ.on d with pend := write σ.pend (.sub r.userSubscriptionId) (some (s.adjust r.preConsumed)) } :
        Local Row Empty).view := by
  have hcharge : charges env St requestId r (.sub r.userSubscriptionId) (σ.db (.sub r.userSubscriptionId))
      (some (s.adjust r.preConsumed)) := by
    have hrow : TurnedRow env St (σ.db (.sub r.userSubscriptionId)) (σ.view (.sub r.userSubscriptionId)) :=
      h.along (.sub r.userSubscriptionId)
    rw [hs] at hrow
    simp only [charges]
    rcases hrow with e | ⟨s0, s', h0, e, ht⟩
    · exact ⟨s, s, e.symm, .refl s, hadm, rfl⟩
    · cases e
      exact ⟨s0, s, h0, ht, hadm, rfl⟩
  exact fun k => of_update (((h.write (charges env St requestId r) hcharge).moves hd).along k) fun hsub h =>
    of_update h fun hrec h => charges_off hrec hsub h

variable {userId amount : Int}

theorem wp_consumeFrom {now : Int} (hr : req i = .preConsume cache requestId userId amount now)
    (hpos : 0 < amount) (h : Turning env St σ) (hown : σ.own = []) (hnew : Still P → σ.db (.record requestId) = none) :
    wp P i (consumeFrom requestId userId amount id sub) (PreConsumed env St P i (req i) requestId) σ := by
  have hview : ∀ d, P.Moves σ d → Still P → (σ.on d).view (.record requestId) = none := fun d hd hs => by
    rw [show σ.on d = σ from congrArg σ.on (hs _ _ hd.rely)]
    exact (view_off (h.records requestId) _).trans (hnew hs)
  refine wp_update (fun d v hd hg hv => ⟨nofun, ?_⟩) (fun d hd hg hv => ?_) fun d hd hg => ?_
  · -- the record is new: from here on its row is taken
    obtain ⟨hnone, rfl⟩ := insertRecord_some hv
    rw [Local.view_on_off (h.records requestId)] at hnone
    have hrec := (h.moves hd).wrote.write (k := .record requestId) (v := some ⟨userId, id, amount, .consumed⟩)
      (charges env St requestId ⟨userId, id, amount, .consumed⟩) (by simp only [charges]; exact ⟨hnone, trivial⟩)
    refine wp_bind (wp_postConsumeTx hpos.ne' (fun e d' hd' d'' hd'' => ⟨hown, by simp⟩) ?_)
    · intro d' s hd' hs hadm d1 hd1 d'' hd''
      have hcharged := charge_after_record (hrec.moves hd') hs hadm (hd1.trans hd'')
      refine ⟨hown, fun result hres => ⟨.charge cache requestId userId amount now id hr hpos hcharged, ?_⟩⟩
      cases hres
      refine ⟨⟨userId, id, amount, .consumed⟩, ?_, rfl, fun _ => rfl⟩
      simp [Local.view, Local.on, Txn.view, write]
  · -- the unique index refuses it
    obtain ⟨old, hold⟩ := insertRecord_none hv
    refine wp_duplicate (h.moves hd) hown fun hs => ?_
    rcases hs with hh | hs
    · exact .inl ⟨old, hold, by simpa [insertsAlike, insertRecord, hold] using hh _ _ _ _ hg⟩
    · rw [hview d hd hs] at hold
      cases hold
  · -- it fails otherwise
    refine wp_duplicate (h.moves hd) hown fun hs => ?_
    rcases hs with hh | hs
    · have := hh _ _ _ _ hg
      cases hold : (σ.on d).view (.record requestId) with
      | none => simp [insertsAlike, insertRecord, hold] at this
      | some old => exact .inl ⟨old, rfl, by simpa [insertsAlike, insertRecord, hold] using this⟩
    · exact .inr ⟨hs, hview d hd hs⟩

/-! The candidates are rows of the table, each of them once. -/

omit hP in
theorem mem_rows {ids : List Int} (h : c ∈ ids.filterMap fun id => (d (.sub id)).map (id, ·)) :
    d (.sub c.1) = some c.2 := by
  obtain ⟨id, -, hid⟩ := mem_filterMap.mp h
  obtain ⟨s, hs, rfl⟩ := Option.map_eq_some_iff.mp hid
  exact hs

omit hP in
theorem nodup_sorted (p : Int × UserSubscription → Bool)
    (before : Int × UserSubscription → Int × UserSubscription → Prop) [DecidableRel before] :
    ((((env.ids.filterMap fun id => (d (.sub id)).map (id, ·)).filter p).insertionSort before).map Prod.fst).Nodup := by
  refine ((perm_insertionSort _ _).map Prod.fst).nodup_iff.mpr ?_
  refine List.Nodup.sublist (List.Sublist.map _ filter_sublist) ?_
  rw [map_filterMap]
  refine env.nodup.filterMap fun id id' x hx hx' => ?_
  simp only [Option.map_map, Option.mem_def, Option.map_eq_some_iff, comp] at hx hx'
  obtain ⟨-, -, rfl⟩ := hx
  obtain ⟨-, -, rfl⟩ := hx'
  rfl

/-- The loop: by induction over the candidates, none of which this call has written yet. -/
theorem wp_consumeFirst {now : Int} (hr : req i = .preConsume cache requestId userId amount now)
    (hpos : 0 < amount) (candidates : List (Int × UserSubscription)) (hids : (candidates.map Prod.fst).Nodup) :
    ∀ σ : Local Row Empty, Trying env St [] candidates σ → (Still P → σ.db (.record requestId) = none) →
      wp P i (consumeFirst env cache requestId userId amount now candidates)
        (PreConsumed env St P i (req i) requestId) σ := by
  -- the loop of the source: a candidate is skipped only when its quota is short, and skipping it leaves behind
  -- at most its due reset
  induction candidates with
  | nil => exact fun σ h _ => h.toTurning.preConsumed h.own (by simp)
  | cons c rest ih =>
    intro σ h hnew
    obtain ⟨hc, hrest⟩ := nodup_cons.mp hids
    have hid : ∀ c' ∈ rest, c'.1 ≠ c.1 := fun c' hc' e => hc (e ▸ mem_map_of_mem hc')
    refine wp_bind (wp_getPlan (stable_wp _ _) fun r => ?_)
    cases r with
    | error e => exact h.toTurning.preConsumed h.own (by simp)
    | ok plan =>
      refine wp_then (wp_maybeReset h hid) fun r σ' ⟨h', _, hdb⟩ => ?_
      have hnew' : Still P → σ'.db (.record requestId) = none := fun hs => by rw [hdb hs]; exact hnew hs
      cases r with
      | error e => exact h'.toTurning.preConsumed h'.own (by simp)
      | ok p =>
        dsimp only
        split
        · exact ih hrest σ' h' hnew'
        · exact wp_consumeFrom hr hpos h'.toTurning h'.own hnew'

/-- What the answer of a pre-consumption says about its commit. -/
def PreConsumePost (P : Proto ι Row Empty) (i : ι) (requestId : String) (res : Except Err PreConsumeResult)
    (σ : Local Row Empty) : Prop :=
  match res with
  | .error _ => σ.own = []
  | .ok result => (∃ c, σ.own = [c]) ∧ Reported P i result (σ.db (.record requestId))

theorem preConsumePost_stable (requestId : String) : P.Stable (PreConsumePost P i requestId) := by
  intro res σ d h hd
  cases res with
  | error e => exact h
  | ok result => exact ⟨h.1, h.2.kin (hP.record _ _ requestId hd.rely)⟩

theorem wp_preConsume {now : Int} (hr : req i = .preConsume cache requestId userId amount now)
    (hclean : σ.pend = clean) (hown : σ.own = []) :
    wp P i (preConsumeUserSubscription env cache requestId userId amount now) (PreConsumePost P i requestId) σ := by
  have hQ : P.Stable (PreConsumePost P i requestId) := preConsumePost_stable requestId
  have hview : ∀ d k, (σ.on d).view k = d k := fun d k => view_off (congrFun hclean _) d
  unfold preConsumeUserSubscription
  iterate 3 (split; · exact wp_pure hQ hown)
  rename_i hpos
  refine wp_transaction hQ (wp_mono (Q := PreConsumed env St P i (req i) requestId) ?_ ?_)
  · intro res σ' h
    cases res with
    | error e => exact h.1
    | ok result =>
      obtain ⟨heff, hrep⟩ := h.2 result rfl
      exact ⟨hP.guar _ _ _ _ heff, ⟨⟨_, congrArg _ h.1⟩, hrep⟩, h.1⟩
  have ht : ∀ d, Turning env St (σ.on d) := fun d => turning_clean hclean
  refine wp_select (fun d hd => ?_) fun d hd => (ht d).preConsumed hown (by simp)
  dsimp only
  split
  · rename_i existing hex
    rw [hview] at hex
    split
    · exact (ht d).preConsumed hown (by simp)
    refine wp_select (fun d' hd' => ?_) fun d' hd' => (ht d').preConsumed hown (by simp)
    dsimp only
    split
    · exact (ht d').preConsumed hown (by simp)
    · refine (ht d').preConsumed hown fun result hres => ?_
      cases hres
      obtain ⟨r, hr, e, -⟩ := hP.view_record hd' _ ((hview d _).trans hex)
      exact ⟨r, hr, congrArg (·.2.2) e, fun _ => congrArg (·.2.1) e⟩
  · rename_i hex
    rw [hview] at hex
    refine wp_select (fun d' hd' => ?_) fun d' hd' => (ht d').preConsumed hown (by simp)
    dsimp only
    split
    · exact (ht d').preConsumed hown (by simp)
    have hnew : Still P → d' (.record requestId) = none := fun hs => by
      rw [show d' = d from hs _ _ hd'.rely]
      exact hex
    refine wp_consumeFirst hr (by omega) _ (nodup_sorted _ _) _ ⟨ht d', hown, fun c hc => ?_⟩ hnew
    refine ⟨congrFun hclean _, c.2, ?_, hP.seen _⟩
    have := mem_rows (mem_of_mem_filter ((perm_insertionSort _ _).mem_iff.mp hc))
    rwa [show ((σ.on d).on d').view = d' from funext (hview d')] at this

/-! Settlement. -/

/-- What the answer of a settlement says about its commit. -/
def SettlePost (id delta : Int) (res : Except Err Unit) (σ : Local Row Empty) : Prop :=
  match res with
  | .error _ => ∀ c ∈ σ.own, c.2 = c.1
  | .ok _ => (delta = 0 ∧ σ.own = []) ∨ ∃ b a, σ.own = [(b, a)] ∧ Along (settles id delta) b a

omit hP in
theorem settlePost_stable (id delta : Int) : P.Stable (SettlePost id delta) := by
  intro res σ d h _
  cases res <;> exact h

omit hP in
theorem settles_update {s : UserSubscription} (hs : d (.sub id) = some s) (hadm : s.Admits delta) :
    Along (settles id delta) d (update d (.sub id) (some (s.adjust delta))) := by
  intro k
  cases k with
  | sub id' =>
    by_cases e : id' = id
    · subst e
      simpa [settles] using ⟨s, hs, hadm, rfl⟩
    · simp [settles, e]
  | record _ | plan _ => simp [settles]

theorem wp_writeOwn {f : Option UserSubscription → Option (Option UserSubscription)} (hr : req i = .settle id delta)
    (hf : ∀ v v', f v = some v' → ∃ s, v = some s ∧ s.Admits delta ∧ v' = some (s.adjust delta))
    (hclean : σ.pend = clean) (hown : σ.own = []) :
    wp P i (onItsOwn id f) (fun r σ' => match r with
      | none => σ'.own = []
      | some true => ∃ b a, σ'.own = [(b, a)] ∧ Along (settles id delta) b a
      | some false => σ'.pend = clean ∧ (∀ c ∈ σ'.own, c.2 = c.1) ∧
          (f none = none → (∀ s, f (some s) ≠ none) → σ'.db (.sub id) = none)) σ := by
  refine wp_autocommit ?_ hclean nofun (fun d v hd _ hv => ?_) (fun d d' hd hv hd' => ?_)
    fun d hd => hown
  -- stability: a subscription that is missing stays missing, whatever the others commit
  · intro r σ' d h hd
    match r with
    | none => exact h
    | some true => exact h
    | some false => exact ⟨h.1, h.2.1, fun h1 h2 => hP.absent _ _ id hd.rely (h.2.2 h1 h2)⟩
  · obtain ⟨s, hs, hadm, rfl⟩ := hf _ _ hv
    have heff := settles_update hs hadm
    refine ⟨hP.guar _ _ _ _ (.settle id delta hr heff), d, _, ?_, heff⟩
    rw [hown]
  · refine ⟨hP.guar _ _ _ _ (.turn fun k => turns_refl k _), hclean, fun c hc => ?_, fun _ hsome => ?_⟩
    · rw [hown] at hc
      cases mem_singleton.mp hc
      rfl
    · refine hP.absent d d' id hd'.rely ?_
      cases hs : d (.sub id) with
      | none => rfl
      | some s => exact absurd (hs ▸ hv) (hsome s)

theorem wp_settle (hr : req i = .settle id delta) (hclean : σ.pend = clean) (hown : σ.own = []) :
    wp P i (postConsumeUserSubscriptionDelta id delta) (SettlePost id delta) σ := by
  have hQ : P.Stable (SettlePost id delta) := settlePost_stable id delta
  have hnone : ∀ e, SettlePost id delta (.error e) σ := fun e c hc => by
    rw [hown] at hc
    cases hc
  unfold postConsumeUserSubscriptionDelta postConsumeUserSubscriptionDeltaTx
  split
  · exact wp_pure hQ (hnone _)
  split
  · exact wp_pure hQ (.inl ⟨‹_›, hown⟩)
  split_ifs with hpos
  · refine wp_then (wp_writeOwn hr (fun v v' => chargeRow_some hpos) hclean hown) fun r σ' h => ?_
    match r with
    | none => exact wp_pure hQ (by simp [SettlePost, show σ'.own = [] from h])
    | some true => exact wp_pure hQ (.inr h)
    | some false =>
      refine wp_select (fun d hd => ?_) fun d hd => wp_pure hQ h.2.1
      dsimp only
      split <;> exact wp_pure hQ h.2.1
  · rename_i hzero hpos
    refine wp_then (wp_writeOwn hr (fun v v' => giveBackRow_some (by omega)) hclean hown) fun r σ' h => ?_
    match r with
    | none => exact wp_pure hQ (by simp [SettlePost, show σ'.own = [] from h])
    | some true => exact wp_pure hQ (.inr h)
    | some false =>
      -- nothing matched, so the row is not there
      have habsent := h.2.2 rfl (by simp [giveBackRow])
      refine wp_select (fun d hd => ?_) fun d hd => wp_pure hQ h.2.1
      have : (σ'.on d).view (.sub id) = none :=
        (view_off (congrFun h.1 _) d).trans (hP.absent _ _ id hd.rely habsent)
      dsimp only
      rw [this]
      exact wp_pure hQ h.2.1

/-! Refund. -/

/-- What the body of the transaction leaves behind when it succeeds. -/
def Refunded (env : Env) (St : UserSubscription → UserSubscription → Prop) (r : Request) (requestId : String)
    (res : Except Err Unit) (σ : Local Row Empty) : Prop :=
  σ.own = [] ∧ (res = .ok () → Effect env St r σ.db σ.view ∧ isRefunded σ.view requestId = true)

theorem wp_refunded_nothing {r : Request} {res : Except Err Unit} (h : Turning env St σ) (hown : σ.own = [])
    (href : res = .ok () → isRefunded σ.view requestId = true) : wp P i (pure res) (Refunded env St r requestId) σ :=
  fun _ hd => ⟨hown, fun hok => ⟨.turn (h.moves hd).subs, (hP.view_record hd).refunded (href hok)⟩⟩

omit hP in
theorem givesBack_refunded {d' : Tables} (h : Along (givesBack requestId r) d d') : isRefunded d' requestId = true := by
  have := h (.record requestId)
  simp only [givesBack] at this
  simp [isRefunded, this.2.2]

omit hP in
theorem givesBack_off {k : Key} {v v' : Row k} (hrec : k ≠ .record requestId)
    (hsub : k = .sub r.userSubscriptionId → r.preConsumed ≤ 0) (h : v' = v) : givesBack requestId r k v v' := by
  cases k with
  | sub id => simp only [givesBack]; rw [if_neg fun hpos => by have := hsub (by rw [hpos.1]); omega]; exact h
  | record requestId' => simp only [givesBack]; rw [if_neg (by simpa using hrec)]; exact h
  | plan id => exact h

omit hP in
/-- The record is marked, and now its amount is given back. -/
theorem giveBack_after_mark {s : UserSubscription} (hpre : 0 < r.preConsumed)
    (h : Wrote (update (fun _ v v' => v' = v) (.record requestId) (givesBack requestId r (.record requestId))) σ)
    (hs : σ.view (.sub r.userSubscriptionId) = some s)
    (hd : P.Moves { σ with pend := write σ.pend (.sub r.userSubscriptionId) (some (s.adjust (-r.preConsumed))) } d) :
    Along (givesBack requestId r) d
      ({ σ.on d with pend := write σ.pend (.sub r.userSubscriptionId) (some (s.adjust (-r.preConsumed))) } :
        Local Row Empty).view := by
  have hrow : σ.view (.sub r.userSubscriptionId) = σ.db (.sub r.userSubscriptionId) :=
    h.along (.sub r.userSubscriptionId)
  have hback := h.write (k := .sub r.userSubscriptionId) (v := some (s.adjust (-r.preConsumed))) (givesBack requestId r)
    (by simpa [givesBack, hpre] using ⟨s, hrow.symm.trans hs, rfl⟩)
  exact fun k => of_update ((hback.moves hd).along k) fun hsub h =>
    of_update h fun hrec h => givesBack_off hrec (fun e => absurd e hsub) h

theorem wp_refundTx (hr : req i = .refund requestId) (hclean : σ.pend = clean) (hown : σ.own = []) :
    wp P i (refundTx requestId) (Refunded env St (req i) requestId) σ := by
  have ht : ∀ d, Turning env St (σ.on d) := fun d => turning_clean hclean
  have hview : ∀ d k, (σ.on d).view k = d k := fun d k => view_off (congrFun hclean _) d
  refine wp_select (fun d hd => ?_) fun d hd => wp_refunded_nothing (ht d) hown (by simp)
  dsimp only
  split
  · exact wp_refunded_nothing (ht d) hown (by simp)
  rename_i record hrecord
  split
  · rename_i hst
    exact wp_refunded_nothing (ht d) hown fun _ => by simp [isRefunded, hrecord, hst]
  rw [hview] at hrecord
  refine wp_update (fun d' v hd' _ hv => ⟨fun l => l.elim, ?_⟩) (fun d' hd' _ hskip => ?_) fun d' hd' _ => ?_
  · -- the record that is marked has the amount and the subscription that were read
    obtain ⟨r, hrv, hc, rfl⟩ := claimRefund_some hv
    have hr' : d' (.record requestId) = some r := (hview d' _).symm.trans hrv
    obtain ⟨r1, hr1, e, -⟩ := hP.record _ _ requestId hd'.rely record hrecord
    obtain rfl : r1 = r := Option.some.inj (hr1.symm.trans hr')
    have hsub : r1.userSubscriptionId = record.userSubscriptionId := congrArg (·.2.1) e
    have hpre : r1.preConsumed = record.preConsumed := congrArg (·.2.2) e
    have hclean' : Wrote (fun _ v v' => v' = v) ((σ.on d).on d') :=
      ⟨fun k => view_off (congrFun hclean k) _, fun _ _ _ => rfl⟩
    have hmark := hclean'.write (k := .record requestId) (v := some { r1 with status := .refunded })
      (givesBack requestId r1) (by simpa [givesBack] using ⟨hr', hc⟩)
    dsimp only
    rw [← hsub, ← hpre]
    split_ifs with hle
    · intro d'' hd''
      have hback : Along (givesBack requestId r1) _ _ := fun k => of_update ((hmark.moves hd'').along k) fun hrec h =>
        givesBack_off hrec (fun _ => hle) h
      exact ⟨hown, fun _ => ⟨.giveBack requestId r1 hr hback, givesBack_refunded hback⟩⟩
    · refine wp_postConsumeTx (by omega) (fun e d'' _ => ⟨hown, by simp⟩) fun d'' s hd'' hs _ d1 hd1 => ?_
      have hback := giveBack_after_mark (by omega) (hmark.moves hd'') hs hd1
      exact ⟨hown, fun _ => ⟨.giveBack requestId r1 hr hback, givesBack_refunded hback⟩⟩
  · -- the record is there and not consumed
    refine wp_refunded_nothing (ht d') hown fun _ => ?_
    obtain ⟨r', hr', -⟩ := hP.record _ _ requestId hd'.rely record hrecord
    have hv : ((σ.on d).on d').view (.record requestId) = some r' := (hview d' _).trans hr'
    rw [hv] at hskip
    simp only [claimRefund] at hskip
    split_ifs at hskip with hst
    have : r'.status = .refunded := by
      cases h : r'.status with
      | consumed => exact absurd h hst
      | refunded => rfl
    simp [isRefunded, hv, this]
  · exact wp_refunded_nothing (ht d') hown (by simp)

/-- What the answer of a refund says about its commit. -/
def RefundPost (requestId : String) (res : Except Err Unit) (σ : Local Row Empty) : Prop :=
  match res with
  | .error _ => σ.own = []
  | .ok _ => (∃ c, σ.own = [c]) ∧ isRefunded σ.db requestId = true

theorem refundPost_stable (requestId : String) : P.Stable (RefundPost requestId) := by
  intro res σ d h hd
  cases res with
  | error e => exact h
  | ok _ => exact ⟨h.1, (hP.record _ _ requestId hd.rely).refunded h.2⟩

theorem wp_refund (hr : req i = .refund requestId) (hclean : σ.pend = clean) (hown : σ.own = []) :
    wp P i (refundSubscriptionPreConsume requestId) (RefundPost requestId) σ := by
  have hQ : P.Stable (RefundPost requestId) := refundPost_stable requestId
  unfold refundSubscriptionPreConsume
  split
  · exact wp_pure hQ hown
  refine wp_transaction hQ (wp_mono (fun res σ' h => ?_) (wp_refundTx hr hclean hown))
  cases res with
  | error e => exact h.1
  | ok _ =>
    obtain ⟨heff, href⟩ := h.2 rfl
    exact ⟨hP.guar _ _ _ _ heff, ⟨⟨_, congrArg _ h.1⟩, href⟩, h.1⟩

/-! The background reset. -/

/-- One transaction of the task: it turns the row of subscription `id`, if any. -/
theorem wp_resetOneTx {plan : Plan} {now : Int} (hclean : σ.pend = clean) : wp P i (resetOneTx env id plan now)
      (fun _ σ' => Turning env St σ' ∧ σ'.own = σ.own ∧ ∀ k, k ≠ .sub id → σ'.pend k = none) σ := by
  have hQ : P.Stable fun (_ : Except Err Bool) σ' =>
      Turning env St σ' ∧ σ'.own = σ.own ∧ ∀ k, k ≠ .sub id → σ'.pend k = none :=
    fun _ _ _ h hd => ⟨h.1.moves hd, h.2⟩
  have ht : ∀ d, Turning env St (σ.on d) ∧ (σ.on d).own = σ.own ∧ ∀ k, k ≠ .sub id → (σ.on d).pend k = none :=
    fun d => ⟨turning_clean hclean, rfl, fun k _ => congrFun hclean k⟩
  refine wp_select (fun d hd => ?_) fun d hd => wp_pure hQ (ht d)
  dsimp only
  split
  · exact wp_pure hQ (ht d)
  rename_i locked hl
  split
  · have hrow : d (.sub id) = some locked := (view_off (congrFun hclean _) d).symm.trans hl
    have htry : Trying env St σ.own [(id, locked)] (σ.on d) := by
      refine ⟨turning_clean hclean, rfl, fun c hc => ?_⟩
      cases mem_singleton.mp hc
      exact ⟨congrFun hclean _, locked, hrow, hP.seen _⟩
    refine wp_then (wp_maybeReset htry (by simp)) fun r σ' h => ?_
    obtain ⟨htry', hframe, -⟩ := h
    have : Turning env St σ' ∧ σ'.own = σ.own ∧ ∀ k, k ≠ .sub id → σ'.pend k = none :=
      ⟨htry'.toTurning, htry'.own, fun k hk => (hframe k hk).trans ((ht d).2.2 k hk)⟩
    cases r <;> exact wp_pure hQ this
  · exact wp_pure hQ (ht d)

/-- The change leaves subscription `id` alone. -/
def Untouched (id : Int) (x : Change Row) : Prop := x.2 (.sub id) = x.1 (.sub id)

/-- No subscription is changed by two of the commits. -/
def OnceEach (own : List (Change Row)) : Prop := own.Pairwise fun x y => ∀ id, Untouched id x ∨ Untouched id y

/-- The loop: by induction over the due subscriptions, one transaction each, each of which
has been left alone so far. -/
theorem wp_resetAll {now : Int} (due : List (Int × UserSubscription)) (hids : (due.map Prod.fst).Nodup) :
    ∀ (count : Nat) (σ : Local Row Empty), σ.pend = clean → OnceEach σ.own →
      (∀ c ∈ due, ∀ x ∈ σ.own, Untouched c.1 x) →
      wp P i (resetAll env cache now due count) (fun _ σ' => OnceEach σ'.own) σ := by
  induction due with
  | nil => exact fun count σ _ honce _ d _ => honce
  | cons c rest ih =>
    intro count σ hclean honce hleft
    obtain ⟨hc, hrest⟩ := nodup_cons.mp hids
    have hleft' : ∀ c' ∈ rest, ∀ x ∈ σ.own, Untouched c'.1 x := fun c' hc' => hleft c' (mem_cons_of_mem _ hc')
    refine wp_bind (wp_getPlan (stable_wp _ _) fun r => ?_)
    cases r with
    | error e => exact ih hrest count σ hclean honce hleft'
    | ok plan =>
      refine wp_then (wp_resetOneTx hclean) fun r σ' h => ?_
      obtain ⟨hturn, hown, hframe⟩ := h
      have honce' : OnceEach σ'.own := hown ▸ honce
      cases r with
      | error e => exact fun _ _ _ _ => honce'
      | ok did =>
        intro d hd
        refine ⟨hP.guar _ _ _ _ (.turn (hturn.moves hd).subs), ?_, fun _ _ => honce'⟩
        -- the commit changes subscription `c.1` only
        have hother : ∀ id, id ≠ c.1 → Untouched id (d, (σ'.on d).view) :=
          fun id hid => view_off (hframe (.sub id) (by simpa using hid)) d
        refine ih hrest _ _ rfl (pairwise_cons.mpr ⟨fun x hx id => ?_, honce'⟩) fun c' hc' x hx => ?_
        · by_cases e : id = c.1
          · exact .inr (e ▸ hleft c (mem_cons_self ..) x (hown ▸ hx))
          · exact .inl (hother id e)
        · rcases mem_cons.mp hx with rfl | hx
          · exact hother c'.1 fun e => hc (e ▸ mem_map_of_mem hc')
          · exact hleft' c' hc' x (hown ▸ hx)

theorem wp_resetDue {limit now : Int} (hclean : σ.pend = clean) (hown : σ.own = []) :
    wp P i (resetDueSubscriptions env cache limit now) (fun _ σ' => OnceEach σ'.own) σ := by
  have honce : ∀ d, OnceEach (σ.on d).own := fun d => by
    rw [show (σ.on d).own = [] from hown]
    exact .nil
  refine wp_select (fun d _ => wp_resetAll _ ((nodup_sorted _ _).sublist (.map _ (take_sublist _ _))) 0 _ hclean
    (honce d) fun c _ x hx => ?_)
    fun _ _ d' _ => honce d'
  rw [show (σ.on d).own = [] from hown] at hx
  cases hx

/-! Any request. -/

/-- What a reply says about the commits of its call. -/
def Post (P : Proto ι Row Empty) (i : ι) : Request → Reply → Local Row Empty → Prop
  | .preConsume _ requestId _ _ _, .preConsumed res, σ => PreConsumePost P i requestId res σ
  | .settle id delta, .finished res, σ => SettlePost id delta res σ
  | .refund requestId, .finished res, σ => RefundPost requestId res σ
  | .resetDue _ _ _, .resets _ _, σ => OnceEach σ.own
  | _, _, _ => False

theorem wp_prog (hclean : σ.pend = clean) (hown : σ.own = []) : wp P i ((req i).prog env) (Post P i (req i)) σ := by
  cases hr : req i with
  | preConsume cache requestId userId amount now =>
    refine wp_then (wp_preConsume hr hclean hown) fun res σ' h => ?_
    exact fun d hd => preConsumePost_stable requestId res σ' d h hd
  | settle id delta =>
    refine wp_then (wp_settle hr hclean hown) fun res σ' h => ?_
    exact fun d hd => settlePost_stable id delta res σ' d h hd
  | refund requestId =>
    refine wp_then (wp_refund hr hclean hown) fun res σ' h => ?_
    exact fun d hd => refundPost_stable requestId res σ' d h hd
  | resetDue cache limit now =>
    exact wp_then (wp_resetDue hclean hown) fun _ _ h _ _ => h

end

/-- Every interleaving: each commit is an effect, and each answer says what it should. -/
theorem calls_good {ι : Type} [DecidableEq ι] {env : Env} {req : ι → Request} {g : Guard ι Row} {d : Tables}
    {s : Sys ι Row Empty Reply} (hs : Reach g (calls env req d) s) :
    Good (shared env req g) (fun i => Post (shared env req g) i (req i)) d s :=
  reach_sound (fun _ => wp_prog rfl rfl) hs

end AmuxApi.Subscription
