import Mathlib.Algebra.Ring.Int.Defs
import Mathlib.Algebra.Order.BigOperators.Group.List
import AmuxApi.Subscription.Alone
import AmuxApi.Subscription.Bounds

/- What the used amount of a subscription adds up to. The counter carries no tag of the
   period a request was charged in: a reset clears it, and everything after that is added
   to it or taken off it, whichever period the request was charged in.

   1. `dueTurn_period` — a row is cleared exactly when its period moves.
   2. `op_usage` — what one call, run with nothing in between and with any statements
      failing, does to the used amount.
   3. `used_since_reset` — after any sequence of calls the used amount is the running total
      since the latest reset, and it is the net of the requests charged in the current
      period as long as since that reset only those were settled or refunded, for no more
      than they were charged.
   4. `old_refund_lowers_usage` — without that it is not: refunding a request of an earlier
      period lowers the usage of the current one. -/
namespace AmuxApi.Subscription
open Txn List

/-! A row is cleared exactly when its period moves. -/

section
variable {loc : Go.Location} {plan : Plan} {endTime now : Int}

/-- The loop ends where the next reset is not due. It has not advanced at all, or the first
next reset was due and it ends at one. -/
theorem resetLoop_spec {fuel : Nat} {advanced advanced' : Bool} {start base next : Int}
    (h : resetLoop loc plan endTime now fuel advanced start = some (advanced', base, next)) :
    ¬ (0 < calcNextResetTime loc base plan endTime ∧ calcNextResetTime loc base plan endTime ≤ now) ∧
    ((advanced' = advanced ∧ base = start) ∨
    (advanced' = true ∧ 0 < base ∧
      0 < calcNextResetTime loc start plan endTime ∧ calcNextResetTime loc start plan endTime ≤ now)) := by
  induction fuel generalizing advanced start with
  | zero => cases h
  | succ fuel ih =>
    simp only [resetLoop] at h
    split at h
    · rename_i hdue
      obtain ⟨hexit, ⟨e, rfl⟩ | ⟨e, hpos, -⟩⟩ := ih h
      · exact ⟨hexit, .inr ⟨e, hdue.1, hdue⟩⟩
      · exact ⟨hexit, .inr ⟨e, hpos, hdue⟩⟩
    · rename_i hnot
      cases h
      exact ⟨hnot, .inl ⟨rfl, rfl⟩⟩

end

/-- The used amount stays with the period, and starts again at 0 with a new one. -/
def PeriodKept (s s' : UserSubscription) : Prop :=
  (s'.periodStart = s.periodStart ∧ s'.amountUsed = s.amountUsed) ∨
    (s'.periodStart ≠ s.periodStart ∧ s'.amountUsed = 0)

variable {env : Env}

variable {s s' : UserSubscription} {amount id total delta : Int} {d d' : Tables} {op : Op} {p : Point} {now : Int}

theorem dueTurn_period {plan : Plan} {turn : Turn}
    (h : dueTurn env plan now s = some turn) : PeriodKept s (turn.apply s) := by
  unfold dueTurn at h
  split at h
  · cases h
    exact .inl ⟨rfl, rfl⟩
  split at h
  · cases h
    exact .inl ⟨rfl, rfl⟩
  split at h
  · cases h
  · rename_i base next hloop
    -- the loop has not advanced, so `base` is the start of the period
    obtain rfl : base = s.periodStart := by
      rcases (resetLoop_spec hloop).2 with ⟨-, e⟩ | ⟨e, -⟩
      · exact e
      · cases e
    split at h
    · cases h
      refine .inl ⟨?_, rfl⟩
      simp only [Turn.apply, UserSubscription.periodStart]
      split_ifs <;> omega
    · cases h
      exact .inl ⟨rfl, rfl⟩
  · rename_i base next hloop
    cases h
    obtain ⟨hexit, ⟨e, -⟩ | ⟨-, hpos, hdue⟩⟩ := resetLoop_spec hloop
    · cases e
    -- the next reset after the old start was due, the one after the new start is not
    have hne : base ≠ s.periodStart := by
      intro e
      rw [e] at hexit
      exact hexit hdue
    refine .inr ⟨?_, rfl⟩
    have : (Turn.apply (.clear next base) s).periodStart = base := by
      exact if_neg (not_le.mpr hpos)
    rw [this]
    exact hne

theorem PeriodKept.refl (s : UserSubscription) : PeriodKept s s := .inl ⟨rfl, rfl⟩

theorem Turned.period (h : Turned env Eq s s') : PeriodKept s s' := by
  rcases h with rfl | ⟨seen, plan, now, turn, rfl, -, hdue, rfl⟩
  · exact .refl _
  · exact dueTurn_period hdue

theorem periodStart_adjust (s : UserSubscription) (delta : Int) : (s.adjust delta).periodStart = s.periodStart := rfl

/-! What a call does to one subscription. -/

/-- One call of a sequence: the request, the faults it meets, and, for a settlement, the
request id it settles. -/
structure Op where
  request : Request
  settles : String
  faults : List Bool

/-- What a call has applied to subscription `id`. -/
inductive Use
  | nothing
  | preConsume (requestId : String) (amount : Int)
  | change (requestId : String) (delta : Int)
  deriving DecidableEq, Repr

/-- Read off the records and the answer, not off the used amount. -/
def Op.use (op : Op) (id : Int) (reply : Reply) (d d' : Tables) : Use :=
  match op.request with
  | .preConsume _ requestId _ _ _ =>
    match d (.record requestId), d' (.record requestId) with
    | none, some r => if r.userSubscriptionId = id then .preConsume requestId r.preConsumed else .nothing
    | _, _ => .nothing
  | .settle id' delta => if id' = id ∧ reply = .finished (.ok ()) then .change op.settles delta else .nothing
  | .refund requestId =>
    match d (.record requestId), d' (.record requestId) with
    | some r, some r' =>
      if r.userSubscriptionId = id ∧ r.status = .consumed ∧ r'.status = .refunded ∧ 0 < r.preConsumed then
        .change requestId (-r.preConsumed)
      else .nothing
    | _, _ => .nothing
  | .resetDue _ _ _ => .nothing

/-- A running total: cleared with a new period, then changed; what is taken off stops at 0. -/
def tally (total : Int) (newPeriod : Bool) : Use → Int
  | .nothing => if newPeriod then 0 else total
  | .preConsume _ amount => (if newPeriod then 0 else total) + amount
  | .change _ delta =>
    if delta < 0 ∧ (if newPeriod then 0 else total) + delta < 0 then 0
    else (if newPeriod then 0 else total) + delta

theorem PeriodKept.tally (h : PeriodKept s s') :
    s'.amountUsed = tally s.amountUsed (s'.periodStart ≠ s.periodStart) .nothing := by
  rcases h with ⟨hp, hu⟩ | ⟨hp, hu⟩ <;> simp [Subscription.tally, hp, hu]

theorem tally_adjust (s : UserSubscription) (requestId : String) (delta : Int) :
    (s.adjust delta).amountUsed = tally s.amountUsed false (.change requestId delta) := by
  simp [tally, UserSubscription.adjust]

/-- A charge after a reset, if there was one. -/
theorem tally_charge (h : PeriodKept s s') (requestId : String) (hpos : 0 < amount) :
    (s'.adjust amount).amountUsed =
      tally s.amountUsed ((s'.adjust amount).periodStart ≠ s.periodStart) (.preConsume requestId amount) := by
  have hused := h.tally
  simp only [tally] at hused ⊢
  rw [periodStart_adjust, ← hused]
  simp [UserSubscription.adjust, not_lt.mpr hpos.le]

/-- The used amount of subscription `id` goes on as `tally` says. -/
def Usage (op : Op) (id : Int) (reply : Reply) (d d' : Tables) : Prop :=
  ∀ s, d (.sub id) = some s → ∃ s', d' (.sub id) = some s' ∧
    s'.amountUsed = tally s.amountUsed (s'.periodStart ≠ s.periodStart) (op.use id reply d d')

section
variable {env : Env} {op : Op} {id : Int} {reply : Reply} {d d' : Tables}

theorem usage_of_turned (h : TurnedRow env Eq (d (.sub id)) (d' (.sub id))) (huse : op.use id reply d d' = .nothing) :
    Usage op id reply d d' := by
  intro s hs
  rw [hs] at h
  obtain ⟨s', hs', ht⟩ := h.of_some
  exact ⟨s', hs', by rw [huse]; exact ht.period.tally⟩

/-- Where the records stay, only a settlement counts. -/
theorem use_of_same_records (hr : ∀ requestId, d' (.record requestId) = d (.record requestId))
    (hset : ∀ delta, op.request ≠ .settle id delta) : op.use id reply d d' = .nothing := by
  unfold Op.use
  split
  · rw [hr]
    split
    · rename_i h1 h2
      rw [h1] at h2
      cases h2
    · rfl
  · rename_i id' delta hop
    rw [if_neg]
    rintro ⟨rfl, -⟩
    exact hset delta hop
  · rw [hr]
    split
    · rename_i r r' h1 h2
      rw [h1] at h2
      cases h2
      rw [if_neg]
      rintro ⟨-, hc, hc', -⟩
      rw [hc] at hc'
      cases hc'
    · rfl
  · rfl

theorem usage_idle (h : Along (turns env Eq) d d') (hset : ∀ delta, op.request ≠ .settle id delta) :
    Usage op id reply d d' :=
  usage_of_turned (h (.sub id)) (use_of_same_records (fun requestId => h (.record requestId)) hset)

theorem usage_charge {cache : Int → Option Plan} {requestId : String} {userId amount id' : Int}
    (hr : op.request = .preConsume cache requestId userId amount now) (hpos : 0 < amount)
    (h : Along (charges env Eq requestId ⟨userId, id', amount, .consumed⟩) d d') : Usage op id reply d d' := by
  have hrec := h (.record requestId)
  have hsub := h (.sub id)
  simp only [charges] at hrec hsub
  have huse : op.use id reply d d' = if id' = id then .preConsume requestId amount else .nothing := by
    simp [Op.use, hr, hrec.1, hrec.2]
  split_ifs at hsub with e
  · subst e
    intro s hs
    obtain ⟨s0, s', h0, ht, -, hs'⟩ := hsub
    obtain rfl : s0 = s := Option.some.inj (h0.symm.trans hs)
    refine ⟨_, hs', ?_⟩
    rw [huse, if_pos rfl]
    exact tally_charge ht.period requestId hpos
  · exact usage_of_turned hsub (by rw [huse, if_neg (Ne.symm e)])

theorem usage_settled {id' delta : Int} (hr : op.request = .settle id' delta) (hok : reply = .finished (.ok ()))
    (h : Along (settles id' delta) d d') : Usage op id reply d d' := by
  intro s hs
  have hsub := h (.sub id)
  simp only [settles] at hsub
  split_ifs at hsub with e
  · subst e
    obtain ⟨s0, h0, -, hs'⟩ := hsub
    obtain rfl : s0 = s := Option.some.inj (h0.symm.trans hs)
    refine ⟨_, hs', ?_⟩
    have huse : op.use id reply d d' = .change op.settles delta := by simp [Op.use, hr, hok]
    rw [huse, periodStart_adjust]
    simpa using tally_adjust s0 op.settles delta
  · have huse : op.use id reply d d' = .nothing := by simp [Op.use, hr, Ne.symm e]
    exact ⟨s, hsub.trans hs, by simp [huse, tally]⟩

theorem usage_givenBack {requestId : String} {r : Record} (hr : op.request = .refund requestId)
    (h : Along (givesBack requestId r) d d') : Usage op id reply d d' := by
  intro s hs
  have hrec := h (.record requestId)
  have hsub := h (.sub id)
  simp only [givesBack] at hrec hsub
  obtain ⟨hbefore, hconsumed, hafter⟩ := hrec
  split_ifs at hsub with e
  · obtain ⟨rfl, hpos⟩ := e
    obtain ⟨s0, h0, hs'⟩ := hsub
    obtain rfl : s0 = s := Option.some.inj (h0.symm.trans hs)
    refine ⟨_, hs', ?_⟩
    have huse : op.use r.userSubscriptionId reply d d' = .change requestId (-r.preConsumed) := by
      simp [Op.use, hr, hbefore, hafter, hconsumed, hpos]
    rw [huse, periodStart_adjust]
    simpa using tally_adjust s0 requestId (-r.preConsumed)
  · have huse : op.use id reply d d' = .nothing := by
      simp only [Op.use, hr, hbefore, hafter]
      rw [if_neg]
      exact fun h => e ⟨h.1.symm, h.2.2.2⟩
    exact ⟨s, hsub.trans hs, by simp [huse, tally]⟩

theorem usage_refl (hset : ∀ delta, op.request = .settle id delta → reply = .finished (.ok ()) → delta = 0) :
    Usage op id reply d d := by
  intro s hs
  refine ⟨s, hs, ?_⟩
  by_cases h : ∃ delta, op.request = .settle id delta ∧ reply = .finished (.ok ())
  · obtain ⟨delta, hr, hok⟩ := h
    have hz := hset delta hr hok
    subst hz
    simp [Op.use, hr, hok, tally]
  · have huse : op.use id reply d d = .nothing := by
      by_cases hs' : ∃ delta, op.request = .settle id delta
      · obtain ⟨delta, hr⟩ := hs'
        have hok : reply ≠ .finished (.ok ()) := fun hok => h ⟨delta, hr, hok⟩
        simp [Op.use, hr, hok]
      · exact use_of_same_records (fun _ => rfl) fun delta hr => hs' ⟨delta, hr⟩
    simp [huse, tally]

end

/-! From the commits of a call to the call. -/

/-- The reset task turns every row at most once. -/
theorem turns_past {cache : Int → Option Plan} {limit : Int} :
    ∀ {own : List (Change Row)} {d' : Tables}, Past (undisturbed env (.resetDue cache limit now)) () d own d' →
      OnceEach own → Along (turns env Eq) d d'
  | [], _, h, _ => by
    rw [show _ = d from h]
    exact fun k => turns_refl k _
  | (b, a) :: own, d', ⟨e, heff, h⟩, honce => by
    subst e
    obtain ⟨hfirst, hrest⟩ := pairwise_cons.mp honce
    have ih := turns_past h hrest
    have hlast : Along (turns env Eq) b a := by
      cases heff with
      | turn h => exact h
      | charge _ _ _ _ _ _ hr | settle _ _ hr | giveBack _ _ hr => cases hr
    intro k
    cases k with
    | sub id =>
      by_cases hid : Untouched id (b, a)
      · show TurnedRow env Eq (d (.sub id)) (a (.sub id))
        rw [show a (.sub id) = b (.sub id) from hid]
        exact ih (.sub id)
      · -- the last commit turns the row, so no earlier one has
        have : b (.sub id) = d (.sub id) := past_keeps (· (.sub id)) h fun x hx => (hfirst x hx id).resolve_left hid
        rw [← this]
        exact hlast (.sub id)
    | record requestId => exact (hlast (.record requestId)).trans (ih (.record requestId))
    | plan planId => exact (hlast (.plan planId)).trans (ih (.plan planId))

/-- The tables and the answer after a call with nothing in between. -/
def Op.run (env : Env) (op : Op) (d : Tables) : Tables × Reply := solo (op.request.prog env) op.faults d

/-- What a call leaves behind, and what its answer says about it: nothing, or one effect, which is the
settlement if one was asked for. -/
inductive Done (env : Env) (op : Op) (reply : Reply) (d d' : Tables) : Prop
  | unchanged (h : d' = d)
      (hset : ∀ id delta, op.request = .settle id delta → reply = .finished (.ok ()) → delta = 0)
  | made (h : Effect env Eq op.request d d')
      (hset : ∀ id delta, op.request = .settle id delta → reply = .finished (.ok ()) ∧ Along (settles id delta) d d')

theorem op_done (env : Env) (op : Op) (d : Tables) : Done env op (op.run env d).2 d (op.run env d).1 := by
  obtain ⟨σ, hdb, hpost, hpast⟩ := solo_sound
    (P := undisturbed env op.request) rfl (wp_prog rfl rfl) op.faults
  have hdb : σ.db = (op.run env d).1 := hdb
  have hpost : Post (undisturbed env op.request) () op.request (op.run env d).2 σ := hpost
  rw [hdb] at hpast
  generalize op.run env d = result at hpost hpast ⊢
  obtain ⟨d', reply⟩ := result
  -- one commit of the call is its effect, none leaves the tables
  have hone : ∀ {c}, σ.own = [c] → Effect env Eq op.request d d' := past_one hpast
  have hnone : σ.own = [] → d' = d := past_none hpast
  cases hop : op.request with
  | preConsume cache requestId userId amount now =>
    rw [hop] at hpost
    cases reply with
    | preConsumed res =>
      cases res with
      | error e => exact .unchanged (hnone hpost) (by simp [hop])
      | ok res =>
        obtain ⟨⟨c, hc⟩, -⟩ := hpost
        exact .made (hone hc) (by simp [hop])
    | finished | resets => exact hpost.elim
  | settle id delta =>
    rw [hop] at hpost
    cases reply with
    | preConsumed => exact hpost.elim
    | finished res =>
      cases res with
      | error e => exact .unchanged (past_keeps (fun d => d) hpast hpost) nofun
      | ok _ =>
        rcases hpost with ⟨rfl, hown⟩ | ⟨b, a, hown, h⟩
        · exact .unchanged (hnone hown) fun id' delta' hr _ => by rw [hop] at hr; cases hr; rfl
        · rw [hown] at hpast
          obtain ⟨rfl, -, rfl⟩ := hpast
          exact .made (.settle id delta hop h) fun id' delta' hr => by rw [hop] at hr; cases hr; exact ⟨rfl, h⟩
    | resets => exact hpost.elim
  | refund requestId =>
    rw [hop] at hpost
    cases reply with
    | preConsumed => exact hpost.elim
    | finished res =>
      cases res with
      | error e => exact .unchanged (hnone hpost) (by simp [hop])
      | ok _ =>
        obtain ⟨⟨c, hc⟩, -⟩ := hpost
        exact .made (hone hc) (by simp [hop])
    | resets => exact hpost.elim
  | resetDue cache limit now =>
    rw [hop] at hpost hpast
    cases reply with
    | preConsumed | finished => exact hpost.elim
    | resets => exact .made (.turn (turns_past hpast hpost)) (by simp [hop])

theorem op_usage (env : Env) (op : Op) (d : Tables) (id : Int) : Usage op id (op.run env d).2 d (op.run env d).1 := by
  cases op_done env op d with
  | unchanged h hset => rw [h]; exact usage_refl fun delta => hset id delta
  | made h hset =>
    cases h with
    | turn h =>
      by_cases hr : ∃ delta, op.request = .settle id delta
      · obtain ⟨delta, hr⟩ := hr
        exact usage_settled hr (hset id delta hr).1 (hset id delta hr).2
      · exact usage_idle h fun delta e => hr ⟨delta, e⟩
    | charge _ _ _ _ _ _ hr hpos h => exact usage_charge hr hpos h
    | settle id' delta hr h => exact usage_settled hr (hset id' delta hr).1 h
    | giveBack _ _ hr h => exact usage_givenBack hr h

theorem op_kin (env : Env) (op : Op) (d : Tables) : Kin d (op.run env d).1 := by
  cases op_done env op d with
  | unchanged h => rw [h]; exact .refl d
  | made h => exact h.kin

variable {requestId : String}

/-- A pre-consumption that counts is of a new request id, and of a positive amount. -/
theorem op_preConsume (h : op.use id (op.run env d).2 d (op.run env d).1 = .preConsume requestId amount) :
    d (.record requestId) = none ∧ ((op.run env d).1 (.record requestId)).isSome ∧ 0 < amount := by
  have hdone := op_done env op d
  generalize op.run env d = result at h hdone ⊢
  obtain ⟨d', reply⟩ := result
  have hnothing : op.use id reply d d' ≠ .nothing := by simp [h]
  have hset : ∀ id' delta, op.request ≠ .settle id' delta := by
    intro id' delta hr
    simp only [Op.use, hr] at h
    split at h <;> cases h
  -- only a charge creates a record
  cases hdone with
  | unchanged e => exact absurd (use_of_same_records (fun r => congrFun e _) (hset id)) hnothing
  | made heff =>
    cases heff with
    | turn ht => exact absurd (use_of_same_records (fun r => ht (.record r)) (hset id)) hnothing
    | charge cache requestId' userId amount' now id' hr hpos hc =>
      have hrec := hc (.record requestId')
      simp only [charges] at hrec
      simp only [Op.use, hr, hrec.1, hrec.2] at h
      split at h
      · cases h
        exact ⟨hrec.1, Option.isSome_iff_exists.mpr ⟨_, hrec.2⟩, hpos⟩
      · cases h
    | settle id' delta hr => exact absurd hr (hset id' delta)
    | giveBack requestId' r hr =>
      simp only [Op.use, hr] at h
      split at h
      · split at h <;> cases h
      · cases h

/-! Sequences of calls. -/

/-- The subscription is in another period than before. -/
def newPeriod (id : Int) (d d' : Tables) : Bool :=
  (d' (.sub id)).map (·.periodStart) ≠ (d (.sub id)).map (·.periodStart)

def addTo (requestId : String) (delta : Int) (e : String × Int) : String × Int :=
  if e.1 = requestId then (e.1, e.2 + delta) else e

/-- The net of every request charged in the current period. -/
def enter (net : List (String × Int)) : Use → List (String × Int)
  | .nothing => net
  | .preConsume requestId amount => (requestId, amount) :: net
  | .change requestId delta => net.map (addTo requestId delta)

/-- Where a sequence of calls has got to: the tables, the running total since the latest
reset, the net of every request charged since then, and whether since then only those have
been settled or refunded, each for no more than it had consumed. -/
structure Point where
  tables : Tables
  total : Int
  net : List (String × Int)
  inPeriod : Bool

namespace Point
variable (env : Env) (id : Int)

/-- The requests of the current period, when the call has been made. -/
def current (p : Point) (op : Op) : List (String × Int) :=
  if newPeriod id p.tables (op.run env p.tables).1 then [] else p.net

def use (p : Point) (op : Op) : Use := op.use id (op.run env p.tables).2 p.tables (op.run env p.tables).1

/-- A settlement or refund is of a request charged in the current period, for no more than
it has consumed. -/
def keepsToPeriod (p : Point) (op : Op) : Bool :=
  match p.use env id op with
  | .change requestId delta => (p.current env id op).any fun e => e.1 = requestId ∧ 0 ≤ e.2 + delta
  | _ => true

def next (p : Point) (op : Op) : Point where
  tables := (op.run env p.tables).1
  total := tally p.total (newPeriod id p.tables (op.run env p.tables).1) (p.use env id op)
  net := enter (p.current env id op) (p.use env id op)
  inPeriod := (newPeriod id p.tables (op.run env p.tables).1 || p.inPeriod) && p.keepsToPeriod env id op

end Point

/-- The used amount is the running total. -/
def Point.Counts (id : Int) (p : Point) : Prop := ∃ s, p.tables (.sub id) = some s ∧ s.amountUsed = p.total

theorem Point.Counts.next (h : p.Counts id) (op : Op) : (p.next env id op).Counts id := by
  obtain ⟨s, hs, hused⟩ := h
  obtain ⟨s', hs', htally⟩ := op_usage env op p.tables id s hs
  refine ⟨s', hs', ?_⟩
  have hnew : newPeriod id p.tables (op.run env p.tables).1 = decide (s'.periodStart ≠ s.periodStart) := by
    simp [newPeriod, hs, hs']
  show s'.amountUsed = tally p.total (newPeriod id p.tables (op.run env p.tables).1) (p.use env id op)
  rw [hnew, ← hused]
  exact htally

def netTotal (net : List (String × Int)) : Int := (net.map Prod.snd).sum

/-- The requests of the current period are recorded, once each, none has given back more
than it was charged, and together they have consumed `total`. -/
structure Nets (d : Tables) (total : Int) (net : List (String × Int)) : Prop where
  sum : total = netTotal net
  nonneg : ∀ e ∈ net, 0 ≤ e.2
  nodup : (net.map Prod.fst).Nodup
  recorded : ∀ e ∈ net, (d (.record e.1)).isSome

theorem Nets.nil (d : Tables) : Nets d 0 [] := ⟨rfl, by simp, nodup_nil, by simp⟩

variable {net : List (String × Int)}

theorem Nets.kin (h : Nets d total net) (hk : Kin d d') : Nets d' total net :=
  ⟨h.sum, h.nonneg, h.nodup, fun e he => hk.record_stays (h.recorded e he)⟩

theorem addTo_fst (requestId : String) (delta : Int) (e : String × Int) : (addTo requestId delta e).1 = e.1 := by
  unfold addTo
  split <;> rfl

theorem addTo_off (h : requestId ∉ net.map Prod.fst) : net.map (addTo requestId delta) = net := by
  refine (map_congr_left fun e he => ?_).trans (map_id net)
  refine if_neg fun hr => h ?_
  exact hr ▸ mem_map_of_mem he

/-- A request of the period is listed once, so the total changes once. -/
theorem netTotal_addTo (hnd : (net.map Prod.fst).Nodup) (hmem : requestId ∈ net.map Prod.fst) :
    netTotal (net.map (addTo requestId delta)) = netTotal net + delta := by
  induction net with
  | nil => cases hmem
  | cons e rest ih =>
    obtain ⟨hout, hrest⟩ := nodup_cons.mp hnd
    by_cases he : e.1 = requestId
    · rw [map_cons, addTo_off (he ▸ hout)]
      simp only [netTotal, map_cons, sum_cons, addTo, he, if_true]
      omega
    · have hsum := ih hrest ((mem_cons.mp hmem).resolve_left (Ne.symm he))
      simp only [netTotal] at hsum
      simp only [netTotal, map_cons, sum_cons, hsum, addTo, he, if_false]
      omega

theorem netTotal_nonneg (h : ∀ e ∈ net, 0 ≤ e.2) : 0 ≤ netTotal net := by
  refine sum_nonneg fun n hn => ?_
  obtain ⟨e, he, rfl⟩ := mem_map.mp hn
  exact h e he

theorem Nets.preConsume (h : Nets d total net) (hk : Kin d d') (hnew : d (.record requestId) = none)
    (hrec : (d' (.record requestId)).isSome) (hpos : 0 < amount) :
    Nets d' (total + amount) ((requestId, amount) :: net) := by
  refine ⟨?_, forall_mem_cons.mpr ⟨hpos.le, h.nonneg⟩, ?_, forall_mem_cons.mpr ⟨hrec, (h.kin hk).recorded⟩⟩
  · have := h.sum
    simp only [netTotal, map_cons, sum_cons] at this ⊢
    omega
  · refine nodup_cons.mpr ⟨fun hmem => ?_, h.nodup⟩
    obtain ⟨e, he, rfl⟩ := mem_map.mp hmem
    have := h.recorded e he
    rw [hnew] at this
    cases this

theorem Nets.change (h : Nets d total net) (hk : Kin d d') {e : String × Int} (he : e ∈ net) (hr : e.1 = requestId)
    (hnonneg : 0 ≤ e.2 + delta) : Nets d' (total + delta) (net.map (addTo requestId delta)) ∧ 0 ≤ total + delta := by
  have hmem : requestId ∈ net.map Prod.fst := hr ▸ mem_map_of_mem he
  have hsum : total + delta = netTotal (net.map (addTo requestId delta)) := by
    rw [netTotal_addTo h.nodup hmem, ← h.sum]
  have hentries : ∀ e' ∈ net.map (addTo requestId delta), 0 ≤ e'.2 := by
    intro e' he'
    obtain ⟨e0, h0, rfl⟩ := mem_map.mp he'
    unfold addTo
    split
    · -- the one entry of the request
      rename_i hr0
      obtain rfl : e0 = e := inj_on_of_nodup_map h.nodup h0 he (hr0.trans hr.symm)
      exact hnonneg
    · exact h.nonneg e0 h0
  refine ⟨⟨hsum, hentries, ?_, fun e' he' => ?_⟩, hsum ▸ netTotal_nonneg hentries⟩
  · rw [map_map, show Prod.fst ∘ addTo requestId delta = Prod.fst from funext (addTo_fst requestId delta)]
    exact h.nodup
  · obtain ⟨e0, h0, rfl⟩ := mem_map.mp he'
    rw [addTo_fst]
    exact hk.record_stays (h.recorded e0 h0)

/-- One call: the running total stays the net of the requests of the period. -/
theorem Nets.next (h : p.inPeriod = true → Nets p.tables p.total p.net) (hin : (p.next env id op).inPeriod = true) :
    Nets (p.next env id op).tables (p.next env id op).total (p.next env id op).net := by
  have hk := op_kin env op p.tables
  obtain ⟨hperiod, hin⟩ := Bool.and_eq_true_iff.mp hin
  -- a new period starts with no request, whatever was settled before
  have hbase : Nets p.tables (if newPeriod id p.tables (op.run env p.tables).1 then 0 else p.total)
      (p.current env id op) := by
    unfold Point.current
    split
    · exact .nil _
    · next hnew => exact h (by simpa [hnew] using hperiod)
  unfold Point.keepsToPeriod at hin
  unfold Point.next
  cases huse : p.use env id op with
  | nothing => exact hbase.kin hk
  | preConsume requestId amount =>
    obtain ⟨hnew, hrec, hpos⟩ := op_preConsume huse
    exact hbase.preConsume hk hnew hrec hpos
  | change requestId delta =>
    simp only [huse, any_eq_true, decide_eq_true_eq] at hin
    obtain ⟨e, he, hr, hnonneg⟩ := hin
    obtain ⟨hnets, htotal⟩ := hbase.change hk he hr hnonneg
    simp only [tally]
    -- a request is never given back more than it holds, so the total is not cut off at 0
    rw [if_neg fun hneg => absurd hneg.2 (not_lt.mpr htotal)]
    exact hnets

/-- A whole run: the used amount stays the running total, and the net of the requests of the
current period while only those are settled or refunded. -/
theorem Point.Counts.run (h : p.Counts id) (hnets : p.inPeriod = true → Nets p.tables p.total p.net) (env : Env)
    (ops : List Op) : (ops.foldl (Point.next env id) p).Counts id ∧ ((ops.foldl (Point.next env id) p).inPeriod = true →
      (ops.foldl (Point.next env id) p).total = netTotal (ops.foldl (Point.next env id) p).net) := by
  induction ops generalizing p with
  | nil => exact ⟨h, fun hin => (hnets hin).sum⟩
  | cons op ops ih => exact ih (h.next op) (Nets.next hnets)

/-- **What the used amount adds up to.** A subscription that has not been used yet, and any
sequence of pre-consumptions, settlements, refunds and reset tasks, at any times and with any
statements failing. After it the used amount is the running total since the latest reset:
everything charged or settled since then, less what was given back since then, never below 0.
It is the net of the requests charged since that reset, whenever since then only those were
settled or refunded, each for no more than it had consumed. -/
theorem used_since_reset (env : Env) (id : Int) (ops : List Op) (d : Tables) (s₀ : UserSubscription)
    (h₀ : d (.sub id) = some s₀) (hunused : s₀.amountUsed = 0) :
    ∃ s, (ops.foldl (Point.next env id) ⟨d, 0, [], true⟩).tables (.sub id) = some s ∧
      s.amountUsed = (ops.foldl (Point.next env id) ⟨d, 0, [], true⟩).total ∧
      ((ops.foldl (Point.next env id) ⟨d, 0, [], true⟩).inPeriod = true →
        s.amountUsed = netTotal (ops.foldl (Point.next env id) ⟨d, 0, [], true⟩).net) := by
  have hstart : Point.Counts id ⟨d, 0, [], true⟩ := ⟨s₀, h₀, hunused⟩
  obtain ⟨⟨s, hs, hused⟩, hnet⟩ := hstart.run (fun _ => .nil d) env ops
  exact ⟨s, hs, hused, fun hin => hused.trans (hnet hin)⟩

/-- Subscription 1 of user 7: 60 for `r1`; the reset at 2000, in whose period `r1` is refunded;
the reset at 3000; then 30 for `r2`, and 5 more. -/
def refundBeforeReset : List Op :=
  [⟨.preConsume noCache "r1" 7 60 1500, "", []⟩, ⟨.resetDue noCache 0 2500, "", []⟩, ⟨.refund "r1", "", []⟩,
    ⟨.resetDue noCache 0 3500, "", []⟩, ⟨.preConsume noCache "r2" 7 30 3600, "", []⟩, ⟨.settle 1 5, "r2", []⟩]

def oneSub : Tables := exampleTables fun id => if id = 1 then some (exampleSub 0 9000) else none

theorem usage_is_net_of_period :
    ∃ s, (refundBeforeReset.foldl (Point.next exampleEnv 1) ⟨oneSub, 0, [], true⟩).tables (.sub 1) = some s ∧
      s.amountUsed = netTotal (refundBeforeReset.foldl (Point.next exampleEnv 1) ⟨oneSub, 0, [], true⟩).net ∧
      (refundBeforeReset.foldl (Point.next exampleEnv 1) ⟨oneSub, 0, [], true⟩).net = [("r2", 35)] := by
  obtain ⟨s, hs, -, hnet⟩ := used_since_reset exampleEnv 1 refundBeforeReset oneSub (exampleSub 0 9000) rfl rfl
  exact ⟨s, hs, hnet (by decide +kernel), by decide +kernel⟩

/-- `r1` is charged 60; the period ends at 2000; `r2` is charged 30 in the next one; then
`r1` fails and is refunded. The usage of the current period, 30, is gone. -/
theorem old_refund_lowers_usage :
    let ops : List Op := [⟨.preConsume noCache "r1" 7 60 1500, "", []⟩, ⟨.preConsume noCache "r2" 7 30 2500, "", []⟩,
      ⟨.refund "r1", "", []⟩]
    let p := ops.foldl (Point.next exampleEnv 1) ⟨oneSub, 0, [], true⟩
    p.net = [("r2", 30)] ∧ (p.tables (.sub 1)).map (fun s => (s.amountUsed, s.lastResetTime)) = some (0, 2000) := by
  decide +kernel

end AmuxApi.Subscription
