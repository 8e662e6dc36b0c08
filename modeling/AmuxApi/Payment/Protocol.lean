import AmuxApi.Payment.Handlers

/- What a commit of a payment request can do to the tables (`Effect`), and that every
   request does nothing else (`wp_prog`), whatever the other requests do meanwhile.

   The requests rely on little: an order keeps its terms (everything but its status and
   completion time), and no order or user row appears or goes away. In particular a
   request may not rely on an order staying pending between its own read and its own
   write. `claimPendingTopUpTx` does not need to, since its UPDATE tests the status; the
   handlers that save a whole row do, and only they need a condition on the run
   (`findsPending`): the order is pending when such a save is carried out. -/
namespace AmuxApi.Payment
open Txn Function TopUp Local

/-- What was ordered: the row without its progress. -/
def TopUp.terms (o : TopUp) : TopUp := { o with status := .pending, completeTime := 0 }

variable {o : TopUp} {d : Tables} {o' : TopUp}

theorem TopUp.terms_eq (h : o.terms = o'.terms) : o.userId = o'.userId ∧ o.amount = o'.amount := by
  simp only [terms, mk.injEq] at h
  exact ⟨h.1, h.2.1⟩

/-- Orders keep their terms; no row appears or goes away. -/
structure SameOrders (d d' : Tables) : Prop where
  orders : ∀ t, (d' (.topUp t)).map terms = (d (.topUp t)).map terms
  users : ∀ u, (d' (.user u)).isSome = (d (.user u)).isSome

theorem SameOrders.refl (d : Tables) : SameOrders d d := ⟨fun _ => rfl, fun _ => rfl⟩

theorem SameOrders.trans {d1 d2 d3 : Tables} (h : SameOrders d1 d2) (h' : SameOrders d2 d3) : SameOrders d1 d3 :=
  ⟨fun t => (h'.orders t).trans (h.orders t), fun u => (h'.users u).trans (h.users u)⟩

theorem SameOrders.order {d' : Tables} (h : SameOrders d d') {t : String}
    (ho : d (.topUp t) = some o) : ∃ o', d' (.topUp t) = some o' ∧ o'.terms = o.terms := by
  have := h.orders t
  rw [ho] at this
  simpa using this

theorem sameOrders_order {t : String} (ho : d (.topUp t) = some o)
    (h : o'.terms = o.terms) : SameOrders d (update d (.topUp t) (some o')) where
  orders t' := by
    by_cases e : t' = t
    · subst e; simp [ho, h]
    · simp [e]
  users u := by simp

theorem sameOrders_user (d : Tables) (u : Nat) (f : User → User) :
    SameOrders d (update d (.user u) ((d (.user u)).map f)) where
  orders t := by simp
  users u' := by
    by_cases e : u' = u
    · subst e; simp
    · simp [e]

/-- The order is completed and its user credited, in one commit. -/
def completed (d : Tables) (t : String) (o : TopUp) (now : Int) (f : User → User) : Tables :=
  update (update d (.topUp t) (some (o.complete now))) (.user o.userId)
    ((d (.user o.userId)).map f)

variable {d : Tables}

section
variable (cfg : Setting)

/-- What one commit of request `r` does, after the commits `own` of the same request. -/
inductive Effect (r : Request) (own : List (Change Row)) (d : Tables) : Tables → Prop
  | nothing : Effect r own d d
  /-- the order is claimed and its user credited -/
  | complete (o : TopUp) (now : Int) (f : User → User) (hr : r.isEpay = false)
      (ho : d (.topUp r.tradeNo) = some o) (hp : o.status = .pending)
      (hf : ∀ u, (f u).quota = r.credit cfg o u.quota) : Effect r own d (completed d r.tradeNo o now f)
  /-- a failure handler saves the order -/
  | fail (o o' : TopUp) (hr : r.saves = true) (he : r.isEpay = false) (ho : d (.topUp r.tradeNo) = some o)
      (ht : o'.terms = o.terms) (hp : o.status = .pending) (hf : o'.status = .failed ∨ o'.status = .expired) :
      Effect r own d (update d (.topUp r.tradeNo) (some o'))
  /-- `EpayNotify` saves the order, its first commit -/
  | save (o o' : TopUp) (hr : r.isEpay = true) (hown : own = []) (ho : d (.topUp r.tradeNo) = some o)
      (ht : o'.terms = o.terms) (hp : o.status = .pending) (hs : o'.status = .success) :
      Effect r own d (update d (.topUp r.tradeNo) (some o'))
  /-- `EpayNotify` credits the user, its second commit -/
  | pay (o : TopUp) (a b : Tables) (hr : r.isEpay = true) (hown : own = [(a, b)])
      (ha : statusOf a r.tradeNo = some .pending) (hb : statusOf b r.tradeNo = some .success)
      (ho : ∃ o', d (.topUp r.tradeNo) = some o' ∧ o'.terms = o.terms) :
      Effect r own d (update d (.user o.userId) ((d (.user o.userId)).map (addQuota (quotaToAdd cfg o))))

theorem Effect.same {cfg : Setting} {r : Request} {own : List (Change Row)} {d' : Tables}
    (h : Effect cfg r own d d') : SameOrders d d' := by
  cases h with
  | nothing => exact .refl d
  | complete o now f hr ho hp hf =>
    have h1 := sameOrders_order ho (rfl : (o.complete now).terms = o.terms)
    have h2 := sameOrders_user (update d (.topUp r.tradeNo) (some (o.complete now))) o.userId f
    exact h1.trans h2
  | fail o o' hr he ho ht | save o o' hr hown ho ht => exact sameOrders_order ho ht
  | pay o => exact sameOrders_user d o.userId _

variable {ι : Type} (req : ι → Request) (g : Guard ι Row)

/-- When a request that saves a whole order row carries its UPDATE out, the stored order is
pending: no other request has ended it since it was read, and `sessionExpired`, which goes on
with any order, is for one that is pending. -/
def findsPending : Guard ι Row := fun i k =>
  match k with
  | .topUp _ => fun _ v ok => ok = true → (req i).saves = true → ∀ o ∈ v, o.status = .pending
  | .user _ => fun _ _ _ => true

/-- In the runs that meet `g`, the saves of request `i` find their order pending. -/
def InPlace (i : ι) : Prop := ∀ k f v, g i k f v true → findsPending req i k f v true

def proto : Proto ι Row OrderLock where
  rely := SameOrders
  guar i own d d' := Effect cfg (req i) own d d'
  prot _ _ := False
  guard := g

instance proto_sound : (proto cfg req g).Sound where
  refl := SameOrders.refl
  trans _ _ _ := SameOrders.trans
  guar _ _ _ _ := Effect.same

/-- The call keeps to the protocol. -/
abbrev Keeps (i : ι) (x : Call) (σ : Local Row OrderLock) : Prop := wp (proto cfg req g) i x (fun _ _ => True) σ

end

/-! The completion functions. -/

section
variable {cfg : Setting} {ι : Type} {req : ι → Request} {g : Guard ι Row} {i : ι}

/-- The call has claimed order `o₀`, and written nothing else. -/
def Claimed (t : String) (o₀ : TopUp) (now : Int) (σ : Local Row OrderLock) : Prop :=
  ∃ o, σ.db (.topUp t) = some o ∧ o.status = .pending ∧ o.terms = o₀.terms ∧
    σ.pend = write clean (.topUp t) (some (o.complete now))

variable {t : String} {o₀ : TopUp} {now : Int} {σ : Local Row OrderLock}

theorem Claimed.moves (h : Claimed t o₀ now σ) (hd : (proto cfg req g).Moves σ d) : Claimed t o₀ now (σ.on d) := by
  obtain ⟨o, ho, hp, ht, hw⟩ := h
  refine ⟨o, ?_, hp, ht, hw⟩
  rw [← ho]
  exact hd.taken _ (by rw [hw, write_isSome]; exact .inl rfl)

theorem claimRow_some {v : Option TopUp} {v' : Option TopUp} (h : claimRow now v = some v') :
    ∃ o, v = some o ∧ o.status = .pending ∧ v' = some (o.complete now) := by
  cases v with
  | none => cases h
  | some o =>
    simp only [claimRow] at h
    split_ifs at h
    exact ⟨o, rfl, ‹_›, (Option.some.inj h).symm⟩

/-- The claim succeeds only on a pending order; it never relies on an earlier read. -/
theorem wp_claim (hc : σ.pend = clean) (ho : ∃ o, σ.db (.topUp t) = some o ∧ o.terms = o₀.terms) :
    wp (proto cfg req g) i (claimPendingTopUpTx t now)
      (fun r σ' => (∃ st, r = .ok (true, st)) ∧ Claimed t o₀ now σ' ∨
        (∀ st, r ≠ .ok (true, st)) ∧ σ'.pend = clean) σ := by
  have hQ : (proto cfg req g).Stable (fun r σ' =>
      (∃ st, r = Except.ok (true, st)) ∧ Claimed t o₀ now σ' ∨
        (∀ st, r ≠ (.ok (true, st) : Except Err (Bool × Status))) ∧ σ'.pend = clean) := by
    rintro r σ' d (⟨hr, h⟩ | ⟨hr, h⟩) hd
    · exact .inl ⟨hr, h.moves hd⟩
    · exact .inr ⟨hr, h⟩
  refine wp_update (fun d v hd _ hf => ?_) (fun d hd _ hf => ?_) (fun d hd _ => ?_)
  -- the row is locked from here on: what it holds now is what the commit will see
  · refine ⟨nofun, wp_pure hQ (.inl ⟨⟨_, rfl⟩, ?_⟩)⟩
    obtain ⟨o, hv, hp, rfl⟩ := claimRow_some hf
    have hv : d (.topUp t) = some o := by rw [← hv, view_on_clean hc]
    obtain ⟨o1, h1, ht1⟩ := ho
    obtain ⟨o2, h2, ht2⟩ := hd.rely.order h1
    rw [hv] at h2
    cases h2
    exact ⟨o, hv, hp, ht2.trans ht1, by rw [hc]⟩
  -- no row affected: the source reads the order again to tell a missing one from a finished one
  · refine wp_select (fun d' _ => ?_) (fun d' _ => ?_)
    · dsimp only
      split <;> exact wp_pure hQ (.inr ⟨by simp, hc⟩)
    · exact wp_pure hQ (.inr ⟨by simp, hc⟩)
  · exact wp_pure hQ (.inr ⟨by simp, hc⟩)

/-- What a transaction body must leave behind when it succeeds. -/
def Settles (cfg : Setting) (r : Request) (res : Except Err Unit) (σ : Local Row OrderLock) : Prop :=
  res = .ok () → Effect cfg r σ.own σ.db σ.view

variable {Q : Except Err Unit → Local Row OrderLock → Prop}

variable {e : Err} {body : Call} {referenceId : String}

theorem wp_error (hQ : ∀ σ', Q (.error e) σ') : wp (proto cfg req g) i (pure (.error e)) Q σ :=
  fun _ _ => hQ _

variable {res : Except Err Unit}

theorem wp_unchanged (hc : σ.pend = clean) : wp (proto cfg req g) i (pure res) (Settles cfg (req i)) σ := by
  intro d _ _
  rw [view_on_clean hc]
  exact .nothing

/-- The function credits the user of the order as request `r` should. -/
def Credits (cfg : Setting) (r : Request) (o₀ : TopUp) (f : User → User) : Prop :=
  ∀ o, o.terms = o₀.terms → ∀ u, (f u).quota = r.credit cfg o u.quota

theorem onUser_some {f : User → User} {v v' : Option User} (h : onUser f v = some v') :
    ∃ u, v = some u ∧ v' = some (f u) := by
  cases v with
  | none => cases h
  | some u => exact ⟨u, rfl, (Option.some.inj h).symm⟩

/-- After the claim, the credit completes the order. -/
theorem wp_creditUser {f : User → User} (hr : (req i).isEpay = false) (h : Claimed (req i).tradeNo o₀ now σ)
    (hf : Credits cfg (req i) o₀ f) : wp (proto cfg req g) i (creditUser o₀.userId f) (Settles cfg (req i)) σ := by
  refine wp_update (fun d v hd _ hv => ?_) (fun d hd _ hv => ?_) (fun d _ _ => wp_error nofun)
  · -- the user is there: both rows are taken until the commit
    refine ⟨nofun, fun d' hd' _ => ?_⟩
    obtain ⟨o, ho, hp, ht, hw⟩ := h.moves hd
    rw [view_on_off (congrFun hw _)] at hv
    obtain ⟨u, hu, rfl⟩ := onUser_some hv
    have ho' : d' (.topUp (req i).tradeNo) = some o := by
      refine (hd'.taken _ ?_).trans ho
      rw [write_isSome, show σ.pend = _ from hw, write_isSome]
      exact .inr (.inl rfl)
    have hu' : d' (.user o₀.userId) = some u := by
      refine (hd'.taken _ ?_).trans hu
      rw [write_isSome]
      exact .inl rfl
    have key : Effect cfg (req i) σ.own d' _ := .complete o now f hr ho' hp (hf o ht)
    rw [completed, (terms_eq ht).1, hu'] at key
    show Effect cfg (req i) σ.own d' (Txn.view (write σ.pend _ _) d')
    rw [view_write, show σ.pend = _ from hw, view_write, view_clean]
    exact key
  · -- no such user: the UPDATE writes nothing, and the order is completed all the same
    intro d' hd' _
    obtain ⟨o, ho, hp, ht, hw⟩ := (h.moves hd).moves hd'
    rw [view_on_off (congrFun hw _)] at hv
    have hu : d (.user o₀.userId) = none := by
      cases hu : d (.user o₀.userId) with
      | none => rfl
      | some u => rw [hu] at hv; cases hv
    have hu' : d' (.user o₀.userId) = none := by
      have hsame := hd'.rely.users o₀.userId
      rw [show (σ.on d).db = d from rfl, hu] at hsame
      simpa using hsame
    have key : Effect cfg (req i) σ.own d' _ := .complete o now f hr ho hp (hf o ht)
    have hkeep : completed d' (req i).tradeNo o now f =
        update d' (.topUp (req i).tradeNo) (some (o.complete now)) := by
      rw [completed, (terms_eq ht).1]
      refine update_eq_iff.mpr ⟨?_, fun _ _ => rfl⟩
      simp [hu']
    rw [hkeep] at key
    show Effect cfg (req i) σ.own d' (Txn.view σ.pend d')
    rw [show σ.pend = _ from hw, view_write, view_clean]
    exact key

/-- The read every completion starts with: the order, or an answer that writes nothing. -/
theorem wp_selectOrder {B : TopUp → Call} (hc : σ.pend = clean)
    (hB : ∀ d o, (proto cfg req g).Moves σ d → d (.topUp t) = some o →
      wp (proto cfg req g) i (B o) (Settles cfg (req i)) (σ.on d)) :
    wp (proto cfg req g) i (do
      match ← select with
      | none => return res
      | some d => match d (.topUp t) with
        | none => return res
        | some o => B o) (Settles cfg (req i)) σ := by
  refine wp_select (fun d hd => ?_) fun d _ => wp_unchanged hc
  dsimp only
  rw [view_on_clean hc]
  cases ho : d (.topUp t) with
  | none => exact wp_unchanged hc
  | some o => exact hB d o hd ho

theorem wp_claimThen {next : Except Err (Bool × Status) → Call} (hc : σ.pend = clean) (ho : σ.db (.topUp t) = some o₀)
    (hyes : ∀ st σ', Claimed t o₀ now σ' → wp (proto cfg req g) i (next (.ok (true, st))) Q σ')
    (hfail : ∀ e σ', σ'.pend = clean → wp (proto cfg req g) i (next (.error e)) Q σ')
    (hlost : ∀ st σ', σ'.pend = clean → wp (proto cfg req g) i (next (.ok (false, st))) Q σ') :
    wp (proto cfg req g) i (claimPendingTopUpTx t now >>= next) Q σ := by
  refine wp_then (wp_claim hc ⟨o₀, ho, rfl⟩) ?_
  rintro r σ' (⟨⟨st, rfl⟩, h⟩ | ⟨hr, h⟩)
  · exact hyes st σ' h
  match r with
  | .error e => exact hfail e σ' h
  | .ok (false, st) => exact hlost st σ' h
  | .ok (true, st) => exact absurd rfl (hr st)

theorem wp_settled (h : wp (proto cfg req g) i body (Settles cfg (req i)) σ) :
    Keeps cfg req g i (transaction .db body) σ := by
  refine wp_transaction (fun _ _ _ _ _ => trivial) (wp_mono ?_ h)
  intro r σ' hr
  cases r with
  | error e => trivial
  | ok a => exact ⟨hr rfl, trivial, trivial⟩

theorem wp_done : Keeps cfg req g i (pure res) σ :=
  fun _ _ => trivial

/-- The error text a completion function hands out instead of its own error. -/
theorem wp_masked (h : Keeps cfg req g i (transaction .db body) σ) :
    Keeps cfg req g i (do
      match ← transaction .db body with
      | .error _ => return .error e
      | .ok _ => return .ok () : Call) σ := by
  refine wp_then h fun r σ' _ => ?_
  cases r <;> exact wp_done

variable {p : Nat}

theorem wp_withOrderLock (hc : σ.pend = clean)
    (h : ∀ σ', σ'.pend = clean → σ'.own = σ.own → Keeps cfg req g i body σ') :
    Keeps cfg req g i (withOrderLock p t body) σ := by
  refine wp_lock fun d _ => wp_then (h _ hc rfl) fun r σ' _ => ?_
  exact wp_unlock nofun fun d' _ => wp_done

theorem wp_getTopUp {next : Option TopUp → Call} (hc : σ.pend = clean)
    (hnone : ∀ d, wp (proto cfg req g) i (next none) Q (σ.on d))
    (hsome : ∀ d o, d (.topUp t) = some o → wp (proto cfg req g) i (next (some o)) Q (σ.on d)) :
    wp (proto cfg req g) i (getTopUpByTradeNo t >>= next) Q σ := by
  refine wp_bind (wp_select (fun d hd d' hd' => ?_) (fun d hd d' hd' => hnone d'))
  rw [view_on_clean hc]
  cases ho : d (.topUp t) with
  | none => exact hnone d'
  | some o => exact wp_moves (hsome d o ho) hd'

/-- A save of the whole row, where it finds the order pending. -/
theorem wp_save {o₀ : TopUp} (hQ : (proto cfg req g).Stable Q) (hin : InPlace req g i) (hs : (req i).saves = true)
    (hc : σ.pend = clean) (h0 : σ.db (.topUp t) = some o₀) (ht : o'.terms = o₀.terms)
    (hsave : ∀ d o, d (.topUp t) = some o → o'.terms = o.terms → o.status = .pending →
      Effect cfg (req i) σ.own d (update d (.topUp t) (some o')) ∧
      Q (.ok ()) { σ with
        db := update d (.topUp t) (some o')
        own := (d, update d (.topUp t) (some o')) :: σ.own }) (hfail : ∀ d, Q (.error .db) (σ.on d)) :
    wp (proto cfg req g) i (o'.update t) Q σ := by
  refine wp_bind (wp_autocommit (stable_wp _ _) hc nofun (fun d v hd hg hv => ?_)
    (fun d d' hd hv => ?_) (fun d hd => ?_))
  · cases hv
    obtain ⟨o, ho, hterms⟩ := hd.rely.order h0
    have hp : o.status = .pending := by simpa [findsPending, ho, hs] using hin _ _ _ hg
    obtain ⟨heff, hok⟩ := hsave d o ho (ht.trans hterms.symm) hp
    exact ⟨heff, wp_pure hQ hok⟩
  · cases hv
  · exact wp_pure hQ (hfail d)

/-- `EpayNotify` on an order it has read as pending. -/
theorem wp_epayComplete (hin : InPlace req g i) (hs : (req i).saves = true) (hc : σ.pend = clean) (hown : σ.own = [])
    (hr : (req i).isEpay = true) (ht : (req i).tradeNo = t) (h0 : σ.db (.topUp t) = some o₀) :
    Keeps cfg req g i (epayComplete cfg t o₀) σ := by
  subst ht
  -- between the two commits: the save is the only commit so far, and it moved the order
  let Saved : Local Row OrderLock → Prop := fun σ' => σ'.pend = clean ∧ ∃ a b, σ'.own = [(a, b)] ∧
    statusOf a (req i).tradeNo = some .pending ∧ statusOf b (req i).tradeNo = some .success ∧
    ∃ o', σ'.db (.topUp (req i).tradeNo) = some o' ∧ o'.terms = o₀.terms
  have hstable : (proto cfg req g).Stable (fun r σ' => r = (.ok () : Except Err Unit) → Saved σ') := by
    intro r σ' d h hd hr
    obtain ⟨hc', a, b, ho, ha, hb, o', ho', hterms⟩ := h hr
    obtain ⟨o'', h'', hterms'⟩ := SameOrders.order hd.rely ho'
    exact ⟨hc', a, b, ho, ha, hb, o'', h'', hterms'.trans hterms⟩
  refine wp_then (wp_save hstable hin hs hc h0 rfl ?_ ?_) fun r σ' h => ?_
  rotate_right
  · cases r with
    | error e => exact wp_done
    | ok a =>
      obtain ⟨hc', a, b, ho, ha, hb, hord⟩ := h rfl
      refine wp_bind (wp_mono (Q := fun _ _ => True) (fun r σ'' _ => ?_) ?_)
      · cases r <;> exact wp_done
      unfold increaseUserQuota
      split
      · exact wp_done
      refine wp_bind (wp_mono (Q := fun _ _ => True) (fun r σ'' _ => ?_) ?_)
      · cases r <;> exact wp_done
      refine wp_autocommit (fun _ _ _ _ _ => trivial) hc' nofun
        (fun d v hd hg hv => ⟨?_, trivial⟩) (fun d d' hd hv hd' => ⟨.nothing, trivial⟩) (fun d hd => trivial)
      obtain ⟨u, hu, rfl⟩ := onUser_some hv
      obtain ⟨o', h', hterms⟩ := hord
      obtain ⟨o'', h'', hterms'⟩ := hd.rely.order h'
      have key : Effect cfg (req i) _ d _ := .pay o₀ a b hr ho ha hb ⟨o'', h'', hterms'.trans hterms⟩
      rw [hu] at key
      exact key
  · intro d o ho hterms hp
    refine ⟨.save o _ hr hown ho hterms hp rfl, fun _ => ⟨hc, d, _, by rw [hown], ?_, ?_, ?_⟩⟩
    · simp [statusOf, ho, hp]
    · simp [statusOf]
    · exact ⟨_, update_self .., rfl⟩
  · exact nofun

theorem wp_epayNotify (d : Tables) (hin : InPlace req g i) (hreq : req i = .epayNotify p t) :
    Keeps cfg req g i (epayNotify cfg p t) (fresh d) := by
  refine wp_withOrderLock rfl fun σ' hc hown => wp_getTopUp hc (fun d' => wp_done) fun d' o ho => ?_
  dsimp only
  split
  · exact wp_done
  split
  · exact wp_epayComplete hin (by rw [hreq]; rfl) hc hown (by rw [hreq]; rfl) (by rw [hreq]; rfl) ho
  · exact wp_done

/-! The completions and the handlers that are not Epay's. -/

section
variable {customerId customerEmail status orderStatus orderType : String} {o' : TopUp} {sub : SubscriptionAnswer}
variable (hc : σ.pend = clean) (hr : (req i).isEpay = false) (ht : (req i).tradeNo = referenceId)
include hc hr ht

theorem wp_recharge (hf : ∀ o, Credits cfg (req i) o (rechargeUser cfg o customerId)) :
    Keeps cfg req g i (recharge cfg referenceId customerId now) σ := by
  subst ht
  unfold recharge
  split
  · exact wp_done
  refine wp_masked (wp_settled (wp_selectOrder hc fun d o hd ho => ?_))
  split
  · exact wp_unchanged hc
  split
  · exact wp_unchanged hc
  exact wp_claimThen hc ho (fun st σ' h => wp_creditUser hr h (hf o)) (fun _ _ => wp_unchanged) fun _ _ => wp_unchanged

theorem wp_rechargeCreem (hf : ∀ o email, Credits cfg (req i) o (creemUser o email)) :
    Keeps cfg req g i (rechargeCreem referenceId customerEmail now) σ := by
  subst ht
  unfold rechargeCreem
  split
  · exact wp_done
  refine wp_masked (wp_settled (wp_selectOrder hc fun d o hd ho => ?_))
  split
  · exact wp_unchanged hc
  split
  · exact wp_unchanged hc
  refine wp_claimThen hc ho (fun st σ' h => ?_) (fun _ _ => wp_unchanged) fun _ _ => wp_unchanged
  dsimp only
  split
  · exact wp_creditUser hr h (hf o none)
  refine wp_select (fun d' hd' => ?_) (fun d' _ => wp_error nofun)
  dsimp only
  split
  · exact wp_error nofun
  · exact wp_creditUser hr (h.moves hd') (hf o _)

theorem wp_rechargeWaffo (hf : ∀ o, Credits cfg (req i) o (addQuota (quotaToAdd cfg o))) :
    Keeps cfg req g i (rechargeWaffo cfg referenceId now) σ := by
  subst ht
  unfold rechargeWaffo
  split
  · exact wp_done
  refine wp_masked (wp_settled (wp_selectOrder hc fun d o hd ho => ?_))
  split
  · exact wp_unchanged hc
  split
  · exact wp_unchanged hc
  split
  · exact wp_unchanged hc
  split
  · exact wp_unchanged hc
  refine wp_claimThen hc ho (fun st σ' h => wp_creditUser hr h (hf o)) (fun _ _ => wp_unchanged) fun st σ' hc' => ?_
  dsimp only
  split <;> exact wp_unchanged hc'

theorem wp_manualCompleteTopUp (hf : ∀ o, Credits cfg (req i) o (addQuota (quotaToAdd cfg o))) :
    Keeps cfg req g i (manualCompleteTopUp cfg referenceId now) σ := by
  subst ht
  unfold manualCompleteTopUp
  split
  · exact wp_done
  refine wp_settled (wp_selectOrder hc fun d o hd ho => ?_)
  split
  · exact wp_unchanged hc
  split
  · exact wp_unchanged hc
  split
  · exact wp_unchanged hc
  refine wp_claimThen hc ho (fun st σ' h => wp_creditUser hr h (hf o)) (fun _ _ => wp_unchanged) fun st σ' hc' => ?_
  dsimp only
  split <;> exact wp_unchanged hc'

theorem wp_fulfillOrder (hf : ∀ o, Credits cfg (req i) o (rechargeUser cfg o customerId)) :
    Keeps cfg req g i (fulfillOrder cfg p sub referenceId customerId now) σ := by
  unfold fulfillOrder
  split
  · exact wp_done
  refine wp_withOrderLock hc fun σ' hc' _ => ?_
  cases sub with
  | done | failed => exact wp_done
  | notFound => exact wp_recharge hc' hr ht hf

theorem wp_handleCheckoutCompleted (hf : ∀ o email, Credits cfg (req i) o (creemUser o email)) :
    Keeps cfg req g i (handleCheckoutCompleted p sub orderStatus orderType referenceId customerEmail now) σ := by
  unfold handleCheckoutCompleted
  split
  · exact wp_done
  split
  · exact wp_done
  refine wp_withOrderLock hc fun σ' hc' _ => ?_
  cases sub with
  | done | failed => exact wp_done
  | notFound =>
    dsimp only
    split
    · exact wp_done
    refine wp_getTopUp hc' (fun d' => wp_done) fun d' o ho => ?_
    dsimp only
    split
    · exact wp_done
    · exact wp_rechargeCreem hc' hr ht hf

variable (hin : InPlace req g i)
include hin

theorem wp_saveFailed (hs : (req i).saves = true) (h0 : σ.db (.topUp referenceId) = some o₀)
    (hterms : o'.terms = o₀.terms) (hf : o'.status = .failed ∨ o'.status = .expired) :
    Keeps cfg req g i (o'.update referenceId) σ := by
  subst ht
  refine wp_save (fun _ _ _ _ _ => trivial) hin hs hc h0 hterms (fun d o ho hto hp => ⟨?_, trivial⟩) fun _ => trivial
  exact .fail o o' hs hr ho hto hp hf

theorem wp_handleWaffoPayment (hs : (req i).saves = decide (orderStatus ≠ "PAY_SUCCESS"))
    (hf : ∀ o, Credits cfg (req i) o (addQuota (quotaToAdd cfg o))) :
    Keeps cfg req g i (handleWaffoPayment cfg p orderStatus referenceId now) σ := by
  unfold handleWaffoPayment
  split
  · next hne =>
    have hs' : (req i).saves = true := hs.trans (decide_eq_true hne)
    split
    · exact wp_done
    refine wp_getTopUp hc (fun d' => wp_done) fun d' o ho => ?_
    dsimp only
    split
    · exact wp_then (wp_saveFailed hc hr ht hin hs' ho rfl (.inl rfl)) fun _ _ _ => wp_done
    · exact wp_done
  · exact wp_withOrderLock hc fun σ' hc' _ => wp_rechargeWaffo hc' hr ht hf

variable (hs : (req i).saves = true)
include hs

theorem wp_sessionAsyncPaymentFailed :
    Keeps cfg req g i (sessionAsyncPaymentFailed p referenceId) σ := by
  unfold sessionAsyncPaymentFailed
  split
  · exact wp_done
  refine wp_withOrderLock hc fun σ' hc' _ => wp_getTopUp hc' (fun d' => wp_done) fun d' o ho => ?_
  dsimp only
  split
  · exact wp_done
  split
  · exact wp_done
  refine wp_then (wp_saveFailed hc' hr ht hin hs ho rfl (.inl rfl)) fun r σ'' _ => ?_
  cases r <;> exact wp_done

theorem wp_sessionExpired :
    Keeps cfg req g i (sessionExpired p sub status referenceId) σ := by
  unfold sessionExpired
  split
  · exact wp_done
  split
  · exact wp_done
  refine wp_withOrderLock hc fun σ' hc' _ => ?_
  cases sub with
  | done | failed => exact wp_done
  | notFound =>
    refine wp_getTopUp hc' (fun d' => wp_done) fun d' o ho => ?_
    refine wp_then (wp_saveFailed hc' hr ht hin hs ho rfl (.inr rfl)) fun r σ'' _ => ?_
    cases r <;> exact wp_done

end

/-- **Every request keeps to the protocol**, from any database. -/
theorem wp_prog (hin : ∀ i, InPlace req g i) (d : Tables) (i : ι) :
    Keeps cfg req g i ((req i).prog cfg) (fresh d) := by
  -- the three shapes of credit: units for Stripe, the raw amount for Creem, `quotaToAdd` for the rest
  have stripe : ∀ {o o' : TopUp} (c : String) (u : User), o'.terms = o.terms →
      (rechargeUser cfg o c u).quota = cfg.rounding.assign (u.quota + o'.amount * cfg.quotaPerUnit) :=
    fun c u h => by rw [rechargeUser, (terms_eq h).2]
  have creem : ∀ {o o' : TopUp} (e : Option String) (u : User), o'.terms = o.terms →
      (creemUser o e u).quota = u.quota + o'.amount :=
    fun e u h => by rw [creemUser, (terms_eq h).2]
  have plain : ∀ {o o' : TopUp} (u : User), o'.terms = o.terms →
      (addQuota (quotaToAdd cfg o) u).quota = u.quota + quotaToAdd cfg o' :=
    fun u h => by rw [addQuota, quotaToAdd, quotaToAdd, (terms_eq h).2]
  obtain ⟨r, hreq⟩ : ∃ r, req i = r := ⟨_, rfl⟩
  have epay := congrArg Request.isEpay hreq
  have trade := congrArg Request.tradeNo hreq
  have saves := congrArg Request.saves hreq
  have credits : ∀ {o f}, Credits cfg r o f → Credits cfg (req i) o f := fun h => hreq ▸ h
  rw [hreq]
  cases r with
  | recharge r c now => exact wp_recharge rfl epay trade fun o => credits fun o' h u => stripe c u h
  | rechargeCreem r e now => exact wp_rechargeCreem rfl epay trade fun o e => credits fun o' h u => creem e u h
  | rechargeWaffo t now => exact wp_rechargeWaffo rfl epay trade fun o => credits fun o' h u => plain u h
  | manualCompleteTopUp t now => exact wp_manualCompleteTopUp rfl epay trade fun o => credits fun o' h u => plain u h
  | epayNotify p t => exact wp_epayNotify d (hin i) hreq
  | adminCompleteTopUp p t now =>
    show wp _ i (adminCompleteTopUp cfg p t now) _ _
    unfold adminCompleteTopUp
    split
    · exact wp_done
    · exact wp_withOrderLock rfl fun σ' hc _ =>
        wp_manualCompleteTopUp hc epay trade fun o => credits fun o' h u => plain u h
  | sessionCompleted p sub st ps r c now =>
    show wp _ i (sessionCompleted cfg p sub st ps r c now) _ _
    unfold sessionCompleted
    split
    · exact wp_done
    split
    · exact wp_done
    · exact wp_fulfillOrder rfl epay trade fun o => credits fun o' h u => stripe c u h
  | sessionAsyncPaymentSucceeded p sub r c now =>
    exact wp_fulfillOrder rfl epay trade fun o => credits fun o' h u => stripe c u h
  | sessionAsyncPaymentFailed p r => exact wp_sessionAsyncPaymentFailed rfl epay trade (hin i) saves
  | sessionExpired p sub st r => exact wp_sessionExpired rfl epay trade (hin i) saves
  | handleCheckoutCompleted p sub os ot r e now =>
    exact wp_handleCheckoutCompleted rfl epay trade fun o e => credits fun o' h u => creem e u h
  | handleWaffoPayment p os t now =>
    exact wp_handleWaffoPayment rfl epay trade (hin i) saves fun o => credits fun o' h u => plain u h

variable (cfg) in
/-- The requests `req`, all at once, on the tables `d`. -/
def payments [DecidableEq ι] (req : ι → Request) (d : Tables) : Sys ι Row OrderLock (Except Err Unit) :=
  start d fun i => (req i).prog cfg

/-- Whatever the interleaving, the commits so far lead from `d` to the present tables,
and each is an `Effect` of its request. -/
theorem payments_effects [DecidableEq ι] (hin : ∀ i, InPlace req g i)
    {s : Sys ι Row OrderLock (Except Err Unit)} (h : Reach g (payments cfg req d) s) :
    Chain d s.hist s.db ∧ Kept (proto cfg req g) s.hist :=
  have good := reach_sound (wp_prog hin d) h
  ⟨good.chain, good.kept⟩

end

end AmuxApi.Payment
