import AmuxApi.MjProxy.Model
import AmuxApi.Txn.Once

/- One submission and any number of polling rounds, interleaved statement by statement.

   A round works on a copy of the row and writes it back under the condition that the status
   is still the one it has read; if that UPDATE is won and the report says that the task has
   failed, it gives the row's quota back to the user. Where the UPDATE leaves a finished task
   alone (`endStays`), a task is finished once and refunded by the round that has finished
   it. What is given back is the row's quota, to the user: this is what was charged if the
   submission was charged and no token was (`Refundable`). Then a task that ends as FAILURE
   has had its charge returned (`failure_returns_charge`). -/
namespace AmuxApi.MjProxy
open Txn Function List

/-! What the ledger says. -/

def Entry.isRefund : Entry → Bool
  | .refund _ _ => true
  | .charge _ _ => false

def refunds (l : List Entry) : List Entry := l.filter (·.isRefund)

def Entry.charged (a : Account) : Entry → Int
  | .charge a' n => if a' = a then n else 0
  | .refund _ _ => 0

def Entry.refunded (a : Account) : Entry → Int
  | .refund a' n => if a' = a then n else 0
  | .charge _ _ => 0

def charged (a : Account) (l : List Entry) : Int := (l.map (·.charged a)).sum

def refunded (a : Account) (l : List Entry) : Int := (l.map (·.refunded a)).sum

theorem refunds_append (l : List Entry) (e : Entry) :
    refunds (l ++ [e]) = if e.isRefund then refunds l ++ [e] else refunds l := by
  cases h : e.isRefund <;> simp [refunds, h]

theorem charged_append (a : Account) (l : List Entry) (e : Entry) :
    charged a (l ++ [e]) = charged a l + e.charged a := by
  simp [charged]

theorem refunded_refunds (a : Account) (l : List Entry) : refunded a (refunds l) = refunded a l := by
  induction l with
  | nil => rfl
  | cons e l ih =>
    cases e with
    | charge a' n => simpa [refunded, refunds, Entry.isRefund, Entry.refunded] using ih
    | refund a' n => simpa [refunded, refunds, Entry.isRefund] using ih

/-! The calls, and the condition on runs. -/

def prog (ids : List Int) (host : Host) (sub : Submission) (id : Int) {ι : Type} (rounds : ι → Round) :
    Option ι → SQL Result
  | none => relayMidjourneySubmit ids host sub id
  | some i => updateMidjourneyTaskBulk ids (rounds i)

/-- An UPDATE of the task that finds it finished does not match. -/
def leavesFinished (id : Int) : (k : Key) → (Row k → Option (Row k)) → Row k → Bool
  | .task id', f, some t => id' = id → t.progress = "100%" → (f (some t)).isNone
  | _, _, _ => true

/-- The condition on runs. -/
def endStays (id : Int) {ι : Type} : Guard ι Row := fun _ k f v ok => ok → leavesFinished id k f v

/-- The action of a submission, from the request alone. -/
def Submission.action (host : Host) (sub : Submission) : Except Response Action :=
  match normalRequest host sub with
  | .error e => .error e
  | .ok (mode, req) =>
    match modeAction mode with
    | some action => .ok action
    | none => if req.taskId ≠ "" then (changeTask host mode req).map (·.2) else .ok req.action

/-- The condition on the inputs: a price that is not 0 is charged, to the user and to no
token; the upstream names the task; the rounds can load the channels they ask for. -/
structure Refundable (host : Host) (sub : Submission) {ι : Type} (rounds : ι → Round) : Prop where
  nonneg : ∀ quota, sub.price = .ok quota → 0 ≤ quota
  charged : ∀ action quota statusCode response, sub.action host = .ok action → sub.price = .ok quota →
    sub.http = .ok (statusCode, response) →
    quota = 0 ∨ (consumes action = true ∧ accepted response.code = true ∧ statusCode = 200)
  noToken : sub.isPlayground = true ∨ sub.price = .ok 0
  named : ∀ statusCode response, sub.http = .ok (statusCode, response) → response.result ≠ ""
  channels : ∀ i channelId, (rounds i).channel channelId = true

/-- The database has not refused the charge of the task, or its refund. -/
def Result.carriedOut (id : Int) : Result → Prop
  | .rejected _ => True
  | .submitted _ charge => charge ≠ some false
  | .polled refused => id ∉ refused

/-! What a report does to a row. -/

theorem failed_of_apply {item : MidjourneyDto} {t : Midjourney} (hend : (item.apply t).progress = "100%")
    (hfail : (item.apply t).status = .failure) : item.failed = true := by
  by_contra h
  simp only [MidjourneyDto.apply, h, if_false, MidjourneyDto.copyTo] at hend hfail
  simp [MidjourneyDto.failed, hend, hfail] at h

variable {p : Prepared} {response : Response}

/-- A submission's row is finished as a success only. -/
theorem task_finished {sub : Submission} {quota : Int}
    (h : (sub.task p quota response).progress = "100%") : (sub.task p quota response).status = .success := by
  have existing : ∀ t : Midjourney, t.progress = "0%" → (sub.existing t response).1.progress = "100%" →
      (sub.existing t response).1.status = .success := by
    intro t ht
    unfold Submission.existing
    split
    · split
      · intro _
        assumption
      · intro hend
        rw [ht] at hend
        exact absurd hend (by decide)
    · intro hend
      rw [ht] at hend
      exact absurd hend (by decide)
  revert h
  simp only [Submission.task]
  split
  · intro _
    rfl
  · exact existing _ rfl

/-! What the calls may do. -/

section
variable {sub : Submission} {id : Int}

def finished (id : Int) (d : Tables) : Bool := (d (.task id)).any (·.progress = "100%")

def failedIn (id : Int) (d : Tables) : Bool := (d (.task id)).any (·.status = .failure)

def refundsOf (id : Int) (d : Tables) : List Entry := refunds (d (.ledger id))

def chargedTo (id : Int) (a : Account) (d : Tables) : Int := charged a (d (.ledger id))

def present (id : Int) (d : Tables) : Int := if (d (.task id)).isSome then 1 else 0

/-- The columns that say whom to refund, and how much. -/
structure Own (sub : Submission) (t : Midjourney) : Prop where
  userId : t.userId = sub.userId
  price : sub.price = .ok t.quota
  mjId : t.mjId ≠ ""

variable {t : Midjourney}

theorem Own.apply (h : Own sub t) (item : MidjourneyDto) : Own sub (item.apply t) := by
  unfold MidjourneyDto.apply
  split <;> exact ⟨h.userId, h.price, h.mjId⟩

def Carried (sub : Submission) (id : Int) (d : Tables) : Prop := ∀ t, d (.task id) = some t → Own sub t

/-- What a commit does: a finished task stays as it is; the submission alone makes the row
and charges; and the refund is of the price, made by the call that has finished the task. -/
structure Effect {ι : Type} (sub : Submission) (id : Int) (i : Option ι) (own : List (Change Row)) (d d' : Tables) :
    Prop where
  stays : finished id d = true → d' (.task id) = d (.task id)
  carried : Carried sub id d → Carried sub id d'
  alone : i ≠ none → present id d' = present id d ∧ ∀ a, chargedTo id a d' = chargedTo id a d
  refund : refundsOf id d' ≠ refundsOf id d → (Raised (finished id) own ∧ Untouched (refundsOf id) own) ∧
    ∃ quota, sub.price = .ok quota ∧ refundsOf id d' = refundsOf id d ++ [.refund (.user sub.userId) quota]

/-- What a call may rely on. -/
structure Settles (sub : Submission) (id : Int) (d d' : Tables) : Prop where
  stays : finished id d = true → finished id d' = true
  carried : Carried sub id d → Carried sub id d'

variable {own : List (Change Row)}

variable {ι α : Type} {d d' : Tables} {k : Key} {refused ids : List Int} {quota : Int} {host : Host} {i : Option ι}

section
variable (h : Effect sub id i own d d')
include h

theorem Effect.settles : Settles sub id d d' := by
  refine ⟨fun hd => ?_, h.carried⟩
  rw [finished, h.stays hd]
  exact hd

theorem Effect.frozen (hd : finished id d = true) :
    finished id d' = true ∧ d' (.task id) = d (.task id) :=
  ⟨h.settles.stays hd, h.stays hd⟩

theorem Effect.claimed : Claimed (finished id) (refundsOf id) own d d' :=
  ⟨h.settles.stays, fun hne => (h.refund hne).1⟩

end

/-- A commit that changes neither the row nor the ledger. -/
structure Away (id : Int) (d d' : Tables) : Prop where
  task : d' (.task id) = d (.task id)
  ledger : d' (.ledger id) = d (.ledger id)

theorem Away.refl (d : Tables) : Away id d d := ⟨rfl, rfl⟩

theorem Away.update (v : Row k) (htask : k ≠ .task id) (hledger : k ≠ .ledger id) : Away id d (update d k v) :=
  ⟨update_of_ne htask.symm .., update_of_ne hledger.symm ..⟩

theorem Away.refunds (h : Away id d d') : refundsOf id d' = refundsOf id d := by
  rw [refundsOf, h.ledger, refundsOf]

theorem Away.finished (h : Away id d d') : MjProxy.finished id d' = MjProxy.finished id d := by
  rw [MjProxy.finished, h.task, MjProxy.finished]

theorem Away.effect (h : Away id d d') :
    Effect sub id i own d d' where
  stays _ := h.task
  carried hd t ht := hd t (h.task ▸ ht)
  alone _ := by simp only [present, chargedTo, h.task, h.ledger, true_and, implies_true]
  refund hne := absurd h.refunds hne

def mjProto (sub : Submission) (id : Int) (ι : Type) : Proto (Option ι) Row Empty where
  rely := Settles sub id
  guar := Effect sub id
  prot := fun l _ => l.elim
  guard := endStays id

instance mjProto_sound (ι : Type) : (mjProto sub id ι).Sound where
  refl _ := ⟨fun h => h, fun h => h⟩
  trans _ _ _ h h' := ⟨fun hd => h'.stays (h.stays hd), fun hd => h'.carried (h.carried hd)⟩
  guar _ _ _ _ h := h.settles

variable {ι : Type} {i : Option ι} {σ : Local Row Empty}

/-- Nothing is pending, the row carries what it was inserted with, a task that the call has
finished is finished, and `I` holds of the call's own commits. -/
structure Holds (sub : Submission) (id : Int) (I : List (Change Row) → Prop) (σ : Local Row Empty) : Prop where
  clean : σ.pend = clean
  carried : Carried sub id σ.db
  raised : Raised (finished id) σ.own → finished id σ.db = true
  own : I σ.own

variable {I : List (Change Row) → Prop}

theorem Holds.moves (h : Holds sub id I σ) (hd : (mjProto sub id ι).Moves σ d) : Holds sub id I (σ.on d) :=
  ⟨h.clean, hd.rely.carried h.carried, fun hr => hd.rely.stays (h.raised hr), h.own⟩

theorem Holds.mono {I J : List (Change Row) → Prop} (h : Holds sub id I σ) (hIJ : ∀ own, I own → J own) :
    Holds sub id J σ :=
  ⟨h.clean, h.carried, h.raised, hIJ _ h.own⟩

/-- The call runs on from `σ`, and if it returns, then with `I` of its own commits. -/
abbrev Returns (sub : Submission) (id : Int) (ι : Type) (i : Option ι) {α : Type} (x : SQL α)
    (I : α → List (Change Row) → Prop) (σ : Local Row Empty) : Prop :=
  wp (mjProto sub id ι) i x (fun a σ' => Holds sub id (I a) σ') σ

theorem stable_holds (I : α → List (Change Row) → Prop) : (mjProto sub id ι).Stable fun a σ => Holds sub id (I a) σ :=
  fun _ _ _ h hd => h.moves hd

theorem wp_done {a : α} {I : α → List (Change Row) → Prop} (h : Holds sub id (I a) σ) :
    Returns sub id ι i (pure a) I σ :=
  wp_pure (stable_holds I) h

/-- A property of the own commits that a commit about other things cannot break. -/
def Quiet (id : Int) (I : List (Change Row) → Prop) : Prop := ∀ d d' own, Away id d d' → I own → I ((d, d') :: own)

theorem Holds.commit {I J : List (Change Row) → Prop} (h : Holds sub id I σ) (hd : (mjProto sub id ι).Moves σ d)
    (he : Effect sub id i σ.own d d') (hJ : J ((d, d') :: σ.own)) :
    Holds sub id J { σ with db := d', own := (d, d') :: σ.own } := by
  have hmoved := h.moves hd
  refine ⟨h.clean, he.carried hmoved.carried, ?_, hJ⟩
  rintro ⟨c, hc, hraises⟩
  rcases mem_cons.mp hc with rfl | hc
  · exact (Bool.and_eq_true_iff.mp hraises).2
  · exact he.settles.stays (hmoved.raised ⟨c, hc, hraises⟩)

/-- The rule for one UPDATE or INSERT: what it does where it matches, from the commit's
database, whose row `k` is the one the statement has found. -/
theorem wp_write {J : Option Bool → List (Change Row) → Prop} {f : Row k → Option (Row k)}
    (h : Holds sub id I σ) (hI : Quiet id I) (hwrite : ∀ d v, Holds sub id I (σ.on d) →
      leavesFinished id k f (d k) = true → f (d k) = some v →
      Effect sub id i σ.own d (update d k v) ∧ J (some true) ((d, update d k v) :: σ.own))
    (hskip : ∀ own, I own → J (some false) own) (hfail : ∀ own, I own → J none own) :
    Returns sub id ι i (autocommit k f) J σ := by
  refine wp_autocommit (stable_holds J) h.clean nofun (fun d v hd hg hf => ?_)
    (fun d d' hd _ hd' => ?_) (fun d hd => (h.moves hd).mono hfail)
  · obtain ⟨heffect, hJ⟩ := hwrite d v (h.moves hd) (of_decide_eq_true hg rfl) hf
    exact ⟨heffect, h.commit hd heffect hJ⟩
  · have hmoves := hd.trans hd'
    have heffect : Effect sub id i σ.own d' d' := (Away.refl d').effect
    exact ⟨heffect, h.commit hmoves heffect (hskip _ (hI _ _ _ (.refl d') h.own))⟩

theorem wp_away {f : Row k → Option (Row k)} (htask : k ≠ .task id) (hledger : k ≠ .ledger id) (h : Holds sub id I σ)
    (hI : Quiet id I) : Returns sub id ι i (autocommit k f) (fun _ => I) σ := by
  refine wp_write h hI (fun d v _ _ _ => ?_) (fun _ h => h) (fun _ h => h)
  have haway : Away id d (update d k v) := .update v htask hledger
  exact ⟨haway.effect, hI _ _ _ haway h.own⟩

theorem update_finished (t : Midjourney) :
    finished id (update d (.task id) (some t)) = decide (t.progress = "100%") := by
  simp [finished]

theorem update_refunds (v : Option Midjourney) : refundsOf id (update d (.task id) v) = refundsOf id d := by
  simp [refundsOf]

/-- A write of a row that is not finished, by a call that may write it. -/
theorem Effect.of_task (hopen : finished id d = false) (ht : Own sub t) (hi : i ≠ none → (d (.task id)).isSome) :
    Effect sub id i own d (update d (.task id) (some t)) where
  stays h := by rw [hopen] at h; cases h
  carried _ t' ht' := by
    rw [update_self] at ht'
    cases ht'
    exact ht
  alone h := by simp [present, chargedTo, hi h]
  refund h := absurd (update_refunds _) h

/-- Where the call has not finished the task, it has not refunded it; where it has finished
it as FAILURE, it has refunded it, there was nothing to refund, or the refund was refused. -/
structure Accounted (sub : Submission) (id : Int) (refused : List Int) (own : List (Change Row)) : Prop where
  owner : ¬ Untouched (refundsOf id) own → Raised (finished id) own
  paid : ∀ c ∈ own, raises (finished id) c = true → failedIn id c.2 = true →
    sub.price = .ok 0 ∨ ¬ Untouched (refundsOf id) own ∨ id ∈ refused

theorem Accounted.mono {refused' : List Int} (h : Accounted sub id refused own)
    (hsub : id ∈ refused → id ∈ refused') : Accounted sub id refused' own :=
  ⟨h.owner, fun c hc hr hf => (h.paid c hc hr hf).imp_right (.imp_right hsub)⟩

theorem Away.not_raises (h : Away id d d') : raises (MjProxy.finished id) (d, d') = false := by
  simp [raises, h.finished]

theorem quiet_accounted (refused : List Int) : Quiet id (Accounted sub id refused) := by
  intro d d' own haway h
  have hback : ¬ Untouched (refundsOf id) ((d, d') :: own) → ¬ Untouched (refundsOf id) own :=
    fun hne hun => hne (hun.cons haway.refunds)
  refine ⟨fun hne => (h.owner (hback hne)).cons _, fun c hc hr hf => ?_⟩
  rcases mem_cons.mp hc with rfl | hc
  · rw [haway.not_raises] at hr
    cases hr
  · exact (h.paid c hc hr hf).imp_right (.imp_left fun hne hun => hne hun.of_cons)

/-! A round. -/

/-- The call has just written the row and has refunded nothing; the row that it has left as a
finished FAILURE is one whose report says so. -/
structure Won (id : Int) (item : MidjourneyDto) (own : List (Change Row)) : Prop where
  untouched : Untouched (refundsOf id) own
  raised : item.failed = true → Raised (finished id) own
  failed : ∀ c ∈ own, raises (finished id) c = true → failedIn id c.2 = true → item.failed = true

/-- The UPDATE under the condition on the status: it finds the task open. -/
theorem wp_cas {item : MidjourneyDto} (ht : Own sub t) (h : Holds sub id (Accounted sub id refused) σ) :
    Returns sub id ι i (updateWithStatus id t.status (item.apply t))
      (fun r => fun own => if r = some true then Won id item own else Accounted sub id refused own) σ := by
  refine wp_write h (quiet_accounted refused) (fun d v hd hleaves hf => ?_) (fun _ h => h) (fun _ h => h)
  cases hrow : d (.task id) with
  | none =>
    rw [hrow] at hf
    cases hf
  | some stored =>
    rw [hrow] at hf hleaves
    have hv : v = some (item.apply t) := by
      simp only [casTask] at hf
      split_ifs at hf
      exact (Option.some.inj hf).symm
    have hopen : finished id d = false := by
      have hne : stored.progress ≠ "100%" := by
        intro hend
        have := of_decide_eq_true hleaves rfl hend
        rw [hf] at this
        cases this
      simp [finished, hrow, hne]
    -- the call has not finished the task before, so it has not refunded it
    have hfirst : ¬ Raised (finished id) σ.own := by
      intro hraised
      have := hd.raised hraised
      rw [show (σ.on d).db = d from rfl, hopen] at this
      cases this
    have huntouched : Untouched (refundsOf id) σ.own := not_not.mp fun hne => hfirst (hd.own.owner hne)
    subst hv
    refine ⟨Effect.of_task hopen (ht.apply item) (fun _ => by simp [hrow]), ?_⟩
    refine ⟨huntouched.cons (update_refunds _), fun hfailed => ?_, fun c hc hr hf' => ?_⟩
    · refine ⟨_, mem_cons_self, ?_⟩
      simp [raises, hopen, update_finished, MidjourneyDto.apply, hfailed]
    rcases mem_cons.mp hc with rfl | hc
    · have hend : (item.apply t).progress = "100%" := by
        simpa [raises, hopen, update_finished] using hr
      exact failed_of_apply hend (by simpa [failedIn] using hf')
    · exact absurd ⟨c, hc, hr⟩ hfirst

/-- The refund, by the call that has finished the task. -/
theorem wp_refund (refused : List Int) (ht : Own sub t)
    (h : Holds sub id (fun own => Raised (finished id) own ∧ Untouched (refundsOf id) own) σ) :
    Returns sub id ι i (increaseUserQuota id t.userId t.quota)
      (fun r => Accounted sub id (if r then refused else id :: refused)) σ := by
  have hrefused : ∀ own, Raised (finished id) own ∧ Untouched (refundsOf id) own →
      Accounted sub id (id :: refused) own :=
    fun own ⟨hraised, _⟩ => ⟨fun _ => hraised, fun _ _ _ _ => .inr (.inr mem_cons_self)⟩
  have hquiet : Quiet id fun own => Raised (finished id) own ∧ Untouched (refundsOf id) own :=
    fun d d' own haway ⟨hraised, huntouched⟩ => ⟨hraised.cons _, huntouched.cons haway.refunds⟩
  unfold increaseUserQuota
  split
  · exact wp_done (h.mono hrefused)
  refine wp_then (wp_write (J := fun r => Accounted sub id (if r = some true then refused else id :: refused))
    h hquiet (fun d v hd _ hf => ?_) hrefused hrefused) fun r σ' h' => ?_
  · obtain ⟨hraised, huntouched⟩ := h.own
    cases hf
    have hafter : refundsOf id (update d (.ledger id) (d (.ledger id) ++ [.refund (.user t.userId) t.quota])) =
        refundsOf id d ++ [.refund (.user sub.userId) t.quota] := by
      simp [refundsOf, refunds_append, Entry.isRefund, ht.userId]
    refine ⟨⟨fun _ => by simp, fun hc t' ht' => hc t' (by simpa using ht'), fun _ => ?_, fun _ =>
      ⟨⟨hraised, huntouched⟩, t.quota, ht.price, hafter⟩⟩, ?_⟩
    · simp [present, chargedTo, charged_append, Entry.charged]
    · refine ⟨fun _ => hraised.cons _, fun _ _ _ _ => .inr (.inl fun hun => ?_)⟩
      have := hun _ mem_cons_self
      rw [hafter] at this
      simp at this
  · refine wp_done ?_
    simpa using h'

theorem wp_updateTask_away {c : Loaded} (item : MidjourneyDto) (hid : c.1 ≠ id) (h : Holds sub id I σ)
    (hI : Quiet id I) : Returns sub id ι i (updateTask c item) (fun _ => I) σ := by
  refine wp_then (wp_away (by simpa using hid) (by simp) h hI) fun won σ1 h1 => ?_
  split
  · refine wp_then ?_ fun _ _ h2 => wp_done h2
    unfold increaseUserQuota
    split
    · exact wp_done h1
    · exact wp_then (wp_away (by simp) (by simpa using hid) h1 hI) fun _ _ h2 => wp_done h2
  · exact wp_done h1

theorem wp_updateTask (item : MidjourneyDto) (ht : Own sub t) (h : Holds sub id (Accounted sub id refused) σ) :
    Returns sub id ι i (updateTask (id, t) item)
      (fun r => Accounted sub id (if r then id :: refused else refused)) σ := by
  refine wp_then (wp_cas ht h) fun won σ1 h1 => ?_
  split
  · rename_i hreturn
    obtain ⟨rfl, hfailed, -⟩ := hreturn
    have hwon : Holds sub id (fun own => Raised (finished id) own ∧ Untouched (refundsOf id) own) σ1 :=
      h1.mono fun own hown => ⟨hown.raised hfailed, hown.untouched⟩
    refine wp_then (wp_refund refused ht hwon) fun r σ2 h2 => ?_
    refine wp_done ?_
    cases r <;> exact h2
  · rename_i hkeep
    refine wp_done (h1.mono fun own hown => ?_)
    by_cases hwon : won = some true
    · -- won and not refunded: the report is no failure, or the price was 0
      simp only [if_pos hwon] at hown
      refine ⟨fun hne => absurd hown.untouched hne, fun c hc hr hf => .inl ?_⟩
      have hfree : t.quota = 0 := not_not.mp fun hq => hkeep ⟨hwon, hown.failed c hc hr hf, hq⟩
      rw [ht.price, hfree]
    · simp only [if_neg hwon] at hown
      exact hown

/-- The tasks in memory carry what their rows were inserted with. -/
def MapOwn (sub : Submission) (id : Int) (m : TaskM) : Prop := ∀ u c, m u = some c → c.1 = id → Own sub c.2

def Polled (sub : Submission) (id : Int) (p : Poll) (own : List (Change Row)) : Prop :=
  Accounted sub id p.refused own ∧ MapOwn sub id p.taskM

theorem wp_updateItem {p : Poll} {c : Loaded} (now : Int) (item : MidjourneyDto) (hc : p.taskM item.mjId = some c)
    (h : Holds sub id (Polled sub id p) σ) : Returns sub id ι i (updateItem now item c p) (Polled sub id) σ := by
  unfold updateItem
  extract_lets report
  split
  · exact wp_done h
  have hmap : ∀ item' : MidjourneyDto, MapOwn sub id (update p.taskM item'.mjId (some (c.1, item'.apply c.2))) := by
    intro item' u c' hu hid
    by_cases he : u = item'.mjId
    · subst he
      rw [update_self] at hu
      cases hu
      exact (h.own.2 _ _ hc hid).apply item'
    · rw [update_of_ne he] at hu
      exact h.own.2 u c' hu hid
  by_cases hid : c.1 = id
  · obtain ⟨id', t⟩ := c
    subst hid
    have haccount : Holds sub id' (Accounted sub id' p.refused) σ := h.mono fun _ hown => hown.1
    refine wp_then (wp_updateTask _ (h.own.2 _ _ hc rfl) haccount) fun r σ' h' => ?_
    exact wp_done (h'.mono fun own hown => ⟨hown, hmap _⟩)
  · have hquiet : Quiet id (Polled sub id p) := fun d d' own haway h => ⟨quiet_accounted _ d d' own haway h.1, h.2⟩
    refine wp_then (wp_updateTask_away _ hid h hquiet) fun r σ' h' => ?_
    refine wp_done (h'.mono fun own hown => ⟨hown.1.mono fun hin => ?_, hmap _⟩)
    split
    · exact mem_cons_of_mem _ hin
    · exact hin

theorem wp_updateItems : ∀ {reports : List Report} {p : Poll} {σ : Local Row Empty}, Holds sub id (Polled sub id p) σ →
    Returns sub id ι i (updateItems reports p) (Polled sub id) σ
  | [], p, σ, h => wp_done h
  | report :: rest, p, σ, h => by
    unfold updateItems
    cases hc : p.taskM report.item.mjId with
    | none => exact wp_done (h.mono fun _ hown => hown)
    | some c =>
      refine wp_then (wp_updateItem report.now report.item hc h) fun p' σ' h' => ?_
      exact wp_updateItems h'

/-- Inside a transaction about other rows. -/
structure Elsewhere (sub : Submission) (id : Int) (I : List (Change Row) → Prop) (σ : Local Row Empty) : Prop where
  task : σ.pend (.task id) = none
  ledger : σ.pend (.ledger id) = none
  dropped : Holds sub id I σ.drop

theorem Elsewhere.away (h : Elsewhere sub id I σ) : Away id σ.db σ.view :=
  ⟨view_off h.task _, view_off h.ledger _⟩

theorem writes_updateRows {f : Midjourney → Option Midjourney} : ∀ {ids : List Int}, id ∉ ids →
    (updateRows f ids).Writes fun k => k ≠ .task id ∧ k ≠ .ledger id
  | [], _ => trivial
  | id' :: rest, hid => by
    rw [mem_cons, not_or] at hid
    obtain ⟨hne, hrest⟩ := hid
    refine writes_bind (fun r => ?_) (writes_update ⟨by simpa using Ne.symm hne, by simp⟩)
    cases r with
    | none => trivial
    | some _ => exact writes_updateRows hrest

theorem wp_bulk_away {f : Midjourney → Option Midjourney} (hid : id ∉ ids) (h : Holds sub id I σ) (hI : Quiet id I) :
    Returns sub id ι i (transaction () (updateRows f ids)) (fun _ => I) σ := by
  refine wp_transaction (stable_holds fun _ => I) ?_
  have hstart : Elsewhere sub id I σ := by
    refine ⟨by rw [h.clean]; rfl, by rw [h.clean]; rfl, ⟨rfl, h.carried, h.raised, h.own⟩⟩
  refine wp_mono (fun r σ' h' => ?_) (wp_writes nofun ?_ ?_
    (writes_updateRows hid) hstart)
  · cases r with
    | error _ => exact h'.dropped
    | ok _ =>
      have heffect : Effect sub id i σ'.own σ'.db σ'.view := h'.away.effect
      have hmoves : (mjProto sub id ι).Moves σ'.drop σ'.db := .refl _
      exact ⟨heffect, h'.dropped.commit hmoves heffect (hI _ _ _ h'.away h'.dropped.own), h'.dropped⟩
  · intro σ' d h' hd
    have hdrop : (mjProto sub id ι).Moves σ'.drop d := ⟨hd.rely, by simp [Local.drop, clean], fun l => l.elim⟩
    exact ⟨h'.task, h'.ledger, h'.dropped.moves hdrop⟩
  · intro σ' k v hk h'
    refine ⟨?_, ?_, h'.dropped⟩
    · exact (update_of_ne hk.1.symm ..).trans h'.task
    · exact (update_of_ne hk.2.symm ..).trans h'.ledger

theorem wp_fixNullTasks {tasks : List Loaded} (hid : id ∉ tasks.map (·.1)) (h : Holds sub id I σ) (hI : Quiet id I) :
    Returns sub id ι i (fixNullTasks tasks) (fun _ => I) σ := by
  unfold fixNullTasks
  split
  · exact wp_done h
  · refine wp_then (wp_bulk_away hid h hI) ?_
    exact fun _ σ' h' => wp_done h'

/-- What a round has done when it returns. -/
def RoundDone (sub : Submission) (id : Int) (res : Result) (own : List (Change Row)) : Prop :=
  ∃ refused, res = .polled refused ∧ Accounted sub id refused own

section
variable {ids : List Int} {r : Round} (hchannels : ∀ channelId, r.channel channelId = true)
include hchannels

theorem wp_updateChannels {live : List Loaded} : ∀ {keys : List Int} {p : Poll} {σ : Local Row Empty},
    Holds sub id (Polled sub id p) σ →
    Returns sub id ι i (updateChannels ids r live keys p) (Polled sub id) σ
  | [], p, σ, h => wp_done h
  | channelId :: rest, p, σ, h => by
    have hchannel : Returns sub id ι i (updateChannel ids r channelId (ofChannel live channelId) p)
        (Polled sub id) σ := by
      unfold updateChannel
      rw [if_pos (hchannels channelId)]
      split
      · exact wp_done (h.mono fun _ hown => hown)
      split
      · exact wp_done h
      · exact wp_updateItems h
    refine wp_then hchannel fun p' σ' h' => ?_
    split
    · exact wp_done h'
    · exact wp_updateChannels h'

theorem wp_round (h : Holds sub id (fun own => own = []) σ) :
    Returns sub id ι i (updateMidjourneyTaskBulk ids r) (RoundDone sub id) σ := by
  have hnew : ∀ own : List (Change Row), own = [] → Accounted sub id [] own := by
    rintro _ rfl
    exact ⟨fun hne => absurd nofun hne, nofun⟩
  refine wp_select (fun d hd => ?_) (fun d hd => ?_)
  · have hmoved := h.moves hd
    -- the tasks in memory are the rows
    have htasks : ∀ c ∈ getAllUnFinishTasks ids r (σ.on d).view, c.1 = id → Own sub c.2 := by
      intro c hc hid
      rw [Local.view_on_clean h.clean] at hc
      obtain ⟨id', -, hmap⟩ := mem_filterMap.mp (mem_filter.mp hc).1
      obtain ⟨t, ht, rfl⟩ := Option.map_eq_some_iff.mp hmap
      cases hid
      exact hmoved.carried t ht
    refine wp_then (Q := fun p => Holds sub id (Polled sub id p)) ?_ fun p σ' h' => ?_
    · have hnull : id ∉ ((getAllUnFinishTasks ids r (σ.on d).view).filter (·.2.mjId = "")).map (·.1) := by
        intro hin
        obtain ⟨c, hc, hid⟩ := mem_map.mp hin
        obtain ⟨hc, hempty⟩ := mem_filter.mp hc
        exact (htasks c hc hid).mjId (of_decide_eq_true hempty)
      refine wp_then (Q := fun _ => Holds sub id (Accounted sub id [])) ?_ fun _ σ' h' => ?_
      · exact wp_fixNullTasks hnull (hmoved.mono hnew) (quiet_accounted [])
      · refine wp_updateChannels hchannels (h'.mono fun own hown => ⟨hown, fun u c hu hid => ?_⟩)
        have hin := (mem_filter.mp (mem_of_getLast? hu)).1
        exact htasks c (mem_filter.mp hin).1 hid
    · exact wp_done (h'.mono fun own hown => ⟨p.refused, rfl, hown.1⟩)
  · exact wp_done ((h.moves hd).mono fun own hown => ⟨[], rfl, hnew own hown⟩)

end

/-! The submission. -/

/-- The call has not finished the task as FAILURE, and has charged `v`. -/
structure Charging (id : Int) (v : Account → Int) (own : List (Change Row)) : Prop where
  failed : ∀ c ∈ own, raises (finished id) c = true → failedIn id c.2 = false
  charged : ∀ a, added (chargedTo id a) own = v a

theorem charging_nil : Charging id (fun _ => 0) [] := ⟨fun _ hc => absurd hc not_mem_nil, fun _ => rfl⟩

theorem quiet_charging (v : Account → Int) : Quiet id (Charging id v) := by
  intro d d' own haway h
  refine ⟨forall_mem_cons.mpr ⟨fun hr => ?_, h.failed⟩, fun a => ?_⟩
  · rw [haway.not_raises] at hr
    cases hr
  · rw [added_cons, h.charged a]
    simp [chargedTo, haway.ledger]

theorem wp_charge {v : Account → Int} (a : Account) (n : Int) (h : Holds sub id (Charging id v) σ) :
    Returns sub id ι none (move id (.charge a n))
      (fun r => Charging id fun a' => if r = true ∧ a = a' then v a' + n else v a') σ := by
  refine wp_then (wp_write (J := fun r => Charging id fun a' => if r = some true ∧ a = a' then v a' + n else v a')
    h (quiet_charging v) (fun d row hd _ hf => ?_) (fun _ hown => by simpa using hown)
      (fun _ hown => by simpa using hown))
    fun r σ' h' => ?_
  · cases hf
    have hrefunds : refundsOf id (update d (.ledger id) (d (.ledger id) ++ [.charge a n])) = refundsOf id d := by
      simp [refundsOf, refunds_append, Entry.isRefund]
    refine ⟨⟨fun _ => by simp, fun hc t' ht' => hc t' (by simpa using ht'), fun hne => absurd rfl hne,
      fun hne => absurd hrefunds hne⟩, forall_mem_cons.mpr ⟨fun hr => ?_, h.own.failed⟩, fun a' => ?_⟩
    · simp [raises, finished] at hr
    · rw [added_cons, h.own.charged a']
      by_cases ha : a = a'
      · simp [chargedTo, charged_append, Entry.charged, ha]
        omega
      · simp [chargedTo, charged_append, Entry.charged, ha]
  · refine wp_done ?_
    simpa using h'

/-- What the submission has done when it has charged: the price to the user, or nothing. -/
def Submitted (sub : Submission) (id : Int) (charge : Option Bool) (own : List (Change Row)) : Prop :=
  (∀ c ∈ own, raises (finished id) c = true → failedIn id c.2 = false) ∧
    (charge = some false ∨ ∃ quota, sub.price = .ok quota ∧
      ∀ a, added (chargedTo id a) own = if .user sub.userId = a then quota else 0)

theorem Charging.submitted {v : Account → Int} {charge : Option Bool} (h : Charging id v own)
    (hprice : sub.price = .ok quota)
    (hv : charge ≠ some false → ∀ a, v a = if .user sub.userId = a then quota else 0) :
      Submitted sub id charge own := by
  refine ⟨h.failed, ?_⟩
  by_cases hc : charge = some false
  · exact .inl hc
  · exact .inr ⟨quota, hprice, fun a => (h.charged a).trans (hv hc a)⟩

theorem wp_deferredCharge {consumeQuota : Bool} {statusCode : Int} (hprice : sub.price = .ok quota)
    (hcharged : quota = 0 ∨ (consumeQuota = true ∧ statusCode = 200)) (htoken : sub.isPlayground = true ∨ quota = 0)
    (h : Holds sub id (Charging id fun _ => 0) σ) :
    Returns sub id ι none (deferredCharge sub id consumeQuota statusCode quota)
      (Submitted sub id) σ := by
  unfold deferredCharge
  split
  · refine wp_then ?_ fun ok _ h' => wp_done h'
    refine wp_then (wp_charge _ _ h) fun ok σ1 h1 => ?_
    split
    · refine wp_done (h1.mono fun own hown => ?_)
      exact hown.submitted hprice fun hne => absurd rfl hne
    rename_i hok
    have hok : ok = true := not_not.mp hok
    subst hok
    split
    · refine wp_done (h1.mono fun own hown => ?_)
      exact hown.submitted hprice fun _ a => by simp
    -- with a token, the price is 0
    rename_i hplay
    have hfree : quota = 0 := htoken.resolve_left hplay
    subst hfree
    refine wp_mono (fun ok σ' h' => ?_) (wp_charge (.token sub.tokenId) 0 h1)
    exact h'.mono fun own hown => hown.submitted hprice fun _ a => by simp
  · rename_i hnone
    have hfree : quota = 0 := hcharged.resolve_right hnone
    subst hfree
    exact wp_done (h.mono fun own hown => hown.submitted hprice fun _ a => by simp)

/-- The INSERT. A row that it makes finished is a success. -/
theorem wp_insert (ht : Own sub t) (hend : t.progress = "100%" → t.status = .success)
    (h : Holds sub id (fun own => own = []) σ) :
    Returns sub id ι none (insert id t) (fun _ => Charging id fun _ => 0) σ := by
  have hstart : Holds sub id (Charging id fun _ => 0) σ := h.mono fun own hown => hown ▸ charging_nil
  refine wp_then (wp_write hstart
    (quiet_charging _) (fun d v _ _ hf => ?_) (fun _ hown => hown) (fun _ hown => hown))
    fun _ σ' h' => wp_done h'
  cases hrow : d (.task id) with
  | some stored =>
    rw [hrow] at hf
    cases hf
  | none =>
    rw [hrow] at hf
    cases hf
    have hopen : finished id d = false := by simp [finished, hrow]
    refine ⟨Effect.of_task hopen ht (fun hne => absurd rfl hne), forall_mem_cons.mpr ⟨fun hr => ?_, hstart.own.failed⟩,
      fun a => ?_⟩
    · have hdone : t.progress = "100%" := by simpa [raises, hopen, update_finished] using hr
      simp [failedIn, hend hdone]
    · rw [added_cons, hstart.own.charged a]
      simp [chargedTo]

theorem own_task (hprice : sub.price = .ok quota)
    (hnamed : response.result ≠ "") : Own sub (sub.task p quota response) := by
  have existing : ∀ t : Midjourney, Own sub t → Own sub (sub.existing t response).1 := by
    intro t ht
    unfold Submission.existing
    split
    · split <;> exact ⟨ht.userId, ht.price, ht.mjId⟩
    · exact ht
  have hold := existing (sub.blank p quota response) ⟨rfl, hprice, hnamed⟩
  simp only [Submission.task]
  split
  · exact ⟨hold.userId, hold.price, hold.mjId⟩
  · exact hold

def SubmissionDone (sub : Submission) (id : Int) : Result → List (Change Row) → Prop
  | .rejected _, own => own = []
  | .submitted _ charge, own => Submitted sub id charge own
  | .polled _, _ => False

section
variable {ids : List Int} {host : Host} {rounds : ι → Round} (hin : Refundable host sub rounds)
include hin

theorem wp_record {quota statusCode : Int} (haction : sub.action host = .ok p.action) (hprice : sub.price = .ok quota)
    (hhttp : sub.http = .ok (statusCode, response)) (h : Holds sub id (fun own => own = []) σ) :
    Returns sub id ι none (record host sub id p quota statusCode response)
      (SubmissionDone sub id) σ := by
  have hcharged := hin.charged _ _ _ _ haction hprice hhttp
  have htoken : sub.isPlayground = true ∨ quota = 0 := by
    refine hin.noToken.imp_right fun hfree => ?_
    rw [hprice] at hfree
    exact Except.ok.inj hfree
  have hstart : Holds sub id (Charging id fun _ => 0) σ := h.mono fun own hown => hown ▸ charging_nil
  unfold record
  split
  · -- code 3 is not an accepted one, so there is nothing to charge
    rename_i hthree
    have hfree : quota = 0 := by
      refine hcharged.resolve_right fun hpay => ?_
      rw [hthree.1] at hpay
      exact absurd hpay.2.1 (by decide)
    refine wp_then (wp_deferredCharge hprice (.inl hfree) htoken hstart) fun charge σ' h' => ?_
    exact wp_done h'
  · have hrow := own_task (p := p) hprice (hin.named _ _ hhttp)
    refine wp_then (wp_insert hrow task_finished h) fun inserted σ1 h1 => ?_
    refine wp_then (wp_deferredCharge hprice ?_ htoken h1) fun charge σ2 h2 => ?_
    · exact hcharged.imp_right fun hpay => ⟨decide_eq_true ⟨hpay.1, hpay.2.1⟩, hpay.2.2⟩
    · exact wp_done h2

theorem wp_priced (haction : sub.action host = .ok p.action) (h : Holds sub id (fun own => own = []) σ) :
    Returns sub id ι none (priced host sub id p) (SubmissionDone sub id) σ := by
  unfold priced
  split
  · exact wp_done h
  · exact wp_done h
  rename_i quota userQuota hprice _
  split
  · exact wp_done h
  · cases hhttp : sub.http with
    | error response => exact wp_done h
    | ok answer => exact wp_record hin haction hprice hhttp h

end

/-- Preparing the request writes nothing, and the action is the one the request says. -/
def PrepareDone (host : Host) (sub : Submission) (r : Except Response Prepared) (own : List (Change Row)) : Prop :=
  own = [] ∧ ∀ p, r = .ok p → sub.action host = .ok p.action

theorem wp_prepare {mode : RelayMode} {req : Request} (hreq : normalRequest host sub = .ok (mode, req))
    (h : Holds sub id (fun own => own = []) σ) :
    Returns sub id ι none (prepare ids host sub mode req)
      (PrepareDone host sub) σ := by
  have hdone : ∀ {r : Except Response Prepared} {σ' : Local Row Empty}, Holds sub id (fun own => own = []) σ' →
      (∀ p ∈ r.toOption, sub.action host = .ok p.action) → Returns sub id ι none (pure r) (PrepareDone host sub) σ' :=
    fun h' hr => wp_done (h'.mono fun own hown => ⟨hown, fun p hp => hr p (by rw [hp]; rfl)⟩)
  unfold prepare
  split
  · rename_i action hmode
    have haction : sub.action host = .ok action := by simp [Submission.action, hreq, hmode]
    split
    · exact hdone h nofun
    · exact hdone h (by simpa [Except.toOption] using haction)
  · rename_i hmode
    split_ifs with htask
    · unfold prepareChange
      split
      · exact hdone h nofun
      rename_i mjId action hchange
      have haction : sub.action host = .ok action := by
        simp [Submission.action, hreq, hmode, htask, hchange, Except.map]
      refine wp_select (fun d hd => ?_) (fun d hd => ?_)
      all_goals
        split
        · exact hdone (h.moves hd) nofun
        · exact hdone (h.moves hd) (by simpa [Except.toOption] using haction)
    · have haction : sub.action host = .ok req.action := by
        simp [Submission.action, hreq, hmode, not_not.mp htask]
      exact hdone h (by simpa [Except.toOption] using haction)

theorem wp_submit {rounds : ι → Round} (hin : Refundable host sub rounds) (h : Holds sub id (fun own => own = []) σ) :
    Returns sub id ι none (relayMidjourneySubmit ids host sub id)
      (SubmissionDone sub id) σ := by
  unfold relayMidjourneySubmit
  cases hreq : normalRequest host sub with
  | error e => exact wp_done h
  | ok request =>
    refine wp_then (wp_prepare hreq h) fun r σ' h' => ?_
    cases r with
    | error e => exact wp_done (h'.mono fun own hown => hown.1)
    | ok p => exact wp_priced hin (h'.own.2 p rfl) (h'.mono fun own hown => hown.1)

def Done (sub : Submission) (id : Int) : Option ι → Result → List (Change Row) → Prop
  | none => SubmissionDone sub id
  | some _ => RoundDone sub id

theorem wp_prog {rounds : ι → Round} (hin : Refundable host sub rounds) (hnew : d (.task id) = none) (i : Option ι) :
    Returns sub id ι i (prog ids host sub id rounds i) (Done sub id i)
      (Local.fresh d) := by
  have hstart : Holds sub id (fun own => own = []) (Local.fresh d) := by
    refine ⟨rfl, fun t ht => ?_, fun ⟨c, hc, _⟩ => absurd hc not_mem_nil, rfl⟩
    rw [show (Local.fresh d : Local Row Empty).db = d from rfl, hnew] at ht
    cases ht
  cases i with
  | none => exact wp_submit hin hstart
  | some i => exact wp_round (hin.channels i) hstart

/-! Every interleaving. -/

variable [DecidableEq ι] {d0 d : Tables} {hist : List (Commit (Option ι) Row)}

section
variable (hchain : Chain d0 hist d) (hkept : Kept (mjProto sub id ι) hist)
include hchain hkept

/-- The task is not refunded, or it is finished and refunded once, with its price. -/
theorem refunds_cases (hnone : refundsOf id d0 = []) :
    (refundsOf id d = [] ∧ ∀ c ∈ hist, refundsOf id c.after = refundsOf id c.before) ∨
    (finished id d = true ∧ ∃ quota, sub.price = .ok quota ∧ refundsOf id d = [.refund (.user sub.userId) quota]) := by
  rcases hkept.claimed_once (fun _ _ _ _ hg => Effect.claimed hg) hchain with
    ⟨hsame, hkeep⟩ | ⟨c, hc, hbefore, hafter, hmoved, hraised⟩
  · exact .inl ⟨hsame.trans hnone, hkeep⟩
  obtain ⟨own, hg⟩ := hkept.mem hc
  obtain ⟨-, quota, hprice, hrefund⟩ := Effect.refund hg hmoved
  obtain ⟨⟨b, a⟩, hmem, hraises⟩ := hraised
  obtain ⟨c', hc', -, rfl, rfl⟩ := mem_ownChanges.mp hmem
  have hup : finished id c'.after = true := (Bool.and_eq_true_iff.mp hraises).2
  have hstill := hkept.frozen (F := fun d => d (.task id)) (fun _ _ _ _ h => Effect.frozen h) hchain hc' hup
  refine .inr ⟨hstill.1, quota, hprice, ?_⟩
  rw [← hafter, hrefund, hbefore, hnone]
  rfl

/-- A task without a row has not been refunded, and one that is there is charged its price. -/
theorem charged_of_submission
    (hnew : d0 (.task id) = none) (hledger : d0 (.ledger id) = []) {res : Result}
    (hdone : SubmissionDone sub id res (ownChanges none hist)) (hcarried : res.carriedOut id) :
    (finished id d = false ∧ ∀ a, charged a (d (.ledger id)) = 0) ∨
    ∃ quota, sub.price = .ok quota ∧ ∀ a, charged a (d (.ledger id)) = if .user sub.userId = a then quota else 0 := by
  have hsum : ∀ a, charged a (d (.ledger id)) = added (chargedTo id a) (ownChanges none hist) := by
    intro a
    have hsole := hkept.sole (fun _ _ _ _ hg hi => (Effect.alone hg hi).2 a) hchain
    rw [show chargedTo id a d0 = 0 by simp [chargedTo, hledger, charged], Int.zero_add] at hsole
    exact hsole
  cases res with
  | rejected response =>
    rw [show ownChanges none hist = [] from hdone] at hsum
    have hsole := hkept.sole (fun _ _ _ _ hg hi => (Effect.alone hg hi).1) hchain
    rw [show ownChanges none hist = [] from hdone] at hsole
    refine .inl ⟨?_, hsum⟩
    cases hrow : d (.task id) with
    | none => simp [finished, hrow]
    | some t => simp [present, hnew, hrow] at hsole
  | submitted response charge =>
    obtain ⟨quota, hprice, hadded⟩ := hdone.2.resolve_left hcarried
    exact .inr ⟨quota, hprice, fun a => (hsum a).trans (hadded a)⟩
  | polled refused => exact hdone.elim

/-- A task that has ended as FAILURE was ended by a round, which has refunded it unless there
was nothing to refund or the refund was refused. -/
theorem refunded_of_failure
    (hnew : d0 (.task id) = none) {res : Result} (hdone : SubmissionDone sub id res (ownChanges none hist))
      (hrounds : ∀ i, (∃ c ∈ hist, c.call = some i) → ∃ refused, id ∉ refused ∧
      Accounted sub id refused (ownChanges (some i) hist)) (hrow : d (.task id) = some t)
    (hend : t.progress = "100%") (hfail : t.status = .failure) :
    sub.price = .ok 0 ∨ ∃ c ∈ hist, refundsOf id c.after ≠ refundsOf id c.before := by
  have hfinished : finished id d = true := by simp [finished, hrow, hend]
  obtain ⟨c, hc, hraises⟩ := (Chain.raised hchain hfinished).resolve_left (by simp [finished, hnew])
  have hup : finished id c.after = true := (Bool.and_eq_true_iff.mp hraises).2
  have hafter : c.after (.task id) = some t := by
    rw [← (hkept.frozen (F := fun d => d (.task id)) (fun _ _ _ _ h => Effect.frozen h) hchain hc hup).2]
    exact hrow
  have hfailed : failedIn id c.after = true := by simp [failedIn, hafter, hfail]
  have hmem : (c.before, c.after) ∈ ownChanges c.call hist := mem_ownChanges.mpr ⟨c, hc, rfl, rfl, rfl⟩
  cases hcall : c.call with
  | none =>
    -- the submission finishes a task as a success only
    rw [hcall] at hmem
    cases res with
    | rejected response =>
      rw [show ownChanges none hist = [] from hdone] at hmem
      cases hmem
    | submitted response charge =>
      have := hdone.1 _ hmem hraises
      rw [hfailed] at this
      cases this
    | polled refused => exact hdone.elim
  | some i =>
    rw [hcall] at hmem
    obtain ⟨refused, hnot, haccounted⟩ := hrounds i ⟨c, hc, hcall⟩
    refine (haccounted.paid _ hmem hraises hfailed).imp_right fun h => ?_
    have htouched := h.resolve_right hnot
    simp only [Untouched, not_forall] at htouched
    obtain ⟨⟨b, a⟩, hown, hne⟩ := htouched
    obtain ⟨c', hc', -, rfl, rfl⟩ := mem_ownChanges.mp hown
    exact ⟨c', hc', hne⟩

end

theorem refunded_eq {l r : List Entry} (h : refunds l = r) (a : Account) : refunded a l = refunded a r := by
  rw [← refunded_refunds, h]

end

/-- **A failed task gets its charge back, once.** In every run of a submission and any number
of rounds in which no UPDATE matches a finished task, there is at most one refund. Once the
submission has returned, and the database has carried out its charge, no account was given
back more than was taken from it; and where the rounds that have written something have
returned, and no refund was refused, a task that has ended as FAILURE has had its whole
charge returned to every account. -/
theorem failure_returns_charge (ids : List Int) (host : Host) (sub : Submission) (id : Int) {ι : Type} [DecidableEq ι]
    (rounds : ι → Round) (hin : Refundable host sub rounds) (d : Tables) (hnew : d (.task id) = none)
    (hledger : d (.ledger id) = []) (s : Sys (Option ι) Row Empty Result)
    (hs : Reach (endStays id) (start d (prog ids host sub id rounds)) s) :
    (refunds (s.db (.ledger id))).length ≤ 1 ∧
    ∀ res, s.prog none = .ret res → res.carriedOut id →
      (∀ a, refunded a (s.db (.ledger id)) ≤ charged a (s.db (.ledger id))) ∧
      ((∀ i, (∃ c ∈ s.hist, c.call = some i) → ∃ r, s.prog (some i) = .ret r ∧ r.carriedOut id) →
        ∀ t, s.db (.task id) = some t → t.progress = "100%" → t.status = .failure →
          ∀ a, refunded a (s.db (.ledger id)) = charged a (s.db (.ledger id))) := by
  have hgood := reach_sound (wp_prog hin hnew) hs
  have hcases := refunds_cases hgood.chain hgood.kept (by simp [refundsOf, hledger, refunds])
  refine ⟨?_, fun res hres hcarried => ?_⟩
  · rcases hcases with ⟨hnone, -⟩ | ⟨-, quota, -, hone⟩
    · simp [show refunds (s.db (.ledger id)) = [] from hnone]
    · simp [show refunds (s.db (.ledger id)) = [.refund (.user sub.userId) quota] from hone]
  have hdone : SubmissionDone sub id res (ownChanges none s.hist) :=
    (hgood.returned hres).own
  have hcharged := charged_of_submission hgood.chain hgood.kept hnew hledger hdone hcarried
  -- where it was refunded, it is finished, so it was charged its price
  have hpaid : ∀ quota, sub.price = .ok quota → finished id s.db = true →
      ∀ a, charged a (s.db (.ledger id)) = if .user sub.userId = a then quota else 0 := by
    intro quota hprice hfinished a
    rcases hcharged with ⟨hopen, -⟩ | ⟨quota', hprice', hall⟩
    · rw [hfinished] at hopen
      cases hopen
    · rw [hprice'] at hprice
      cases hprice
      exact hall a
  refine ⟨fun a => ?_, fun hrounds t hrow hend hfail a => ?_⟩
  · rcases hcases with ⟨hnone, -⟩ | ⟨hfinished, quota, hprice, hone⟩
    · rw [refunded_eq hnone a, show refunded a [] = 0 from rfl]
      rcases hcharged with ⟨-, hzero⟩ | ⟨quota, hprice, hall⟩
      · exact Int.le_of_eq (hzero a).symm
      · rw [hall a]
        have := hin.nonneg quota hprice
        split <;> omega
    · rw [refunded_eq hone a, hpaid quota hprice hfinished a]
      simp [refunded, Entry.refunded]
  · have hfinished : finished id s.db = true := by simp [finished, hrow, hend]
    have haccounted : ∀ i, (∃ c ∈ s.hist, c.call = some i) → ∃ refused, id ∉ refused ∧
        Accounted sub id refused (ownChanges (some i) s.hist) := by
      intro i hi
      obtain ⟨r, hr, hok⟩ := hrounds i hi
      obtain ⟨refused, rfl, haccounted⟩ := (hgood.returned hr).own
      exact ⟨refused, hok, haccounted⟩
    have hreturned := refunded_of_failure hgood.chain hgood.kept hnew hdone haccounted hrow hend hfail
    rcases hcases with ⟨hnone, huntouched⟩ | ⟨-, quota, hprice, hone⟩
    · have hfree : sub.price = .ok 0 := hreturned.resolve_right fun ⟨c, hc, hne⟩ => hne (huntouched c hc)
      rw [refunded_eq hnone a, hpaid 0 hfree hfinished a]
      simp [refunded]
    · rw [refunded_eq hone a, hpaid quota hprice hfinished a]
      simp [refunded, Entry.refunded]

def exampleHost : Host where
  coverPlusActionToNormalAction := .ok
  convertSimpleChangeParams _ := none
  mjActionCheckSuccessEnabled := false
  channel _ := some true

/-- User 7 asks for an image with token 5, for 100; it is accepted as task `m1`. -/
def exampleSubmission (isPlayground : Bool) : Submission where
  userId := 7
  tokenId := 5
  isPlayground := isPlayground
  channelId := 3
  relayMode := .imagine
  request := { prompt := "a cat", action := .other "", index := 0, taskId := "", content := "" }
  price := .ok 100
  userQuota := .ok 500
  http := .ok (200, { code := 1, description := "ok", result := "m1" })
  submitTime := 1800000000000
  startTime := 0
  finishTime := 0

def exampleRound : Round where
  channel _ := true
  baseURL _ := true
  answer _ _ := some [{ now := 1800000060000, item := {
    mjId := "m1", promptEn := "a cat", state := "", submitTime := 1800000000000, startTime := 1800000001000
    finishTime := 1800000050000, imageUrl := "", videoUrl := "", videoUrls := none, status := .failure
    progress := "100%", failReason := "banned prompt", buttons := none, properties := none } }]
  scan := id
  scan_perm := List.Perm.refl
  channels := id
  channels_perm := List.Perm.refl

def exampleTables : Tables
  | .task _ => none
  | .ledger _ => []

/-- Two processes hear of the failure at the same time: the user gets the 100 back once. -/
theorem charge_returned_once :
    ∃ s, Reach (endStays 1)
        (start exampleTables (prog [1] exampleHost (exampleSubmission true) 1 fun _ : Bool => exampleRound)) s ∧
      (s.prog (some true)).result = some (.polled []) ∧ (s.prog (some false)).result = some (.polled []) ∧
      s.db (.ledger 1) = [.charge (.user 7) 100, .refund (.user 7) 100] ∧
      ∀ a, refunded a (s.db (.ledger 1)) = charged a (s.db (.ledger 1)) := by
  obtain ⟨s, hs, hsub, hfirst, hsecond, hledger, hrow⟩ :
    ∃ s, Reach (endStays 1)
        (start exampleTables (prog [1] exampleHost (exampleSubmission true) 1 fun _ : Bool => exampleRound)) s ∧
      (s.prog none).result = some (.submitted none (some true)) ∧ (s.prog (some true)).result = some (.polled []) ∧
        (s.prog (some false)).result = some (.polled []) ∧
        s.db (.ledger 1) = [.charge (.user 7) 100, .refund (.user 7) 100] ∧
        (s.db (.task 1)).any (fun t => t.progress = "100%" ∧ t.status = .failure) :=
    exists_of_run
      (List.replicate 4 (none, true) ++
        [(some true, true), (some false, true), (some true, true), (some true, true), (some false, true),
          (some false, true), (some true, true), (some true, true)]) (by decide +kernel)
  obtain ⟨t, ht, hfailed⟩ := (Option.any_eq_true ..).mp hrow
  obtain ⟨hend, hfail⟩ := of_decide_eq_true hfailed
  have hin : Refundable exampleHost (exampleSubmission true) fun _ : Bool => exampleRound := by
    refine ⟨fun quota hq => ?_, fun action quota statusCode response ha _ hh => .inr ?_, .inl rfl,
      fun _ response hh => ?_,
      fun _ _ => rfl⟩
    · cases hq
      decide
    · cases ha
      cases hh
      decide
    · cases hh
      decide
  have hall := (failure_returns_charge [1] exampleHost (exampleSubmission true) 1 (fun _ => exampleRound) hin
    exampleTables rfl rfl s hs).2 _ (Prog.eq_ret_of_result hsub) (by simp [Result.carriedOut])
  refine ⟨s, hs, hfirst, hsecond, hledger, hall.2 (fun i _ => ?_) t ht hend hfail⟩
  cases i with
  | true => exact ⟨_, Prog.eq_ret_of_result hfirst, by simp [Result.carriedOut]⟩
  | false => exact ⟨_, Prog.eq_ret_of_result hsecond, by simp [Result.carriedOut]⟩

/-- With the token charged as well, the task ends as FAILURE and the token gets nothing back. -/
theorem token_charge_kept :
    ∃ s, Reach anyUpdate
        (start exampleTables (prog [1] exampleHost (exampleSubmission false) 1 fun _ : Unit => exampleRound)) s ∧
      (s.prog none).result = some (.submitted none (some true)) ∧ (s.prog (some ())).result = some (.polled []) ∧
      (s.db (.task 1)).any (fun t => t.progress = "100%" ∧ t.status = .failure) = true ∧
      charged (.token 5) (s.db (.ledger 1)) = 100 ∧ refunded (.token 5) (s.db (.ledger 1)) = 0 := by
  exact exists_of_run (List.replicate 6 (none, true) ++ List.replicate 5 (some (), true)) (by decide +kernel)

end AmuxApi.MjProxy
