import AmuxApi.ApiToken.Model
import AmuxApi.Txn.Once

/- Changes of the quota and edits of the status, interleaved statement by statement.

   A change of the quota is one UPDATE that moves an amount between the two columns. An edit
   reads the whole row and writes it back, the remaining quota with it, so a change in
   between is lost. Where the copy an edit writes back has the remaining quota that is stored
   (`currentCopy`), the remaining quota is what it was plus the increases less the decreases,
   and the sum of the two columns stays (`quota_conserved`). -/
namespace AmuxApi.ApiToken
open Txn Function

/-- An edit with `status_only`. -/
inductive Call
  | increase (id quota now : Int)
  | decrease (id quota now : Int)
  | edit (userId now : Int) (req : Request)

def Call.prog (host : Host) : Call → SQL (Except TokenError Unit)
  | .increase id quota now => increaseTokenQuota id quota now
  | .decrease id quota now => decreaseTokenQuota id quota now
  | .edit userId now req => updateToken host userId now true req

def Call.isEdit : Call → Bool
  | .edit _ _ _ => true
  | _ => false

/-- What a call is to add to the remaining quota of the token. -/
def Call.delta (id : Int) : Call → Int
  | .increase id' quota _ => if id' = id then quota else 0
  | .decrease id' quota _ => if id' = id then -quota else 0
  | .edit _ _ _ => 0

/-- A call that returns an error has done nothing. -/
def ifDone (n : Int) : Except TokenError Unit → Int
  | .ok _ => n
  | .error _ => 0

/-- An UPDATE that finds the token leaves the remaining quota as it finds it. -/
def keepsQuota (f : Option Token → Option (Option Token)) : Option Token → Bool
  | some t =>
    match f (some t) with
    | some (some t') => t'.remainQuota = t.remainQuota
    | _ => true
  | none => true

/-- The condition on runs: when an edit writes its copy of the token, the remaining quota is
still the one it has read. -/
def currentCopy (id : Int) {ι : Type} (calls : ι → Call) : Guard ι Row := fun i id' f v ok =>
  ok → id' = id → (calls i).isEdit → keepsQuota f v

/-! What a call does. -/

section
variable {id : Int}

def remain (id : Int) (d : Tables) : Int := (d id).elim 0 (·.remainQuota)

def total (id : Int) (d : Tables) : Int := (d id).elim 0 fun t => t.remainQuota + t.usedQuota

variable {d : Tables}

theorem remain_of_row {t : Token} (h : d id = some t) : remain id d = t.remainQuota := by
  simp [remain, h]

theorem total_of_row {t : Token} (h : d id = some t) : total id d = t.remainQuota + t.usedQuota := by
  simp [total, h]

/-- What a commit keeps: the token is there, and so is the sum of the two columns. -/
structure Effect (id : Int) (d d' : Tables) : Prop where
  present : (d id).isSome = true → (d' id).isSome = true
  total : total id d' = ApiToken.total id d

theorem Effect.of_row {d' : Tables} (h : d' id = d id) : Effect id d d' :=
  ⟨fun hd => h ▸ hd, by rw [ApiToken.total, h, ApiToken.total]⟩

variable {ι : Type} {calls : ι → Call} {i : ι} {σ : Local Row Empty}

def tokenProto (id : Int) (calls : ι → Call) : Proto ι Row Empty where
  rely := fun d d' => (d id).isSome = true → (d' id).isSome = true
  guar := fun _ _ => Effect id
  prot := fun l _ => l.elim
  guard := currentCopy id calls

instance tokenProto_sound (id : Int) (calls : ι → Call) : (tokenProto id calls).Sound where
  refl _ h := h
  trans _ _ _ h h' hd := h' (h hd)
  guar _ _ _ _ h := h.present

/-- Nothing is pending, the token is there, and the call's commits have added `n`. -/
structure Holds (id n : Int) (σ : Local Row Empty) : Prop where
  clean : σ.pend = clean
  present : (σ.db id).isSome = true
  own : added (remain id) σ.own = n

theorem Holds.moves {n : Int} (h : Holds id n σ) (hd : (tokenProto id calls).Moves σ d) : Holds id n (σ.on d) :=
  ⟨h.clean, hd.rely h.present, h.own⟩

theorem stable_holds {α : Type} (n : α → Int) : (tokenProto id calls).Stable fun a σ => Holds id (n a) σ :=
  fun _ _ _ h hd => h.moves hd

theorem wp_done {α : Type} {a : α} (n : α → Int) (h : Holds id (n a) σ) :
    wp (tokenProto id calls) i (pure a) (fun a σ' => Holds id (n a) σ') σ :=
  wp_pure (stable_holds n) h

theorem Holds.commit {n n' : Int} {d' : Tables} (h : Holds id n σ) (hd : (d id).isSome = true) (he : Effect id d d')
    (hn : remain id d' = remain id d + n') : Holds id (n + n') { σ with db := d', own := (d, d') :: σ.own } := by
  refine ⟨h.clean, he.present hd, ?_⟩
  have := h.own
  show remain id d' - remain id d + added (remain id) σ.own = n + n'
  omega

/-- An amount that an UPDATE moves from one column to the other. -/
structure Shifts (delta : Int) (t t' : Token) : Prop where
  remain : t'.remainQuota = t.remainQuota + delta
  used : t'.usedQuota = t.usedQuota - delta

theorem wp_runUpdate {id' delta : Int} {f : Token → Token}
    (hf : id' = id → ∀ t, currentCopy id calls i id' (setToken f) (some t) true = true → Shifts delta t (f t))
    (h : Holds id 0 σ) :
    wp (tokenProto id calls) i (runUpdate id' f)
      (fun r σ' => Holds id (ifDone (if id' = id then delta else 0) r) σ') σ := by
  -- what the UPDATE and its commit do, before the answer is turned into a result
  have hcommit : wp (tokenProto id calls) i (autocommit id' (setToken f))
      (fun r σ' => Holds id (if r ≠ none ∧ id' = id then delta else 0) σ') σ := by
    refine wp_autocommit (stable_holds _) h.clean nofun (fun d v hd hg hv => ?_) (fun d d' hd hv hd' => ?_)
      (fun d hd => by simpa using h.moves hd)
    · have hthere : (d id).isSome = true := hd.rely h.present
      by_cases hid : id' = id
      · subst hid
        obtain ⟨t, ht⟩ := Option.isSome_iff_exists.mp hthere
        rw [ht] at hg hv
        cases hv
        have hshift := hf rfl t hg
        have hnew : update d id' (some (f t)) id' = some (f t) := update_self ..
        have heffect : Effect id' d (update d id' (some (f t))) := by
          refine ⟨fun _ => by rw [hnew]; rfl, ?_⟩
          rw [total_of_row hnew, total_of_row ht, hshift.remain, hshift.used]
          omega
        refine ⟨heffect, ?_⟩
        have hremain : remain id' (update d id' (some (f t))) = remain id' d + delta := by
          rw [remain_of_row hnew, remain_of_row ht, hshift.remain]
        simpa using h.commit hthere heffect hremain
      · have hrow : update d id' v id = d id := update_of_ne (Ne.symm hid) ..
        have heffect : Effect id d (update d id' v) := .of_row hrow
        refine ⟨heffect, ?_⟩
        simpa [hid] using h.commit hthere heffect (by simp [remain, hrow])
    · have hthere : (d' id).isSome = true := hd'.rely (hd.rely h.present)
      have hother : id' ≠ id := by
        rintro rfl
        obtain ⟨t, ht⟩ := Option.isSome_iff_exists.mp (hd.rely h.present)
        rw [ht] at hv
        cases hv
      refine ⟨.of_row rfl, ?_⟩
      simpa [hother] using h.commit hthere (.of_row rfl) (by omega)
  refine wp_then hcommit fun r σ' h' => ?_
  cases r with
  | none => exact wp_done (ifDone _) (by simpa [ifDone] using h')
  | some _ => exact wp_done (ifDone (if id' = id then delta else 0)) (by simpa [ifDone] using h')

theorem wp_edit {host : Host} {userId now : Int} {req : Request} (hcall : (calls i).isEdit = true) (h : Holds id 0 σ) :
    wp (tokenProto id calls) i (updateToken host userId now true req) (fun r σ' => Holds id (ifDone 0 r) σ') σ := by
  have herror : ∀ {e : TokenError} {σ' : Local Row Empty}, Holds id 0 σ' →
      wp (tokenProto id calls) i (pure (.error e)) (fun r σ' => Holds id (ifDone 0 r) σ') σ' :=
    fun h' => wp_done (ifDone 0) h'
  unfold updateToken
  split
  · exact herror h
  have hread : wp (tokenProto id calls) i (getTokenByIds req.id userId) (fun _ σ' => Holds id 0 σ') σ := by
    unfold getTokenByIds
    split
    · exact wp_done (fun _ => 0) h
    refine wp_select (fun d hd => ?_) (fun d hd => ?_)
    · split <;> exact wp_done (fun _ => 0) (h.moves hd)
    · exact wp_done (fun _ => 0) (h.moves hd)
  refine wp_then hread fun found σ' h' => ?_
  cases found with
  | error e => exact herror h'
  | ok cleanToken =>
    dsimp only
    split
    · exact herror h'
    · exact herror h'
    rename_i edited _ _
    -- the copy is current, so its remaining quota is the stored one
    have hsame : req.id = id → ∀ t, currentCopy id calls i req.id (setToken edited.select) (some t) true = true →
        Shifts 0 t (edited.select t) := by
      intro hid t hg
      have hkeeps := of_decide_eq_true hg rfl hid hcall
      have hquota : edited.remainQuota = t.remainQuota := of_decide_eq_true hkeeps
      refine ⟨?_, ?_⟩
      · simpa [Token.select] using hquota
      · simp [Token.select]
    have hupdate := wp_runUpdate hsame h'
    simpa [Token.update] using hupdate

/-- A call that has returned has added what it is to add. -/
theorem wp_call (host : Host) (i : ι) (h : Holds id 0 σ) :
    wp (tokenProto id calls) i ((calls i).prog host) (fun r σ' => Holds id (ifDone ((calls i).delta id) r) σ') σ := by
  cases hcall : calls i with
  | increase id' quota now =>
    show wp _ _ (increaseTokenQuota id' quota now) _ _
    unfold increaseTokenQuota
    split
    · exact wp_done (ifDone _) h
    · exact wp_runUpdate (fun _ t _ => ⟨rfl, rfl⟩) h
  | decrease id' quota now =>
    show wp _ _ (decreaseTokenQuota id' quota now) _ _
    unfold decreaseTokenQuota
    split
    · exact wp_done (ifDone _) h
    refine wp_runUpdate (fun _ t _ => ⟨?_, ?_⟩) h
    · show t.remainQuota - quota = t.remainQuota + -quota
      omega
    · show t.usedQuota + quota = t.usedQuota - -quota
      omega
  | edit userId now req => exact wp_edit (by rw [hcall]; rfl) h

end

def exampleHost : Host where
  maxQuotaValue := 500000000000000
  resolveTokenMaxConcurrency := id
  getGroups _ := []
  setGroups _ := .ok ""
  normalizeGroupChainInput := id
  userGroup := .ok "default"
  validateGroupChain _ _ := .ok ()

/-- A token of user 7 with 100 left of 100. -/
def exampleToken : Token where
  userId := 7
  key := "a"
  status := .enabled
  name := "main"
  createdTime := 1800000000
  accessedTime := 1800000000
  expiredTime := -1
  remainQuota := 100
  unlimitedQuota := false
  modelLimitsEnabled := false
  modelLimits := ""
  allowIps := none
  usedQuota := 0
  group := "default"
  groupsJSON := ""
  crossGroupRetry := false
  maxConcurrency := 0

def exampleTables : Tables := fun id => if id = 5 then some exampleToken else none

def chargeAndDisable : Bool → Call
  | true => .decrease 5 30 1800000010
  | false =>
    .edit 7 1800000011
      { id := 5, token := { exampleToken with status := .disabled, remainQuota := 0 }, groups := none }

end AmuxApi.ApiToken
