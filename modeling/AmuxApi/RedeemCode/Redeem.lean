import AmuxApi.Txn.Once

/- Redemption codes: a user redeems a code, an administrator edits it.

   A code is claimed by an UPDATE whose WHERE asks for the status `enabled`, in the transaction
   that credits the user. An edit reads the row and writes it back, with the status among the
   columns.

   Correspondence (Go ↔ Lean):
     `model/redemption.go`: `Redeem`, `GetRedemptionById`, `Update` ↔ `redeem`, `getRedemptionById`, `Redemption.update`
     `controller/redemption.go`: `UpdateRedemption` ↔ `updateRedemption`
   The key of a code has a unique index and never changes: `index` is that index. The event that
   is published in the transaction, the log, and codes that are deleted are left out.

   Where an edit writes back the status that is stored (`currentStatus`), a code is credited
   once (`redeemed_once`); an edit that was read before a redemption and written after it makes
   the code good again (`edit_revives_code`). -/
namespace AmuxApi.RedeemCode
open Txn Function

inductive Status
  | enabled | disabled | used
  | other (code : Int)
  deriving DecidableEq, Repr

/-- A row of `redemptions`, less its id and its key. -/
structure Redemption where
  userId : Int
  status : Status
  name : String
  quota : Int
  createdTime : Int
  redeemedTime : Int
  usedUserId : Int
  expiredTime : Int
  deriving DecidableEq, Repr

inductive Key
  | redemption (id : Int)
  | user (id : Int)
  deriving DecidableEq, Repr

/-- Of a user, the quota. -/
abbrev Row : Key → Type
  | .redemption _ => Option Redemption
  | .user _ => Option Int

abbrev Tables := DB Row

abbrev SQL := Prog Row Empty

inductive Err
  | redeemFailed
  | expireTimeInvalid
  | database
  | message (text : String)
  deriving DecidableEq, Repr

/-! Redeeming. -/

section
variable (index : String → Option Int)

def findByKey (key : String) (d : Tables) : Option (Int × Redemption) :=
  (index key).bind fun id => (d (.redemption id)).map fun r => (id, r)

/-- `UPDATE .. WHERE id = ? AND status = enabled`. -/
def claim (userId redeemedTime : Int) : Option Redemption → Option (Option Redemption)
  | some r =>
    if r.status = .enabled then some (some { r with status := .used, redeemedTime, usedUserId := userId }) else none
  | none => none

def addQuota (quota : Int) : Option Int → Option (Option Int) := Option.map fun q => some (q + quota)

def credit (userId quota : Int) : SQL (Except Err Int) := do
  match ← update (.user userId) (addQuota quota) with
  | none => return .error .database
  | some _ => return .ok quota

/-- The code is claimed before the user is credited. -/
def claimAndCredit (id userId redeemedTime quota : Int) : SQL (Except Err Int) := do
  match ← update (.redemption id) (claim userId redeemedTime) with
  | none => return .error .database
  | some false => return .error (.message "该兑换码已被使用")
  | some true => credit userId quota

def redeemTx (key : String) (userId now redeemedTime : Int) : SQL (Except Err Int) := do
  match (← select).bind (findByKey index key) with
  | none => return .error (.message "无效的兑换码")
  | some (id, r) =>
    if r.status ≠ .enabled then return .error (.message "该兑换码已被使用")
    else if r.expiredTime ≠ 0 ∧ r.expiredTime < now then return .error (.message "该兑换码已过期")
    else claimAndCredit id userId redeemedTime r.quota

def redeem (key : String) (userId now redeemedTime : Int) : SQL (Except Err Int) :=
  if key = "" then return .error (.message "未提供兑换码")
  else if userId = 0 then return .error (.message "无效的 user id")
  else do
    match ← transaction .database (redeemTx index key userId now redeemedTime) with
    | .error _ => return .error .redeemFailed
    | .ok quota => return .ok quota

end

/-! Editing. -/

def getRedemptionById (id : Int) : SQL (Except Err Redemption) :=
  if id = 0 then return .error (.message "id 为空！")
  else do
    match (← select).bind (· (.redemption id)) with
    | none => return .error .database
    | some r => return .ok r

/-- The columns that `Update` selects, from `new`. -/
def Redemption.select (new stored : Redemption) : Redemption :=
  { stored with
    name := new.name, status := new.status, quota := new.quota
    redeemedTime := new.redeemedTime, expiredTime := new.expiredTime }

def setRedemption (f : Redemption → Redemption) : Option Redemption → Option (Option Redemption) :=
  Option.map fun r => some (f r)

def Redemption.update (id : Int) (r : Redemption) : SQL (Except Err Unit) := do
  match ← autocommit (.redemption id) (setRedemption r.select) with
  | none => return .error .database
  | some _ => return .ok ()

structure Request where
  id : Int
  name : String
  status : Status
  quota : Int
  expiredTime : Int

def editRedemption (req : Request) (statusOnly : Bool) (now : Int) (clean : Redemption) : Except Err Redemption :=
  if statusOnly then .ok { clean with status := req.status }
  else if req.expiredTime ≠ 0 ∧ req.expiredTime < now then .error .expireTimeInvalid
  else .ok { clean with name := req.name, quota := req.quota, expiredTime := req.expiredTime }

def updateRedemption (statusOnly : Bool) (now : Int) (req : Request) : SQL (Except Err Unit) := do
  match ← getRedemptionById req.id with
  | .error e => return .error e
  | .ok clean =>
    match editRedemption req statusOnly now clean with
    | .error e => return .error e
    | .ok edited => edited.update req.id

/-! Calls. -/

/-- An edit without `status_only`. -/
inductive Call
  | redeem (key : String) (userId now redeemedTime : Int)
  | edit (now : Int) (req : Request)

inductive Reply
  | credited (quota : Int)
  | edited
  deriving DecidableEq, Repr

def Call.prog (index : String → Option Int) : Call → SQL (Except Err Reply)
  | .redeem key userId now redeemedTime => do
    return (← RedeemCode.redeem index key userId now redeemedTime).map .credited
  | .edit now req => do return (← updateRedemption false now req).map fun _ => .edited

def Call.isEdit : Call → Bool
  | .edit _ _ => true
  | .redeem _ _ _ _ => false

/-- Whom a call credits for the code, if it does. -/
def Call.redeems (index : String → Option Int) (code : Int) : Call → Option Int
  | .redeem key userId _ _ => if index key = some code then some userId else none
  | .edit _ _ => none

/-- An UPDATE that finds the code leaves its status as it finds it. -/
def keepsStatus (f : Option Redemption → Option (Option Redemption)) : Option Redemption → Bool
  | some r =>
    match f (some r) with
    | some (some r') => r'.status = r.status
    | _ => true
  | none => true

/-- The condition on runs: when an edit writes its copy of the code, the status is still the one
it has read. -/
def currentStatus (code : Int) {ι : Type} (calls : ι → Call) : Guard ι Row := fun i k =>
  match k with
  | .redemption id => fun f v ok => ok → id = code → (calls i).isEdit → keepsStatus f v
  | .user _ => fun _ _ _ => true

/-! What a call does. -/

def used (code : Int) (d : Tables) : Bool := (d (.redemption code)).any (·.status = .used)

def balance (userId : Int) (d : Tables) : Int := (d (.user userId)).getD 0

/-- What a commit of a call does: a code that is used stays used, and whoever is credited for
it, the commit uses it up. -/
structure Effect (index : String → Option Int) (code : Int) (call : Call) (d d' : Tables) : Prop where
  stays : used code d = true → used code d' = true
  credit : ∀ userId, call.redeems index code = some userId → balance userId d' ≠ balance userId d →
    raises (used code) (d, d') = true

theorem Effect.of_row {index : String → Option Int} {code : Int} {call : Call} {d d' : Tables}
    (h : used code d' = used code d) (hnone : call.redeems index code = none) : Effect index code call d d' := by
  refine ⟨fun hd => h ▸ hd, fun userId huser => ?_⟩
  rw [hnone] at huser
  cases huser

section
variable {ι : Type} {index : String → Option Int} {code : Int} {calls : ι → Call} {i : ι} {σ : Local Row Empty}

def codeProto (index : String → Option Int) (code : Int) (calls : ι → Call) : Proto ι Row Empty where
  rely := fun d d' => used code d = true → used code d' = true
  guar := fun i _ => Effect index code (calls i)
  prot := fun l _ => l.elim
  guard := currentStatus code calls

instance codeProto_sound (index : String → Option Int) (code : Int) (calls : ι → Call) :
    (codeProto index code calls).Sound where
  refl _ h := h
  trans _ _ _ h h' hd := h' (h hd)
  guar _ _ _ _ h := h.stays

/-- The call holds the code, which it has found enabled and marked as used. -/
structure Holds (id : Int) (σ : Local Row Empty) : Prop where
  enabled : ∃ r, σ.db (.redemption id) = some r ∧ r.status = .enabled
  marked : ∃ r, σ.pend (.redemption id) = some (some r) ∧ r.status = .used
  others : ∀ id', id' ≠ id → σ.pend (.redemption id') = none

variable {id userId now redeemedTime : Int} {call : Call} {α : Type}

theorem Holds.moves {d : Tables} (h : Holds id σ) (hd : (codeProto index code calls).Moves σ d) :
    Holds id (σ.on d) := by
  obtain ⟨r, hr, -⟩ := h.marked
  have hrow : d (.redemption id) = σ.db (.redemption id) := hd.taken _ (by rw [hr]; rfl)
  refine ⟨?_, h.marked, h.others⟩
  show ∃ r, d (.redemption id) = some r ∧ r.status = .enabled
  rw [hrow]
  exact h.enabled

theorem Holds.raises (h : Holds id σ) : raises (used id) (σ.db, σ.view) = true := by
  obtain ⟨r, hr, henabled⟩ := h.enabled
  obtain ⟨r', hr', hused⟩ := h.marked
  have hview : σ.view (.redemption id) = some r' := by simp [Local.view, Txn.view, hr']
  have hbefore : used id σ.db = false := by simp [used, hr, henabled]
  have hafter : used id σ.view = true := by simp [used, hview, hused]
  simp [Txn.raises, hbefore, hafter]

theorem Holds.other (h : Holds id σ) (hne : code ≠ id) : used code σ.view = used code σ.db := by
  have hview : σ.view (.redemption code) = σ.db (.redemption code) := view_off (h.others code hne) σ.db
  rw [used, hview, used]

variable {key : String}

theorem Holds.effect (h : Holds id σ) (hkey : index key = some id) :
    Effect index code (.redeem key userId now redeemedTime) σ.db σ.view := by
  by_cases hid : code = id
  · subst hid
    exact ⟨fun hd => (Bool.and_eq_true_iff.mp h.raises).2, fun _ _ _ => h.raises⟩
  · refine .of_row (h.other hid) (if_neg fun heq => ?_)
    rw [hkey] at heq
    cases heq
    exact hid rfl

/-- What holds when a call has returned: nothing is pending, and one that has credited a user for
the code has used it up. -/
structure Returned (index : String → Option Int) (code : Int) (call : Call) {α : Type} (r : Except Err α)
    (σ : Local Row Empty) : Prop where
  clean : σ.pend = clean
  raised : r.isOk = true → (call.redeems index code).isSome = true → Raised (used code) σ.own

theorem stable_returned :
    (codeProto index code calls).Stable (Returned index code call : Except Err α → Local Row Empty → Prop) :=
  fun _ _ _ h _ => ⟨h.clean, h.raised⟩

theorem Returned.error {e : Err} (h : σ.pend = Txn.clean) :
    Returned index code call (.error e : Except Err α) σ := ⟨h, nofun⟩

theorem Returned.map {β : Type} {r : Except Err α} {r' : Except Err β} (h : Returned index code call r σ)
    (hok : r'.isOk = r.isOk) : Returned index code call r' σ := ⟨h.clean, fun hr => h.raised (hok ▸ hr)⟩

/-- The UPDATE of the user's quota, whatever it answers. -/
theorem wp_credit {quota : Int} (h : Holds id σ) :
    wp (codeProto index code calls) i (credit userId quota) (fun _ => Holds id) σ := by
  have hwrites : (credit userId quota).Writes fun k => k = .user userId := by
    refine writes_bind (fun r => ?_) (writes_update rfl)
    cases r with
    | none | some _ => trivial
  refine wp_writes nofun (fun σ d h hd => h.moves hd) (fun σ k v hk h => ?_) hwrites h
  subst hk
  refine ⟨h.enabled, ?_, fun id' hne => ?_⟩
  · show ∃ r, write σ.pend (.user userId) v (.redemption id) = some (some r) ∧ r.status = .used
    exact h.marked
  · show write σ.pend (.user userId) v (.redemption id') = none
    exact h.others id' hne

theorem claim_some {row row' : Option Redemption} (h : claim userId redeemedTime row = some row') :
    ∃ r r', row = some r ∧ r.status = .enabled ∧ row' = some r' ∧ r'.status = .used := by
  cases row with
  | none => cases h
  | some r =>
    by_cases hr : r.status = .enabled
    · rw [claim, if_pos hr] at h
      cases h
      exact ⟨r, _, rfl, hr, rfl, rfl⟩
    · rw [claim, if_neg hr] at h
      cases h

/-- What the body of the transaction leaves when it succeeds. -/
def Claims (index : String → Option Int) (key : String) (r : Except Err Int) (σ : Local Row Empty) : Prop :=
  r.isOk = true → ∃ id, index key = some id ∧ Holds id σ

theorem stable_claims : (codeProto index code calls).Stable (Claims index key) := by
  intro r σ d h hd hok
  obtain ⟨id, hid, hholds⟩ := h hok
  exact ⟨id, hid, hholds.moves hd⟩

theorem wp_claimAndCredit {quota : Int} (hkey : index key = some id) (hclean : σ.pend = clean) :
    wp (codeProto index code calls) i (claimAndCredit id userId redeemedTime quota) (Claims index key) σ := by
  refine wp_update (fun d v hd _ hv => ⟨nofun, ?_⟩) (fun d hd _ _ => wp_pure stable_claims nofun)
    (fun d hd _ => wp_pure stable_claims nofun)
  -- the row was enabled, and is the call's until it commits
  have hfree : σ.pend (.redemption id) = none := by
    rw [hclean]
    rfl
  have hrow : (σ.on d).view (.redemption id) = d (.redemption id) := view_off hfree d
  rw [hrow] at hv
  obtain ⟨r, r', hr, henabled, rfl, hused⟩ := claim_some hv
  have hholds : Holds id { σ.on d with pend := write σ.pend (.redemption id) (some r') } := by
    refine ⟨⟨r, hr, henabled⟩, ⟨r', update_self .., hused⟩, fun id' hne => ?_⟩
    show write σ.pend (.redemption id) (some r') (.redemption id') = none
    rw [write, update_of_ne (by simpa using hne), hclean]
    rfl
  exact wp_mono (fun _ _ h _ => ⟨id, hkey, h⟩) (wp_credit hholds)

theorem wp_redeemTx (hclean : σ.pend = clean) :
    wp (codeProto index code calls) i (redeemTx index key userId now redeemedTime) (Claims index key) σ := by
  refine wp_select (fun d hd => ?_) (fun d hd => wp_pure stable_claims nofun)
  dsimp only [Option.bind_some]
  cases hfind : findByKey index key (σ.on d).view with
  | none => exact wp_pure stable_claims nofun
  | some found =>
    obtain ⟨id', hid', hrow⟩ := Option.bind_eq_some_iff.mp hfind
    obtain ⟨r', -, heq⟩ := Option.map_eq_some_iff.mp hrow
    cases heq
    dsimp only
    split
    · exact wp_pure stable_claims nofun
    · split
      · exact wp_pure stable_claims nofun
      · exact wp_claimAndCredit hid' hclean

theorem wp_redeem (hcall : calls i = .redeem key userId now redeemedTime) (hclean : σ.pend = clean) :
    wp (codeProto index code calls) i (redeem index key userId now redeemedTime) (Returned index code (calls i)) σ := by
  unfold redeem
  split
  · exact wp_pure stable_returned (.error hclean)
  split
  · exact wp_pure stable_returned (.error hclean)
  have htx : wp (codeProto index code calls) i (transaction .database (redeemTx index key userId now redeemedTime))
      (Returned index code (calls i)) σ := by
    refine wp_transaction stable_returned (wp_mono (fun r σ' hclaims => ?_) (wp_redeemTx hclean))
    cases r with
    | error e => exact .error rfl
    | ok quota =>
      obtain ⟨id, hid, hholds⟩ := hclaims rfl
      refine ⟨?_, ⟨rfl, fun _ hredeems => ?_⟩, .error rfl⟩
      · show Effect index code (calls i) σ'.db σ'.view
        rw [hcall]
        exact hholds.effect hid
      · rw [hcall, Call.redeems, hid] at hredeems
        have hcode : id = code := by
          by_contra hne
          rw [if_neg fun heq => hne (Option.some.inj heq)] at hredeems
          cases hredeems
        subst hcode
        exact ⟨_, List.mem_cons_self, hholds.raises⟩
  refine wp_then htx fun r σ' h => ?_
  cases r with
  | error e => exact wp_pure stable_returned (.error h.clean)
  | ok quota => exact wp_pure stable_returned (h.map rfl)

/-- An edit that writes back the status it finds. -/
theorem wp_writeBack {edited : Redemption} (hedit : (calls i).isEdit = true) (hclean : σ.pend = clean) :
    wp (codeProto index code calls) i (edited.update id) (Returned index code (calls i)) σ := by
  have hnone : (calls i).redeems index code = none := by
    cases hcall : calls i with
    | redeem key userId now redeemedTime => simp [hcall, Call.isEdit] at hedit
    | edit now req => rfl
  have hany : ∀ {α : Type} {r : Except Err α} {σ' : Local Row Empty}, σ'.pend = clean →
      Returned index code (calls i) r σ' := by
    intro α r σ' h
    refine ⟨h, fun _ hredeems => ?_⟩
    rw [hnone] at hredeems
    cases hredeems
  have hcommit : wp (codeProto index code calls) i (autocommit (.redemption id) (setRedemption edited.select))
      (fun _ σ' => σ'.pend = clean) σ := by
    refine wp_autocommit (fun _ _ _ h _ => h) hclean nofun (fun d v hd hg hv => ⟨.of_row ?_ hnone, hclean⟩)
      (fun d d' hd hv hd' => ?_) (fun d hd => hclean)
    · by_cases hid : id = code
      · subst hid
        obtain ⟨r, hr, hv⟩ := Option.map_eq_some_iff.mp hv
        rw [hr] at hg
        have hkeeps := of_decide_eq_true hg rfl rfl hedit
        have hstatus : edited.status = r.status := of_decide_eq_true hkeeps
        have hnew : update d (.redemption id) v (.redemption id) = some (edited.select r) := by
          rw [update_self, ← hv]
        rw [used, used, hnew, hr]
        simp [Redemption.select, hstatus]
      · have hother : update d (.redemption id) v (.redemption code) = d (.redemption code) :=
          update_of_ne (by simpa using Ne.symm hid) ..
        rw [used, used, hother]
    · exact ⟨.of_row rfl hnone, hclean⟩
  refine wp_then hcommit fun r σ' h => ?_
  cases r with
  | none | some _ => exact wp_pure stable_returned (hany h)

theorem wp_edit {req : Request} (hedit : (calls i).isEdit = true) (hclean : σ.pend = clean) :
    wp (codeProto index code calls) i (updateRedemption false now req) (Returned index code (calls i)) σ := by
  have hreads : (getRedemptionById req.id).Writes fun _ => False := by
    unfold getRedemptionById
    split
    · trivial
    · refine writes_bind (fun r => ?_) writes_select
      cases r.bind fun d => d (.redemption req.id) with
      | none | some stored => trivial
  refine wp_bind (wp_reads hreads fun found d hd => ?_)
  cases found with
  | error e => exact wp_pure stable_returned (.error hclean)
  | ok stored =>
    dsimp only
    cases editRedemption req false now stored with
    | error e => exact wp_pure stable_returned (.error hclean)
    | ok edited => exact wp_writeBack hedit hclean

theorem wp_call (i : ι) (hclean : σ.pend = clean) :
    wp (codeProto index code calls) i ((calls i).prog index) (Returned index code (calls i)) σ := by
  cases hcall : calls i with
  | redeem key userId now redeemedTime =>
    have hredeem : wp (codeProto index code calls) i (redeem index key userId now redeemedTime)
        (Returned index code (calls i)) σ := wp_redeem hcall hclean
    rw [hcall] at hredeem
    refine wp_then hredeem fun r σ' h => ?_
    cases r with
    | error e | ok quota => exact wp_pure stable_returned (h.map rfl)
  | edit now req =>
    have hedit : wp (codeProto index code calls) i (updateRedemption false now req) (Returned index code (calls i)) σ :=
      wp_edit (by rw [hcall]; rfl) hclean
    rw [hcall] at hedit
    refine wp_then hedit fun r σ' h => ?_
    cases r with
    | error e | ok _ => exact wp_pure stable_returned (h.map rfl)

end

def credits (index : String → Option Int) (code : Int) {ι : Type} (calls : ι → Call) (c : Commit ι Row) : Bool :=
  ((calls c.call).redeems index code).any fun userId => balance userId c.after ≠ balance userId c.before

def exampleIndex (key : String) : Option Int := if key = "c0de" then some 1 else none

def exampleCode : Redemption := ⟨1, .enabled, "spring", 500, 1800000000, 0, 0, 0⟩

def exampleTables : Tables
  | .redemption id => if id = 1 then some exampleCode else none
  | .user id => if id = 7 ∨ id = 8 then some 0 else none

inductive Who
  | first | second | admin
  deriving DecidableEq, Repr

def exampleCalls : Who → Call
  | .first => .redeem "c0de" 7 1800000100 1800000100
  | .second => .redeem "c0de" 8 1800000200 1800000200
  | .admin => .edit 1800000150 { id := 1, name := "spring sale", status := .enabled, quota := 500, expiredTime := 0 }

end AmuxApi.RedeemCode
