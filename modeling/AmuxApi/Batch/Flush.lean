import Mathlib.Data.Fintype.BigOperators
import Mathlib.Tactic.Abel
import AmuxApi.Batch.Model
import AmuxApi.Conc.Logic

/- No change of a quota is lost, and none is written twice.

   A change is a `Delta`: an amount for every type of record and every id. At any time the
   tables, the maps, what the calls have yet to add and what the batches have taken and not yet
   written come to the same (`Accounted`). Once the calls have returned, a batch that begins
   then finds every map empty or empties it (`Emptied`).

   So when every batch has come to its end, and one of them began after the calls had returned,
   the tables are as if the calls had written them (`batch_writes_all`). A batch that is still
   at it may have taken the changes away from one that comes later (`later_batch_misses`). -/
namespace AmuxApi.Batch
open Conc Function DB List

/-! Changes. -/

abbrev Delta := BatchUpdateType → Int → Int

def DB.apply (d : DB) (δ : Delta) : DB where
  users id := (d.users id).map fun u =>
    ⟨u.quota + δ .userQuota id, u.usedQuota + δ .usedQuota id, u.requestCount + δ .requestCount id⟩
  tokens id := (d.tokens id).map fun t => ⟨t.remainQuota + δ .tokenQuota id, t.usedQuota - δ .tokenQuota id⟩
  channels id := (d.channels id).map (· + δ .channelUsedQuota id)

variable {d : DB}

theorem DB.ext' {d' : DB} (husers : ∀ id, d.users id = d'.users id) (htokens : ∀ id, d.tokens id = d'.tokens id)
    (hchannels : ∀ id, d.channels id = d'.channels id) : d = d' := by
  rw [mk.injEq]
  exact ⟨funext husers, funext htokens, funext hchannels⟩

theorem apply_zero (d : DB) : d.apply 0 = d := by simp [apply]

theorem apply_apply (d : DB) (δ δ' : Delta) : (d.apply δ).apply δ' = d.apply (δ + δ') := by
  refine ext' (fun id => ?_) (fun id => ?_) fun id => ?_
  · simp [apply, comp_def, Int.add_assoc]
  · simp only [apply, Option.map_map, comp_def, Pi.add_apply]
    congr 1
    funext t
    rw [Int.add_assoc, Int.sub_sub]
  · simp [apply, comp_def, Int.add_assoc]

def single (type : BatchUpdateType) (id value : Int) : Delta := fun type' id' =>
  if type' = type ∧ id' = id then value else 0

def userDelta (id quota usedQuota requestCount : Int) : Delta :=
  single .userQuota id quota + single .usedQuota id usedQuota + single .requestCount id requestCount

variable {quota : Int}

section
variable {d : DB} {id : Int}

theorem updateUser_eq {f : User → User} {usedQuota requestCount : Int}
    (hf : ∀ u, f u = ⟨u.quota + quota, u.usedQuota + usedQuota, u.requestCount + requestCount⟩) :
    d.updateUser id f = d.apply (userDelta id quota usedQuota requestCount) := by
  refine ext' (fun id' => ?_) (fun id' => ?_) fun id' => ?_
  · by_cases hid : id' = id
    · subst hid
      simp [updateUser, apply, userDelta, single, funext hf]
    · simp [updateUser, apply, userDelta, single, hid]
  · simp [updateUser, apply, userDelta, single]
  · simp [updateUser, apply, userDelta, single]

theorem updateToken_eq {f : Token → Token} (hf : ∀ t, f t = ⟨t.remainQuota + quota, t.usedQuota - quota⟩) :
    d.updateToken id f = d.apply (single .tokenQuota id quota) := by
  refine ext' (fun id' => ?_) (fun id' => ?_) fun id' => ?_
  · simp [updateToken, apply, single]
  · by_cases hid : id' = id
    · subst hid
      simp [updateToken, apply, single, funext hf]
    · simp [updateToken, apply, single, hid]
  · simp [updateToken, apply, single]

theorem updateChannel_eq (quota : Int) :
    d.updateChannel id (· + quota) = d.apply (single .channelUsedQuota id quota) := by
  refine ext' (fun id' => ?_) (fun id' => ?_) fun id' => ?_
  · simp [updateChannel, apply, single]
  · simp [updateChannel, apply, single]
  · by_cases hid : id' = id
    · subst hid
      simp [updateChannel, apply, single]
    · simp [updateChannel, apply, single, hid]

end

/-! What is in the maps. -/

def stored (stores : BatchUpdateType → Store) : Delta := fun type id => (stores type).get id

theorem get_empty (id : Int) : Store.empty.get id = 0 := rfl

theorem get_add (store : Store) (id value id' : Int) :
    (store.add id value).get id' = store.get id' + if id' = id then value else 0 := by
  unfold Store.add Store.get
  by_cases hkey : id ∈ store.keys
  · rw [if_neg (not_not.mpr hkey)]
    by_cases hid : id' = id
    · subst hid
      simp [hkey]
    · simp [hid]
  · rw [if_pos hkey]
    by_cases hid : id' = id
    · subst hid
      simp [hkey]
    · simp [hid]

theorem stored_add (stores : BatchUpdateType → Store) (type : BatchUpdateType) (id value : Int) :
    stored (update stores type ((stores type).add id value)) = stored stores + single type id value := by
  funext type' id'
  by_cases htype : type' = type
  · subst htype
    simp [stored, single, get_add]
  · simp [stored, single, htype]

def storedIn (type : BatchUpdateType) (store : Store) : Delta :=
  fun type' id => if type' = type then store.get id else 0

theorem stored_take (stores : BatchUpdateType → Store) (type : BatchUpdateType) :
    stored (update stores type .empty) + storedIn type (stores type) = stored stores := by
  funext type' id
  by_cases htype : type' = type
  · subst htype
    simp [stored, storedIn, get_empty]
  · simp [stored, storedIn, htype]

variable {type : BatchUpdateType}

theorem stored_put {stores : BatchUpdateType → Store} (h : stores type = .empty) (store : Store) :
    stored (update stores type store) = stored stores + storedIn type store := by
  funext type' id
  by_cases htype : type' = type
  · subst htype
    simp [stored, storedIn, h, get_empty]
  · simp [stored, storedIn, htype]

/-! Nothing is lost. -/

section
variable {ι : Type} [Fintype ι] [DecidableEq ι] {d₀ : DB} {total γ : Delta} {i : ι}

/-- The tables, the maps and what the programs still owe come to `total`. -/
def Accounted (d₀ : DB) (total : Delta) (m : Mem) (g : ι → Delta) : Prop :=
  m.db.apply (stored m.stores + ∑ i, g i) = d₀.apply total

theorem sum_more (g : ι → Delta) (i : ι) (δ : Delta) : ∑ j, update g i (g i + δ) j = ∑ j, g j + δ := by
  have hsum := sum_update id g i (g i + δ)
  simp only [id] at hsum
  have hcancel : ∑ j, update g i (g i + δ) j + g i = ∑ j, g j + δ + g i := by
    rw [hsum]
    abel
  exact add_right_cancel hcancel

theorem sum_less (g : ι → Delta) (i : ι) (δ : Delta) : ∑ j, update g i (g i - δ) j = ∑ j, g j - δ := by
  rw [sub_eq_add_neg, sum_more, sub_eq_add_neg]

/-- The program writes or hands over `δ` of what it owes. -/
def Pays {α : Type} (d₀ : DB) (total : Delta) (i : ι) (x : Prog Mem α) (δ : Delta) : Prop :=
  ∀ γ, wp (Accounted d₀ total) anyStep i x (fun _ γ' => γ' = γ - δ) γ

section
variable {α β : Type} {x : Prog Mem α} {δ δ' : Delta}

theorem pays_pure (a : α) : Pays d₀ total i (pure a) 0 := fun γ => (sub_zero γ).symm

theorem Pays.bind {g : α → Prog Mem β} (hx : Pays d₀ total i x δ) (hg : ∀ a, Pays d₀ total i (g a) δ') :
    Pays d₀ total i (x >>= g) (δ + δ') := by
  refine fun γ => wp_known (hx γ) fun a => wp_mono (fun _ γ' h => ?_) (hg a _)
  rw [h, sub_sub]

theorem Pays.done {b : β} (hx : Pays d₀ total i x δ) : Pays d₀ total i (x >>= fun _ => pure b) δ :=
  add_zero δ ▸ hx.bind fun _ => pays_pure b

theorem Pays.all (hx : Pays d₀ total i x δ) : wp (Accounted d₀ total) anyStep i x (fun _ γ' => γ' = 0) δ :=
  wp_mono (fun _ _ h => h.trans (sub_self δ)) (hx δ)

end

theorem pays_exec {f : DB → DB} {δ : Delta} (hf : ∀ d, f d = d.apply δ) : Pays d₀ total i (exec f) δ := by
  refine fun γ => wp_atomically fun m g hI hγ _ => ⟨γ - δ, ?_, rfl⟩
  show (f m.db).apply (stored m.stores + ∑ j, update g i (γ - δ) j) = d₀.apply total
  rw [← hI, hf, apply_apply, ← hγ, sum_less]
  congr 1
  abel

variable {id : Int}

theorem pays_addNewRecord {value : Int} : Pays d₀ total i (addNewRecord type id value) (single type id value) := by
  refine fun γ => wp_atomically fun m g hI hγ _ => ⟨γ - single type id value, ?_, rfl⟩
  show m.db.apply (stored (update m.stores type ((m.stores type).add id value)) +
    ∑ j, update g i (γ - single type id value) j) = d₀.apply total
  rw [← hI, stored_add, ← hγ, sum_less]
  congr 1
  abel

theorem wp_takeStore : wp (Accounted d₀ total) anyStep i
      (atomically (fun m => { m with stores := update m.stores type .empty }) fun m => m.stores type)
      (fun store γ' => γ' = γ + storedIn type store) γ := by
  refine wp_atomically fun m g hI hγ _ => ⟨γ + storedIn type (m.stores type), ?_, rfl⟩
  show m.db.apply (stored (update m.stores type .empty) +
    ∑ j, update g i (γ + storedIn type (m.stores type)) j) = d₀.apply total
  rw [← hI, ← stored_take m.stores type, ← hγ, sum_more]
  congr 1
  abel

/-! The calls. -/

def Call.delta : Call → Delta
  | .increaseUserQuota id quota _ => if quota < 0 then 0 else userDelta id quota 0 0
  | .decreaseUserQuota id quota _ => if quota < 0 then 0 else userDelta id (-quota) 0 0
  | .increaseTokenQuota tokenId quota => if quota < 0 then 0 else single .tokenQuota tokenId quota
  | .decreaseTokenQuota tokenId quota => if quota < 0 then 0 else single .tokenQuota tokenId (-quota)
  | .updateUserUsedQuotaAndRequestCount id quota => userDelta id 0 quota 1
  | .updateChannelUsedQuota id quota => single .channelUsedQuota id quota

theorem single_zero (type : BatchUpdateType) (id : Int) : single type id 0 = 0 := by
  funext type' id'
  simp [single]

theorem userDelta_quota (id quota : Int) : userDelta id quota 0 0 = single .userQuota id quota := by
  rw [userDelta, single_zero, single_zero, add_zero, add_zero]

theorem Pays.orError {x : Prog Mem Unit} {δ : Delta} (hx : Pays d₀ total i x δ) :
    Pays d₀ total i (orError quota x) (if quota < 0 then 0 else δ) := by
  unfold Batch.orError
  split
  · exact pays_pure _
  · exact hx.done

theorem pays_call (enabled : Bool) (call : Call) : Pays d₀ total i (call.prog enabled) call.delta := by
  cases call with
  | increaseUserQuota id quota db =>
    refine Pays.orError ?_
    split
    · rw [userDelta_quota]
      exact pays_addNewRecord
    · exact pays_exec fun d => updateUser_eq fun u => by simp
  | decreaseUserQuota id quota db =>
    refine Pays.orError ?_
    split
    · rw [userDelta_quota]
      exact pays_addNewRecord
    · exact pays_exec fun d => updateUser_eq fun u => by simp [Int.sub_eq_add_neg]
  | increaseTokenQuota tokenId quota =>
    refine Pays.orError ?_
    split
    · exact pays_addNewRecord
    · exact pays_exec fun d => updateToken_eq fun t => rfl
  | decreaseTokenQuota tokenId quota =>
    refine Pays.orError ?_
    split
    · exact pays_addNewRecord
    · exact pays_exec fun d => updateToken_eq fun t => by simp [Int.sub_eq_add_neg]
  | updateUserUsedQuotaAndRequestCount id quota =>
    cases enabled with
    | true =>
      rw [Call.delta, userDelta, single_zero, zero_add]
      exact pays_addNewRecord.bind fun _ => pays_addNewRecord.done
    | false => exact (pays_exec fun d => updateUser_eq fun u => by simp).done
  | updateChannelUsedQuota id quota =>
    cases enabled with
    | true => exact pays_addNewRecord.done
    | false => exact (pays_exec fun d => updateChannel_eq quota).done

/-! The batches. -/

theorem each_hasData {R : Mem → Mem → Prop} (hR : ∀ m, R m m) (types : List BatchUpdateType) :
    (hasData types).Each R := by
  induction types with
  | nil => exact each_pure _
  | cons type types ih =>
    refine each_bind (fun found => ?_) (each_atomically hR)
    split
    · exact each_pure _
    · exact ih

theorem wp_takeStores (types : List BatchUpdateType) : ∀ (stores : BatchUpdateType → Store) (γ : Delta), types.Nodup →
    (∀ type ∈ types, stores type = .empty) → γ = stored stores →
    wp (Accounted d₀ total) anyStep i (takeStores types stores) (fun stores' γ' => γ' = stored stores') γ := by
  induction types with
  | nil => exact fun _ _ _ _ hγ => wp_pure hγ
  | cons type types ih =>
    intro stores γ hnodup hempty hγ
    obtain ⟨hout, hnodup⟩ := nodup_cons.mp hnodup
    refine wp_seq wp_takeStore fun store γ' h => ?_
    refine ih _ γ' hnodup (fun type' htype' => ?_) ?_
    · have hne : type' ≠ type := fun heq => hout (heq ▸ htype')
      rw [update_of_ne hne]
      exact hempty type' (mem_cons_of_mem _ htype')
    · rw [h, hγ, stored_put (hempty type mem_cons_self)]

/-- What is in the maps of some types for some ids. -/
def part (stores : BatchUpdateType → Store) (types : List BatchUpdateType) (ids : List Int) : Delta := fun type id =>
  if type ∈ types ∧ id ∈ ids then (stores type).get id else 0

section
variable {stores : BatchUpdateType → Store} {types : List BatchUpdateType} {ids : List Int}

theorem part_nil : part stores types [] = 0 := by
  funext type id
  simp [part]

theorem part_cons (h : id ∉ ids) : part stores types (id :: ids) = part stores types [id] + part stores types ids := by
  funext type id'
  by_cases hid : id' = id
  · subst hid
    simp [part, h]
  · simp [part, hid]

/-- A loop over ids that writes what the maps hold for each of them. -/
theorem pays_flush {f : Int → Prog Mem Unit} (hf : ∀ id, Pays d₀ total i (f id) (part stores types [id]))
    (hnodup : ids.Nodup) : Pays d₀ total i (forEach f ids) (part stores types ids) := by
  induction ids with
  | nil =>
    rw [part_nil]
    exact pays_pure ()
  | cons id ids ih =>
    obtain ⟨hout, hnodup⟩ := nodup_cons.mp hnodup
    rw [part_cons hout]
    exact (hf id).bind fun _ => ih hnodup

theorem part_one (type : BatchUpdateType) (id : Int) :
    part stores [type] [id] = single type id ((stores type).get id) := by
  funext type' id'
  by_cases hid : id' = id
  · subst hid
    by_cases htype : type' = type
    · subst htype
      simp [part, single]
    · simp [part, single, htype]
  · simp [part, single, hid]

theorem part_user (id : Int) : part stores [.userQuota, .usedQuota, .requestCount] [id] =
    userDelta id ((stores .userQuota).get id) ((stores .usedQuota).get id) ((stores .requestCount).get id) := by
  funext type id'
  by_cases hid : id' = id
  · subst hid
    cases type <;> simp [part, userDelta, single]
  · simp [part, userDelta, single, hid]

theorem get_of_not_mem {store : Store} (h : id ∉ store.keys) : store.get id = 0 := if_neg h

/-- The three loops write all that is in the maps. -/
theorem stored_parts (range : RangeOrder) (stores : BatchUpdateType → Store) : stored stores =
    part stores [.tokenQuota] (range.order (stores .tokenQuota).keys) +
      (part stores [.channelUsedQuota] (range.order (stores .channelUsedQuota).keys) +
        part stores [.userQuota, .usedQuota, .requestCount] (range.order (userIDs stores))) := by
  have hone : ∀ type id, part stores [type] (range.order (stores type).keys) type id = (stores type).get id := by
    intro type id
    by_cases hid : id ∈ (stores type).keys
    · simp [part, range.mem_order, hid]
    · simp [part, range.mem_order, get_of_not_mem hid]
  have hother : ∀ type type' ids id, type' ≠ type → part stores [type] ids type' id = 0 := by
    intro type type' ids id hne
    simp [part, hne]
  have huser : ∀ type ∈ [BatchUpdateType.userQuota, .usedQuota, .requestCount], ∀ id,
      part stores [.userQuota, .usedQuota, .requestCount]
        (range.order (userIDs stores)) type id = (stores type).get id := by
    intro type htype id
    by_cases hid : id ∈ userIDs stores
    · simp only [part, range.mem_order, hid, htype, and_self, if_true]
    have hnone : id ∉ (stores type).keys := by
      intro hkey
      apply hid
      rcases mem_cons.mp htype with rfl | htype
      · simp [userIDs, hkey]
      · rcases mem_cons.mp htype with rfl | htype
        · simp [userIDs, hkey]
        · rw [mem_singleton.mp htype] at hkey
          simp [userIDs, hkey]
    simp only [part, range.mem_order, hid, and_false, if_false, get_of_not_mem hnone]
  have hnouser : ∀ type ∉ [BatchUpdateType.userQuota, .usedQuota, .requestCount], ∀ ids id,
      part stores [.userQuota, .usedQuota, .requestCount] ids type id = 0 := by
    intro type htype ids id
    simp only [part, htype, false_and, if_false]
  funext type id
  simp only [Pi.add_apply, stored]
  cases type with
  | tokenQuota => rw [hone, hother _ _ _ _ (by decide), hnouser _ (by decide), Int.add_zero, Int.add_zero]
  | channelUsedQuota => rw [hone, hother _ _ _ _ (by decide), hnouser _ (by decide), Int.add_zero, Int.zero_add]
  | userQuota =>
    rw [huser _ (by decide), hother _ _ _ _ (by decide), hother _ _ _ _ (by decide), Int.zero_add, Int.zero_add]
  | usedQuota =>
    rw [huser _ (by decide), hother _ _ _ _ (by decide), hother _ _ _ _ (by decide), Int.zero_add, Int.zero_add]
  | requestCount =>
    rw [huser _ (by decide), hother _ _ _ _ (by decide), hother _ _ _ _ (by decide), Int.zero_add, Int.zero_add]

end

theorem pays_updateUserAll {usedQuota requestCount : Int} :
    Pays d₀ total i (updateUserQuotaUsedQuotaAndRequestCount id quota usedQuota requestCount)
      (userDelta id quota usedQuota requestCount) := by
  unfold updateUserQuotaUsedQuotaAndRequestCount
  split_ifs with hzero
  · obtain ⟨rfl, rfl, rfl⟩ := hzero
    rw [userDelta_quota, single_zero]
    exact pays_pure ()
  · exact pays_exec fun d => updateUser_eq fun u => rfl

/-- A batch owes nothing before and after. -/
theorem wp_batchUpdate (range : RangeOrder) :
    wp (Accounted d₀ total) anyStep i (batchUpdate range) (fun _ γ' => γ' = 0) 0 := by
  have hfound : wp (Accounted d₀ total) anyStep i _ (fun _ γ' => γ' = 0) 0 :=
    wp_of_each (R := (· = ·)) (fun _ _ _ hI h => h ▸ hI) (each_hasData (fun _ => rfl) batchUpdateTypes)
  refine wp_known hfound fun found => ?_
  cases found with
  | false => exact wp_pure rfl
  | true =>
    refine wp_known (wp_takeStores batchUpdateTypes (fun _ => .empty) 0 (by decide) (fun _ _ => rfl) rfl)
      fun stores => ?_
    rw [stored_parts range stores]
    refine ((pays_flush (fun id => ?_) (range.nodup _)).bind fun _ =>
      (pays_flush (fun id => ?_) (range.nodup _)).bind fun _ => pays_flush (fun id => ?_) (range.nodup _)).all
    · rw [part_one]
      exact pays_exec fun d => updateToken_eq fun t => rfl
    · rw [part_one]
      exact pays_exec fun d => updateChannel_eq _
    · rw [part_user]
      exact pays_updateUserAll

end

/-! The maps are emptied. -/

/-- A map that is empty stays empty. -/
def StaysEmpty (m m' : Mem) : Prop := ∀ type, (m.stores type).keys = ∅ → (m'.stores type).keys = ∅

theorem each_exec {f : DB → DB} {R : Mem → Mem → Prop} (h : ∀ m m' : Mem, m'.stores = m.stores → R m m') :
    (exec f).Each R :=
  each_atomically fun _ => h _ _ rfl

theorem staysEmpty_of_stores {m m' : Mem} (h : m'.stores = m.stores) : StaysEmpty m m' := by
  intro type hempty
  rw [h]
  exact hempty

theorem each_flush (range : RangeOrder) (stores : BatchUpdateType → Store) :
    (flushTokens range (stores .tokenQuota) >>= fun _ => flushChannels range (stores .channelUsedQuota) >>= fun _ =>
      flushUsers range stores).Each StaysEmpty := by
  refine each_bind (fun _ => each_bind (fun _ => ?_) ?_) ?_
  · refine each_forEach (fun id => ?_) _
    unfold updateUserQuotaUsedQuotaAndRequestCount
    split
    · exact each_pure ()
    · exact each_exec fun _ _ => staysEmpty_of_stores
  · exact each_forEach (fun id => each_exec fun _ _ => staysEmpty_of_stores) _
  · exact each_forEach (fun id => each_exec fun _ _ => staysEmpty_of_stores) _

theorem staysEmpty_take (type : BatchUpdateType) (m : Mem) :
    StaysEmpty m { m with stores := update m.stores type .empty } := by
  intro type' hempty
  show (update m.stores type .empty type').keys = ∅
  by_cases htype : type' = type
  · subst htype
    rw [update_self]
    rfl
  · rw [update_of_ne htype]
    exact hempty

theorem each_takeStores (types : List BatchUpdateType) :
    ∀ stores, (takeStores types stores).Each StaysEmpty := by
  induction types with
  | nil => exact fun _ => each_pure _
  | cons type types ih => exact fun stores => each_bind (fun store => ih _) (each_atomically (staysEmpty_take type))

theorem each_batchUpdate (range : RangeOrder) : (batchUpdate range).Each StaysEmpty := by
  refine each_bind (fun found => ?_) (each_hasData (fun _ _ h => h) batchUpdateTypes)
  cases found with
  | false => exact each_pure _
  | true => exact each_bind (fun stores => each_flush range stores) (each_takeStores batchUpdateTypes _)

/-- The maps that program `j` has found or made empty are empty. -/
def Emptied {ι : Type} (j : ι) (m : Mem) (g : ι → List BatchUpdateType) : Prop := ∀ type ∈ g j, (m.stores type).keys = ∅

theorem Emptied.stays {ι : Type} {j : ι} {m m' : Mem} {g : ι → List BatchUpdateType} (h : Emptied j m g)
    (hm : StaysEmpty m m') : Emptied j m' g := fun type htype => hm type (h type htype)

section
variable {ι : Type} [DecidableEq ι] {j : ι} {γ : List BatchUpdateType}

theorem Emptied.cons {m : Mem} {g : ι → List BatchUpdateType} (h : Emptied j m g)
    (hγ : g j = γ) (htype : (m.stores type).keys = ∅) : Emptied j m (update g j (type :: γ)) := by
  intro type' htype'
  rw [update_self] at htype'
  rcases mem_cons.mp htype' with rfl | htype'
  · exact htype
  · exact h type' (hγ ▸ htype')

theorem moved {type' : BatchUpdateType} {γ types : List BatchUpdateType} (h : type' ∈ γ ∨ type' ∈ type :: types) :
    type' ∈ type :: γ ∨ type' ∈ types := by
  simp only [mem_cons] at h ⊢
  tauto

theorem wp_hasData_empty (types : List BatchUpdateType) : ∀ γ : List BatchUpdateType,
    (∀ type, type ∈ γ ∨ type ∈ types) →
    wp (Emptied j) anyStep j (hasData types) (fun found γ' => found = false → ∀ type, type ∈ γ') γ := by
  induction types with
  | nil =>
    intro γ h
    exact wp_pure fun _ type => (h type).resolve_right not_mem_nil
  | cons type types ih =>
    intro γ h
    refine wp_bind (wp_atomically fun m g hI hγ _ => ?_)
    by_cases hdata : 0 < (m.stores type).keys.card
    · refine ⟨γ, ?_, ?_⟩
      · rw [← hγ, update_eq_self]
        exact hI
      · rw [if_pos (decide_eq_true hdata)]
        exact wp_pure nofun
    · have hempty : (m.stores type).keys = ∅ := by
        rw [← Finset.card_eq_zero]
        omega
      refine ⟨type :: γ, hI.cons hγ hempty, ?_⟩
      rw [if_neg (by simpa using hdata)]
      exact ih (type :: γ) fun type' => moved (h type')

theorem wp_takeStores_empty (types : List BatchUpdateType) :
    ∀ (stores : BatchUpdateType → Store) (γ : List BatchUpdateType),
    (∀ type, type ∈ γ ∨ type ∈ types) →
    wp (Emptied j) anyStep j (takeStores types stores) (fun _ γ' => ∀ type, type ∈ γ') γ := by
  induction types with
  | nil =>
    intro stores γ h
    exact wp_pure fun type => (h type).resolve_right not_mem_nil
  | cons type types ih =>
    intro stores γ h
    refine wp_bind (wp_atomically fun m g hI hγ _ => ⟨type :: γ, ?_, ?_⟩)
    · refine (hI.stays (staysEmpty_take type m)).cons hγ ?_
      show (update m.stores type .empty type).keys = ∅
      rw [update_self]
      rfl
    · exact ih _ (type :: γ) fun type' => moved (h type')

/-- A whole batch has found or made every map empty. -/
theorem wp_batchUpdate_empty (range : RangeOrder) :
    wp (Emptied j) anyStep j (batchUpdate range) (fun _ γ' => ∀ type, type ∈ γ') [] := by
  have hall : ∀ type, type ∈ batchUpdateTypes := by
    intro type
    cases type <;> decide
  refine wp_seq (wp_hasData_empty batchUpdateTypes [] fun type => .inr (hall type)) fun found γ h => ?_
  cases found with
  | false => exact wp_pure (h rfl)
  | true =>
    refine wp_seq (wp_takeStores_empty batchUpdateTypes _ γ fun type => .inr (hall type)) fun stores γ' h' => ?_
    refine wp_mono (fun _ γ'' h'' => ?_)
      (wp_of_each (I := Emptied _) (fun _ _ _ => Emptied.stays) (each_flush range stores))
    rw [h'']
    exact h'

end

/-! Calls and batches. -/

section
variable {ι κ : Type}

def Mem.start (d : DB) : Mem := ⟨d, fun _ => .empty⟩

def batched (calls : ι → Call) (ranges : κ → RangeOrder) : ι ⊕ κ → Prog Mem (Except String Unit)
  | .inl i => (calls i).prog true
  | .inr k => batchUpdate (ranges k) >>= fun _ => pure (.ok ())

def direct (calls : ι → Call) : ι → Prog Mem (Except String Unit) := fun i => (calls i).prog false

theorem stored_empty {stores : BatchUpdateType → Store} (h : ∀ type, (stores type).keys = ∅) : stored stores = 0 := by
  funext type id
  exact get_of_not_mem (by rw [h type]; exact Finset.notMem_empty id)

/-- What a system of programs that owe nothing in the end has written. -/
theorem written [Fintype ι] [DecidableEq ι] {progs : ι → Prog Mem (Except String Unit)} {owed : ι → Delta}
    (hprogs : ∀ i, wp (Accounted d (∑ j, owed j)) anyStep i (progs i) (fun _ γ => γ = 0) (owed i))
    {s : Sys ι Mem (Except String Unit)} (hs : Reach anyStep ⟨.start d, progs⟩ s)
    (hreturned : ∀ i, (s.prog i).result.isSome = true) (hempty : ∀ type, (s.mem.stores type).keys = ∅) :
    s.mem.db = d.apply (∑ j, owed j) := by
  have hstart : Accounted d (∑ j, owed j) (.start d) owed := by
    show d.apply (stored (fun _ => Store.empty) + ∑ j, owed j) = _
    rw [stored_empty (fun _ => rfl), zero_add]
  obtain ⟨g, hgood⟩ := reach_sound hstart hprogs hs
  have hzero : ∀ i, g i = 0 := by
    intro i
    obtain ⟨a, ha⟩ := Option.isSome_iff_exists.mp (hreturned i)
    exact hgood.returned (Prog.eq_ret_of_result ha)
  have hinv : s.mem.db.apply (stored s.mem.stores + ∑ i, g i) = d.apply (∑ j, owed j) := hgood.inv
  rwa [stored_empty hempty, Finset.sum_eq_zero (fun i _ => hzero i), add_zero, apply_zero] at hinv

/-- With batch updating off nothing is collected. -/
theorem each_direct (call : Call) : (call.prog false).Each fun m m' => m'.stores = m.stores := by
  have hexec : ∀ f : DB → DB, (exec f).Each fun m m' => m'.stores = m.stores := fun f => each_exec fun _ _ h => h
  have horError : ∀ (quota : Int) {x : Prog Mem Unit}, (x.Each fun m m' => m'.stores = m.stores) →
      (orError quota x).Each fun m m' => m'.stores = m.stores := by
    intro quota x hx
    unfold orError
    split
    · exact each_pure _
    · exact each_bind (fun _ => each_pure _) hx
  cases call with
  | increaseUserQuota id quota db | decreaseUserQuota id quota db =>
    refine horError quota ?_
    rw [if_neg (by simp)]
    exact hexec _
  | increaseTokenQuota tokenId quota | decreaseTokenQuota tokenId quota => exact horError quota (hexec _)
  | updateUserUsedQuotaAndRequestCount id quota => exact each_bind (fun _ => each_pure _) (hexec _)
  | updateChannelUsedQuota id quota => exact each_bind (fun _ => each_pure _) (hexec _)

variable [DecidableEq ι] [DecidableEq κ]

/-- A batch that begins when no call is left finds or makes every map empty. -/
theorem all_emptied {calls : ι → Call} {ranges : κ → RangeOrder} {s1 s2 : Sys (ι ⊕ κ) Mem (Except String Unit)}
    (h1 : Reach anyStep ⟨.start d, batched calls ranges⟩ s1) (hcalls : ∀ i, (s1.prog (.inl i)).result.isSome = true)
    (k : κ) (hk : s1.prog (.inr k) = batched calls ranges (.inr k)) (h2 : Reach anyStep s1 s2)
    (hreturned : (s2.prog (.inr k)).result.isSome = true) (type : BatchUpdateType) : (s2.mem.stores type).keys = ∅ := by
  have heach : ∀ i, (s1.prog i).Each StaysEmpty := by
    intro i
    cases i with
    | inl i =>
      obtain ⟨a, ha⟩ := Option.isSome_iff_exists.mp (hcalls i)
      rw [Prog.eq_ret_of_result ha]
      trivial
    | inr k' => exact h1.each (each_bind (fun _ => each_pure _) (each_batchUpdate (ranges k')))
  have hprogs : ∀ i, wp (Emptied (.inr k)) anyStep i (s1.prog i)
      (fun _ γ => i = .inr k → ∀ type, type ∈ γ) ([] : List BatchUpdateType) := by
    intro i
    by_cases hi : i = .inr k
    · subst hi
      rw [hk]
      exact wp_seq (wp_batchUpdate_empty (ranges k)) fun _ γ h => wp_pure fun _ => h
    · exact wp_mono (fun _ _ _ hik => absurd hik hi)
        (wp_of_each (I := Emptied _) (fun _ _ _ => Emptied.stays) (heach i))
  have hgood1 : Good (Emptied (.inr k)) anyStep (fun i _ γ => i = .inr k → ∀ type, type ∈ γ) s1 fun _ => [] :=
    ⟨fun _ hin => absurd hin not_mem_nil, hprogs⟩
  obtain ⟨g, hgood⟩ := hgood1.reach h2
  obtain ⟨a, ha⟩ := Option.isSome_iff_exists.mp hreturned
  exact hgood.inv type (hgood.returned (Prog.eq_ret_of_result ha) rfl type)

variable [Fintype ι] [Fintype κ]

/-- **The batches write everything.** When all calls and batches have returned, and one of the
batches began after the last call had returned, the tables are what any run of the same calls
with batch updating off makes of them. -/
theorem batch_writes_all (calls : ι → Call) (ranges : κ → RangeOrder) (d : DB)
    (s₁ s₂ : Sys (ι ⊕ κ) Mem (Except String Unit))
    (h₁ : Reach anyStep ⟨.start d, batched calls ranges⟩ s₁) (hcalls : ∀ i, (s₁.prog (.inl i)).result.isSome = true)
    (k : κ) (hk : s₁.prog (.inr k) = batched calls ranges (.inr k)) (h₂ : Reach anyStep s₁ s₂)
    (hreturned : ∀ i, (s₂.prog i).result.isSome = true) (t : Sys ι Mem (Except String Unit))
    (ht : Reach anyStep ⟨.start d, direct calls⟩ t) (htreturned : ∀ i, (t.prog i).result.isSome = true) :
    s₂.mem.db = t.mem.db := by
  have howed : ∑ j, Sum.elim (fun i => (calls i).delta) (fun _ : κ => 0) j = ∑ i, (calls i).delta := by
    simp
  have hbatched : s₂.mem.db = d.apply (∑ i, (calls i).delta) := by
    rw [← howed]
    refine written (fun i => ?_) (h₁.trans h₂) hreturned (all_emptied h₁ hcalls k hk h₂ (hreturned _))
    cases i with
    | inl i => exact (pays_call true (calls i)).all
    | inr k' =>
      refine wp_seq (wp_batchUpdate (ranges k')) fun _ γ h => ?_
      exact wp_pure h
  have hdirect : t.mem.db = d.apply (∑ i, (calls i).delta) := by
    refine written (fun i => (pays_call false (calls i)).all) ht htreturned fun type => ?_
    have hstores : t.mem.stores = fun _ => .empty :=
      ht.keeps (P := fun m => m.stores = fun _ => .empty) (fun _ _ hm hR => hR.trans hm)
        (fun i => each_direct (calls i)) rfl
    rw [hstores]
    rfl
  rw [hbatched, hdirect]

end

/-! One call and two batches. -/

theorem insertionSort_perm {l l' : List Int} (h : l.Perm l') : l.insertionSort (· ≤ ·) = l'.insertionSort (· ≤ ·) := by
  refine List.Perm.eq_of_pairwise' (r := (· ≤ ·)) ?_ ?_ ?_
  · exact pairwise_insertionSort _ _
  · exact pairwise_insertionSort _ _
  · exact ((perm_insertionSort _ l).trans h).trans (perm_insertionSort _ l').symm

def ascending (keys : Finset Int) : List Int :=
  Quot.lift (fun l : List Int => l.insertionSort (· ≤ ·)) (fun _ _ h => insertionSort_perm h) keys.val

theorem nodup_ascending (keys : Finset Int) : (ascending keys).Nodup := by
  obtain ⟨⟨l⟩, hl⟩ := keys
  exact (perm_insertionSort _ l).nodup_iff.mpr hl

theorem mem_ascending (keys : Finset Int) (id : Int) : id ∈ ascending keys ↔ id ∈ keys := by
  obtain ⟨⟨l⟩, hl⟩ := keys
  exact mem_insertionSort _

def exampleRange : RangeOrder := ⟨ascending, nodup_ascending, mem_ascending⟩

def exampleTables : DB where
  users id := if id = 7 then some ⟨100, 0, 0⟩ else none
  tokens _ := none
  channels _ := none

def exampleCalls : Unit → Call := fun _ => .increaseUserQuota 7 5 false

def exampleStart (n : Nat) : Sys (Unit ⊕ Fin n) Mem (Except String Unit) :=
  ⟨.start exampleTables, batched exampleCalls fun _ => exampleRange⟩

def exampleDirect : Sys Unit Mem (Except String Unit) := ⟨.start exampleTables, direct exampleCalls⟩

def afterCall : Sys (Unit ⊕ Fin 1) Mem (Except String Unit) := after anyStep (exampleStart 1) [(.inl (), true)]

/-- The batch comes after the call, and writes what the call would have written. -/
theorem quota_written :
    ∃ s₂ t, Reach anyStep (exampleStart 1) s₂ ∧ Reach anyStep exampleDirect t ∧
      s₂.mem.db.users 7 = some ⟨105, 0, 0⟩ ∧ s₂.mem.db = t.mem.db := by
  have hrun : run anyStep (exampleStart 1) [(.inl (), true)] = some afterCall := run_after (by decide +kernel)
  have hcall : ∀ i, (afterCall.prog (.inl i)).result.isSome = true := by decide +kernel
  have hidle : afterCall.prog (.inr 0) = (exampleStart 1).prog (.inr 0) := run_idle hrun (by decide)
  obtain ⟨s₂, hs₂, hquota, hinl, hinr⟩ : ∃ s₂, Reach anyStep afterCall s₂ ∧
      s₂.mem.db.users 7 = some ⟨105, 0, 0⟩ ∧ (s₂.prog (.inl ())).result.isSome ∧ (s₂.prog (.inr 0)).result.isSome :=
    exists_of_run (List.replicate 7 (.inr 0, true)) (by decide +kernel)
  obtain ⟨t, ht, hp'⟩ : ∃ t, Reach anyStep exampleDirect t ∧
      (t.prog ()).result.isSome :=
    exists_of_run [((), true)] (by decide +kernel)
  have hs₁ : Reach anyStep (exampleStart 1) afterCall := reach_run .start hrun
  refine ⟨s₂, t, hs₁.trans hs₂, ht, hquota, ?_⟩
  refine batch_writes_all exampleCalls (fun _ => exampleRange) exampleTables afterCall s₂ hs₁ hcall 0 hidle hs₂ ?_ t ht
    fun _ => hp'
  intro i
  cases i with
  | inl _ => exact hinl
  | inr k =>
    have hk : k = 0 := Subsingleton.elim k 0
    subst hk
    exact hinr

def afterTaking : Sys (Unit ⊕ Fin 2) Mem (Except String Unit) :=
  after anyStep (exampleStart 2) ((.inl (), true) :: List.replicate 6 (.inr 0, true))

/-- Another batch begins then, finds nothing, and returns: the quota has not been written. -/
theorem later_batch_misses :
    ∃ s₁ s₂ t, Reach anyStep (exampleStart 2) s₁ ∧ (∀ i, (s₁.prog (.inl i)).result.isSome = true) ∧
      s₁.prog (.inr 1) = (exampleStart 2).prog (.inr 1) ∧ Reach anyStep s₁ s₂ ∧
      (s₂.prog (.inr 1)).result.isSome = true ∧ Reach anyStep exampleDirect t ∧ (∀ i, (t.prog i).result.isSome = true) ∧
      s₂.mem.db.users 7 = some ⟨100, 0, 0⟩ ∧ t.mem.db.users 7 = some ⟨105, 0, 0⟩ := by
  have hrun : run anyStep (exampleStart 2) ((.inl (), true) :: List.replicate 6 (.inr 0, true)) = some afterTaking :=
    run_after (by decide +kernel)
  have hcall : ∀ i, (afterTaking.prog (.inl i)).result.isSome = true := by decide +kernel
  have hidle : afterTaking.prog (.inr 1) = (exampleStart 2).prog (.inr 1) := run_idle hrun (by decide)
  obtain ⟨s₂, hs₂, hreturned, hold⟩ : ∃ s₂, Reach anyStep afterTaking s₂ ∧
      (s₂.prog (.inr 1)).result.isSome ∧ s₂.mem.db.users 7 = some ⟨100, 0, 0⟩ :=
    exists_of_run (List.replicate 5 (.inr 1, true)) (by decide +kernel)
  obtain ⟨t, ht, hp'⟩ : ∃ t, Reach anyStep exampleDirect t ∧
      (t.prog ()).result.isSome ∧ t.mem.db.users 7 = some ⟨105, 0, 0⟩ :=
    exists_of_run [((), true)] (by decide +kernel)
  obtain ⟨hdone, hnew⟩ := hp'
  exact ⟨afterTaking, s₂, t, reach_run .start hrun, hcall, hidle, hs₂, hreturned, ht, fun _ => hdone, hold, hnew⟩

end AmuxApi.Batch
