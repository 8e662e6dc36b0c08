import AmuxApi.AsyncTask.Refunds

/- What a Suno provider's answer can make the polling loop do.

   The loop looks the task of each item up in the map of the tasks that it has loaded. The update
   runs to its end, and writes only their rows and what is moved for them, just if every item is
   about one of them and the channel has a base URL (`suno_reply_safe`). An item about any other
   task is a nil dereference, which ends the loop (`unknown_item_panics`). -/
namespace AmuxApi.AsyncTask
open Txn Prog

/-! The update of a channel's tasks. -/

/-- The rows of the tasks in `S`, and what was moved for them. -/
def RowsOf (S : Int → Prop) (k : Key) (_ : Row k → Option (Row k)) : Prop :=
  match k with
  | .task id | .ledger id => S id
  | .token _ => False

section
variable {S : Int → Prop} {c : Loaded} {r : Round}

theorem within_bulk (f : Task → Task) {ids : List Int} (h : ∀ id ∈ ids, S id) :
    (taskBulkUpdateByID ids f).Issues (RowsOf S) (fun _ => True) := by
  have hrows : ∀ ids : List Int, (∀ id ∈ ids, S id) → (updateTasks f ids).Issues (RowsOf S) (fun _ => True) := by
    intro ids h
    induction ids with
    | nil => trivial
    | cons id rest ih =>
      refine ⟨h id List.mem_cons_self, fun answer => ?_⟩
      cases answer with
      | none => trivial
      | some _ => exact ih fun id hid => h id (List.mem_cons_of_mem _ hid)
  unfold taskBulkUpdateByID
  split
  · trivial
  · exact issues_bind (issues_transaction (hrows ids h)) fun _ _ => trivial

theorem within_move {id : Int} (account : Account) (amount : Int) (h : S id) :
    (move id account amount).Issues (RowsOf S) (fun _ => True) :=
  issues_bind (issues_autocommit h) fun _ _ => trivial

theorem within_refundTaskQuota {id : Int} (t : Task) (h : S id) :
    (refundTaskQuota (ledgerAccounts id) t).Issues (RowsOf S) (fun _ => True) := by
  unfold refundTaskQuota
  split
  · trivial
  refine issues_bind (within_move _ _ h) fun funded _ => ?_
  split
  · show (taskAdjustTokenQuota id t (-t.quota)).Issues (RowsOf S) _
    unfold taskAdjustTokenQuota
    split
    · trivial
    · intro answer
      show Issues (RowsOf S) _ (ite _ _ _)
      split
      · trivial
      · exact issues_bind (within_move _ _ h) fun _ _ => trivial
  · trivial

theorem within_updateSunoTask (item : SunoItem) (h : S c.1) :
    (updateSunoTask r item c).Issues (RowsOf S) (fun c' => c'.1 = c.1) := by
  unfold updateSunoTask
  split
  · rfl
  have hsave : (do saveTask c.1 (item.apply c.2); return (c.1, item.apply c.2) : SQL Loaded).Issues (RowsOf S)
      (fun c' => c'.1 = c.1) := by
    refine issues_bind (P := fun _ => True) (issues_bind (issues_autocommit h) fun _ _ => ?_) fun _ _ => ?_
    · trivial
    · exact Eq.refl c.1
  dsimp only
  split
  · exact issues_bind (within_refundTaskQuota _ h) fun _ _ => hsave
  · exact hsave

/-- An item that was handled leaves the map with the same keys. -/
theorem isSome_update {m : TaskM} {u : String} (hu : (m u).isSome) (c' : Loaded) (v : String) :
    (Function.update m u (some c') v).isSome = (m v).isSome := by
  by_cases hv : v = u
  · simp [hv, hu]
  · simp [hv]

theorem within_updateSunoItems {items : List SunoItem} {m : TaskM} (hm : ∀ u c, m u = some c → S c.1)
    (hitems : ∀ item ∈ items, (m item.taskID).isSome) :
    (updateSunoItems r items m).Issues (RowsOf S) (·.isSome) := by
  induction items generalizing m with
  | nil => rfl
  | cons item rest ih =>
    have hitem := hitems item List.mem_cons_self
    obtain ⟨c, hc⟩ := Option.isSome_iff_exists.mp hitem
    rw [updateSunoItems, hc]
    refine issues_bind (within_updateSunoTask item (hm _ c hc)) fun c' hc' => ih (fun u c1 hu => ?_) fun item' hin => ?_
    · -- the item's task keeps its id
      by_cases he : u = item.taskID
      · subst he
        rw [Function.update_self] at hu
        cases hu
        rw [hc']
        exact hm _ c hc
      · rw [Function.update_of_ne he] at hu
        exact hm u c1 hu
    · rw [isSome_update hitem]
      exact hitems item' (List.mem_cons_of_mem _ hin)

/-- The loop gets past its items only if each has a task in the map. -/
theorem items_known {K : (k : Key) → (Row k → Option (Row k)) → Prop} {items : List SunoItem} {m : TaskM}
    (h : (updateSunoItems r items m).Issues K (·.isSome)) : ∀ item ∈ items, (m item.taskID).isSome := by
  induction items generalizing m with
  | nil => exact fun _ => nofun
  | cons item rest ih =>
    rw [updateSunoItems] at h
    cases hc : m item.taskID with
    | none => simp [hc, pure, Issues] at h
    | some c =>
      rw [hc] at h
      obtain ⟨c', hrest, -⟩ := (issues_bind_iff.mp h).some (within_updateSunoTask (S := fun _ => True) item trivial)
      have hitem : (m item.taskID).isSome := by simp [hc]
      rintro item' (_ | ⟨_, hin⟩)
      · exact hitem
      · rw [← isSome_update hitem c']
        exact ih hrest item' hin

end

/-- If the channel is asked, it has a base URL and answers about loaded tasks. -/
def Known (r : Round) (channelId : Int) (upstreamIDs : List String) (m : TaskM) : Prop :=
  upstreamIDs ≠ [] → r.channel channelId ≠ none → r.adaptor "suno" = true → r.baseURL channelId = true ∧
    ∀ items, r.sunoReply channelId = some items → ∀ item ∈ items, (m item.taskID).isSome

/-- **An answer is safe just if it is about the loaded tasks** and the channel has a base URL: the update ends,
and writes nothing about any other task, whatever its statements answer. -/
theorem suno_reply_safe (r : Round) (channelId : Int) (upstreamIDs : List String) (m : TaskM) :
    (updateSunoTasks r channelId upstreamIDs m).Issues (RowsOf fun id => ∃ u t, m u = some (id, t)) (·.isSome) ↔
      Known r channelId upstreamIDs m := by
  unfold updateSunoTasks Known
  split
  · simp [pure, Issues, *]
  cases r.channel channelId with
  | none =>
    refine ⟨fun _ _ h => absurd rfl h, fun _ => issues_bind (within_bulk _ fun id hid => ?_) fun _ _ => rfl⟩
    obtain ⟨u, -, hu⟩ := List.mem_filterMap.mp hid
    obtain ⟨⟨id', t⟩, hc, rfl⟩ := Option.map_eq_some_iff.mp hu
    exact ⟨u, t, hc⟩
  | some amux =>
    cases r.adaptor "suno" with
    | false => simp [pure, Issues]
    | true =>
      cases r.baseURL channelId with
      | false => simp [pure, Issues, *]
      | true =>
        cases r.sunoReply channelId with
        | none => simp [pure, Issues]
        | some items =>
          constructor
          · rintro h - - -
            refine ⟨rfl, ?_⟩
            rintro _ ⟨⟩
            exact items_known h
          · intro h
            exact within_updateSunoItems (fun u c hc => ⟨u, c.2, hc⟩) ((h ‹_› (by simp) rfl).2 items rfl)

/-- A round in which the provider answers about the task `u`. -/
def exampleSunoRound (u : String) : Round :=
  { exampleRound fun _ => some false with sunoReply := fun _ => some [⟨u, .success, "", 0, 0, 0, ""⟩] }

def exampleTaskM : TaskM := fun u => if u = "a" then some (1, exampleTask) else none

theorem suno_reply_safe_known :
    (updateSunoTasks (exampleSunoRound "a") 1 ["a"] exampleTaskM).Issues
      (RowsOf fun id => ∃ u t, exampleTaskM u = some (id, t)) (·.isSome) := by
  refine (suno_reply_safe (exampleSunoRound "a") 1 ["a"] exampleTaskM).mpr fun _ _ _ => ⟨rfl, ?_⟩
  rintro _ ⟨⟩
  decide

/-- The provider was asked about `a` and answers about `b`. -/
theorem unknown_item_panics : updateSunoTasks (exampleSunoRound "b") 1 ["a"] exampleTaskM = pure none := rfl

end AmuxApi.AsyncTask
