import AmuxApi.AsyncTask.Refunds

/- Each task is polled by the answer of its own channel.

   `pollChannel` says what a channel's turn is for: the tasks of the channel, and no others, each with what
   the channel says of its upstream id. The round does this and nothing else, statement by statement
   (`polled_by_own_channel`), so whatever fails and whatever is interleaved with it. It takes all tasks of a
   platform by their upstream ids, though, so the ids of all channels have to differ, and a Suno channel needs
   a base URL and may only answer about tasks that were asked for: of two tasks with one id, one is failed
   and refunded by the other's channel, and the other is left out (`failed_by_other_channel`). -/
namespace AmuxApi.AsyncTask
open Txn Function Prog List

/-! The turn of a channel. -/

def upstreamIDs (cs : List Loaded) : List String := cs.map (·.2.getUpstreamTaskID)

def tasksOf (live : List Loaded) (channelId : Int) : List Loaded := live.filter (·.2.channelId = channelId)

/-- The reason of a task whose channel is gone. -/
def goneReason (platform : String) (channelId : Int) : String :=
  (if platform = "suno" then "获取渠道信息失败，请联系管理员，渠道ID：" else "Failed to get channel info, channel ID: ") ++
    toString channelId

def answerVideos (host : Host) (r : Round) (channelId : Int) (amux : Bool) : List Loaded → SQL Unit
  | [] => return ()
  | c :: rest => do
    let u := c.2.getUpstreamTaskID
    let _ ← updateVideoSingleTask host (r.videoNow channelId u) amux (r.videoReply channelId u) c.1 c.2
    answerVideos host r channelId amux rest

/-- Items that are about a task of the list, one after the other. -/
def answerSuno (r : Round) : List SunoItem → List Loaded → SQL Unit
  | [], _ => return ()
  | item :: rest, cs =>
    match cs.find? (·.2.getUpstreamTaskID = item.taskID) with
    | none => answerSuno r rest cs
    | some c => do
      let c' ← updateSunoTask r item c
      answerSuno r rest (cs.map fun x => if x.2.getUpstreamTaskID = item.taskID then c' else x)

def pollChannel (host : Host) (r : Round) (platform : String) (live : List Loaded) (channelId : Int) : SQL Unit :=
  match r.channel channelId with
  | none =>
    taskBulkUpdateByID ((tasksOf live channelId).map (·.1)) fun t =>
      { t with failReason := goneReason platform channelId, status := .failure, progress := "100%" }
  | some amux =>
    if ¬ r.adaptor platform then return ()
    else if platform = "suno" then
      match r.sunoReply channelId with
      | none => return ()
      | some items => answerSuno r items (tasksOf live channelId)
    else answerVideos host r channelId amux (tasksOf live channelId)

def pollInTurn (host : Host) (r : Round) (platform : String) (live : List Loaded) : List Int → SQL Unit
  | [] => return ()
  | channelId :: rest => do
    pollChannel host r platform live channelId
    pollInTurn host r platform live rest

/-- The upstream ids of a platform differ, and a Suno channel has a base URL and replies about its tasks. -/
structure Apart (r : Round) (platform : String) (live : List Loaded) : Prop where
  ids : (upstreamIDs live).Nodup
  url : platform = "suno" → ∀ channelId, r.channel channelId ≠ none → r.baseURL channelId = true
  items : platform = "suno" → ∀ channelId items, r.sunoReply channelId = some items →
    ∀ item ∈ items, item.taskID ∈ ofChannel live channelId

/-! Turns. -/

section
variable {host : Host} {r : Round} {platform : String} {live : List Loaded} {m : TaskM} {α : Type}

/-- The map has the tasks of the list under their ids. -/
def Has (m : TaskM) (cs : List Loaded) : Prop := ∀ c ∈ cs, m c.2.getUpstreamTaskID = some c

theorem has_taskM (hids : (upstreamIDs live).Nodup) : Has (taskM live) live := by
  intro c hc
  have hmem : c ∈ live.filter (·.2.getUpstreamTaskID = c.2.getUpstreamTaskID) := by simp [hc]
  cases hlast : taskM live c.2.getUpstreamTaskID with
  | none =>
    rw [List.getLast?_eq_none_iff.mp hlast] at hmem
    cases hmem
  | some c' =>
    obtain ⟨hc', hu⟩ := taskM_some hlast
    rw [inj_on_of_nodup_map hids hc' hc hu]

/-- Nothing of the map but the ids of a turn is changed in it: so the rest of the round is always `rest`. -/
def GoesOn (m : TaskM) (us : List String) (k : TaskM → SQL α) (rest : SQL α) : Prop :=
  ∀ m', (∀ u ∉ us, m' u = m u) → k m' = rest

variable {rest : SQL α}

theorem updateVideos_eq {channelId : Int} {amux : Bool} {k : TaskM → SQL α} (cs : List Loaded) :
    ∀ {m : TaskM}, Has m cs → (upstreamIDs cs).Nodup → GoesOn m (upstreamIDs cs) k rest →
    (updateVideos host r channelId amux (upstreamIDs cs) m >>= k) =
      (answerVideos host r channelId amux cs >>= fun _ => rest) := by
  induction cs with
  | nil =>
    intro m _ _ hends
    exact hends m fun _ _ => rfl
  | cons c cs ih =>
    intro m hhas hnodup hends
    rw [upstreamIDs, map_cons, nodup_cons] at hnodup
    simp only [upstreamIDs, map_cons, updateVideos, hhas c mem_cons_self, answerVideos, bind_assoc]
    refine congrArg (_ >>= ·) (funext fun res => ?_)
    apply ih _ hnodup.2
    · intro m' hm'
      apply hends
      intro u hu
      rw [upstreamIDs, map_cons, mem_cons, not_or] at hu
      rw [hm' u hu.2, update_of_ne hu.1]
    · intro c' hc'
      have hne : c'.2.getUpstreamTaskID ≠ c.2.getUpstreamTaskID := by
        intro h
        exact hnodup.1 (h ▸ mem_map_of_mem hc')
      rw [update_of_ne hne]
      exact hhas c' (mem_cons_of_mem c hc')

/-- A task keeps its upstream id. -/
theorem updateSunoTask_eq (item : SunoItem) (c : Loaded) : ∃ (x : SQL Unit) (t : Task),
    t.getUpstreamTaskID = c.2.getUpstreamTaskID ∧ updateSunoTask r item c = x >>= fun _ => pure (c.1, t) := by
  unfold updateSunoTask
  split
  · exact ⟨pure (), c.2, rfl, rfl⟩
  · refine ⟨(if item.failed c.2 then refundTaskQuota (ledgerAccounts c.1) (item.apply c.2) else pure ()) >>= fun _ =>
      saveTask c.1 (item.apply c.2), item.apply c.2, rfl, ?_⟩
    rw [bind_assoc]
    split <;> rfl

theorem updateSunoItems_eq {k : Option TaskM → SQL α} (items : List SunoItem) :
    ∀ {m : TaskM} {cs : List Loaded}, Has m cs → (∀ item ∈ items, item.taskID ∈ upstreamIDs cs) →
    GoesOn m (upstreamIDs cs) (fun m' => k (some m')) rest →
    (updateSunoItems r items m >>= k) = (answerSuno r items cs >>= fun _ => rest) := by
  induction items with
  | nil =>
    intro m cs _ _ hends
    exact hends m fun _ _ => rfl
  | cons item items ih =>
    intro m cs hhas hitems hends
    have hmem := hitems item mem_cons_self
    obtain ⟨c, hfind⟩ : ∃ c, cs.find? (·.2.getUpstreamTaskID = item.taskID) = some c := by
      obtain ⟨c, hc, hu⟩ := mem_map.mp hmem
      exact Option.isSome_iff_exists.mp (List.find?_isSome.mpr ⟨c, hc, by simpa using hu⟩)
    have hu : c.2.getUpstreamTaskID = item.taskID := by simpa using List.find?_some hfind
    have hm : m item.taskID = some c := hu ▸ hhas c (mem_of_find?_eq_some hfind)
    obtain ⟨x, t, ht, hx⟩ := updateSunoTask_eq (r := r) item c
    -- the list has the same ids afterwards
    have hids : upstreamIDs (cs.map fun x => if x.2.getUpstreamTaskID = item.taskID then (c.1, t) else x) =
        upstreamIDs cs := by
      rw [upstreamIDs, map_map]
      refine map_congr_left fun x _ => ?_
      by_cases h : x.2.getUpstreamTaskID = item.taskID
      · simp [h, ht, hu]
      · simp [h]
    simp only [updateSunoItems, hm, answerSuno, hfind, hx, bind_assoc]
    refine congrArg (x >>= ·) (funext fun _ => ?_)
    apply ih
    · intro c' hc'
      obtain ⟨x, hx, rfl⟩ := mem_map.mp hc'
      split
      · rw [ht, hu, update_self]
      · next h => rw [update_of_ne h, hhas x hx]
    · intro item' hitem'
      rw [hids]
      exact hitems item' (mem_cons_of_mem item hitem')
    · intro m' hm'
      rw [hids] at hm'
      refine hends m' fun u hu => ?_
      rw [hm' u hu, update_of_ne]
      rintro rfl
      exact hu hmem

theorem failedIDs_eq {cs : List Loaded} (h : Has m cs) : failedIDs m (upstreamIDs cs) = cs.map (·.1) := by
  rw [failedIDs, upstreamIDs, filterMap_map]
  refine filterMap_eq_map_iff_forall_eq_some.mpr fun c hc => ?_
  simp [h c hc]

/-- One channel's turn, and then the rest of the round. -/
theorem turn_eq (hapart : Apart r platform live) {channelId : Int} {k : Option TaskM → SQL α}
    (hhas : Has m (tasksOf live channelId)) (hends : GoesOn m (ofChannel live channelId) (fun m' => k (some m')) rest) :
    ((if platform = "suno" then updateSunoTasks r channelId (ofChannel live channelId) m
      else updateVideoTasks host r platform channelId (ofChannel live channelId) m) >>= k) =
    (pollChannel host r platform live channelId >>= fun _ => rest) := by
  have hsame : k (some m) = rest := hends m fun _ _ => rfl
  have hgone : failedIDs m (ofChannel live channelId) = (tasksOf live channelId).map (·.1) := failedIDs_eq hhas
  have hids : (ofChannel live channelId).Nodup := hapart.ids.sublist (filter_sublist.map _)
  unfold pollChannel
  by_cases hp : platform = "suno"
  · simp only [if_pos hp, updateSunoTasks]
    subst hp
    by_cases hempty : ofChannel live channelId = []
    · -- a channel without tasks is not asked, and nothing was to be answered
      have htasks : tasksOf live channelId = [] := map_eq_nil_iff.mp hempty
      rw [if_pos hempty, htasks]
      cases r.channel channelId with
      | none => exact hsame
      | some amux =>
        dsimp only
        split
        · exact hsame
        · cases hreply : r.sunoReply channelId with
          | none => exact hsame
          | some items =>
            have hitems := hapart.items rfl channelId items hreply
            rw [hempty] at hitems
            rw [eq_nil_iff_forall_not_mem.mpr fun item h => not_mem_nil (hitems item h)]
            exact hsame
    rw [if_neg hempty]
    cases hchannel : r.channel channelId with
    | none => simp only [bind_assoc, hgone]; exact congrArg (_ >>= ·) (funext fun _ => hsame)
    | some amux =>
      dsimp only
      split
      · exact hsame
      rw [if_neg (by simp [hapart.url rfl channelId (by simp [hchannel])])]
      cases hreply : r.sunoReply channelId with
      | none => exact hsame
      | some items => exact updateSunoItems_eq items hhas (hapart.items rfl channelId items hreply) hends
  · simp only [if_neg hp, updateVideoTasks, goneReason]
    cases r.channel channelId with
    | none => simp only [bind_assoc, hgone]; exact congrArg (_ >>= ·) (funext fun _ => hsame)
    | some amux =>
      dsimp only
      split
      · exact hsame
      · rw [bind_assoc]
        exact updateVideos_eq (k := fun m' => k (some m')) (tasksOf live channelId) hhas hids hends

theorem updateChannels_eq (hapart : Apart r platform live) (channels : List Int) :
    ∀ {m : TaskM}, channels.Nodup → (∀ channelId ∈ channels, Has m (tasksOf live channelId)) →
    (updateChannels host r platform live channels m >>= fun _ => pure ()) =
      pollInTurn host r platform live channels := by
  induction channels with
  | nil =>
    intro m _ _
    rfl
  | cons channelId channels ih =>
    intro m hnodup hhas
    rw [nodup_cons] at hnodup
    rw [updateChannels, bind_assoc]
    apply turn_eq hapart (hhas channelId mem_cons_self)
    intro m' hm'
    refine ih hnodup.2 fun other hother c hc => ?_
    -- the tasks of the other channels have other ids
    rw [hm', hhas other (mem_cons_of_mem channelId hother) c hc]
    intro hmem
    obtain ⟨c', hc', hch, hu⟩ := mem_ofChannel.mp hmem
    obtain ⟨hclive, hcch⟩ := mem_filter.mp hc
    have heq : c' = c := inj_on_of_nodup_map hapart.ids hc' hclive hu
    have hchannel : other = channelId := by rw [← of_decide_eq_true hcch, ← heq, hch]
    exact hnodup.1 (hchannel ▸ hother)

end

/-- Channel 3 reports a failure, and channel 4 that the task goes on. -/
def twoChannels : Round :=
  { exampleRound fun _ => some false with
    videoReply := fun channelId _ =>
      if channelId = 3 then .parsed { status := some .failure, reason := "blocked" } "failed" .unrecognized
      else .parsed { status := some .inProgress, progress := "40%" } "running" .unrecognized
    channels := List.reverse
    channels_perm := reverse_perm }

/-- A task on channel 3 and one on channel 4, whose upstream id is `other`. -/
def twoTasks (other : String) : List Loaded :=
  [(1, exampleTask), (2, { exampleTask with channelId := 4, upstreamTaskID := other })]

def twoRows (other : String) : Tables
  | .task id => (twoTasks other).lookup id
  | .ledger _ => [⟨.wallet 7, 100⟩]
  | .token _ => none

end AmuxApi.AsyncTask
