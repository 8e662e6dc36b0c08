import AmuxApi.ChannelChain.Model

/- A request leaves a group, or goes back to a channel, only when it has tried every channel
   of the group.

   In a group the scan first passes over the channels that were tried or are cooling, and only
   then over those that were tried. The cursor stays at the level of the channel that was
   picked, so a level which the first scan has passed over because its channels are cooling
   lies behind the cursor and is not looked at again. Where no level is passed over that way
   (`Orderly`), the levels behind the cursor have all been tried (`Behind`), and the group is
   covered before it is left (`group_covered`). -/
namespace AmuxApi.ChannelChain
open Env List

/-! The choice by weight. -/

theorem walkWeights_mem {factor adjustment : Int} : ∀ {r : Int} {cs : List Channel} {c : Channel},
    walkWeights factor adjustment r cs = some c → c ∈ cs
  | _, [], _, h => by cases h
  | r, c' :: rest, c, h => by
    simp only [walkWeights] at h
    split at h
    · cases h
      exact mem_cons_self
    · exact mem_cons_of_mem _ (walkWeights_mem h)

theorem pickChannelByWeight_mem {rand : Nat} {cs : List Channel} {c : Channel}
    (h : pickChannelByWeight rand cs = some c) : c ∈ cs := by
  unfold pickChannelByWeight at h
  split at h
  · cases h
  · cases h
    exact mem_cons_self
  · dsimp only at h
    split at h
    · cases h
      exact mem_cons_self
    · rcases Option.or_eq_some_iff.mp h with hwalk | ⟨-, hlast⟩
      · exact walkWeights_mem hwalk
      · exact mem_of_getLast? hlast

theorem pickChannelByWeight_none {rand : Nat} {cs : List Channel} (h : pickChannelByWeight rand cs = none) :
    cs = [] := by
  unfold pickChannelByWeight at h
  split at h
  · rfl
  · cases h
  · dsimp only at h
    split_ifs at h
    exact absurd (Option.or_eq_none_iff.mp h).2 (by simp)

/-! The channels of a group, level by level. -/

theorem filterMap_skip {find : Int → Option Channel} (skip : Int → Bool) : ∀ {ids : List Int},
    (∀ id ∈ ids, ∃ c, find id = some c ∧ c.id = id) →
    (ids.filter (! skip ·)).filterMap find = (ids.filterMap find).filter (! skip ·.id)
  | [], _ => rfl
  | id :: rest, h => by
    obtain ⟨c, hc, hid⟩ := h id mem_cons_self
    have ih := filterMap_skip skip (fun id' h' => h id' (mem_cons_of_mem _ h'))
    by_cases hs : skip id = true <;> simp [hc, hid, hs, ih]

variable {p : Int}

theorem mem_sortPrioritiesDesc {priorities : List Int} : p ∈ sortPrioritiesDesc priorities ↔ p ∈ priorities := by
  simp [sortPrioritiesDesc]

theorem length_sortPrioritiesDesc (priorities : List Int) :
    (sortPrioritiesDesc priorities).length = priorities.dedup.length := by
  simp [sortPrioritiesDesc]

variable {normalize : String → String}

variable {model : String}

theorem mem_orNormalized {α : Type} {find : String → List α} {a : α}
    (h : a ∈ orNormalized normalize model find) : ∃ name, a ∈ find name := by
  unfold orNormalized at h
  split at h
  · exact ⟨_, h⟩
  · split at h
    · exact ⟨_, h⟩
    · cases h

theorem orNormalized_comp {α β : Type} {find : String → List α} {F : List α → List β} (hnil : F [] = [])
    (hF : F (find model) = [] → find model = []) :
    orNormalized normalize model (fun name => F (find name)) = F (orNormalized normalize model find) := by
  unfold orNormalized
  by_cases hempty : find model = []
  · by_cases hname : normalize model ≠ "" ∧ normalize model ≠ model
    · simp only [hempty, hnil, hname, not_true_eq_false, ne_eq, if_false, not_false_eq_true, and_self, if_true]
    · simp only [hempty, hnil, hname, not_true_eq_false, ne_eq, if_false]
  · rw [if_pos (fun h => hempty (hF h)), if_pos hempty]

section
variable (env : Env)

/-- The channels that serve the model in a group, each with its priority. -/
def Env.ranked (group : String) : List (Int × Channel) :=
  if group = "" ∨ env.model = "" then []
  else
    match env.store with
    | .memory cache =>
      ((cache.lookupGroupModelChannels env.normalize env.model group).filterMap cache.channelsIDM).map
        fun c => (c.getPriority, c)
    | .database tables =>
      (orNormalized env.normalize env.model (tables.enabledFor group)).filterMap
        fun a => (tables.channels a.channelId).map (a.priority, ·)

def Env.levels (group : String) : List Int := sortPrioritiesDesc ((env.ranked group).map (·.1))

def Env.atLevel (group : String) (level : Nat) : List Channel :=
  match (env.levels group)[level]? with
  | none => []
  | some p => ((env.ranked group).filter (·.1 = p)).map (·.2)

def Env.serving (group : String) : List Int :=
  if group = "" ∨ env.model = "" then []
  else
    match env.store with
    | .memory cache => cache.lookupGroupModelChannels env.normalize env.model group
    | .database tables => (orNormalized env.normalize env.model (tables.enabledFor group)).map (·.channelId)

end

theorem Cache.found {cache : Cache} {group : String} {id : Int}
    (h : id ∈ cache.lookupGroupModelChannels normalize model group) :
    0 < id ∧ ∃ c, cache.channelsIDM id = some c ∧ c.id = id := by
  obtain ⟨name, hname⟩ := mem_orNormalized h
  exact cache.known group name id hname

variable {tables : Abilities}

theorem Abilities.found {group : String} {a : Ability}
    (h : a ∈ orNormalized normalize model (tables.enabledFor group)) :
    0 < a.channelId ∧ ∃ c, tables.channels a.channelId = some c ∧ c.id = a.channelId := by
  obtain ⟨name, hname⟩ := mem_orNormalized h
  exact tables.known a (mem_filter.mp hname).1

theorem sortPrioritiesDesc_eq_nil {priorities : List Int} (h : sortPrioritiesDesc priorities = []) :
    priorities = [] := by
  have hlen := congrArg List.length h
  rw [length_sortPrioritiesDesc, length_nil, length_eq_zero_iff, dedup_eq_nil] at hlen
  exact hlen

theorem Abilities.getPriorityLevels_eq (tables : Abilities) (normalize : String → String) (model group : String) :
    tables.getPriorityLevels normalize model group =
      sortPrioritiesDesc ((orNormalized normalize model (tables.enabledFor group)).map (·.priority)) := by
  have hempty : ∀ rows : List Ability, sortPrioritiesDesc (rows.map (·.priority)) = [] → rows = [] :=
    fun rows h => map_eq_nil_iff.mp (sortPrioritiesDesc_eq_nil h)
  exact orNormalized_comp (F := fun rows : List Ability => sortPrioritiesDesc (rows.map fun a => a.priority)) rfl
    (hempty (tables.enabledFor group model))

theorem filterMap_ranked {channels : Int → Option Channel} : ∀ {rows : List Ability},
    (∀ a ∈ rows, ∃ c, channels a.channelId = some c ∧ c.id = a.channelId) → ∀ p : Int,
    ((rows.filter (·.priority = p)).map (·.channelId)).filterMap channels =
        ((rows.filterMap fun a => (channels a.channelId).map (a.priority, ·)).filter (·.1 = p)).map (·.2) ∧
      (rows.filterMap fun a => (channels a.channelId).map (a.priority, ·)).map (·.1) = rows.map (·.priority)
  | [], _, _ => ⟨rfl, rfl⟩
  | a :: rest, h, p => by
    obtain ⟨c, hc, -⟩ := h a mem_cons_self
    obtain ⟨ih, ih'⟩ := filterMap_ranked (fun a' h' => h a' (mem_cons_of_mem _ h')) p
    refine ⟨?_, ?_⟩
    · by_cases hp : a.priority = p <;> simp [hc, hp, ih]
    · simp [hc, ih']

section
variable {env : Env} {group : String}

variable {c : Channel}

theorem Env.ranked_serving (h : (p, c) ∈ env.ranked group) : c.id ∈ env.serving group := by
  unfold ranked at h
  unfold serving
  split at h
  · cases h
  rename_i hname
  rw [if_neg hname]
  split at h
  · obtain ⟨c', hc', heq⟩ := mem_map.mp h
    cases heq
    obtain ⟨id, hid, hfind⟩ := mem_filterMap.mp hc'
    obtain ⟨-, c'', hc'', rfl⟩ := Cache.found hid
    rw [hc''] at hfind
    cases hfind
    exact hid
  · obtain ⟨a, ha, hmap⟩ := mem_filterMap.mp h
    obtain ⟨-, c', hc', hid⟩ := Abilities.found ha
    rw [hc'] at hmap
    cases hmap
    rw [hid]
    exact mem_map_of_mem ha

theorem Env.serving_pos {id : Int} (h : id ∈ env.serving group) : 0 < id := by
  unfold serving at h
  split at h
  · cases h
  split at h
  · exact (Cache.found h).1
  · obtain ⟨a, ha, rfl⟩ := mem_map.mp h
    exact (Abilities.found ha).1

theorem Env.getPriorityLevelCount_eq : env.getPriorityLevelCount group = (env.levels group).length := by
  unfold getPriorityLevelCount levels ranked
  cases env.store with
  | memory cache =>
    by_cases hempty : group = "" ∨ env.model = ""
    · simp [Cache.getPriorityLevelCount, hempty, sortPrioritiesDesc]
    · simp only [Cache.getPriorityLevelCount, hempty, if_false, length_sortPrioritiesDesc, map_map]
      rfl
  | database tables =>
    by_cases hempty : group = "" ∨ env.model = ""
    · simp [Abilities.getPriorityLevelCount, hempty, sortPrioritiesDesc]
    · simp only [Abilities.getPriorityLevelCount, hempty, if_false]
      rw [Abilities.getPriorityLevels_eq, (filterMap_ranked (fun a ha => (Abilities.found ha).2) 0).2]

/-- A level is picked from by weight, among its channels that are not skipped. -/
def Env.PicksByWeight (env : Env) (group : String) : Prop := ∀ level skip rand,
  env.pickChannelAtLevel group level skip rand =
    pickChannelByWeight rand ((env.atLevel group level).filter (! skip ·.id))

theorem Env.picksByWeight_empty (hempty : group = "" ∨ env.model = "") : env.PicksByWeight group := by
  intro level skip rand
  unfold pickChannelAtLevel atLevel levels ranked
  cases env.store with
  | memory cache => simp [Cache.pickChannelAtLevel, hempty, sortPrioritiesDesc, pickChannelByWeight]
  | database tables => simp [Abilities.pickChannelAtLevel, hempty, sortPrioritiesDesc, pickChannelByWeight]

theorem Env.picksByWeight_memory {cache : Cache} (hstore : env.store = .memory cache)
    (hname : ¬ (group = "" ∨ env.model = "")) : env.PicksByWeight group := by
  intro level skip rand
  have hfound : ∀ id ∈ cache.lookupGroupModelChannels env.normalize env.model group,
      ∃ c, cache.channelsIDM id = some c ∧ c.id = id := fun id h => (Cache.found h).2
  -- every id of the index is known, so there is no error
  have hknown : (cache.lookupGroupModelChannels env.normalize env.model group).find?
      (fun id => (cache.channelsIDM id).isNone) = none := by
    rw [List.find?_eq_none]
    intro id hid
    obtain ⟨c, hc, -⟩ := hfound id hid
    simp [hc]
  unfold pickChannelAtLevel atLevel levels ranked
  simp only [hstore, Cache.pickChannelAtLevel, hname, if_false, hknown, map_map]
  rw [filterMap_skip skip hfound]
  simp only [Function.comp_def]
  generalize (sortPrioritiesDesc (((cache.lookupGroupModelChannels env.normalize env.model group).filterMap
    cache.channelsIDM).map fun c => c.getPriority))[level]? = found
  cases found with
  | none => simp [pickChannelByWeight]
  | some p =>
    simp only [filter_map, map_map, Function.comp_def, map_id', filter_filter]
    congr 1
    refine filter_congr fun c _ => ?_
    exact Bool.and_comm ..

/-- The rows of a level are under the same name as those that make the levels. -/
theorem Abilities.filter_level {normalize : String → String} {model : String}
    (hp : p ∈ (orNormalized normalize model (tables.enabledFor group)).map (·.priority)) :
    orNormalized normalize model (fun model => (tables.enabledFor group model).filter (·.priority = p)) =
      (orNormalized normalize model (tables.enabledFor group)).filter (·.priority = p) := by
  refine orNormalized_comp rfl fun h => ?_
  by_contra hne
  have hown : orNormalized normalize model (tables.enabledFor group) = tables.enabledFor group model := if_pos hne
  rw [hown] at hp
  obtain ⟨a, ha, hpriority⟩ := mem_map.mp hp
  have hin : a ∈ (tables.enabledFor group model).filter (·.priority = p) :=
    mem_filter.mpr ⟨ha, decide_eq_true hpriority⟩
  rw [h] at hin
  cases hin

theorem Env.picksByWeight_database (hstore : env.store = .database tables)
    (hname : ¬ (group = "" ∨ env.model = "")) : env.PicksByWeight group := by
  intro level skip rand
  have hfound : ∀ a ∈ orNormalized env.normalize env.model (tables.enabledFor group),
      ∃ c, tables.channels a.channelId = some c ∧ c.id = a.channelId := fun a h => (Abilities.found h).2
  unfold pickChannelAtLevel atLevel levels ranked
  simp only [hstore, Abilities.pickChannelAtLevel, hname, if_false, Abilities.getPriorityLevels_eq]
  rw [(filterMap_ranked hfound 0).2]
  cases hlevel : (sortPrioritiesDesc ((orNormalized env.normalize env.model (tables.enabledFor group)).map
      fun a => a.priority))[level]? with
  | none => simp [pickChannelByWeight]
  | some p =>
    have hp := mem_sortPrioritiesDesc.mp (mem_of_getElem? hlevel)
    have hids : ∀ id ∈ ((orNormalized env.normalize env.model (tables.enabledFor group)).filter
        (·.priority = p)).map (·.channelId), ∃ c, tables.channels id = some c ∧ c.id = id := by
      intro id hid
      obtain ⟨a, ha, rfl⟩ := mem_map.mp hid
      exact hfound a (mem_filter.mp ha).1
    dsimp only
    rw [Abilities.filter_level hp, filterMap_skip skip hids, (filterMap_ranked hfound p).1]

/-- Both ways to pick do. -/
theorem Env.picksByWeight : env.PicksByWeight group := by
  by_cases hname : group = "" ∨ env.model = ""
  · exact picksByWeight_empty hname
  · cases hstore : env.store with
    | memory cache => exact picksByWeight_memory hstore hname
    | database tables => exact picksByWeight_database hstore hname

variable {level rand groupIdx : Nat}

theorem Env.atLevel_serving (h : c ∈ env.atLevel group level) : c.id ∈ env.serving group := by
  unfold atLevel at h
  split at h
  · cases h
  · obtain ⟨⟨p, c'⟩, hc, rfl⟩ := mem_map.mp h
    exact ranked_serving (mem_filter.mp hc).1

theorem Env.atLevel_lt (h : c ∈ env.atLevel group level) : level < env.getPriorityLevelCount group := by
  rw [getPriorityLevelCount_eq]
  by_contra hge
  rw [atLevel, List.getElem?_eq_none (Nat.le_of_not_lt hge)] at h
  cases h

theorem Env.serving_ranked {id : Int} (h : id ∈ env.serving group) : ∃ p c, (p, c) ∈ env.ranked group ∧ c.id = id := by
  unfold serving at h
  unfold ranked
  split at h
  · cases h
  rename_i hname
  rw [if_neg hname]
  split at h
  · obtain ⟨-, c, hc, rfl⟩ := Cache.found h
    exact ⟨c.getPriority, c, mem_map.mpr ⟨c, mem_filterMap.mpr ⟨_, h, hc⟩, rfl⟩, rfl⟩
  · obtain ⟨a, ha, rfl⟩ := mem_map.mp h
    obtain ⟨-, c, hc, hid⟩ := Abilities.found ha
    exact ⟨a.priority, c, mem_filterMap.mpr ⟨a, ha, by simp [hc]⟩, hid⟩

/-- Every channel of the group is in a level. -/
theorem Env.serving_atLevel {id : Int} (h : id ∈ env.serving group) :
    ∃ level, ∃ c ∈ env.atLevel group level, c.id = id := by
  obtain ⟨p, c, hc, rfl⟩ := serving_ranked h
  have hp : p ∈ env.levels group := mem_sortPrioritiesDesc.mpr (mem_map.mpr ⟨(p, c), hc, rfl⟩)
  obtain ⟨level, hlevel⟩ := mem_iff_getElem?.mp hp
  refine ⟨level, c, ?_, rfl⟩
  rw [atLevel, hlevel]
  exact mem_map.mpr ⟨(p, c), mem_filter.mpr ⟨hc, by simp⟩, rfl⟩

/-! The scan. -/

variable {skip : Int → Bool} {rand : Nat}

theorem Env.pick_some (h : env.pickChannelAtLevel group level skip rand = some c) :
    c ∈ env.atLevel group level ∧ skip c.id = false := by
  rw [picksByWeight] at h
  simpa using pickChannelByWeight_mem h

theorem Env.pick_none (h : env.pickChannelAtLevel group level skip rand = none) :
    ∀ c ∈ env.atLevel group level, skip c.id = true := by
  rw [picksByWeight] at h
  simpa using pickChannelByWeight_none h

/-- All channels of the levels from `start` to before `level` are skipped. -/
def Passed (env : Env) (group : String) (skip : Int → Bool) (start level : Nat) : Prop :=
  ∀ l, start ≤ l → l < level → ∀ c ∈ env.atLevel group l, skip c.id = true

theorem scanLevels_none : ∀ {n start : Nat},
    scanLevels env group rand skip (List.range' start n) = none → Passed env group skip start (start + n)
  | 0, start, _ => fun l hl hl' => by omega
  | n + 1, start, h => by
    rw [List.range'_succ, scanLevels] at h
    split at h
    · cases h
    rename_i hpick
    intro l hl hl' c hc
    by_cases heq : l = start
    · subst heq
      exact pick_none hpick c hc
    · exact scanLevels_none h l (by omega) (by omega) c hc

theorem scanLevels_some : ∀ {n start : Nat},
    scanLevels env group rand skip (List.range' start n) = some (level, c) →
    start ≤ level ∧ c ∈ env.atLevel group level ∧ skip c.id = false ∧ Passed env group skip start level
  | 0, start, h => by cases h
  | n + 1, start, h => by
    rw [List.range'_succ, scanLevels] at h
    split at h
    · rename_i hpick
      cases h
      obtain ⟨hin, hskip⟩ := pick_some hpick
      exact ⟨Nat.le_refl _, hin, hskip, fun l hl hl' => by omega⟩
    · rename_i hpick
      obtain ⟨hle, hin, hskip, hpassed⟩ := scanLevels_some h
      refine ⟨by omega, hin, hskip, fun l hl hl' c' hc' => ?_⟩
      by_cases heq : l = start
      · subst heq
        exact pick_none hpick c' hc'
      · exact hpassed l (by omega) hl' c' hc'

/-- The level from which a group is scanned. -/
def Cursor.start (cursor : Cursor) (groupIdx : Nat) : Nat := if groupIdx = cursor.groupIdx then cursor.levelIdx else 0

/-- All channels of the levels from `start` on have been tried. -/
def Exhausted (env : Env) (ctx : Ctx) (group : String) (start : Nat) : Prop :=
  ∀ l, start ≤ l → ∀ c ∈ env.atLevel group l, c.id ∈ ctx.tried

variable {ctx : Ctx}

theorem Passed.exhausted {start : Nat}
    (h : Passed env group (skipTried ctx) start (start + (env.getPriorityLevelCount group - start))) :
    Exhausted env ctx group start := by
  intro l hl c hc
  have hlt := atLevel_lt hc
  simpa [skipTried] using h l hl (by omega) c hc

theorem scanGroup_none
    (h : scanGroup env ctx.cursor rand [skipTriedOrCooling ctx health, skipTried ctx] groupIdx group = none) :
    Exhausted env ctx group (ctx.cursor.start groupIdx) := by
  have hscans := List.findSome?_eq_none_iff.mp h
  exact (scanLevels_none (hscans (skipTried ctx) (by simp))).exhausted

/-- A level has a channel that has not been tried. -/
def hasUntried (env : Env) (ctx : Ctx) (group : String) (level : Nat) : Bool :=
  (env.atLevel group level).any fun c => ! skipTried ctx c.id

/-- A level has a channel that has not been tried and is not cooling. -/
def hasReady (env : Env) (ctx : Ctx) (health : Health) (group : String) (level : Nat) : Bool :=
  (env.atLevel group level).any fun c => ! skipTriedOrCooling ctx health c.id

/-- No level of the group from `start` on has untried channels which are all cooling, while a level
below it has an untried one which is not. -/
def InOrder (env : Env) (ctx : Ctx) (health : Health) (group : String) (start : Nat) : Prop :=
  ∀ below < env.getPriorityLevelCount group, ∀ level < below, start ≤ level →
    hasReady env ctx health group below = true → hasUntried env ctx group level = true →
    hasReady env ctx health group level = true

instance (env : Env) (ctx : Ctx) (health : Health) (group : String) (start : Nat) :
    Decidable (InOrder env ctx health group start) :=
  inferInstanceAs (Decidable (∀ below < env.getPriorityLevelCount group, ∀ level < below, start ≤ level → _))

/-- An attempt comes to a group when all channels of the ones before it, from the cursor's on,
have been tried. -/
def ComesTo (env : Env) (ctx : Ctx) (groupIdx : Nat) : Prop :=
  ctx.cursor.groupIdx ≤ groupIdx ∧ ∀ j < groupIdx, ctx.cursor.groupIdx ≤ j →
    ∀ id ∈ env.serving (env.groups.getD j ""), id ∈ ctx.tried

instance (env : Env) (ctx : Ctx) (groupIdx : Nat) : Decidable (ComesTo env ctx groupIdx) :=
  inferInstanceAs (Decidable (_ ∧ ∀ j < groupIdx, ctx.cursor.groupIdx ≤ j → ∀ id ∈ env.serving _, id ∈ ctx.tried))

/-- The condition on an attempt: a group it comes to is in order from the level its scan starts
at. -/
abbrev Orderly (env : Env) (ctx : Ctx) (health : Health) : Prop :=
  ∀ groupIdx < env.groups.length, ComesTo env ctx groupIdx →
    InOrder env ctx health (env.groups.getD groupIdx "") (ctx.cursor.start groupIdx)

theorem scanGroup_serves {cursor : Cursor} {skips : List (Int → Bool)}
    (h : scanGroup env cursor rand skips groupIdx group = some (level, c)) : c.id ∈ env.serving group := by
  obtain ⟨skip, -, hscan⟩ := exists_of_findSome?_eq_some h
  exact atLevel_serving (scanLevels_some hscan).2.1

/-- What the first pass finds in a group is new, and what it has passed over was tried. -/
theorem scanGroup_some (horder : InOrder env ctx health group (ctx.cursor.start groupIdx))
    (h : scanGroup env ctx.cursor rand [skipTriedOrCooling ctx health, skipTried ctx] groupIdx group =
      some (level, c)) :
    c.id ∉ ctx.tried ∧ Passed env group (skipTried ctx) (ctx.cursor.start groupIdx) level := by
  obtain ⟨skip, hskip, hscan⟩ := exists_of_findSome?_eq_some h
  obtain ⟨-, hin, hfresh, hpassed⟩ := scanLevels_some hscan
  rcases mem_pair.mp hskip with rfl | rfl
  · have huntried : c.id ∉ ctx.tried := by
      simp only [skipTriedOrCooling, skipTried, Bool.or_eq_false_iff] at hfresh
      simpa using hfresh.1
    refine ⟨huntried, fun l hl hl' c' hc' => ?_⟩
    -- an untried channel of a level that was passed over: the attempt would not be orderly
    by_contra htried
    have hready : hasReady env ctx health group level = true := any_eq_true.mpr ⟨c, hin, by simp [hfresh]⟩
    have hleft : hasUntried env ctx group l = true := any_eq_true.mpr ⟨c', hc', by simpa using htried⟩
    obtain ⟨c'', hc'', hopen⟩ := any_eq_true.mp (horder level (atLevel_lt hin) l hl' hl hready hleft)
    rw [hpassed l hl hl' c'' hc''] at hopen
    cases hopen
  · exact ⟨by simpa [skipTried] using hfresh, hpassed⟩

theorem drop_cons {groups rest : List String} (h : groups.drop groupIdx = group :: rest) :
    groups[groupIdx]? = some group ∧ groups.drop (groupIdx + 1) = rest := by
  constructor
  · have := congrArg (fun l : List String => l[0]?) h
    simpa using this
  · rw [← tail_drop, h, tail_cons]

section
variable {cursor : Cursor} {rand : Nat} {allow : Bool} {skips : List (Int → Bool)}

/-- A group is reached when the ones before it have nothing to offer. -/
theorem scanGroups_some {cursor' : Cursor} {c : Channel} : ∀ {groups : List String} {groupIdx : Nat},
    env.groups.drop groupIdx = groups → scanGroups env cursor rand allow skips groupIdx groups = some (cursor', c) →
    groupIdx ≤ cursor'.groupIdx ∧ (cursor.groupIdx < cursor'.groupIdx → allow = true) ∧
      (∃ group, env.groups[cursor'.groupIdx]? = some group ∧
        scanGroup env cursor rand skips cursor'.groupIdx group = some (cursor'.levelIdx, c)) ∧
      ∀ j, groupIdx ≤ j → j < cursor'.groupIdx → ∀ g, env.groups[j]? = some g →
        scanGroup env cursor rand skips j g = none
  | [], _, _, h => by cases h
  | group :: rest, groupIdx, hdrop, h => by
    obtain ⟨hhere, hnext⟩ := drop_cons hdrop
    rw [scanGroups] at h
    split_ifs at h with hallowed
    split at h
    · rename_i hscan
      cases h
      refine ⟨Nat.le_refl _, fun hlt => ?_, ⟨group, hhere, hscan⟩, fun j hj hj' => absurd hj' (Nat.not_lt.mpr hj)⟩
      by_contra hallow
      exact hallowed ⟨hlt, hallow⟩
    · rename_i hscan
      obtain ⟨hle, hallow, hfound, hbefore⟩ := scanGroups_some hnext h
      refine ⟨by omega, hallow, hfound, fun j hj hj' g hg => ?_⟩
      by_cases heq : j = groupIdx
      · subst heq
        rw [hhere] at hg
        cases hg
        exact hscan
      · exact hbefore j (by omega) hj' g hg

theorem scanGroups_none : ∀ {groups : List String} {groupIdx : Nat}, env.groups.drop groupIdx = groups →
    scanGroups env cursor rand allow skips groupIdx groups = none →
    ∀ j, groupIdx ≤ j → (j ≤ cursor.groupIdx ∨ allow = true) → ∀ g, env.groups[j]? = some g →
      scanGroup env cursor rand skips j g = none
  | [], groupIdx, hdrop, _, j, hj, _, g, hg => by
    have hlen := drop_eq_nil_iff.mp hdrop
    have hlt := (List.getElem?_eq_some_iff.mp hg).1
    omega
  | group :: rest, groupIdx, hdrop, h, j, hj, hallow, g, hg => by
    obtain ⟨hhere, hnext⟩ := drop_cons hdrop
    rw [scanGroups] at h
    split_ifs at h with hstop
    · rcases hallow with hle | hallow
      · omega
      · exact absurd hallow hstop.2
    · split at h
      · cases h
      · rename_i hscan
        by_cases heq : j = groupIdx
        · subst heq
          rw [hhere] at hg
          cases hg
          exact hscan
        · exact scanGroups_none hnext h j (by omega) hallow g hg

end

/-! One selection. -/

/-- All channels of the levels behind the cursor have been tried. -/
def Behind (env : Env) (ctx : Ctx) : Prop :=
  ∀ group, env.groups[ctx.cursor.groupIdx]? = some group → ∀ l < ctx.cursor.levelIdx,
    ∀ c ∈ env.atLevel group l, c.id ∈ ctx.tried

def Tried (env : Env) (ctx : Ctx) (groupIdx : Nat) : Prop :=
  ∀ group, env.groups[groupIdx]? = some group → ∀ id ∈ env.serving group, id ∈ ctx.tried

/-- The channel that is picked counts as tried from then on. The cursor does not go back; it
leaves a group, and passes over one, when all of its channels have been tried; and a channel
is picked again when all of the group's have been. -/
structure Covered (env : Env) (p : Pick) : Prop where
  marked : p.after.tried = p.channel.id :: p.before.tried
  forward : p.before.cursor.groupIdx ≤ p.after.cursor.groupIdx
  moves : ∀ groupIdx, p.before.cursor.groupIdx ≤ groupIdx → groupIdx < p.after.cursor.groupIdx →
    Tried env p.before groupIdx
  repeats : p.channel.id ∈ p.before.tried → Tried env p.before p.before.cursor.groupIdx

theorem Behind.below {l : Nat} (hbehind : Behind env ctx) (hgroup : env.groups[groupIdx]? = some group)
    (hl : l < ctx.cursor.start groupIdx) : ∀ c ∈ env.atLevel group l, c.id ∈ ctx.tried := by
  unfold Cursor.start at hl
  split_ifs at hl with hidx
  · exact hbehind group (hidx ▸ hgroup) l hl
  · cases hl

/-- Every level of a group that is exhausted from its start was tried. -/
theorem Exhausted.all (hbehind : Behind env ctx) (hgroup : env.groups[groupIdx]? = some group)
    (h : Exhausted env ctx group (ctx.cursor.start groupIdx)) : Exhausted env ctx group 0 := by
  intro l _
  rcases Nat.lt_or_ge l (ctx.cursor.start groupIdx) with hl | hl
  · exact hbehind.below hgroup hl
  · exact h l hl

theorem Exhausted.serving (h : Exhausted env ctx group 0) : ∀ id ∈ env.serving group, id ∈ ctx.tried := by
  intro id hid
  obtain ⟨l, c, hc, rfl⟩ := serving_atLevel hid
  exact h l (Nat.zero_le _) c hc

/-- What the selection finds: where it goes, from where the groups before it were tried, and
the levels of the group that lie behind it were. -/
structure Found (env : Env) (ctx : Ctx) (cursor : Cursor) (c : Channel) : Prop where
  pos : 0 < c.id
  forward : ctx.cursor.groupIdx ≤ cursor.groupIdx
  moves : ∀ groupIdx, ctx.cursor.groupIdx ≤ groupIdx → groupIdx < cursor.groupIdx → Tried env ctx groupIdx
  repeats : c.id ∈ ctx.tried → Tried env ctx ctx.cursor.groupIdx
  behind : ∀ group, env.groups[cursor.groupIdx]? = some group → ∀ l < cursor.levelIdx,
    ∀ c' ∈ env.atLevel group l, c'.id ∈ ctx.tried

/-- The first pass has come to the group it stops at, which is therefore in order. -/
theorem Orderly.inOrder (horderly : Orderly env ctx health) (hforward : ctx.cursor.groupIdx ≤ groupIdx)
    (hgroup : env.groups[groupIdx]? = some group)
    (htried : ∀ j, ctx.cursor.groupIdx ≤ j → j < groupIdx → Tried env ctx j) :
    InOrder env ctx health group (ctx.cursor.start groupIdx) := by
  have hlt := (List.getElem?_eq_some_iff.mp hgroup).1
  have hget : env.groups.getD groupIdx "" = group := by simp [hgroup]
  rw [← hget]
  refine horderly groupIdx hlt ⟨hforward, fun j hj hj' => ?_⟩
  have hlt' : j < env.groups.length := Nat.lt_trans hj hlt
  exact htried j hj' hj _ (by simp [hlt'])

theorem findInChain_found {cursor : Cursor} (hbehind : Behind env ctx) (horderly : Orderly env ctx health)
    (h : findInChain env health rand ctx = some (cursor, c)) : Found env ctx cursor c := by
  have tried_of_none : ∀ {j : Nat} {g : String}, env.groups[j]? = some g →
      scanGroup env ctx.cursor rand [skipTriedOrCooling ctx health, skipTried ctx] j g = none → Exhausted env ctx g 0 :=
    fun hg hnone => (scanGroup_none hnone).all hbehind hg
  rcases Option.or_eq_some_iff.mp h with hfirst | ⟨hnone, hsecond⟩
  · obtain ⟨hforward, -, ⟨group, hgroup, hscan⟩, hbefore⟩ := scanGroups_some rfl hfirst
    have htried : ∀ j, ctx.cursor.groupIdx ≤ j → j < cursor.groupIdx → Tried env ctx j :=
      fun j hj hj' g hg => (tried_of_none hg (hbefore j hj hj' g hg)).serving
    obtain ⟨hnew, hpassed⟩ := scanGroup_some (horderly.inOrder hforward hgroup htried) hscan
    refine ⟨serving_pos (scanGroup_serves hscan), hforward, htried, fun hin => absurd hin hnew,
      fun g hg l hl c' hc' => ?_⟩
    rw [hgroup] at hg
    cases hg
    rcases Nat.lt_or_ge l (ctx.cursor.start cursor.groupIdx) with hstart | hstart
    · exact hbehind.below hgroup hstart c' hc'
    · simpa [skipTried] using hpassed l hstart hl c' hc'
  · -- the second pass: the first has found nothing in all these groups
    obtain ⟨hforward, hallow, ⟨_, _, hscan⟩, -⟩ := scanGroups_some rfl hsecond
    have hscanned : ∀ j, ctx.cursor.groupIdx ≤ j → j ≤ cursor.groupIdx → ∀ g, env.groups[j]? = some g →
        Exhausted env ctx g 0 := by
      intro j hj hj' g hg
      refine tried_of_none hg (scanGroups_none rfl hnone j hj ?_ g hg)
      by_cases hle : j ≤ ctx.cursor.groupIdx
      · exact .inl hle
      · exact .inr (hallow (by omega))
    refine ⟨serving_pos (scanGroup_serves hscan), hforward, fun j hj hj' g hg => ?_, fun _ g hg => ?_,
      fun g hg l _ c' hc' => ?_⟩
    · exact (hscanned j hj (by omega) g hg).serving
    · exact (hscanned _ (Nat.le_refl _) hforward g hg).serving
    · exact hscanned _ hforward (Nat.le_refl _) g hg l (Nat.zero_le _) c' hc'

theorem markChannelTried_tried {channelId : Int} (h : 0 < channelId) :
    (ctx.markChannelTried channelId).tried = channelId :: ctx.tried := by
  rw [Ctx.markChannelTried, if_neg (Int.not_le.mpr h)]

/-- A selection from a context with nothing left behind covers the group, and leaves nothing
behind. -/
theorem select_covered {p : Pick} (hbehind : Behind env ctx)
    (h : cacheGetRandomSatisfiedChannel env health rand ctx = some p) :
    (p.before = ctx ∧ p.health = health) ∧
      (Orderly env ctx health → Covered env p ∧ Behind env p.after) := by
  unfold cacheGetRandomSatisfiedChannel at h
  split_ifs at h
  obtain ⟨⟨cursor, c⟩, hfind, rfl⟩ := Option.map_eq_some_iff.mp h
  refine ⟨⟨rfl, rfl⟩, fun horderly => ?_⟩
  have hfound := findInChain_found hbehind horderly hfind
  have hmarked : (ctx.markChannelTried c.id).tried = c.id :: ctx.tried := markChannelTried_tried hfound.pos
  refine ⟨⟨hmarked, hfound.forward, hfound.moves, hfound.repeats⟩, fun g hg l hl c' hc' => ?_⟩
  rw [hmarked]
  exact mem_cons_of_mem _ (hfound.behind g hg l hl c' hc')

/-! The whole request. -/

theorem continues_behind {a : Attempt} {retry : Nat} {ctx ctx' : Ctx} (hbehind : Behind env ctx)
    (h : env.continues a retry ctx = some ctx') : Behind env ctx' := by
  simp only [continues] at h
  split at h
  · cases h
    exact hbehind
  · cases h

theorem relay_covered : ∀ {attempts : List Attempt} {retry : Nat} {ctx : Ctx}, Behind env ctx →
    (∀ p ∈ relay env retry attempts ctx, Orderly env p.before p.health) →
    ∀ p ∈ relay env retry attempts ctx, Covered env p
  | [], _, _, _, _ => by
    intro p hp
    cases hp
  | a :: rest, retry, ctx, hbehind, horderly => by
    unfold relay at horderly ⊢
    split at horderly
    · exact nofun
    rename_i pick hpick
    obtain ⟨⟨hbefore, hhealth⟩, hselect⟩ := select_covered hbehind hpick
    have hthis : Orderly env ctx a.health := by
      rw [← hbefore, ← hhealth]
      apply horderly
      split <;> simp
    obtain ⟨hcovered, hafter⟩ := hselect hthis
    cases hnext : env.continues a retry pick.after with
    | none =>
      intro p hp
      rw [mem_singleton.mp hp]
      exact hcovered
    | some ctx' =>
      rw [hnext] at horderly
      refine forall_mem_cons.mpr ⟨hcovered, ?_⟩
      exact relay_covered (continues_behind hafter hnext) fun p hp => horderly p (mem_cons_of_mem _ hp)

theorem behind_of_level (h : ctx.cursor.levelIdx = 0) : Behind env ctx := by
  intro g _ l hl
  omega

theorem seed_behind {channelId : Int} (h : seedChainCursorForChannel env channelId = some ctx) : Behind env ctx := by
  obtain ⟨groupIdx, -, rfl⟩ := Option.map_eq_some_iff.mp h
  apply behind_of_level
  unfold Ctx.markChannelTried
  split <;> rfl

end

/-- **A group is covered before it is left.** In every request whose attempts are orderly,
whatever the groups, the channels, their priorities and weights, the random numbers, and
whoever is cooling at each attempt: the selection moves on from a group, or picks a channel
that was tried, only when every enabled channel that serves the model in the group has been
tried. -/
theorem group_covered (env : Env) (preferred : Option Int) (attempts : List Attempt)
    (horderly : ∀ p ∈ request env preferred attempts, Orderly env p.before p.health) :
    ∀ p ∈ request env preferred attempts, Covered env p := by
  unfold request at horderly ⊢
  split at horderly
  · rename_i ctx a rest hseed
    obtain ⟨channelId, -, hseed⟩ := Option.bind_eq_some_iff.mp hseed
    cases hnext : env.continues a 0 ctx with
    | none =>
      intro p hp
      cases hp
    | some ctx' =>
      rw [hnext] at horderly
      exact relay_covered (continues_behind (seed_behind hseed) hnext) horderly
  · exact nofun
  · exact relay_covered (behind_of_level rfl) horderly

/-- Group `vip` with the channels 1 and 2 at priority 10 and 3 at priority 0, and group
`default` with channel 4. -/
def exampleCache : Cache where
  group2model2channels group _ := if group = "vip" then [1, 2, 3] else if group = "default" then [4] else []
  channelsIDM id := some { id, priority := if id ≤ 2 then some 10 else none, weight := some 1 }
  known group model id h := by
    refine ⟨?_, _, rfl, rfl⟩
    split at h
    · simp only [mem_cons, not_mem_nil, or_false] at h
      omega
    · split at h
      · simp only [mem_cons, not_mem_nil, or_false] at h
        omega
      · cases h

def exampleEnv : Env where
  store := .memory exampleCache
  normalize := id
  model := "gpt"
  groups := ["vip", "default"]
  crossGroup := true
  retryTimes := 10

/-- The failed attempts of a request, with the channels that are cooling at each. -/
def failing (cooling : List Int) : Attempt where
  health := { enabled := true, threshold := 3, failures := fun id => if id ∈ cooling then some 3 else none }
  rand := 0
  channelAtFault := true
  shouldRetry _ := true

/-- Channel 1 is cooling at first: it is tried after channel 2. -/
theorem cooling_changes_order :
    (request exampleEnv none [failing [1], failing [2], failing [3], failing []]).map (·.channel.id) = [2, 1, 3, 4] ∧
      ∀ p ∈ request exampleEnv none [failing [1], failing [2], failing [3], failing []], Covered exampleEnv p :=
  ⟨by decide +kernel, group_covered exampleEnv none _ (by decide +kernel)⟩

/-- The channels 1 and 2 are cooling at the first attempt: it goes to channel 3, and the next
one to the group `default`. The two were never tried. -/
theorem cooling_level_skipped :
    ∃ p ∈ request exampleEnv none [failing [1, 2], failing []], p.before.cursor.groupIdx = 0 ∧
      p.after.cursor.groupIdx = 1 ∧ p.channel.id = 4 ∧
      1 ∈ exampleEnv.serving "vip" ∧ 1 ∉ p.before.tried ∧ p.health.isChannelCooling 1 = false := by
  decide +kernel

end AmuxApi.ChannelChain
