import Mathlib.Algebra.Order.BigOperators.Group.LocallyFinite
import Mathlib.Algebra.Order.BigOperators.Group.Finset
import AmuxApi.ChannelChain.Coverage

/- How often a request is tried.

   The loop runs while its counter is within a budget: the configured retries, one for each
   switch of the group so far, and one more while another switch is possible. A selection
   raises the number of switches, so the budget is worked out anew in each round.

   The switches are bounded by the place in the chain, hence the budget and the number of
   attempts, whatever happens to the channels between the attempts (`loop_bounded`). The
   channels of a group use the budget up before its successor is reached: every group gets an
   attempt if the groups before the last have together at most as many channels beyond one
   each as there are retries (`groups_reached`), and may get none otherwise
   (`second_group_missed`). -/
namespace AmuxApi.ChannelChain
open List

variable {j : Nat} {p : Pick}

section
variable {env : Env} {group : String}

variable {c : Channel} {level rand : Nat} {ctx : Ctx} {health : Health}

theorem mem_orNormalized_iff {normalize : String → String} {model : String} {α : Type} {find : String → List α}
    {a : α} (h : a ∈ orNormalized normalize model find) :
    a ∈ find model ∨ (normalize model ≠ "" ∧ normalize model ≠ model ∧ a ∈ find (normalize model)) := by
  unfold orNormalized at h
  split at h
  · exact .inl h
  · split_ifs at h with hname
    · exact .inr ⟨hname.1, hname.2, h⟩
    · cases h

theorem Env.serving_enabled {id : Int} (h : id ∈ env.serving group) :
    env.isChannelEnabledForGroupModel group id = true := by
  unfold Env.serving at h
  split at h
  · cases h
  rename_i hname
  have named : ∀ {id : Int}, 0 < id → ¬ (group = "" ∨ env.model = "" ∨ id ≤ 0) := by
    intro id hpos h
    rcases h with h | h | h
    · exact hname (.inl h)
    · exact hname (.inr h)
    · omega
  unfold Env.isChannelEnabledForGroupModel
  cases hstore : env.store with
  | memory cache =>
    rw [hstore] at h
    have hlisted := mem_orNormalized_iff h
    rw [if_neg (named (Cache.found h).1)]
    simpa using hlisted
  | database tables =>
    rw [hstore] at h
    obtain ⟨a, ha, rfl⟩ := mem_map.mp h
    rw [if_neg (named (Abilities.found ha).1)]
    rcases mem_orNormalized_iff ha with hown | ⟨hne, hother, hnormalized⟩
    · simpa using Or.inl ⟨a, hown, rfl⟩
    · simpa using Or.inr ⟨hne, hother, a, hnormalized, rfl⟩

/-! What one selection can do. -/

/-- The channel serves a group of the chain at or behind the cursor and counts as tried from
then on. A later group is entered only where that is allowed. The channel is new, and the
groups it has passed over were tried; or it was tried, and so were all groups behind. -/
structure Selected (env : Env) (ctx : Ctx) (p : Pick) : Prop where
  before : p.before = ctx
  tried : p.after.tried = p.channel.id :: ctx.tried
  forward : ctx.cursor.groupIdx ≤ p.after.cursor.groupIdx
  serves : ∃ group, env.groups[p.after.cursor.groupIdx]? = some group ∧ p.channel.id ∈ env.serving group
  allowed : ctx.cursor.groupIdx < p.after.cursor.groupIdx → ctx.allowGroupAdvance env = true
  switches : p.after.groupSwitches =
    if ctx.cursor.groupIdx < p.after.cursor.groupIdx ∧ ctx.tried ≠ [] then ctx.groupSwitches + 1 else ctx.groupSwitches
  blocked : p.after.blocked = ctx.blocked
  choice : (p.channel.id ∉ ctx.tried ∧ ∀ j, ctx.cursor.groupIdx ≤ j → ctx.cursor.start j = 0 →
      j < p.after.cursor.groupIdx → Tried env ctx j) ∨
    (ctx.allowGroupAdvance env = true → ∀ j, ctx.cursor.groupIdx ≤ j → ctx.cursor.start j = 0 → Tried env ctx j)

/-- A group that is scanned from its first level and where the first pass finds nothing has been
tried. -/
theorem tried_of_none (hstart : ctx.cursor.start j = 0) (h : ∀ g, env.groups[j]? = some g →
      scanGroup env ctx.cursor rand [skipTriedOrCooling ctx health, skipTried ctx] j g = none) : Tried env ctx j := by
  intro g hg
  have hexhausted := scanGroup_none (h g hg)
  rw [hstart] at hexhausted
  exact hexhausted.serving

theorem scanGroup_new {groupIdx : Nat}
    (h : scanGroup env ctx.cursor rand [skipTriedOrCooling ctx health, skipTried ctx] groupIdx group =
      some (level, c)) :
    c.id ∉ ctx.tried := by
  obtain ⟨skip, hskip, hscan⟩ := exists_of_findSome?_eq_some h
  have hfresh := (scanLevels_some hscan).2.2.1
  rcases mem_pair.mp hskip with rfl | rfl
  · simp only [skipTriedOrCooling, skipTried, Bool.or_eq_false_iff] at hfresh
    simpa using hfresh.1
  · simpa [skipTried] using hfresh

theorem select_selected (h : cacheGetRandomSatisfiedChannel env health rand ctx = some p) : Selected env ctx p := by
  unfold cacheGetRandomSatisfiedChannel at h
  split_ifs at h
  obtain ⟨⟨cursor, c⟩, hfind, rfl⟩ := Option.map_eq_some_iff.mp h
  -- both passes end in the scan of one group
  obtain ⟨hforward, hallow, ⟨group, hgroup, hserves⟩, hchoice⟩ : ctx.cursor.groupIdx ≤ cursor.groupIdx ∧
      (ctx.cursor.groupIdx < cursor.groupIdx → ctx.allowGroupAdvance env = true) ∧
      (∃ group, env.groups[cursor.groupIdx]? = some group ∧ c.id ∈ env.serving group) ∧
      ((c.id ∉ ctx.tried ∧ ∀ j, ctx.cursor.groupIdx ≤ j → ctx.cursor.start j = 0 → j < cursor.groupIdx →
          Tried env ctx j) ∨
        (ctx.allowGroupAdvance env = true → ∀ j, ctx.cursor.groupIdx ≤ j → ctx.cursor.start j = 0 →
          Tried env ctx j)) := by
    rcases Option.or_eq_some_iff.mp hfind with hfirst | ⟨hnone, hsecond⟩
    · obtain ⟨hforward, hallow, ⟨group, hgroup, hscan⟩, hbefore⟩ := scanGroups_some rfl hfirst
      refine ⟨hforward, hallow, ⟨group, hgroup, scanGroup_serves hscan⟩, .inl ⟨scanGroup_new hscan, ?_⟩⟩
      intro j hj hstart hj'
      exact tried_of_none hstart fun g hg => hbefore j hj hj' g hg
    · obtain ⟨hforward, hallow, ⟨group, hgroup, hscan⟩, -⟩ := scanGroups_some rfl hsecond
      refine ⟨hforward, hallow, ⟨group, hgroup, scanGroup_serves hscan⟩, .inr fun hadvance j hj hstart => ?_⟩
      exact tried_of_none hstart fun g hg => scanGroups_none rfl hnone j hj (.inr hadvance) g hg
  refine ⟨rfl, markChannelTried_tried (Env.serving_pos hserves), hforward,
    ⟨group, hgroup, hserves⟩, hallow, by simp, ?_, hchoice⟩
  show (ctx.markChannelTried c.id).blocked = ctx.blocked
  unfold Ctx.markChannelTried
  split <;> rfl

end

/-! The bounds of the loop. -/

/-- There are at most as many switches as groups before the cursor. -/
def Within (env : Env) (ctx : Ctx) : Prop :=
  ctx.groupSwitches ≤ ctx.cursor.groupIdx ∧ ctx.cursor.groupIdx < env.groups.length

section
variable {env : Env}

variable {ctx : Ctx}

variable {store : Store} {retry : Nat}

theorem Selected.within (h : Selected (env.withStore store) ctx p)
    (hctx : ctx.groupSwitches ≤ ctx.cursor.groupIdx) : Within env p.after := by
  obtain ⟨group, hgroup, -⟩ := h.serves
  have hlt : p.after.cursor.groupIdx < env.groups.length := (List.getElem?_eq_some_iff.mp hgroup).1
  have hforward := h.forward
  refine ⟨?_, hlt⟩
  rw [h.switches]
  split_ifs with hswitch
  · omega
  · omega

theorem budget_le (h : Within env ctx) : env.budget ctx ≤ env.retryTimes + env.groups.length - 1 := by
  obtain ⟨hswitches, hlt⟩ := h
  unfold Env.budget Env.pendingSwitchAllowance
  split
  · omega
  · rename_i hpending
    omega

theorem continues_some {a : Attempt} {ctx ctx' : Ctx} (h : env.continues a retry ctx = some ctx') :
    ctx' = { ctx with blocked := ! a.channelAtFault } ∧ (retry + 1 : Int) ≤ env.budget ctx' := by
  simp only [Env.continues] at h
  split_ifs at h with hgo
  cases h
  exact ⟨rfl, hgo.2⟩

/-- A run of the loop: nothing is found; or a channel is, and the loop ends or goes on within
its budget. -/
inductive Runs (env : Env) : Nat → Ctx → List (Store × Pick) → Prop
  | nothing {retry : Nat} {ctx : Ctx} : Runs env retry ctx []
  | last {retry : Nat} {ctx : Ctx} {store : Store} {p : Pick} (hp : Selected (env.withStore store) ctx p) :
      Runs env retry ctx [(store, p)]
  | more {retry : Nat} {ctx : Ctx} {store : Store} {p : Pick} {picks : List (Store × Pick)} (blocked : Bool)
      (hp : Selected (env.withStore store) ctx p) (hbudget : (retry + 1 : Int) ≤ env.budget { p.after with blocked })
      (hrest : Runs env (retry + 1) { p.after with blocked } picks) : Runs env retry ctx ((store, p) :: picks)

theorem relayOver_runs (attempts : List (Store × Attempt)) : Runs env retry ctx (relayOver env retry attempts ctx) := by
  induction attempts generalizing retry ctx with
  | nil => exact .nothing
  | cons head rest ih =>
    obtain ⟨store, a⟩ := head
    rw [relayOver]
    cases hpick : cacheGetRandomSatisfiedChannel (env.withStore store) a.health a.rand ctx with
    | none => exact .nothing
    | some p =>
      have hp := select_selected hpick
      cases hgo : env.continues a retry p.after with
      | none => simpa [hgo] using .last hp
      | some ctx' =>
        obtain ⟨rfl, hbudget⟩ := continues_some hgo
        simpa [hgo] using .more _ hp hbudget ih

variable {picks : List (Store × Pick)}

theorem Runs.length (h : Runs env retry ctx picks) (hctx : ctx.groupSwitches ≤ ctx.cursor.groupIdx)
    (hretry : (retry : Int) ≤ env.retryTimes + (env.groups.length - 1 : Nat)) :
    (picks.length : Int) ≤ env.retryTimes + env.groups.length - retry := by
  induction h with
  | nothing =>
    rw [length_nil]
    omega
  | last hp =>
    have hlt := (hp.within hctx).2
    rw [length_singleton]
    omega
  | @more retry _ _ p _ blocked hp hbudget _ ih =>
    have hwithin : Within env { p.after with blocked } := hp.within hctx
    have hlt := hwithin.2
    have hbound := budget_le hwithin
    have hrest := ih hwithin.1 (by omega)
    rw [length_cons]
    omega

def places (picks : List (Store × Pick)) : List Nat := picks.map (·.2.after.cursor.groupIdx)

/-- What holds of a selection in a run. -/
structure Fits (env : Env) (q : Store × Pick) : Prop where
  switches : q.2.after.groupSwitches ≤ env.groups.length - 1
  enabled : ∃ group, env.groups[q.2.after.cursor.groupIdx]? = some group ∧
    (env.withStore q.1).isChannelEnabledForGroupModel group q.2.channel.id = true
  stays : q.2.before.tried ≠ [] → (env.crossGroup = false ∨ q.2.before.blocked = true) →
    q.2.after.cursor.groupIdx = q.2.before.cursor.groupIdx

/-- Where no group may be entered after the first attempt, a selection stays at its cursor's. -/
theorem Selected.stays (h : Selected (env.withStore store) ctx p) (hsome : ctx.tried ≠ [])
    (hstay : env.crossGroup = false ∨ ctx.blocked = true) : p.after.cursor.groupIdx = ctx.cursor.groupIdx := by
  have hno : ctx.allowGroupAdvance (env.withStore store) = false := by
    have hcross : (env.withStore store).crossGroup = env.crossGroup := rfl
    rcases hstay with hoff | hblocked
    · simp [Ctx.allowGroupAdvance, hsome, hcross, hoff]
    · simp [Ctx.allowGroupAdvance, hsome, hblocked]
  have hforward := h.forward
  by_contra hne
  have hallowed := h.allowed (by omega)
  rw [hno] at hallowed
  cases hallowed

theorem Selected.fits (h : Selected (env.withStore store) ctx p)
    (hctx : ctx.groupSwitches ≤ ctx.cursor.groupIdx) : Fits env (store, p) := by
  obtain ⟨hswitches, hlt⟩ := h.within hctx
  obtain ⟨group, hgroup, hserves⟩ := h.serves
  refine ⟨?_, ⟨group, hgroup, Env.serving_enabled hserves⟩, fun hsome hstay => ?_⟩
  · show p.after.groupSwitches ≤ env.groups.length - 1
    omega
  · rw [h.before] at hsome hstay ⊢
    exact h.stays hsome hstay

/-- The selections of the loop fit, their places do not fall from the cursor's on, and each
meets the cursor that the one before has left. -/
theorem Runs.fits (h : Runs env retry ctx picks) (hctx : ctx.groupSwitches ≤ ctx.cursor.groupIdx) :
    (∀ q ∈ picks, Fits env q) ∧ (ctx.cursor.groupIdx :: places picks).Pairwise (· ≤ ·) := by
  induction h with
  | nothing => simp [places]
  | last hp => exact ⟨forall_mem_singleton.mpr (hp.fits hctx), by simpa [places] using hp.forward⟩
  | more blocked hp _ _ ih =>
    obtain ⟨hfits, hplaces⟩ := ih (hp.within hctx).1
    refine ⟨forall_mem_cons.mpr ⟨hp.fits hctx, hfits⟩, pairwise_cons.mpr ⟨fun i hi => ?_, hplaces⟩⟩
    -- what comes later is at or behind this place, which is at or behind the cursor
    rcases mem_cons.mp hi with rfl | hi
    · exact hp.forward
    · exact Nat.le_trans hp.forward (rel_of_pairwise_cons hplaces hi)

/-- Where no group may be entered after the first attempt, the loop stays at its cursor's. -/
theorem Runs.stays (h : Runs env retry ctx picks) (htried : ctx.tried ≠ [])
    (hstay : ∀ q ∈ picks, env.crossGroup = false ∨ q.2.before.blocked = true) :
    ∀ q ∈ picks, q.2.after.cursor.groupIdx = ctx.cursor.groupIdx := by
  induction h with
  | nothing => exact forall_mem_nil _
  | last hp => exact forall_mem_singleton.mpr (hp.stays htried (hp.before ▸ hstay _ mem_cons_self))
  | more blocked hp _ _ ih =>
    have hp' := hp.stays htried (hp.before ▸ hstay _ mem_cons_self)
    have hrest := ih (hp.tried ▸ cons_ne_nil _ _) fun q hq => hstay q (mem_cons_of_mem _ hq)
    exact forall_mem_cons.mpr ⟨hp', fun q hq => (hrest q hq).trans hp'⟩

/-- The places of all attempts, with that of the preferred channel. -/
def Attempts.places (run : Attempts) : List Nat :=
  (run.seeded.map (·.2.cursor.groupIdx)).toList ++ ChannelChain.places run.picks

/-- The selections after the first attempt. -/
def Attempts.later (run : Attempts) : List (Store × Pick) := if run.seeded.isSome then run.picks else run.picks.tail

structure Bounded (env : Env) (run : Attempts) : Prop where
  attempts : (run.places.length : Int) ≤ env.retryTimes + env.groups.length
  forward : run.places.Pairwise (· ≤ ·)
  fits : ∀ q ∈ run.picks, Fits env q
  seeded : ∀ store ctx, run.seeded = some (store, ctx) → ∃ id group, ctx.tried = [id] ∧
    env.groups[ctx.cursor.groupIdx]? = some group ∧ (env.withStore store).isChannelEnabledForGroupModel group id = true
  stays : (env.crossGroup = false ∨ ∀ q ∈ run.later, q.2.before.blocked = true) →
    ∀ first ∈ run.places.head?, ∀ q ∈ run.later, q.2.after.cursor.groupIdx = first

theorem Runs.same_group {first : Store × Pick} {rest : List (Store × Pick)} (h : Runs env retry ctx (first :: rest))
    (hstay : env.crossGroup = false ∨ ∀ q ∈ rest, q.2.before.blocked = true) :
    ∀ q ∈ rest, q.2.after.cursor.groupIdx = first.2.after.cursor.groupIdx := by
  cases h with
  | last => exact forall_mem_nil _
  | more blocked hp _ hrest =>
    exact hrest.stays (hp.tried ▸ cons_ne_nil _ _) fun q hq => hstay.imp_right fun h => h q hq

theorem Runs.bounded (h : Runs env 0 {} picks) (hR : 0 ≤ env.retryTimes) : Bounded env ⟨none, picks⟩ := by
  have hlength := h.length (Nat.le_refl 0) (by omega)
  obtain ⟨hfits, hplaces⟩ := h.fits (Nat.le_refl 0)
  refine ⟨?_, (pairwise_cons.mp hplaces).2, hfits, (fun _ _ h => nomatch h), fun hstay first hfirst => ?_⟩
  · simpa [Attempts.places, places] using hlength
  cases picks with
  | nil => exact forall_mem_nil _
  | cons q0 rest =>
    cases hfirst
    exact h.same_group hstay

theorem seeded_enabled {id : Int} (h : seedChainCursorForChannel (env.withStore store) id = some ctx) :
    ctx.groupSwitches = 0 ∧ ctx.cursor.levelIdx = 0 ∧ ctx.tried = [id] ∧ ∃ group,
      env.groups[ctx.cursor.groupIdx]? = some group ∧
        (env.withStore store).isChannelEnabledForGroupModel group id = true := by
  obtain ⟨groupIdx, hfind, rfl⟩ := Option.map_eq_some_iff.mp h
  obtain ⟨hlt, henabled, -⟩ := List.findIdx?_eq_some_iff_getElem.mp hfind
  have hpos : 0 < id := by
    by_contra hle
    have hno : (env.withStore store).isChannelEnabledForGroupModel (env.withStore store).groups[groupIdx] id = false :=
      if_pos (.inr (.inr (by omega)))
    rw [hno] at henabled
    cases henabled
  have hmarked : ({ cursor := ⟨groupIdx, 0⟩ } : Ctx).markChannelTried id = { cursor := ⟨groupIdx, 0⟩, tried := [id] } :=
    if_neg (by omega)
  rw [hmarked]
  exact ⟨rfl, rfl, rfl, _, List.getElem?_eq_getElem hlt, henabled⟩

/-- **The loop is bounded.** Whatever the chain, the channels at each attempt, who is cooling
and how the attempts end: there are at most as many attempts as retries and groups together,
fewer switches than groups, the places in the chain do not fall, each channel is enabled for
the model in its group when it is selected, and where the group may not be left every
selection is from the group of the first. -/
theorem loop_bounded (env : Env) (preferred : Option Int) (attempts : List (Store × Attempt))
    (hR : 0 ≤ env.retryTimes) : Bounded env (requestOver env preferred attempts) := by
  unfold requestOver
  split
  · exact Runs.nothing.bounded hR
  rename_i store a rest
  split
  · rename_i ctx hseed
    obtain ⟨id, -, hseed⟩ := Option.bind_eq_some_iff.mp hseed
    obtain ⟨hswitches, -, htried, group, hgroup, henabled⟩ := seeded_enabled hseed
    have hlt : ctx.cursor.groupIdx < env.groups.length := (List.getElem?_eq_some_iff.mp hgroup).1
    have hseeded : ∀ store' ctx', some (store, ctx) = some (store', ctx') → ∃ id group, ctx'.tried = [id] ∧
        env.groups[ctx'.cursor.groupIdx]? = some group ∧
        (env.withStore store').isChannelEnabledForGroupModel group id = true := by
      intro store' ctx' heq
      cases heq
      exact ⟨id, group, htried, hgroup, henabled⟩
    split
    · refine ⟨?_, pairwise_singleton _ _, forall_mem_nil _, hseeded, fun _ _ _ => forall_mem_nil _⟩
      simp only [Attempts.places, places, Option.map_some, Option.toList_some, map_nil, append_nil,
        length_singleton]
      omega
    · rename_i ctx' hgo
      obtain ⟨hctx', hbudget⟩ := continues_some hgo
      have hwithin : Within env ctx' := by
        rw [hctx']
        exact ⟨by simp only [hswitches]; omega, hlt⟩
      have hbound := budget_le hwithin
      have hruns : Runs env 1 ctx' (relayOver env 1 rest ctx') := relayOver_runs rest
      have hlength := hruns.length hwithin.1 (by omega)
      obtain ⟨hfits, hplaces⟩ := hruns.fits hwithin.1
      have hcursor : ctx'.cursor = ctx.cursor := by rw [hctx']
      rw [hcursor] at hplaces
      refine ⟨?_, hplaces, hfits, hseeded, fun hstay first hfirst => ?_⟩
      · simp only [Attempts.places, places, Option.map_some, Option.toList_some, singleton_append, length_cons,
          length_map]
        omega
      · cases hfirst
        show ∀ q ∈ relayOver env 1 rest ctx', q.2.after.cursor.groupIdx = ctx.cursor.groupIdx
        rw [← hcursor]
        refine hruns.stays ?_ fun q hq => hstay.imp_right fun h => h q hq
        rw [hctx', htried]
        exact cons_ne_nil _ _
  · exact (relayOver_runs _).bounded hR

end

/-- At the second attempt the group `vip` has no channel any more. -/
def shrunkCache : Cache where
  group2model2channels group _ := if group = "default" then [4] else []
  channelsIDM id := some { id, priority := none, weight := some 1 }
  known group model id h := by
    refine ⟨?_, _, rfl, rfl⟩
    split at h
    · simp only [mem_cons, not_mem_nil, or_false] at h
      omega
    · cases h

/-- The channels of `vip` go while the request runs: it moves on, and ends within its bound. -/
theorem channels_gone :
    (requestOver { exampleEnv with retryTimes := 0 } none
        [(.memory exampleCache, failing []), (.memory shrunkCache, failing []),
          (.memory shrunkCache, failing [])]).places = [0, 1] ∧
      Bounded { exampleEnv with retryTimes := 0 } (requestOver { exampleEnv with retryTimes := 0 } none
        [(.memory exampleCache, failing []), (.memory shrunkCache, failing []), (.memory shrunkCache, failing [])]) :=
  ⟨by decide +kernel, loop_bounded _ none _ (by decide)⟩

/-! Every group gets an attempt. -/

def servingAt (env : Env) (i : Nat) : Finset Int := (env.serving (env.groups.getD i "")).toFinset

def untriedAt (env : Env) (ctx : Ctx) (i : Nat) : Nat := (servingAt env i \ ctx.tried.toFinset).card

/-- The channels beyond one in each of the groups from `i` to the one before the last. -/
def beyondOne (env : Env) (i : Nat) : Nat := ∑ j ∈ Finset.Ico i (env.groups.length - 1), ((servingAt env j).card - 1)

def Reached (env : Env) (ids : List Int) (i : Nat) : Prop := ∃ id ∈ servingAt env i, id ∈ ids

section
variable {env : Env}

variable {i retry : Nat} {id : Int} {p : Pick} {a : Attempt}

theorem Reached.mono {ids ids' : List Int} (h : Reached env ids i) (hsub : ∀ id ∈ ids, id ∈ ids') :
    Reached env ids' i := by
  obtain ⟨id, hid, hmem⟩ := h
  exact ⟨id, hid, hsub id hmem⟩

theorem beyondOne_split (hij : i ≤ j) (hj : j < env.groups.length - 1) :
    (servingAt env j).card - 1 + beyondOne env (j + 1) ≤ beyondOne env i := by
  unfold beyondOne
  rw [← Finset.sum_eq_sum_Ico_succ_bot hj fun j => (servingAt env j).card - 1]
  exact Finset.sum_le_sum_of_subset (Finset.Ico_subset_Ico_left hij)

/-- A channel of the group that was new is tried now. -/
theorem untriedAt_lt {ctx ctx' : Ctx} (hid : id ∈ servingAt env i) (hnew : id ∉ ctx.tried)
    (htried : ctx'.tried = id :: ctx.tried) : untriedAt env ctx' i < untriedAt env ctx i := by
  apply Finset.card_lt_card
  rw [Finset.ssubset_iff_of_subset]
  · exact ⟨id, by simp [hid, hnew], by simp [htried]⟩
  · intro x hx
    simp only [htried, toFinset_cons, Finset.mem_sdiff, Finset.mem_insert, not_or] at hx ⊢
    exact ⟨hx.1, hx.2.2⟩

variable {ctx : Ctx}

theorem untriedAt_le (hid : id ∈ servingAt env i) (htried : id ∈ ctx.tried) :
    untriedAt env ctx i ≤ (servingAt env i).card - 1 := by
  rw [← Finset.card_erase_of_mem hid]
  apply Finset.card_le_card
  intro x hx
  simp only [Finset.mem_sdiff, mem_toFinset] at hx
  refine Finset.mem_erase.mpr ⟨fun heq => ?_, hx.1⟩
  exact hx.2 (heq ▸ htried)

theorem servingAt_of {group : String} (h : env.groups[i]? = some group) :
    id ∈ servingAt env i ↔ id ∈ env.serving group := by
  rw [servingAt, mem_toFinset, getD_eq_getElem?_getD, h, Option.getD_some]

/-- What holds before the attempt that is number `retry`, if it is not the first: the groups up
to the cursor's have been reached, and the budget is enough for the channels that may come
before the last group. -/
structure Ahead (env : Env) (retry : Nat) (ctx : Ctx) : Prop where
  within : Within env ctx
  tried : ctx.tried ≠ []
  open_ : ctx.blocked = false
  reached : ∀ i, i ≤ ctx.cursor.groupIdx → Reached env ctx.tried i
  enough : ctx.cursor.groupIdx < env.groups.length - 1 →
    (retry + untriedAt env ctx ctx.cursor.groupIdx + beyondOne env (ctx.cursor.groupIdx + 1) : Int) ≤
      env.retryTimes + ctx.groupSwitches + 1

/-- An attempt that fails and may be made again, by the fault of the channel. -/
def Attempt.Retryable (a : Attempt) : Prop := a.channelAtFault = true ∧ ∀ n, 0 < n → a.shouldRetry n = true

def Staffed (env : Env) : Prop := ∀ group ∈ env.groups, env.serving group ≠ []

instance (env : Env) : Decidable (Staffed env) := inferInstanceAs (Decidable (∀ group ∈ env.groups, _ ≠ []))

theorem Tried.reached (hstaffed : Staffed env) (hi : i < env.groups.length) (h : Tried env ctx i) :
    Reached env ctx.tried i := by
  have hgroup := List.getElem?_eq_getElem hi
  obtain ⟨id, hid⟩ := exists_mem_of_ne_nil _ (hstaffed _ (getElem_mem hi))
  exact ⟨id, (servingAt_of hgroup).mpr hid, h _ hgroup id hid⟩

theorem select_none {health : Health} {rand : Nat} {group : String}
    (h : cacheGetRandomSatisfiedChannel env health rand ctx = none) (hj : ctx.cursor.groupIdx ≤ j)
    (hstart : ctx.cursor.start j = 0) (hadvance : ctx.allowGroupAdvance env = true)
    (hgroup : env.groups[j]? = some group) : env.serving group = [] := by
  have hgroups : env.groups ≠ [] := by
    intro hnil
    rw [hnil] at hgroup
    cases hgroup
  rw [cacheGetRandomSatisfiedChannel, if_neg hgroups, selectFromChain, Option.map_eq_none_iff] at h
  have hscan := scanGroups_none rfl (Option.or_eq_none_iff.mp h).2 j hj (.inr hadvance) group hgroup
  have hlevels := scanLevels_none (List.findSome?_eq_none_iff.mp hscan (fun _ => false) mem_cons_self)
  apply eq_nil_iff_forall_not_mem.mpr
  intro id hid
  obtain ⟨level, c, hc, -⟩ := Env.serving_atLevel hid
  change Passed env group _ (ctx.cursor.start j) (ctx.cursor.start j + (_ - ctx.cursor.start j)) at hlevels
  rw [hstart] at hlevels
  have hlt := Env.atLevel_lt hc
  cases hlevels level (Nat.zero_le _) (by omega) c hc

/-- A selection that keeps the budget ahead, or comes when all groups have been reached. -/
theorem Ahead.selected (h : Ahead env retry ctx) (hstaffed : Staffed env) (hcross : env.crossGroup = true)
    (hlast : ctx.cursor.groupIdx < env.groups.length - 1) (hp : Selected env ctx p) :
    (∀ i < env.groups.length, Reached env p.after.tried i) ∨ Ahead env (retry + 1) p.after := by
  have hkeep : ∀ id ∈ ctx.tried, id ∈ p.after.tried := by
    intro id hid
    rw [hp.tried]
    exact mem_cons_of_mem _ hid
  have hadvance : ctx.allowGroupAdvance env = true := by simp [Ctx.allowGroupAdvance, hcross, h.open_]
  have hstart : ∀ i, ctx.cursor.groupIdx < i → ctx.cursor.start i = 0 := fun i hi => if_neg (Nat.ne_of_gt hi)
  obtain ⟨group, hgroup, hserves⟩ := hp.serves
  have hhere : p.channel.id ∈ servingAt env p.after.cursor.groupIdx := (servingAt_of hgroup).mpr hserves
  have hmarked : p.channel.id ∈ p.after.tried := hp.tried ▸ mem_cons_self
  rcases hp.choice with ⟨hnew, hpassed⟩ | hall
  · right
    have hwithin : Within env p.after := hp.within h.within.1
    refine ⟨hwithin, hp.tried ▸ cons_ne_nil _ _, hp.blocked.trans h.open_, fun i hi => ?_, fun hlast' => ?_⟩
    · -- the groups up to the old cursor, those passed over, and the new one
      rcases Nat.lt_or_ge ctx.cursor.groupIdx i with hlt | hle
      · rcases Nat.lt_or_eq_of_le hi with hbefore | rfl
        · have htried := hpassed i (Nat.le_of_lt hlt) (hstart i hlt) hbefore
          exact (Tried.reached hstaffed (Nat.lt_trans hbefore hwithin.2) htried).mono hkeep
        · exact ⟨_, hhere, hmarked⟩
      · exact (h.reached i hle).mono hkeep
    · have henough := h.enough hlast
      rcases Nat.lt_or_eq_of_le hp.forward with hlt | hsame
      · have hswitches : p.after.groupSwitches = ctx.groupSwitches + 1 := by
          rw [hp.switches, if_pos ⟨hlt, h.tried⟩]
        have hsplit := beyondOne_split (i := ctx.cursor.groupIdx + 1) hlt hlast'
        have huntried := untriedAt_le hhere hmarked
        omega
      · have hswitches : p.after.groupSwitches = ctx.groupSwitches := by
          rw [hp.switches, if_neg (by omega)]
        rw [← hsame] at hhere ⊢
        have huntried := untriedAt_lt hhere hnew hp.tried
        omega
  · left
    intro i hi
    rcases Nat.lt_or_ge ctx.cursor.groupIdx i with hlt | hle
    · exact (Tried.reached hstaffed hi (hall hadvance i (Nat.le_of_lt hlt) (hstart i hlt))).mono hkeep
    · exact (h.reached i hle).mono hkeep

/-- Before the last group the loop goes on. -/
theorem Ahead.continues (h : Ahead env (retry + 1) ctx) (ha : a.Retryable) (hcross : env.crossGroup = true)
    (hlast : ctx.cursor.groupIdx < env.groups.length - 1) : env.continues a retry ctx = some ctx := by
  have hctx : { ctx with blocked := ! a.channelAtFault } = ctx := by
    rw [ha.1, Bool.not_true, ← h.open_]
  have hbudget : env.budget ctx = env.retryTimes + ctx.groupSwitches + 1 := by
    have hswitches := h.within.1
    rw [Env.budget, Env.pendingSwitchAllowance, if_neg]
    simp only [hcross, h.open_, not_true_eq_false, Bool.false_eq_true, false_or, not_or]
    omega
  have henough := h.enough hlast
  simp only [Env.continues, hctx]
  rw [if_pos]
  exact ⟨ha.2 _ (by omega), by omega⟩

theorem relay_head (h : cacheGetRandomSatisfiedChannel env a.health a.rand ctx = some p) :
    ∃ picks, relay env retry (a :: rest) ctx = p :: picks := by
  rw [relay, h]
  cases hgo : env.continues a retry p.after with
  | none => exact ⟨[], by simp [hgo]⟩
  | some ctx' => exact ⟨relay env (retry + 1) rest ctx', by simp [hgo]⟩

/-- What a selection has marked is what was tried before, and the selection. -/
theorem Selected.reached {picks : List Pick} (hp : Selected env ctx p)
    (h : Reached env (p.after.tried ++ picks.map (·.channel.id)) i) :
    Reached env (ctx.tried ++ (p :: picks).map (·.channel.id)) i := by
  refine h.mono fun id hid => ?_
  rw [hp.tried] at hid
  simp only [map_cons, mem_cons, mem_append] at hid ⊢
  tauto

/-- Before the last group a channel is found: the next group has one. -/
theorem Ahead.selects (hahead : Ahead env retry ctx) (hstaffed : Staffed env) (hcross : env.crossGroup = true)
    (hlast : ctx.cursor.groupIdx < env.groups.length - 1) (health : Health) (rand : Nat) :
    ∃ p, cacheGetRandomSatisfiedChannel env health rand ctx = some p := by
  cases hpick : cacheGetRandomSatisfiedChannel env health rand ctx with
  | some p => exact ⟨p, rfl⟩
  | none =>
    have hadvance : ctx.allowGroupAdvance env = true := by simp [Ctx.allowGroupAdvance, hcross, hahead.open_]
    have hnext : ctx.cursor.groupIdx + 1 < env.groups.length := by omega
    have hstart : ctx.cursor.start (ctx.cursor.groupIdx + 1) = 0 := if_neg (by omega)
    exact absurd (select_none hpick (Nat.le_succ _) hstart hadvance (List.getElem?_eq_getElem hnext))
      (hstaffed _ (getElem_mem hnext))

theorem relay_reaches (hstaffed : Staffed env) (hcross : env.crossGroup = true) :
    ∀ {attempts : List Attempt} {retry : Nat} {ctx : Ctx}, (∀ a ∈ attempts, a.Retryable) → Ahead env retry ctx →
      env.retryTimes + env.groups.length ≤ retry + attempts.length → ∀ i < env.groups.length,
        Reached env (ctx.tried ++ (relay env retry attempts ctx).map (·.channel.id)) i := by
  intro attempts
  induction attempts with
  | nil =>
    intro retry ctx _ hahead hlong i hi
    have hwithin := hahead.within
    unfold Within at hwithin
    have hlast : ¬ ctx.cursor.groupIdx < env.groups.length - 1 := by
      intro hlast
      have henough := hahead.enough hlast
      rw [length_nil] at hlong
      omega
    exact (hahead.reached i (by omega)).mono fun id hid => mem_append_left _ hid
  | cons a rest ih =>
    intro retry ctx hretry hahead hlong i hi
    by_cases hlast : ctx.cursor.groupIdx < env.groups.length - 1
    · obtain ⟨p, hpick⟩ := hahead.selects hstaffed hcross hlast a.health a.rand
      have hp := select_selected hpick
      obtain ⟨picks, hhead⟩ : ∃ picks, relay env retry (a :: rest) ctx = p :: picks := relay_head hpick
      have hdone : (∀ i < env.groups.length, Reached env p.after.tried i) →
          Reached env (ctx.tried ++ (relay env retry (a :: rest) ctx).map (·.channel.id)) i := by
        intro hall
        rw [hhead]
        exact hp.reached ((hall i hi).mono fun id hid => mem_append_left _ hid)
      rcases hahead.selected hstaffed hcross hlast hp with hall | hahead'
      · exact hdone hall
      by_cases hlast' : p.after.cursor.groupIdx < env.groups.length - 1
      · have hgo := hahead'.continues (hretry a mem_cons_self) hcross hlast'
        have hmore : relay env retry (a :: rest) ctx = p :: relay env (retry + 1) rest p.after := by
          simp [relay, hpick, hgo]
        rw [length_cons] at hlong
        rw [hmore]
        exact hp.reached (ih (fun b hb => hretry b (mem_cons_of_mem _ hb)) hahead' (by omega) i hi)
      · apply hdone
        intro i hi
        exact hahead'.reached i (by omega)
    · exact (hahead.reached i (by omega)).mono fun id hid => mem_append_left _ hid

theorem Ahead.first (hfew : beyondOne env 0 ≤ env.retryTimes) (hgroups : 0 < env.groups.length)
    (hid : id ∈ servingAt env 0) (htried : ctx.tried = [id]) (hcursor : ctx.cursor.groupIdx = 0)
    (hswitches : ctx.groupSwitches = 0) (hopen : ctx.blocked = false) : Ahead env 1 ctx := by
  have hmarked : id ∈ ctx.tried := htried ▸ mem_cons_self
  refine ⟨⟨by omega, by omega⟩, htried ▸ cons_ne_nil _ _, hopen, fun i hi => ?_, fun hlast => ?_⟩
  · obtain rfl : i = 0 := by omega
    exact ⟨id, hid, hmarked⟩
  · rw [hcursor] at hlast ⊢
    have hsplit := beyondOne_split (Nat.le_refl 0) hlast
    have huntried := untriedAt_le hid hmarked
    omega

def remaining (env : Env) (a : Attempt) (rest : List Attempt) (ctx : Ctx) : List Pick :=
  (env.continues a 0 ctx).elim [] (relay env 1 rest)

theorem request_seeded {preferred : Option Int} (h : preferred.bind (seedChainCursorForChannel env) = some ctx) :
    request env preferred (a :: rest) = remaining env a rest ctx := by
  unfold request remaining
  rw [h]
  dsimp only
  cases env.continues a 0 ctx <;> rfl

theorem request_unseeded {preferred : Option Int} (h : preferred.bind (seedChainCursorForChannel env) = none)
    (hpick : cacheGetRandomSatisfiedChannel env a.health a.rand {} = some p) :
    request env preferred (a :: rest) = p :: remaining env a rest p.after := by
  unfold request remaining
  rw [h]
  dsimp only
  rw [relay, hpick]
  dsimp only
  cases env.continues a 0 p.after <;> rfl

theorem remaining_reaches (hstaffed : Staffed env) (hcross : env.crossGroup = true)
    (hretry : ∀ b ∈ a :: rest, b.Retryable) (hlong : env.retryTimes + env.groups.length ≤ (a :: rest).length)
    (h : Ahead env 1 ctx) :
    ∀ i < env.groups.length, Reached env (ctx.tried ++ (remaining env a rest ctx).map (·.channel.id)) i := by
  intro i hi
  by_cases hlast : ctx.cursor.groupIdx < env.groups.length - 1
  · have hgo := Ahead.continues h (hretry a mem_cons_self) hcross hlast
    rw [remaining, hgo]
    rw [length_cons] at hlong
    have hlong' : env.retryTimes + env.groups.length ≤ (1 : Nat) + rest.length := by omega
    exact relay_reaches hstaffed hcross (fun b hb => hretry b (mem_cons_of_mem _ hb)) h hlong' i hi
  · exact (h.reached i (by omega)).mono fun id hid => mem_append_left _ hid

/-- The first selection of a request is from the first group. -/
theorem select_first (health : Health) (rand : Nat) (hstaffed : Staffed env) (hgroups : 0 < env.groups.length) :
    ∃ p, cacheGetRandomSatisfiedChannel env health rand {} = some p ∧ Selected env {} p ∧
      p.after.cursor.groupIdx = 0 := by
  have hgroup : env.groups[0]? = some env.groups[0] := List.getElem?_eq_getElem hgroups
  have hsome : env.serving env.groups[0] ≠ [] := hstaffed _ (getElem_mem hgroups)
  have hadvance : ({} : Ctx).allowGroupAdvance env = true := by simp [Ctx.allowGroupAdvance]
  have huntried : ¬ Tried env {} 0 := by
    intro htried
    obtain ⟨id, hid⟩ := exists_mem_of_ne_nil _ hsome
    cases htried _ hgroup id hid
  cases hpick : cacheGetRandomSatisfiedChannel env health rand {} with
  | none => exact absurd (select_none hpick (Nat.le_refl 0) rfl hadvance hgroup) hsome
  | some p =>
    have hp := select_selected hpick
    refine ⟨p, rfl, hp, ?_⟩
    rcases hp.choice with ⟨-, hpassed⟩ | hall
    · by_contra hne
      exact huntried (hpassed 0 (Nat.le_refl 0) rfl (by omega))
    · exact absurd (hall hadvance 0 (Nat.le_refl 0) rfl) huntried

/-- A preferred channel that serves the first group starts the request there. -/
theorem seed_first (h : seedChainCursorForChannel env id = some ctx) (hgroups : 0 < env.groups.length)
    (hid : id ∈ servingAt env 0) :
    ctx.tried = [id] ∧ ctx.cursor.groupIdx = 0 ∧ ctx.groupSwitches = 0 ∧ ctx.blocked = false := by
  have hgroup : env.groups[0]? = some env.groups[0] := List.getElem?_eq_getElem hgroups
  have henabled := Env.serving_enabled ((servingAt_of hgroup).mp hid)
  have hseed : seedChainCursorForChannel (env.withStore env.store) id = some ctx := h
  obtain ⟨-, -, htried, -⟩ := seeded_enabled hseed
  obtain ⟨groupIdx, hfind, rfl⟩ := Option.map_eq_some_iff.mp h
  have hzero : groupIdx = 0 := by
    obtain ⟨hlt, -, hbefore⟩ := List.findIdx?_eq_some_iff_getElem.mp hfind
    by_contra hne
    exact hbefore 0 (by omega) henabled
  refine ⟨htried, ?_, ?_, ?_⟩
  all_goals
    unfold Ctx.markChannelTried
    split
  all_goals first | rfl | exact hzero

end

/-- The channels a request goes to, with the one that the affinity cache prefers. -/
def attempted (env : Env) (preferred : Option Int) (attempts : List Attempt) : List Int :=
  (preferred.filter fun id => (seedChainCursorForChannel env id).isSome).toList ++
    (request env preferred attempts).map (·.channel.id)

/-- **Every group gets an attempt.** In a chain that may be left group by group, where every
group has a channel, and whose groups before the last have together at most as many channels
beyond one each as there are retries: a request all of whose attempts fail by the fault of the
channel, with an error that allows another one, goes to a channel of every group, if it starts
at the first. -/
theorem groups_reached (env : Env) (preferred : Option Int) (attempts : List Attempt) (hcross : env.crossGroup = true)
    (hstaffed : Staffed env) (hretry : ∀ a ∈ attempts, a.Retryable)
    (hlong : env.retryTimes + env.groups.length ≤ attempts.length) (hfew : beyondOne env 0 ≤ env.retryTimes)
    (hfirst : ∀ id ∈ preferred, (seedChainCursorForChannel env id).isSome → id ∈ servingAt env 0) :
    ∀ group ∈ env.groups, ∃ id ∈ env.serving group, id ∈ attempted env preferred attempts := by
  intro group hmem
  obtain ⟨i, hi, rfl⟩ := getElem_of_mem hmem
  have hgroups : 0 < env.groups.length := by omega
  have hreached : Reached env (attempted env preferred attempts) i := by
    cases attempts with
    | nil =>
      rw [length_nil] at hlong
      omega
    | cons a rest =>
      cases hseed : preferred.bind (seedChainCursorForChannel env) with
      | some ctx =>
        obtain ⟨id, rfl, hctx⟩ := Option.bind_eq_some_iff.mp hseed
        have hid := hfirst id rfl (by rw [hctx]; rfl)
        obtain ⟨htried, hcursor, hswitches, hopen⟩ := seed_first hctx hgroups hid
        have hahead := Ahead.first hfew hgroups hid htried hcursor hswitches hopen
        have hall := remaining_reaches hstaffed hcross hretry hlong hahead i hi
        have hrun : attempted env (some id) (a :: rest) =
            ctx.tried ++ (remaining env a rest ctx).map (·.channel.id) := by
          have hkept : (some id).filter (fun id => (seedChainCursorForChannel env id).isSome) = some id :=
            Option.filter_some_pos (by rw [hctx]; rfl)
          rw [attempted, request_seeded hseed, htried, hkept]
          rfl
        rw [hrun]
        exact hall
      | none =>
        obtain ⟨p, hpick, hp, hcursor⟩ := select_first a.health a.rand hstaffed hgroups
        obtain ⟨group, hgroup, hserves⟩ := hp.serves
        have hid : p.channel.id ∈ servingAt env 0 := hcursor ▸ (servingAt_of hgroup).mpr hserves
        have hswitches : p.after.groupSwitches = 0 := by
          rw [hp.switches, if_neg]
          exact fun h => h.2 rfl
        have hahead := Ahead.first hfew hgroups hid hp.tried hcursor hswitches hp.blocked
        have hall := remaining_reaches hstaffed hcross hretry hlong hahead i hi
        have hrun : (request env preferred (a :: rest)).map (·.channel.id) =
            p.after.tried ++ (remaining env a rest p.after).map (·.channel.id) := by
          rw [request_unseeded hseed hpick, hp.tried]
          rfl
        rw [← hrun] at hall
        exact hall.mono fun id hid => mem_append_right _ hid
  obtain ⟨id, hid, hin⟩ := hreached
  exact ⟨id, (servingAt_of (List.getElem?_eq_getElem hi)).mp hid, hin⟩

theorem failing_retryable (cooling : List Int) : (failing cooling).Retryable := ⟨rfl, fun _ _ => rfl⟩

/-- With two retries the three channels of `vip` leave one attempt for `default`. -/
theorem both_groups_reached :
    attempted { exampleEnv with retryTimes := 2 } none (List.replicate 4 (failing [])) = [1, 2, 3, 4] ∧
      ∀ group ∈ exampleEnv.groups, ∃ id ∈ exampleEnv.serving group,
        id ∈ attempted { exampleEnv with retryTimes := 2 } none (List.replicate 4 (failing [])) :=
  ⟨by decide +kernel, groups_reached { exampleEnv with retryTimes := 2 } none (List.replicate 4 (failing [])) rfl
    (by decide +kernel) (fun a ha => eq_of_mem_replicate ha ▸ failing_retryable []) (by decide) (by decide +kernel)
    nofun⟩

/-- Without retries the budget is the one switch, and the second channel of `vip` takes it: the
request ends before it comes to `default`. -/
theorem second_group_missed :
    Staffed { exampleEnv with retryTimes := 0 } ∧ (∀ a ∈ List.replicate 9 (failing []), a.Retryable) ∧
      attempted { exampleEnv with retryTimes := 0 } none (List.replicate 9 (failing [])) = [1, 2] ∧
      exampleEnv.serving "default" = [4] :=
  ⟨by decide +kernel, fun a ha => eq_of_mem_replicate ha ▸ failing_retryable [], by decide +kernel, by decide +kernel⟩

end AmuxApi.ChannelChain
