import Mathlib.Tactic.Ring
import AmuxApi.ClaudeStream.Model

/- The events are those of a Claude message.

   `Grammar` reads events: one `message_start` comes first; the indices of the blocks that are started
   increase; what is added goes to a block that is open and of its kind; a stop is of a block that is
   open; and nothing comes after `message_stop`. What the converter sends is accepted, whatever the
   chunks (`stream_grammatical`), as long as tool calls are in order (`orderly`): a call with a name is
   the next one of its run of tool calls, and one without a name has been started in that run.

   The converter takes the index of a tool call as it comes, and stops all blocks up to the largest: a
   call that goes on after a text, or one that comes with index 1 first, gives events for blocks that
   were never started (`stray_blocks`). -/
namespace AmuxApi.ClaudeStream
open Dto Function Option

/-! Messages. -/

inductive Kind
  | toolUse | thinking | text
  deriving DecidableEq, Repr

def Block.kind : Block → Kind
  | .toolUse _ _ => .toolUse
  | .thinking => .thinking
  | .text => .text

def BlockDelta.kind : BlockDelta → Kind
  | .inputJson _ => .toolUse
  | .thinking _ => .thinking
  | .text _ => .text

/-- What was read of a message. `next`: the blocks so far have smaller indices. -/
structure Grammar where
  begun : Bool := false
  next : Int := 0
  opened : Int → Option Kind := fun _ => none
  stopped : Bool := false

namespace Grammar

def live (γ : Grammar) : Bool := γ.begun && !γ.stopped

def start (γ : Grammar) (index : Int) (kind : Kind) : Grammar :=
  { γ with next := index + 1, opened := update γ.opened index (some kind) }

def stop (γ : Grammar) (index : Int) : Grammar := { γ with opened := update γ.opened index none }

def step (γ : Grammar) : Event → Option Grammar
  | .messageStart _ _ _ => if γ.begun then none else some { γ with begun := true }
  | .contentBlockStart index block => if γ.live ∧ γ.next ≤ index then some (γ.start index block.kind) else none
  | .contentBlockDelta index delta => if γ.live ∧ γ.opened index = some delta.kind then some γ else none
  | .contentBlockStop index => if γ.live ∧ (γ.opened index).isSome then some (γ.stop index) else none
  | .messageDelta _ _ => if γ.live then some γ else none
  | .messageStop => if γ.live then some { γ with stopped := true } else none

def run (γ : Grammar) (events : List Event) : Option Grammar := events.foldlM step γ

@[simp] theorem run_nil (γ : Grammar) : γ.run [] = some γ := rfl

@[simp] theorem run_cons (γ : Grammar) (e : Event) (es : List Event) :
    γ.run (e :: es) = (γ.step e).bind (·.run es) := rfl

@[simp] theorem run_append (γ : Grammar) (es es' : List Event) : γ.run (es ++ es') = (γ.run es).bind (·.run es') := by
  simp [run]

end Grammar

/-! Tool calls in order. -/

/-- The blocks that were started in the run of tool calls that is open. -/
def startedTools (info : Info) : Int :=
  if info.lastMessagesType = .tools then info.toolCallMaxIndexOffset + 1 else 0

/-- A call with a name is the next one, one without is one of those that were started. -/
def orderlyCalls : Int → Nat → List ToolCall → Bool
  | _, _, [] => true
  | started, position, call :: calls =>
      if call.name ≠ "" then offsetOf position call = started && orderlyCalls (started + 1) (position + 1) calls
      else 0 ≤ offsetOf position call && offsetOf position call < started && orderlyCalls started (position + 1) calls

/-- A chunk with a finish reason and no usage is not looked at. -/
def orderlyChoice (info : Info) (chunk : Chunk) : Bool :=
  match chunk.choices with
  | [] => true
  | choice :: _ =>
      choice.finished.isSome && chunk.usage.isNone || orderlyCalls (startedTools info) 0 choice.delta.toolCalls

/-- The first chunk starts a block for its tool call whatever the index, and after the end no chunk is
looked at. -/
def orderly (sendResponseCount : Nat) (info : Info) (chunk : Chunk) : Bool :=
  info.done || sendResponseCount = 0 || orderlyChoice info chunk

/-- In order chunk after chunk, in the state that the chunks before it leave. -/
def orderlyRun (estimate : Int) : Nat → Info → List Chunk → Bool
  | _, _, [] => true
  | count, info, chunk :: chunks =>
      orderly count info chunk && orderlyRun estimate (count + 1)
        (handleStreamFormat estimate count chunk info).info chunks

/-! What is open. -/

/-- A message with the blocks from `b` to `e` open, and none after them. -/
def row (k : Kind) (b e : Int) : Grammar where
  begun := true
  next := e
  opened i := if b ≤ i ∧ i < e then some k else none

section
variable {k : Kind} {b e : Int}

theorem step_start {block : Block} (h : b ≤ e) (hblock : block.kind = k) :
    (row k b e).step (.contentBlockStart e block) = some (row k b (e + 1)) := by
  have hopened : update (row k b e).opened e (some k) = (row k b (e + 1)).opened := by
    funext i
    simp only [row, update_apply]
    split
    · rw [if_pos (by omega)]
    · exact if_congr (by omega) rfl rfl
  simp only [Grammar.step, Grammar.start, hblock, hopened]
  simp [row, Grammar.live]

theorem step_delta {i : Int} {delta : BlockDelta} (h : b ≤ i ∧ i < e) (hdelta : delta.kind = k) :
    (row k b e).step (.contentBlockDelta i delta) = some (row k b e) := by
  simp [Grammar.step, row, Grammar.live, hdelta, h]

theorem step_stop (h : b < e) : (row k b e).step (.contentBlockStop b) = some (row k (b + 1) e) := by
  have hopened : update (row k b e).opened b none = (row k (b + 1) e).opened := by
    funext i
    simp only [row, update_apply]
    split
    · rw [if_neg (by omega)]
    · exact if_congr (by omega) rfl rfl
  simp only [Grammar.step, Grammar.stop, hopened]
  simp [row, Grammar.live, h]

theorem run_stops (n : Nat) : ∀ b : Int,
    (row k b (b + n)).run ((List.range n).map fun i : Nat => .contentBlockStop (b + i)) =
      some (row k (b + n) (b + n)) := by
  induction n with
  | zero =>
    simp
  | succ n ih =>
    intro b
    have hshift : b + ((n + 1 : Nat) : Int) = b + 1 + n := by
      push_cast
      ring
    have hevents : (fun i : Nat => Event.contentBlockStop (b + i)) ∘ Nat.succ =
        fun i : Nat => .contentBlockStop (b + 1 + i) := by
      funext i
      simp only [comp_apply, Nat.cast_succ]
      congr 1
      ring
    rw [hshift, List.range_succ_eq_map, List.map_cons, List.map_map, Grammar.run_cons, Nat.cast_zero, add_zero,
      step_stop (by omega), hevents]
    exact ih (b + 1)

end

/-! What the converter has noted. -/

def Info.kind (info : Info) : Kind :=
  match info.lastMessagesType with
  | .text => .text
  | .thinking => .thinking
  | .none | .tools => .toolUse

def Info.base (info : Info) : Int := if info.lastMessagesType = .tools then info.toolCallBaseIndex else info.index

def Info.size (info : Info) : Int :=
  match info.lastMessagesType with
  | .none => 0
  | .text | .thinking => 1
  | .tools => info.toolCallMaxIndexOffset + 1

def Info.grammar (info : Info) : Grammar := row info.kind info.base (info.base + info.size)

theorem stopOpenBlocks_eq (info : Info) :
    stopOpenBlocks info = (List.range info.size.toNat).map fun i : Nat => .contentBlockStop (info.base + i) := by
  unfold stopOpenBlocks Info.size Info.base
  cases info.lastMessagesType <;> simp

theorem advance_eq (info : Info) : info.advance.lastMessagesType = .none ∧ info.advance.index = info.base + info.size ∧
    info.advance.done = info.done := by
  unfold Info.advance Info.size Info.base
  cases h : info.lastMessagesType <;> simp [h, add_assoc]

variable {info : Info} {choice : Choice} {chunk : Chunk}

theorem grammar_none (h : info.lastMessagesType = .none) (k : Kind) : info.grammar = row k info.index info.index := by
  simp only [Info.grammar, Info.size, Info.base, h, reduceCtorEq, add_zero]
  have hempty : ∀ i : Int, ¬ (info.index ≤ i ∧ i < info.index) := by omega
  simp only [row, hempty, if_false]

theorem run_stopOpenBlocks (hsize : 0 ≤ info.size) :
    info.grammar.run (stopOpenBlocks info) = some info.advance.grammar := by
  obtain ⟨hnone, hindex, -⟩ := advance_eq info
  have hstops := run_stops (k := info.kind) info.size.toNat info.base
  rw [Int.toNat_of_nonneg hsize] at hstops
  rw [stopOpenBlocks_eq, grammar_none hnone info.kind, hindex]
  exact hstops

/-! The pieces of a chunk. -/

/-- The events so far are those of the message that the converter has noted. -/
structure Going (γ : Grammar) (o : Out) : Prop where
  waiting : o.info.done = false
  size : 0 ≤ o.info.size
  run : γ.run o.events = some o.info.grammar

/-- The message is over. -/
structure Over (γ : Grammar) (o : Out) : Prop where
  done : o.info.done = true
  run : (γ.run o.events).isSome = true

def Accepted (γ : Grammar) (o : Out) : Prop := Going γ o ∨ Over γ o

variable {γ : Grammar} {o : Out}

theorem Going.advance (h : Going γ o) : Going γ (stopOpenBlocksAndAdvance o) where
  waiting := (advance_eq o.info).2.2.trans h.waiting
  size := by
    show 0 ≤ o.info.advance.size
    simp [Info.size, (advance_eq o.info).1]
  run := by
    show γ.run (o.events ++ stopOpenBlocks o.info) = some o.info.advance.grammar
    rw [Grammar.run_append, h.run]
    exact run_stopOpenBlocks h.size

/-- The next index is free, for a block of any kind. -/
theorem Going.free (h : Going γ o) (k : Kind) : γ.run (stopOpenBlocksAndAdvance o).events =
    some (row k (stopOpenBlocksAndAdvance o).info.index (stopOpenBlocksAndAdvance o).info.index) := by
  rw [h.advance.run, grammar_none
    (show (stopOpenBlocksAndAdvance o).info.lastMessagesType = .none from (advance_eq o.info).1) k]

theorem over_close (usage : Option Usage) (reason : String) (h : Going γ o) : Over γ (close usage reason o) := by
  refine ⟨rfl, ?_⟩
  show (γ.run ((stopOpenBlocksAndAdvance o).events ++ _)).isSome = true
  rw [Grammar.run_append, h.free .toolUse]
  cases usage <;> simp [Grammar.step, row, Grammar.live]

section
variable {type : LastMessagesType} {block : Block} {delta : BlockDelta}

/-- A type with one block, and what goes into it. -/
structure Single (type : LastMessagesType) (block : Block) (delta : BlockDelta) : Prop where
  delta : delta.kind = block.kind
  size : ∀ info : Info, info.lastMessagesType = type → info.size = 1
  grammar : ∀ info : Info, info.lastMessagesType = type → info.grammar = row block.kind info.index (info.index + 1)

theorem single_text (text : String) : Single .text .text (.text text) :=
  ⟨rfl, fun info h => by simp [Info.size, h],
    fun info h => by simp [Info.grammar, Info.kind, Info.base, Info.size, h, Block.kind]⟩

theorem single_thinking (text : String) : Single .thinking .thinking (.thinking text) :=
  ⟨rfl, fun info h => by simp [Info.size, h],
    fun info h => by simp [Info.grammar, Info.kind, Info.base, Info.size, h, Block.kind]⟩

section
variable (hsingle : Single type block delta)
include hsingle

theorem Single.going (hwaiting : o.info.done = false) (htype : o.info.lastMessagesType = type)
    (hrun : γ.run o.events = some (row block.kind o.info.index (o.info.index + 1))) : Going γ o := by
  refine ⟨hwaiting, ?_, ?_⟩
  · rw [hsingle.size o.info htype]
    exact Int.one_nonneg
  · rw [hsingle.grammar o.info htype]
    exact hrun

theorem going_startBlock (h : Going γ o) (htype : o.info.lastMessagesType ≠ type) :
    Going γ (startBlock type block delta o) := by
  have hrun := h.free block.kind
  unfold startBlock switchTo
  rw [if_pos htype]
  refine hsingle.going h.advance.waiting rfl ?_
  show γ.run ((stopOpenBlocksAndAdvance o).events ++ _) = _
  rw [Grammar.run_append, hrun, bind_some, Grammar.run_cons, step_start (le_refl _) rfl, bind_some,
    Grammar.run_cons, step_delta (by omega) hsingle.delta]
  rfl

theorem going_continueBlock (h : Going γ o) : Going γ (continueBlock type block delta o) := by
  unfold continueBlock
  split_ifs with htype
  · exact going_startBlock hsingle h htype
  refine ⟨h.waiting, h.size, ?_⟩
  show γ.run (o.events ++ _) = some o.info.grammar
  rw [Grammar.run_append, h.run, hsingle.grammar o.info (not_not.mp htype), bind_some, Grammar.run_cons,
    step_delta (by omega) hsingle.delta]
  rfl

end

end

/-! Tool calls. -/

section
variable {b e : Int} {position : Nat} {call : ToolCall}

theorem run_arguments (h : b ≤ b + offsetOf position call ∧ b + offsetOf position call < e) :
    (row .toolUse b e).run (if call.arguments ≠ "" then
      [.contentBlockDelta (b + offsetOf position call) (.inputJson call.arguments)] else []) =
        some (row .toolUse b e) := by
  split
  · rw [Grammar.run_cons, step_delta (k := .toolUse) h rfl]
    rfl
  · rfl

/-- A call with a name opens one block more. -/
theorem run_named (hname : call.name ≠ "") (h : b ≤ b + offsetOf position call) (he : b + offsetOf position call = e) :
    (row .toolUse b e).run (callEvents b position call) = some (row .toolUse b (e + 1)) := by
  subst he
  show (row .toolUse b _).run (_ ++ _) = _
  rw [if_pos hname, Grammar.run_append, Grammar.run_cons, step_start (k := .toolUse) h rfl]
  exact run_arguments (by omega)

theorem run_unnamed (hname : call.name = "") (h : b ≤ b + offsetOf position call ∧ b + offsetOf position call < e) :
    (row .toolUse b e).run (callEvents b position call) = some (row .toolUse b e) := by
  show (row .toolUse b e).run (_ ++ _) = _
  rw [if_neg (not_not.mpr hname)]
  exact run_arguments h

/-- The blocks up to the largest offset are open. -/
theorem run_toolEvents (calls : List ToolCall) : ∀ {most : Int} (position : Nat), -1 ≤ most →
    orderlyCalls (most + 1) position calls = true →
    (row .toolUse b (b + (most + 1))).run (toolEvents b position calls) =
      some (row .toolUse b (b + (maxOffset position most calls + 1))) ∧ most ≤ maxOffset position most calls := by
  induction calls with
  | nil =>
    intro most position _ _
    exact ⟨rfl, le_refl _⟩
  | cons call calls ih =>
    intro most position hmost horder
    rw [toolEvents, maxOffset, Grammar.run_append]
    unfold orderlyCalls at horder
    by_cases hname : call.name = ""
    · simp only [hname, ne_eq, not_true_eq_false, if_false, Bool.and_eq_true, decide_eq_true_eq] at horder
      obtain ⟨hoffset, horder⟩ := horder
      rw [run_unnamed hname (by omega), max_eq_left (by omega)]
      exact ih (position + 1) hmost horder
    · simp only [hname, ne_eq, not_false_eq_true, if_true, Bool.and_eq_true, decide_eq_true_eq] at horder
      obtain ⟨hoffset, horder⟩ := horder
      rw [run_named hname (by omega) (by omega), max_eq_right (by omega), hoffset, add_assoc]
      obtain ⟨hrun, hle⟩ := ih (position + 1) (by omega) horder
      exact ⟨hrun, by omega⟩

/-- The same where none was open: the first call has a name. -/
theorem run_firstEvents {calls : List ToolCall} (hcalls : calls ≠ []) (horder : orderlyCalls 0 0 calls = true) :
    (row .toolUse b b).run (toolEvents b 0 calls) = some (row .toolUse b (b + (maxOffset 0 0 calls + 1))) ∧
      0 ≤ maxOffset 0 0 calls := by
  cases calls with
  | nil => exact absurd rfl hcalls
  | cons call calls =>
    rw [toolEvents, maxOffset, Grammar.run_append]
    unfold orderlyCalls at horder
    by_cases hname : call.name = ""
    · simp only [hname, ne_eq, not_true_eq_false, if_false, Bool.and_eq_true, decide_eq_true_eq] at horder
      omega
    · simp only [hname, ne_eq, not_false_eq_true, if_true, Bool.and_eq_true, decide_eq_true_eq] at horder
      obtain ⟨hoffset, horder⟩ := horder
      rw [run_named hname (by omega) (by omega), hoffset]
      exact run_toolEvents calls 1 (by omega) horder

end

theorem Going.tools (htools : o.info.lastMessagesType = .tools) (hmost : -1 ≤ o.info.toolCallMaxIndexOffset) :
    Going γ o ↔ o.info.done = false ∧ γ.run o.events =
      some (row .toolUse o.info.toolCallBaseIndex
        (o.info.toolCallBaseIndex + (o.info.toolCallMaxIndexOffset + 1))) := by
  have hgrammar : o.info.grammar =
      row .toolUse o.info.toolCallBaseIndex (o.info.toolCallBaseIndex + (o.info.toolCallMaxIndexOffset + 1)) := by
    simp [Info.grammar, Info.kind, Info.base, Info.size, htools]
  have hsize : 0 ≤ o.info.size := by
    simp only [Info.size, htools]
    omega
  rw [← hgrammar]
  exact ⟨fun h => ⟨h.waiting, h.run⟩, fun h => ⟨h.1, hsize, h.2⟩⟩

theorem going_laterToolCalls {calls : List ToolCall} (h : Going γ o) (hcalls : calls ≠ [])
    (horder : orderlyCalls (startedTools o.info) 0 calls = true) : Going γ (laterToolCalls calls o) := by
  unfold laterToolCalls beginTools
  unfold startedTools at horder
  by_cases htools : o.info.lastMessagesType = .tools
  · rw [if_neg (not_not.mpr htools)]
    rw [if_pos htools] at horder
    have hmost : -1 ≤ o.info.toolCallMaxIndexOffset := by
      have hsize := h.size
      simp only [Info.size, htools] at hsize
      omega
    obtain ⟨hevents, hle⟩ := run_toolEvents calls 0 hmost horder
    apply (Going.tools _ _).mpr
    · refine ⟨h.waiting, ?_⟩
      show γ.run (o.events ++ _) = _
      rw [Grammar.run_append, ((Going.tools htools hmost).mp h).2]
      exact hevents
    · exact htools
    · exact Int.le_trans hmost hle
  · rw [if_pos htools]
    rw [if_neg htools] at horder
    have hrun := h.free .toolUse
    obtain ⟨hevents, hmost⟩ := run_firstEvents hcalls horder
    refine (Going.tools rfl (Int.le_trans (by decide) hmost)).mpr ⟨h.advance.waiting, ?_⟩
    show γ.run ((stopOpenBlocksAndAdvance o).events ++ _) = _
    rw [Grammar.run_append, hrun]
    exact hevents

/-! A chunk. -/

theorem going_firstContent (delta : Delta) (h : Going γ o) (hthinking : o.info.lastMessagesType ≠ .thinking)
    (htext : o.info.lastMessagesType ≠ .text) : Going γ (firstContent delta o) := by
  unfold firstContent
  split
  · exact going_startBlock (single_thinking _) h hthinking
  · split
    · exact going_startBlock (single_text _) h htext
    · exact h

structure Fresh (info : Info) : Prop where
  none : info.lastMessagesType = .none
  index : info.index = 0

theorem Fresh.grammar (h : Fresh info) (k : Kind) : info.grammar = row k 0 0 := by
  rw [grammar_none h.none k, h.index]

theorem going_firstToolCall (call : ToolCall) (h : Going γ o) (hfresh : Fresh o.info) :
    Going γ (firstToolCall call o) := by
  refine (Going.tools rfl (show (-1 : Int) ≤ 0 by decide)).mpr ⟨h.waiting, ?_⟩
  show γ.run (o.events ++ _) = _
  rw [Grammar.run_append, h.run, hfresh.grammar .toolUse, bind_some, Grammar.run_cons,
    step_start (k := .toolUse) (le_refl 0) rfl]
  split <;> rfl

theorem going_firstDelta (delta : Delta) (h : Going γ o) (hfresh : Fresh o.info) :
    Going γ (firstContent delta (match delta.toolCalls with | call :: _ => firstToolCall call o | [] => o)) := by
  cases delta.toolCalls with
  | nil => exact going_firstContent _ h (by simp [hfresh.none]) (by simp [hfresh.none])
  | cons call _ => exact going_firstContent _ (going_firstToolCall call h hfresh) nofun nofun

theorem accepted_firstChoice (h : Going γ o) (hfresh : Fresh o.info) : Accepted γ (firstChoice chunk choice o) := by
  have hcontent := going_firstDelta choice.delta h hfresh
  unfold firstChoice
  cases choice.finished with
  | none => exact Or.inl hcontent
  | some reason => exact Or.inr (over_close _ _ ⟨hcontent.waiting, hcontent.size, hcontent.run⟩)

theorem accepted_firstChunk (estimate : Int) (hwaiting : info.done = false) (hfresh : Fresh info) :
    Accepted {} (firstChunk estimate chunk info) := by
  have hbegun : Going {} { info, events := [.messageStart chunk.id chunk.model ⟨estimate, 0, 0, 0, none⟩] } := by
    refine ⟨hwaiting, ?_, ?_⟩
    · simp [Info.size, hfresh.none]
    · rw [hfresh.grammar .toolUse]
      simp [Grammar.step, row, show ∀ i : Int, ¬ (0 ≤ i ∧ i < 0) by omega]
  unfold firstChunk
  cases chunk.choices with
  | nil => exact Or.inl hbegun
  | cons choice _ => exact accepted_firstChoice hbegun hfresh

theorem going_laterContent {delta : Delta} (h : Going γ o)
    (horder : orderlyCalls (startedTools o.info) 0 delta.toolCalls = true) : Going γ (laterContent delta o) := by
  unfold laterContent
  split
  · next hcalls => exact going_laterToolCalls h hcalls horder
  split
  · exact going_continueBlock (single_thinking _) h
  · split
    · exact going_continueBlock (single_text _) h
    · exact h

theorem accepted_laterChoice (h : Going γ o)
    (horder : (choice.finished.isSome && chunk.usage.isNone ||
      orderlyCalls (startedTools o.info) 0 choice.delta.toolCalls) = true) :
    Accepted γ (laterChoice chunk choice o) := by
  unfold laterChoice
  cases hfinished : choice.finished with
  | none =>
    simp only [hfinished, isSome_none, Bool.false_and] at horder
    exact Or.inl (going_laterContent h horder)
  | some reason =>
    -- the finish reason is noted, and nothing else changes
    have hnoted : Going γ (o.set fun info => { info with finishReason := reason }) := ⟨h.waiting, h.size, h.run⟩
    cases husage : chunk.usage with
    | none => exact Or.inl hnoted
    | some usage =>
      simp only [husage, isNone_some, Bool.and_false] at horder
      exact Or.inr (over_close _ _ (going_laterContent hnoted horder))

theorem accepted_laterChunk (h : Going γ { info }) (horder : orderlyChoice info chunk = true) :
    Accepted γ (laterChunk chunk info) := by
  unfold orderlyChoice at horder
  unfold laterChunk
  cases hchoices : chunk.choices with
  | nil =>
    dsimp only [usageChunk]
    cases chunk.usage <|> info.usage with
    | none => exact Or.inl h
    | some usage => exact Or.inr (over_close _ _ h)
  | cons choice _ =>
    simp only [hchoices] at horder
    exact accepted_laterChoice h horder

/-! A stream. -/

/-- What comes after events that were sent. -/
def Out.after (sent : List Event) (o : Out) : Out := { o with events := sent ++ o.events }

theorem Accepted.after {o' : Out} (hgoing : Going γ o) (h : Accepted o.info.grammar o') :
    Accepted γ (o'.after o.events) := by
  have hrun : γ.run (o'.after o.events).events = o.info.grammar.run o'.events := by
    rw [Out.after, Grammar.run_append, hgoing.run]
    rfl
  rcases h with hgoes | hover
  · exact Or.inl ⟨hgoes.waiting, hgoes.size, hrun.trans hgoes.run⟩
  · exact Or.inr ⟨hover.done, hrun ▸ hover.run⟩

theorem accepted_streamResponse (estimate : Int) {count : Nat} (usage : Option Usage) (h : Accepted γ o)
    (hcount : count ≠ 1) (horder : o.info.done = true ∨ orderlyChoice o.info chunk = true) :
    Accepted γ ((streamResponseOpenAI2Claude estimate count chunk { o.info with usage }).after o.events) := by
  unfold streamResponseOpenAI2Claude
  rcases h with hgoing | hover
  · have hopen : ¬ o.info.done = true := by simp [hgoing.waiting]
    rw [if_neg hopen, if_neg hcount]
    apply Accepted.after hgoing
    exact accepted_laterChunk ⟨hgoing.waiting, hgoing.size, rfl⟩ (horder.resolve_left hopen)
  · rw [if_pos hover.done]
    exact Or.inr ⟨hover.done, by simpa [Out.after] using hover.run⟩

theorem accepted_relay (estimate : Int) (chunks : List Chunk) : ∀ {count : Nat} {o : Out},
    Accepted γ o → count ≠ 0 → orderlyRun estimate count o.info chunks = true →
    Accepted γ ((relay estimate count o.info chunks).after o.events) := by
  induction chunks with
  | nil =>
    intro count o h _ _
    simpa [relay, Out.after] using h
  | cons chunk chunks ih =>
    intro count o h hcount horder
    simp only [orderlyRun, Bool.and_eq_true] at horder
    have hchoice : o.info.done = true ∨ orderlyChoice o.info chunk = true := by simpa [orderly, hcount] using horder.1
    have hchunk : Accepted γ ((handleStreamFormat estimate count chunk o.info).after o.events) :=
      accepted_streamResponse estimate _ h (by omega) hchoice
    have hrest := ih hchunk (Nat.succ_ne_zero count) horder.2
    simpa only [relay, Out.after, List.append_assoc] using hrest

/-- **What a client gets is a message**, whatever the chunks, if the tool calls are in order. -/
theorem stream_grammatical (estimate : Int) (chunks : List Chunk) (horder : orderlyRun estimate 0 {} chunks = true) :
    (Grammar.run {} (relay estimate 0 {} chunks).events).isSome = true := by
  cases chunks with
  | nil => rfl
  | cons chunk chunks =>
    simp only [orderlyRun, Bool.and_eq_true] at horder
    have hfirst : Accepted {} (handleStreamFormat estimate 0 chunk {}) := accepted_firstChunk estimate rfl ⟨rfl, rfl⟩
    have hstream : Accepted {} (relay estimate 0 {} (chunk :: chunks)) :=
      accepted_relay estimate chunks hfirst one_ne_zero horder.2
    rcases hstream with hgoing | hover
    · rw [hgoing.run]
      rfl
    · exact hover.run

/-! Streams. -/

def textChunk (text : String) : Chunk := { choices := [{ delta := { content := some text } }] }

def thinkingChunk (text : String) : Chunk := { choices := [{ delta := { reasoningContent := some text } }] }

def callsChunk (calls : List ToolCall) : Chunk := { choices := [{ delta := { toolCalls := calls } }] }

def finishChunk (reason : String) : Chunk := { choices := [{ finishReason := some reason }] }

def countChunk (prompt completion : Int) : Chunk :=
  { usage := some { promptTokens := prompt, completionTokens := completion } }

/-- Thinking, text and two tool calls whose arguments are mixed. -/
def mixedChunks : List Chunk :=
  [thinkingChunk "hm", textChunk "I look", callsChunk [⟨some 0, "a", "ls", "\x7b"⟩, ⟨some 1, "b", "cat", ""⟩],
    callsChunk [⟨some 1, "", "", "\x7b\x7d"⟩, ⟨some 0, "", "", "\x7d"⟩], finishChunk "tool_calls", countChunk 5 7]

theorem mixed_grammatical :
    orderlyRun 3 0 {} mixedChunks = true ∧ (Grammar.run {} (relay 3 0 {} mixedChunks).events).isSome = true := by
  have horder : orderlyRun 3 0 {} mixedChunks = true := by decide +kernel
  exact ⟨horder, stream_grammatical 3 mixedChunks horder⟩

def resumedChunks : List Chunk :=
  [textChunk "a", callsChunk [⟨some 0, "a", "ls", "\x7b"⟩], textChunk "b", callsChunk [⟨some 0, "", "", "\x7d"⟩]]

def gapChunks : List Chunk :=
  [textChunk "a", callsChunk [⟨some 1, "a", "ls", "\x7b\x7d"⟩], finishChunk "tool_calls", countChunk 5 7]

/-- Arguments go to block 3, and block 1 is stopped, though neither was started. -/
theorem stray_blocks :
    Event.contentBlockDelta 3 (.inputJson "\x7d") ∈ (relay 3 0 {} resumedChunks).events ∧
    (Grammar.run {} (relay 3 0 {} resumedChunks).events).isSome = false ∧
    Event.contentBlockStop 1 ∈ (relay 3 0 {} gapChunks).events ∧
    (Grammar.run {} (relay 3 0 {} gapChunks).events).isSome = false := by
  decide +kernel

end AmuxApi.ClaudeStream
