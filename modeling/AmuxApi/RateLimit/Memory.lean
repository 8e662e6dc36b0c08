import Mathlib.Data.List.Basic
import AmuxApi.Machine.Run

/- How many requests of one key are accepted in a window of time, where there is no Redis.

   The limiter keeps the times of the requests it has accepted last, as many as are allowed in a
   window. A janitor deletes the entry when its newest time is too old, by an expiry that the
   first initialiser fixes for all keys.

   The entry follows the log of all accepted requests (`Follows`): what it no longer holds is out
   of the window. So no window has too many (`window_bounded`), as long as the janitor leaves what
   is within one. Where the expiry is shorter than the window it does not (`cleared_too_early`).

   Correspondence (Go ↔ Lean), `common/rate-limit.go`:
     `InMemoryRateLimiter.Request` ↔ `request`
     one turn of `clearExpiredItems`, which `Init` starts ↔ `clearExpiredItems`
   One key is looked at: the others are other entries. Times are Unix seconds; the expiry is a
   `time.Duration`, in nanoseconds. -/
namespace AmuxApi.RateLimit
open Machine List

/-- The times of an entry, the oldest first. An entry is never empty: `[]` is no entry. -/
abbrev Queue := List Int

def request (now maxRequestNum duration : Int) : Queue → Bool × Queue
  | [] => (true, [now])
  | oldest :: later =>
    if ((oldest :: later).length : Int) < maxRequestNum then (true, oldest :: later ++ [now])
    else if now - oldest ≥ duration then (true, later ++ [now])
    else (false, oldest :: later)

/-- The janitor is not started without an expiry. -/
def clearExpiredItems (expirationDuration now : Int) (queue : Queue) : Queue :=
  if expirationDuration > 0 ∧ queue.getLast?.any (now - · > expirationDuration / 1000000000) then [] else queue

/-! Histories. -/

inductive Event
  | request | clear
  deriving DecidableEq, Repr

structure World where
  queue : Queue
  now : Int
  /-- when requests were accepted, the latest last -/
  accepted : List Int

def start (now : Int) : World := ⟨[], now, []⟩

def step (expirationDuration maxRequestNum duration : Int) (w : World) : Int × Event → World
  | (now, .request) =>
    let answer := request now maxRequestNum duration w.queue
    ⟨answer.2, now, if answer.1 then w.accepted ++ [now] else w.accepted⟩
  | (now, .clear) => ⟨clearExpiredItems expirationDuration now w.queue, now, w.accepted⟩

def TimeGoesOn (w : World) (e : Int × Event) : Prop := w.now ≤ e.1

/-- The number of accepted requests from `t` on, for `duration` seconds. -/
def inWindow (t duration : Int) (accepted : List Int) : Nat := accepted.countP fun a => t ≤ a ∧ a < t + duration

/-! The entry follows the log. -/

/-- The log is what the entry holds and, before that, what is out of the window. -/
structure Follows (maxRequestNum duration now : Int) (log : List Int) (queue : Queue) : Prop where
  split : ∃ old, log = old ++ queue ∧ ∀ a ∈ old, a + duration ≤ now
  size : (queue.length : Int) ≤ maxRequestNum
  sorted : log.Pairwise (· ≤ ·)
  past : ∀ a ∈ log, a ≤ now

section
variable {maxRequestNum duration now : Int} {log : List Int} {queue : Queue}

theorem Follows.later (h : Follows maxRequestNum duration now log queue) {now' : Int} (hnow : now ≤ now') :
    Follows maxRequestNum duration now' log queue := by
  obtain ⟨old, hlog, hold⟩ := h.split
  refine ⟨⟨old, hlog, fun a ha => ?_⟩, h.size, h.sorted, fun a ha => ?_⟩
  · have := hold a ha
    omega
  · have := h.past a ha
    omega

/-- The oldest times of the entry go if they are out of the window. -/
theorem Follows.drop {kept : Queue} (gone : Queue) (h : Follows maxRequestNum duration now log (gone ++ kept))
    (hgone : ∀ a ∈ gone, a + duration ≤ now) : Follows maxRequestNum duration now log kept := by
  obtain ⟨old, hlog, hold⟩ := h.split
  have hsize := h.size
  rw [length_append] at hsize
  refine ⟨⟨old ++ gone, by simp [hlog], fun a ha => ?_⟩, by omega, h.sorted, h.past⟩
  exact (mem_append.mp ha).elim (hold a) (hgone a)

theorem Follows.push (h : Follows maxRequestNum duration now log queue) (hsize : (queue.length : Int) < maxRequestNum) :
    Follows maxRequestNum duration now (log ++ [now]) (queue ++ [now]) := by
  obtain ⟨old, hlog, hold⟩ := h.split
  refine ⟨⟨old, by simp [hlog], hold⟩, by simp; omega, ?_, ?_⟩
  · exact pairwise_append.mpr ⟨h.sorted, pairwise_singleton _ _, by simpa using h.past⟩
  · simpa [or_imp, forall_and] using h.past

/-- Where the entry is full and its oldest time is out of the window, that one makes room. -/
theorem Follows.shift {oldest : Int} {later : Queue} (h : Follows maxRequestNum duration now log (oldest :: later))
    (hold : oldest + duration ≤ now) : Follows maxRequestNum duration now (log ++ [now]) (later ++ [now]) := by
  have hsize := h.size
  rw [length_cons] at hsize
  refine Follows.push (h.drop [oldest] fun a ha => ?_) (by omega)
  rw [mem_singleton.mp ha]
  exact hold

section
variable (h : Follows maxRequestNum duration now log queue)
include h

theorem Follows.request (hmax : 1 ≤ maxRequestNum) :
    Follows maxRequestNum duration now (if (request now maxRequestNum duration queue).1 then log ++ [now] else log)
      (request now maxRequestNum duration queue).2 := by
  cases queue with
  | nil => exact h.push (by simp; omega)
  | cons oldest later =>
    simp only [RateLimit.request]
    split
    · exact h.push ‹_›
    split
    · exact h.shift (by omega)
    · exact h

theorem Follows.clear {expirationDuration : Int}
    (hexpiration : 0 < expirationDuration → duration ≤ expirationDuration / 1000000000 + 1) :
    Follows maxRequestNum duration now log (clearExpiredItems expirationDuration now queue) := by
  unfold clearExpiredItems
  split_ifs with hcleared
  · obtain ⟨newest, hnewest, hold'⟩ := (Option.any_eq_true ..).mp hcleared.2
    refine Follows.drop queue (by rwa [append_nil]) fun a ha => ?_
    -- no time of the entry is later than its newest
    obtain ⟨init, rfl⟩ := List.getLast?_eq_some_iff.mp hnewest
    obtain ⟨old, rfl, -⟩ := h.split
    have hq := (pairwise_append.mp h.sorted).2.1
    simp only [pairwise_append, mem_singleton, forall_eq] at hq
    simp only [decide_eq_true_eq, mem_append, mem_singleton] at hold' ha
    rcases ha with ha | rfl
    · have := hq.2.2 a ha
      omega
    · omega
  · exact h

/-- A window that is not over yet has no more than the entry. -/
theorem Follows.window {t : Int} (ht : now < t + duration) :
    (inWindow t duration log : Int) ≤ maxRequestNum := by
  obtain ⟨old, rfl, hold⟩ := h.split
  have hout : old.countP (fun a => decide (t ≤ a ∧ a < t + duration)) = 0 := by
    refine countP_eq_zero.mpr fun a ha => ?_
    have := hold a ha
    simp
    omega
  have hle : queue.countP (fun a => decide (t ≤ a ∧ a < t + duration)) ≤ queue.length := countP_le_length
  have hsize := h.size
  rw [inWindow, countP_append]
  omega

end

/-- What runs keep. -/
structure Bounded (maxRequestNum duration : Int) (w : World) : Prop where
  follows : Follows maxRequestNum duration w.now w.accepted w.queue
  window : ∀ t, (inWindow t duration w.accepted : Int) ≤ maxRequestNum

theorem Bounded.step {w : World} (h : Bounded maxRequestNum duration w) (hmax : 1 ≤ maxRequestNum)
    {expirationDuration : Int}
    (hexpiration : 0 < expirationDuration → duration ≤ expirationDuration / 1000000000 + 1) {e : Int × Event}
    (he : TimeGoesOn w e) : Bounded maxRequestNum duration (step expirationDuration maxRequestNum duration w e) := by
  obtain ⟨now, e⟩ := e
  have hlater := h.follows.later he
  cases e with
  | clear => exact ⟨hlater.clear hexpiration, h.window⟩
  | request =>
    have hnext := hlater.request hmax
    refine ⟨hnext, fun t => ?_⟩
    by_cases ht : now < t + duration
    · exact hnext.window ht
    -- the window was over before this request
    have hsame : inWindow t duration
        (RateLimit.step expirationDuration maxRequestNum duration w (now, .request)).accepted =
          inWindow t duration w.accepted := by
      simp only [RateLimit.step, inWindow]
      split <;> simp [ht]
    rw [hsame]
    exact h.window t

end

/-- **No window has too many.** Whenever requests come and the janitor runs: as long as its expiry
is not shorter than the window, every window of length `duration` has at most `maxRequestNum` of
the requests that were accepted. -/
theorem window_bounded (expirationDuration maxRequestNum duration : Int) (hmax : 1 ≤ maxRequestNum)
    (hexpiration : 0 < expirationDuration → duration ≤ expirationDuration / 1000000000 + 1) (now : Int) (w : World)
    (h : Reach TimeGoesOn (step expirationDuration maxRequestNum duration) (start now) w) (t : Int) :
    (inWindow t duration w.accepted : Int) ≤ maxRequestNum := by
  have hstart : Bounded maxRequestNum duration (start now) := by
    refine ⟨⟨⟨[], by simp [start]⟩, ?_, by simp [start], by simp [start]⟩, fun t => ?_⟩
    all_goals simp [start, inWindow]; omega
  exact (h.keeps hstart fun _ _ hw he => hw.step hmax hexpiration he).window t

instance (w : World) (e : Int × Event) : Decidable (TimeGoesOn w e) := inferInstanceAs (Decidable (_ ≤ _))

/-- The default expiry. -/
def rateLimitKeyExpirationDuration : Int := 20 * 60 * 1000000000

def thirdTooSoon : List (Int × Event) := [(0, .request), (10, .request), (20, .request), (60, .request), (1300, .clear)]

/-- Two requests a minute: the third has to wait for the first to leave the window. -/
theorem third_waits :
    let w := thirdTooSoon.foldl (step rateLimitKeyExpirationDuration 2 60) (start 0)
    w.accepted = [0, 10, 60] ∧ ∀ t, (inWindow t 60 w.accepted : Int) ≤ 2 :=
  ⟨by decide +kernel, window_bounded rateLimitKeyExpirationDuration 2 60 (by decide) (by decide) 0 _
    (reach_foldl .start thirdTooSoon (by decide +kernel))⟩

def pauseOfTwentyMinutes : List (Int × Event) :=
  [(0, .request), (1, .request), (1202, .clear), (1210, .request), (1211, .request)]

/-- Two requests an hour: after a pause of twenty minutes there are two more. -/
theorem cleared_too_early :
    ∃ w, Reach TimeGoesOn (step rateLimitKeyExpirationDuration 2 3600) (start 0) w ∧ inWindow 0 3600 w.accepted = 4 :=
  ⟨_, reach_foldl .start pauseOfTwentyMinutes (by decide +kernel), by decide +kernel⟩

end AmuxApi.RateLimit
