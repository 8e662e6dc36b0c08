import AmuxApi.Limiter.Slots

/- The slots in Redis, and that they are the ones that would be counted in memory.

   With Redis, the slots of a key are a sorted set: a member for each request, with the second
   it was admitted in as its score. A script removes the members that are too old, counts, and
   adds one. Keys expire.

   As long as no script finds a holder of its keys that was admitted `ttl` seconds before or
   earlier, by the seconds of the server's clock, both limiters answer alike, the cardinality of
   every set is the count in memory, and no key with a holder expires (`limiters_agree`). A
   holder that has stayed for a little less than the `ttl` can be removed (`holder_purged`).

   Correspondence (Lua and Go ↔ Lean):
     `lua/concurrency.lua` ↔ `acquire`, `concurrencyScript`
     `common/limiter/concurrency.go`: `AcquireConcurrencySlots` ↔ `concurrencyScript`
       `ReleaseConcurrencySlots` ↔ `releaseConcurrencySlots`
   The clock is in milliseconds. Commands succeed. -/
namespace AmuxApi.Limiter
open Conc Function Slots List

/-! Sorted sets that expire. -/

structure SortedSet where
  /-- members and their scores -/
  members : List (String × Int)
  expireAt : Option Int := none
  deriving DecidableEq, Repr

abbrev Redis := String → Option SortedSet

namespace Redis

/-- What commands find at the time `now`: a key is gone when the clock is past the time it
expires at. -/
def alive (r : Redis) (now : Int) : Redis := fun key => (r key).filter fun z => z.expireAt.all (now ≤ ·)

/-- A set that is empty is no key. -/
def store (r : Redis) (key : String) (z : SortedSet) : Redis :=
  Function.update r key (if z.members = [] then none else some z)

def zremrangebyscore (r : Redis) (key : String) (max : Int) : Redis :=
  match r key with
  | none => r
  | some z => r.store key { z with members := z.members.filter fun x => max < x.2 }

def zcard (r : Redis) (key : String) : Nat := ((r key).map (·.members.length)).getD 0

def zadd (r : Redis) (key : String) (score : Int) (member : String) : Redis :=
  match r key with
  | none => r.store key { members := [(member, score)] }
  | some z => r.store key { z with members := (member, score) :: z.members.filter fun x => x.1 ≠ member }

def zrem (r : Redis) (key member : String) : Redis :=
  match r key with
  | none => r
  | some z => r.store key { z with members := z.members.filter fun x => x.1 ≠ member }

/-- A time that is not in the future deletes the key. -/
def expire (r : Redis) (now : Int) (key : String) (seconds : Int) : Redis :=
  match r key with
  | none => r
  | some z => Function.update r key
    (if seconds ≤ 0 then none else some { z with expireAt := some (now + seconds * 1000) })

end Redis

/-! The script. -/

def seconds (now : Int) : Int := now / 1000

def acquire (now ttl : Int) (member key : String) (limit : Int) (r : Redis) : Bool × Redis :=
  if limit ≤ (r.zremrangebyscore key (seconds now - ttl)).zcard key then
    (false, (r.zremrangebyscore key (seconds now - ttl)).expire now key ttl)
  else (true, ((r.zremrangebyscore key (seconds now - ttl)).zadd key (seconds now) member).expire now key ttl)

/-- The second level of the script. -/
def acquireToken (now ttl : Int) (member : String) (userAcquired : Bool) (userKey tokenKey : String) (tokenLimit : Int)
    (r : Redis) : AcquireOutcome × Redis :=
  if tokenKey ≠ "" ∧ 0 < tokenLimit then
    match acquire now ttl member tokenKey tokenLimit r with
    | (true, r') => (.ok, r')
    | (false, r') => (.tokenExceeded, if userAcquired then r'.zrem userKey member else r')
  else (.ok, r)

def concurrencyScript (now ttl : Int) (member userKey : String) (userLimit : Int) (tokenKey : String) (tokenLimit : Int)
    (r : Redis) : AcquireOutcome × Redis :=
  if userKey ≠ "" ∧ 0 < userLimit then
    match acquire now ttl member userKey userLimit (r.alive now) with
    | (true, r') => acquireToken now ttl member true userKey tokenKey tokenLimit r'
    | (false, r') => (.userExceeded, r')
  else acquireToken now ttl member false userKey tokenKey tokenLimit (r.alive now)

/-- Two commands in one pipeline. -/
def releaseConcurrencySlots (now : Int) (userKey tokenKey member : String) (r : Redis) : Redis :=
  let r := r.alive now
  let r := if userKey = "" then r else r.zrem userKey member
  if tokenKey = "" then r else r.zrem tokenKey member

/-! What the sets should be. -/

/-- For each key, the members and the times they were admitted at, the newest first. -/
abbrev Entries := String → List (String × Int)

def Entries.push (E : Entries) (key member : String) (now : Int) : Entries :=
  Function.update E key ((member, now) :: E key)

/-- A level without a key or without a limit is passed over. -/
def Entries.level (E : Entries) (key : String) (limit : Int) (member : String) (now : Int) : Entries :=
  if key ≠ "" ∧ 0 < limit then E.push key member now else E

def Entries.drop (E : Entries) (key member : String) : Entries :=
  Function.update E key ((E key).filter fun x => x.1 ≠ member)

/-- The set has these members, and does not expire before the `ttl` of its members is over. -/
def IsSet (ttl : Int) (z : Option SortedSet) (xs : List (String × Int)) : Prop :=
  (xs = [] ∧ z = none) ∨
    (xs ≠ [] ∧ ∃ e, z = some ⟨xs.map fun x => (x.1, seconds x.2), some e⟩ ∧ ∀ x ∈ xs, x.2 + ttl * 1000 ≤ e)

/-- The sets of Redis are the entries. -/
def Mirrors (ttl : Int) (r : Redis) (E : Entries) : Prop := ∀ k, IsSet ttl (r k) (E k)

/-- What both limiters hold. -/
structure Both (ttl : Int) (r : Redis) (m : Shards) (E : Entries) : Prop where
  redis : Mirrors ttl r E
  mem : ∀ k, m.inUse k = (E k).length

section
variable {ttl now : Int} {r : Redis} {m : Shards} {E : Entries} {key member : String} {xs : List (String × Int)}

theorem filter_scored {p : String × Int → Bool} (h : ∀ x ∈ xs, p (x.1, seconds x.2) = true) :
    (xs.map fun x => (x.1, seconds x.2)).filter p = xs.map fun x => (x.1, seconds x.2) := by
  refine filter_eq_self.mpr fun y hy => ?_
  obtain ⟨x, hx, rfl⟩ := mem_map.mp hy
  exact h x hx

section
variable (h : Mirrors ttl r E)
include h

theorem Mirrors.zcard (key : String) : r.zcard key = (E key).length := by
  rcases h key with ⟨hnil, hr⟩ | ⟨-, e, hr, -⟩
  · simp [Redis.zcard, hr, hnil]
  · simp [Redis.zcard, hr]

/-- No key with a member that is within its `ttl` is gone. -/
theorem Mirrors.alive (hclock : ∀ k, ∀ x ∈ E k, now ≤ x.2 + ttl * 1000) : r.alive now = r := by
  funext k
  rcases h k with ⟨-, hr⟩ | ⟨hne, e, hr, he⟩
  · simp [Redis.alive, hr]
  · obtain ⟨x, hx⟩ := exists_mem_of_ne_nil _ hne
    have hle : now ≤ e := Int.le_trans (hclock k x hx) (he x hx)
    simp [Redis.alive, hr, hle]

/-- The script removes no member that is young enough. -/
theorem Mirrors.zremrangebyscore {max : Int} (hyoung : ∀ x ∈ E key, max < seconds x.2) :
    r.zremrangebyscore key max = r := by
  rcases h key with ⟨-, hr⟩ | ⟨hne, e, hr, -⟩
  · simp [Redis.zremrangebyscore, hr]
  have hall := filter_scored (p := fun x => max < x.2) fun x hx => decide_eq_true (hyoung x hx)
  funext k
  by_cases hk : k = key
  · subst hk
    simp only [Redis.zremrangebyscore, hr, Redis.store, hall]
    rw [update_self, if_neg (by simpa using hne)]
  · simp only [Redis.zremrangebyscore, hr, Redis.store]
    rw [update_of_ne hk]

/-- Away from the key nothing changes; at the key it is enough to look at the new entries. -/
theorem Mirrors.update {z : Option SortedSet} (key : String) (hkey : IsSet ttl z xs) :
    Mirrors ttl (Function.update r key z) (Function.update E key xs) := by
  intro k
  by_cases hk : k = key
  · subst hk
    rw [update_self, update_self]
    exact hkey
  · rw [update_of_ne hk, update_of_ne hk]
    exact h k

theorem Mirrors.expire (httl : 0 < ttl) (hpast : ∀ x ∈ E key, x.2 ≤ now) :
    Mirrors ttl (r.expire now key ttl) E := by
  rcases h key with ⟨-, hr⟩ | ⟨hne, e, hr, -⟩
  · simpa [Redis.expire, hr] using h
  have hexpire : r.expire now key ttl =
      Function.update r key (some ⟨(E key).map fun x => (x.1, seconds x.2), some (now + ttl * 1000)⟩) := by
    simp only [Redis.expire, hr, if_neg (Int.not_le.mpr httl)]
  have hmirrors := h.update key (.inr ⟨hne, _, rfl, fun x hx => Int.add_le_add_right (hpast x hx) _⟩)
  rwa [update_eq_self, ← hexpire] at hmirrors

theorem Mirrors.zadd (httl : 0 < ttl) (hpast : ∀ x ∈ E key, x.2 ≤ now)
    (hfresh : ∀ x ∈ E key, x.1 ≠ member) :
    Mirrors ttl ((r.zadd key (seconds now) member).expire now key ttl) (E.push key member now) := by
  have hadded : (r.zadd key (seconds now) member).expire now key ttl = Function.update r key
      (some ⟨((member, now) :: E key).map fun x => (x.1, seconds x.2), some (now + ttl * 1000)⟩) := by
    rcases h key with ⟨hnil, hr⟩ | ⟨-, e, hr, -⟩
    · simp [Redis.zadd, Redis.expire, Redis.store, hr, hnil, Int.not_le.mpr httl]
    have hall := filter_scored (p := fun x => x.1 ≠ member) fun x hx => decide_eq_true (hfresh x hx)
    simp only [Redis.zadd, hr, Redis.store, hall]
    simp [Redis.expire, Int.not_le.mpr httl]
  rw [hadded]
  refine h.update key (.inr ⟨by simp, _, rfl, forall_mem_cons.mpr ⟨Int.le_refl _, fun x hx => ?_⟩⟩)
  have := hpast x hx
  omega

theorem Mirrors.zrem (key member : String) : Mirrors ttl (r.zrem key member) (E.drop key member) := by
  rcases h key with ⟨hnil, hr⟩ | ⟨-, e, hr, he⟩
  · have hsame : E.drop key member = E := by
      rw [Entries.drop, hnil, filter_nil, ← hnil, update_eq_self]
    simpa [Redis.zrem, hr, hsame] using h
  · have hmap : ((E key).map fun x => (x.1, seconds x.2)).filter (fun x => x.1 ≠ member) =
        ((E key).filter fun x => x.1 ≠ member).map fun x => (x.1, seconds x.2) := by
      rw [filter_map]
      rfl
    simp only [Redis.zrem, hr, Redis.store, hmap]
    refine h.update key ?_
    by_cases hnil : (E key).filter (fun x => x.1 ≠ member) = []
    · exact .inl ⟨hnil, if_pos (by rw [hnil]; rfl)⟩
    · exact .inr ⟨hnil, e, if_neg (by simpa using hnil), fun x hx => he x (mem_filter.mp hx).1⟩

end

/-! Both limiters, side by side. -/

theorem Both.push {r' : Redis} (h : Both ttl r m E) (hr : Mirrors ttl r' (E.push key member now)) :
    Both ttl r' (m.take key) (E.push key member now) := by
  refine ⟨hr, (forall_update_iff E fun k xs => (m.take key).inUse k = xs.length).mpr ⟨?_, fun k hk => ?_⟩⟩
  · rw [Shards.inUse_take, h.mem, if_pos rfl, length_cons]
  · rw [Shards.inUse_take, h.mem, if_neg hk, Nat.add_zero]

theorem drop_push (hfresh : ∀ x ∈ E key, x.1 ≠ member) : (E.push key member now).drop key member = E := by
  have hrest : (E key).filter (fun x => x.1 ≠ member) = E key :=
    filter_eq_self.mpr fun x hx => decide_eq_true (hfresh x hx)
  unfold Entries.drop Entries.push
  rw [update_self, filter_cons_of_neg (by simp), hrest, update_idem, update_eq_self]

theorem Both.undo (h : Both ttl r m (E.push key member now)) (hfresh : ∀ x ∈ E key, x.1 ≠ member) :
    Both ttl (r.zrem key member) (m.release key) E := by
  have hr := h.redis.zrem key member
  rw [drop_push hfresh] at hr
  refine ⟨hr, fun k => ?_⟩
  by_cases hk : k = key
  · subst hk
    rw [Shards.inUse_release, h.mem, Entries.push, update_self, length_cons, if_pos rfl, Nat.add_sub_cancel]
  · rw [Shards.inUse_release, h.mem, Entries.push, update_of_ne hk, if_neg hk, Nat.sub_zero]

theorem length_drop (hnodup : (xs.map Prod.fst).Nodup) (hmem : member ∈ xs.map Prod.fst) :
    (xs.filter fun x => x.1 ≠ member).length = xs.length - 1 := by
  have hmap : (xs.filter fun x => x.1 ≠ member).map Prod.fst = (xs.map Prod.fst).erase member := by
    rw [hnodup.erase_eq_filter, filter_map]
    congr 1
    refine filter_congr fun x _ => ?_
    by_cases hx : x.1 = member <;> simp [hx]
  calc (xs.filter fun x => x.1 ≠ member).length
      = ((xs.filter fun x => x.1 ≠ member).map Prod.fst).length := (length_map _).symm
    _ = (xs.map Prod.fst).length - 1 := by rw [hmap, length_erase_of_mem hmem]
    _ = xs.length - 1 := by rw [length_map]

theorem Both.drop (h : Both ttl r m E) (hnodup : ((E key).map Prod.fst).Nodup) (hmem : member ∈ (E key).map Prod.fst) :
    Both ttl (r.zrem key member) (m.release key) (E.drop key member) := by
  refine ⟨h.redis.zrem key member,
    (forall_update_iff E fun k xs => (m.release key).inUse k = xs.length).mpr ⟨?_, fun k hk => ?_⟩⟩
  · rw [Shards.inUse_release, h.mem, if_pos rfl, length_drop hnodup hmem]
  · rw [Shards.inUse_release, h.mem, if_neg hk, Nat.sub_zero]

/-- What an acquisition finds at a key: members that are young enough, and none of its own. -/
structure Ready (ttl now : Int) (member : String) (xs : List (String × Int)) : Prop where
  young : ∀ x ∈ xs, seconds now - ttl < seconds x.2
  past : ∀ x ∈ xs, x.2 ≤ now
  fresh : ∀ x ∈ xs, x.1 ≠ member

/-- One level: there is a slot for both limiters or for none. -/
theorem Both.acquire (h : Both ttl r m E) (httl : 0 < ttl) (hready : Ready ttl now member (E key)) (limit : Int) :
    (limit ≤ m.inUse key ∧ ∃ r', Limiter.acquire now ttl member key limit r = (false, r') ∧ Both ttl r' m E) ∨
      (¬ limit ≤ m.inUse key ∧ ∃ r', Limiter.acquire now ttl member key limit r = (true, r') ∧
        Both ttl r' (m.take key) (E.push key member now)) := by
  unfold Limiter.acquire
  rw [h.redis.zremrangebyscore hready.young, h.redis.zcard, ← h.mem]
  split_ifs with hfull
  · exact .inl ⟨hfull, _, rfl, h.redis.expire httl hready.past, h.mem⟩
  · exact .inr ⟨hfull, _, rfl, h.push (h.redis.zadd httl hready.past hready.fresh)⟩

theorem exec_acquireMemorySlot (key : String) (limit : Int) (m : Shards) :
    (acquireMemorySlot key limit).exec m = (!decide (limit ≤ m.inUse key),
      if limit ≤ m.inUse key then m else m.take key) := rfl

/-- Both limiters answer alike; `refused` and `admitted` are what they hold then. -/
structure Alike (ttl : Int) (x : AcquireOutcome × Redis) (y : AcquireOutcome × Shards) (refused admitted : Entries) :
    Prop where
  outcome : x.1 = y.1
  both : Both ttl x.2 y.2 (if y.1 = .ok then admitted else refused)

/-- The level of the token; `E` is what there was before the level of the user. -/
theorem Both.acquireToken {E' : Entries} {userKey tokenKey : String} {tokenLimit : Int} (h : Both ttl r m E')
    (userAcquired : Bool) (httl : 0 < ttl)
    (hready : tokenKey ≠ "" → 0 < tokenLimit → Ready ttl now member (E' tokenKey))
    (hE' : E' = if userAcquired then E.push userKey member now else E) (hfresh : ∀ x ∈ E userKey, x.1 ≠ member) :
    Alike ttl (Limiter.acquireToken now ttl member userAcquired userKey tokenKey tokenLimit r)
      ((acquireTokenSlot userAcquired userKey tokenKey tokenLimit).exec m) E
        (E'.level tokenKey tokenLimit member now) := by
  unfold Limiter.acquireToken acquireTokenSlot Entries.level
  by_cases hlevel : tokenKey ≠ "" ∧ 0 < tokenLimit
  · rw [if_pos hlevel, if_pos hlevel, if_pos hlevel, Prog.exec_bind, exec_acquireMemorySlot]
    obtain ⟨hfull, r', hacquire, hboth⟩ | ⟨hfree, r', hacquire, hboth⟩ :=
      h.acquire httl (hready hlevel.1 hlevel.2) tokenLimit
    · simp only [hacquire, hfull]
      subst hE'
      cases userAcquired with
      | true => exact ⟨rfl, hboth.undo hfresh⟩
      | false => exact ⟨rfl, hboth⟩
    · simp only [hacquire, hfree]
      exact ⟨rfl, hboth⟩
  · rw [if_neg hlevel, if_neg hlevel, if_neg hlevel]
    exact ⟨rfl, h⟩

end

/-! Whole operations. -/

/-- The keys whose slots a request with these keys and limits has when it is admitted. -/
def Slots.holds (sl : Slots) (k : String) : Bool :=
  k ≠ "" && (k = sl.userKey && 0 < sl.userLimit || k = sl.tokenKey && 0 < sl.tokenLimit)

/-- The key of the user, if the user has a limit. -/
def Slots.heldUser (sl : Slots) : String := if 0 < sl.userLimit then sl.userKey else ""

def Slots.heldToken (sl : Slots) : String := if 0 < sl.tokenLimit then sl.tokenKey else ""

/-- A request that has been admitted. -/
structure Holder where
  member : String
  slots : Slots
  since : Int

/-- Both limiters, asked for the same, and the requests that have been admitted. -/
structure World where
  redis : Redis
  mem : Shards
  holders : List Holder
  now : Int

def World.inRedis (ttl now : Int) (member : String) (sl : Slots) (w : World) : AcquireOutcome × Redis :=
  concurrencyScript now ttl member sl.userKey sl.userLimit sl.tokenKey sl.tokenLimit w.redis

def World.inMemory (sl : Slots) (w : World) : AcquireOutcome × Shards :=
  (acquireMemoryConcurrencySlots sl.userKey sl.userLimit sl.tokenKey sl.tokenLimit).exec w.mem

/-- The request is admitted when the limiter in memory says so. -/
def World.acquire (ttl now : Int) (member : String) (sl : Slots) (w : World) : World where
  redis := (w.inRedis ttl now member sl).2
  mem := (w.inMemory sl).2
  holders := if (w.inMemory sl).1 = .ok then ⟨member, sl, now⟩ :: w.holders else w.holders
  now := now

def World.release (now : Int) (h : Holder) (w : World) : World where
  redis := releaseConcurrencySlots now h.slots.heldUser h.slots.heldToken h.member w.redis
  mem := ((releaseMemoryConcurrencySlots h.slots.heldUser h.slots.heldToken).exec w.mem).2
  holders := w.holders.filter fun h' => h'.member ≠ h.member
  now := now

/-- The clock does not go back, and no holder stays longer than the `ttl`. -/
def World.Clock (ttl : Int) (w : World) (now : Int) : Prop :=
  w.now ≤ now ∧ ∀ h ∈ w.holders, now - h.since ≤ ttl * 1000

/-- A condition on acquisitions: what is asked for, and when. -/
abbrev AcquireGuard := World → Int → Slots → Prop

def anyAcquire : AcquireGuard := fun _ _ _ => True

/-- The keys that an acquisition looks at: that of the token only if there is a slot of the user. -/
def Slots.examines (sl : Slots) (m : Shards) (k : String) : Prop :=
  k ≠ "" ∧ ((k = sl.userKey ∧ 0 < sl.userLimit) ∨
    (k = sl.tokenKey ∧ 0 < sl.tokenLimit ∧
      ¬ (sl.userKey ≠ "" ∧ 0 < sl.userLimit ∧ sl.userLimit ≤ m.inUse sl.userKey)))

/-- The condition on runs: the holders of the keys that are looked at were admitted less than
`ttl` seconds ago, by the seconds of the server's clock. -/
def youngHolders (ttl : Int) : AcquireGuard := fun w now sl =>
  ∀ h ∈ w.holders, ∀ k, h.slots.holds k → sl.examines w.mem k → seconds now - seconds h.since < ttl

/-- Sequences of whole operations, with members that no holder has. -/
inductive Reached (ttl : Int) (g : AcquireGuard) : World → Prop
  | start (now : Int) : Reached ttl g ⟨fun _ => none, noSlots, [], now⟩
  | acquire {w : World} (now : Int) (member : String) (sl : Slots) (hw : Reached ttl g w) (hclock : w.Clock ttl now)
      (hfresh : ∀ h ∈ w.holders, h.member ≠ member) (hguard : g w now sl) : Reached ttl g (w.acquire ttl now member sl)
  | release {w : World} (now : Int) (h : Holder) (hw : Reached ttl g w) (hclock : w.Clock ttl now)
    (hh : h ∈ w.holders) :
      Reached ttl g (w.release now h)

def entries (holders : List Holder) : Entries := fun k =>
  (holders.filter fun h => h.slots.holds k).map fun h => (h.member, h.since)

section
variable {ttl now : Int} {member : String} {sl : Slots} {holders : List Holder} {k : String}

theorem mem_entries {x : String × Int} :
    x ∈ entries holders k ↔ ∃ h ∈ holders, h.slots.holds k = true ∧ x = (h.member, h.since) := by
  simp only [entries, mem_map, mem_filter]
  constructor
  · rintro ⟨h, ⟨hh, hk⟩, rfl⟩
    exact ⟨h, hh, hk, rfl⟩
  · rintro ⟨h, hh, hk, rfl⟩
    exact ⟨h, ⟨hh, hk⟩, rfl⟩

theorem level_apply (E : Entries) (key : String) (limit : Int) (k : String) : E.level key limit member now k =
    if k = key ∧ k ≠ "" ∧ 0 < limit then (member, now) :: E k else E k := by
  unfold Entries.level
  by_cases hlevel : key ≠ "" ∧ 0 < limit
  · rw [if_pos hlevel, Entries.push]
    by_cases hk : k = key
    · subst hk
      rw [update_self, if_pos ⟨rfl, hlevel⟩]
    · rw [update_of_ne hk, if_neg (fun h => hk h.1)]
  · rw [if_neg hlevel, if_neg]
    rintro ⟨rfl, hk⟩
    exact hlevel hk

theorem holds_iff : sl.holds k = true ↔
    (k = sl.userKey ∧ k ≠ "" ∧ 0 < sl.userLimit) ∨ (k = sl.tokenKey ∧ k ≠ "" ∧ 0 < sl.tokenLimit) := by
  simp only [holds, Bool.and_eq_true, Bool.or_eq_true, decide_eq_true_eq]
  tauto

theorem entries_cons (sl : Slots) : entries (⟨member, sl, now⟩ :: holders) =
    ((entries holders).level sl.userKey sl.userLimit member now).level sl.tokenKey sl.tokenLimit member now := by
  funext k
  have hcons : entries (⟨member, sl, now⟩ :: holders) k =
      if sl.holds k = true then (member, now) :: entries holders k else entries holders k := by
    by_cases hk : sl.holds k = true <;> simp [entries, hk]
  rw [hcons, level_apply, level_apply]
  by_cases huser : k = sl.userKey ∧ k ≠ "" ∧ 0 < sl.userLimit
  · have htoken : ¬ (k = sl.tokenKey ∧ k ≠ "" ∧ 0 < sl.tokenLimit) := by
      rintro ⟨hk, hne, -⟩
      exact sl.apart (huser.1 ▸ hne) (huser.1 ▸ hk)
    rw [if_pos (holds_iff.mpr (.inl huser)), if_neg htoken, if_pos huser]
  · by_cases htoken : k = sl.tokenKey ∧ k ≠ "" ∧ 0 < sl.tokenLimit
    · rw [if_pos (holds_iff.mpr (.inr htoken)), if_pos htoken, if_neg huser]
    · rw [if_neg (fun h => (holds_iff.mp h).elim huser htoken), if_neg htoken, if_neg huser]

theorem entries_filter (h : Holder) :
    entries (holders.filter fun h' => h'.member ≠ h.member) =
      fun k => (entries holders k).filter fun x => x.1 ≠ h.member := by
  funext k
  unfold entries
  rw [filter_map, filter_filter, filter_filter]
  congr 1
  refine filter_congr fun h' _ => ?_
  exact Bool.and_comm _ _

end

section
variable {ttl now : Int} {w : World} {sl : Slots} {member k : String} {holder : Holder}

structure Agree (ttl : Int) (w : World) : Prop where
  both : Both ttl w.redis w.mem (entries w.holders)
  clock : w.Clock ttl w.now
  past : ∀ h ∈ w.holders, h.since ≤ w.now
  nodup : (w.holders.map (·.member)).Nodup

section
variable (h : Agree ttl w)
include h

section
variable (hclock : w.Clock ttl now)
include hclock

/-- At a time at which no holder has stayed for too long, nothing has expired. -/
theorem Agree.alive : w.redis.alive now = w.redis := by
  refine h.both.redis.alive fun k x hx => ?_
  obtain ⟨holder, hholder, -, rfl⟩ := mem_entries.mp hx
  have := hclock.2 holder hholder
  omega

section
variable (hfresh : ∀ h ∈ w.holders, h.member ≠ member) (hguard : youngHolders ttl w now sl)
include hfresh hguard

theorem Agree.ready (hk : sl.examines w.mem k) : Ready ttl now member (entries w.holders k) := by
  refine ⟨fun x hx => ?_, fun x hx => ?_, fun x hx => ?_⟩
  · obtain ⟨holder, hholder, hkey, rfl⟩ := mem_entries.mp hx
    have := hguard holder hholder k hkey hk
    show seconds now - ttl < seconds holder.since
    omega
  · obtain ⟨holder, hholder, -, rfl⟩ := mem_entries.mp hx
    exact Int.le_trans (h.past holder hholder) hclock.1
  · obtain ⟨holder, hholder, -, rfl⟩ := mem_entries.mp hx
    exact hfresh holder hholder

/-- An acquisition: both answer alike, and both take the same slots. -/
theorem Agree.outcomes (httl : 0 < ttl) :
    Alike ttl (w.inRedis ttl now member sl) (w.inMemory sl) (entries w.holders)
      (entries (⟨member, sl, now⟩ :: w.holders)) := by
  have hfreshE : ∀ k, ∀ x ∈ entries w.holders k, x.1 ≠ member := by
    intro k x hx
    obtain ⟨holder, hholder, -, rfl⟩ := mem_entries.mp hx
    exact hfresh holder hholder
  unfold World.inRedis World.inMemory concurrencyScript acquireMemoryConcurrencySlots
  rw [h.alive hclock, entries_cons]
  split_ifs with huser
  · rw [Prog.exec_bind, exec_acquireMemorySlot]
    have hready := h.ready hclock hfresh hguard ⟨huser.1, .inl ⟨rfl, huser.2⟩⟩
    obtain ⟨hfull, r', hacquire, hboth⟩ | ⟨hfree, r', hacquire, hboth⟩ := h.both.acquire httl hready sl.userLimit
    · simp only [hacquire, hfull]
      exact ⟨rfl, hboth⟩
    · simp only [hacquire, hfree]
      -- the slot of the user is taken, and at the key of the token nothing has changed
      have htoken : sl.tokenKey ≠ "" → 0 < sl.tokenLimit →
          Ready ttl now member ((entries w.holders).push sl.userKey member now sl.tokenKey) := by
        intro hne hlimit
        rw [Entries.push, update_of_ne (Ne.symm (sl.apart huser.1))]
        exact h.ready hclock hfresh hguard ⟨hne, .inr ⟨rfl, hlimit, fun hrefused => hfree hrefused.2.2⟩⟩
      rw [show (entries w.holders).level sl.userKey sl.userLimit member now =
        (entries w.holders).push sl.userKey member now from if_pos huser]
      exact hboth.acquireToken true httl htoken rfl (hfreshE sl.userKey)
  · have htoken : sl.tokenKey ≠ "" → 0 < sl.tokenLimit → Ready ttl now member (entries w.holders sl.tokenKey) := by
      intro hne hlimit
      exact h.ready hclock hfresh hguard ⟨hne, .inr ⟨rfl, hlimit, fun hrefused => huser ⟨hrefused.1, hrefused.2.1⟩⟩⟩
    rw [show (entries w.holders).level sl.userKey sl.userLimit member now = entries w.holders from if_neg huser]
    exact h.both.acquireToken false httl htoken rfl (hfreshE sl.userKey)

theorem Agree.acquire (httl : 0 < ttl) : Agree ttl (w.acquire ttl now member sl) := by
  have hboth := (h.outcomes hclock hfresh hguard httl).both
  unfold World.acquire
  by_cases hok : (w.inMemory sl).1 = .ok
  · rw [if_pos hok] at hboth ⊢
    refine ⟨hboth, ⟨Int.le_refl _, forall_mem_cons.mpr ⟨?_, hclock.2⟩⟩, forall_mem_cons.mpr ⟨Int.le_refl _, ?_⟩, ?_⟩
    · show now - now ≤ ttl * 1000
      omega
    · exact fun h' hh' => Int.le_trans (h.past h' hh') hclock.1
    · refine nodup_cons.mpr ⟨fun hin => ?_, h.nodup⟩
      obtain ⟨h', hh', heq⟩ := mem_map.mp hin
      exact hfresh h' hh' heq
  · rw [if_neg hok] at hboth ⊢
    exact ⟨hboth, ⟨Int.le_refl _, hclock.2⟩, fun h' hh' => Int.le_trans (h.past h' hh') hclock.1, h.nodup⟩

end

end

theorem Agree.nodup_entries (k : String) : ((entries w.holders k).map Prod.fst).Nodup := by
  have hsub : ((entries w.holders k).map Prod.fst).Sublist (w.holders.map (·.member)) := by
    rw [entries, map_map]
    exact List.Sublist.map (Holder.member) filter_sublist
  exact h.nodup.sublist hsub

/-- A member has an entry at the keys its request holds. -/
theorem Agree.member_entries (hh : holder ∈ w.holders) (k : String) :
    holder.member ∈ (entries w.holders k).map Prod.fst ↔ holder.slots.holds k = true := by
  constructor
  · intro hin
    obtain ⟨x, hx, heq⟩ := mem_map.mp hin
    obtain ⟨holder', hh', hkey, rfl⟩ := mem_entries.mp hx
    have hsame : holder' = holder := inj_on_of_nodup_map h.nodup hh' hh heq
    exact hsame ▸ hkey
  · intro hkey
    exact mem_map.mpr ⟨_, mem_entries.mpr ⟨holder, hh, hkey, rfl⟩, rfl⟩

theorem Agree.entries_other (hh : holder ∈ w.holders) (hk : ¬ holder.slots.holds k = true) :
    (entries w.holders k).filter (fun x => x.1 ≠ holder.member) = entries w.holders k := by
  refine filter_eq_self.mpr fun x hx => decide_eq_true fun heq => hk ?_
  exact (h.member_entries hh k).mp (heq ▸ mem_map.mpr ⟨x, hx, rfl⟩)

end

theorem Slots.holds_heldUser (h : sl.heldUser ≠ "") : sl.holds sl.heldUser = true := by
  unfold heldUser at h ⊢
  split at h
  · rw [if_pos ‹_›]
    exact holds_iff.mpr (.inl ⟨rfl, h, ‹_›⟩)
  · exact absurd rfl h

theorem Slots.holds_heldToken (h : sl.heldToken ≠ "") : sl.holds sl.heldToken = true := by
  unfold heldToken at h ⊢
  split at h
  · rw [if_pos ‹_›]
    exact holds_iff.mpr (.inr ⟨rfl, h, ‹_›⟩)
  · exact absurd rfl h

theorem Slots.held_of_holds (h : sl.holds k = true) : k = sl.heldUser ∨ k = sl.heldToken := by
  rcases holds_iff.mp h with ⟨hk, -, hlimit⟩ | ⟨hk, -, hlimit⟩
  · exact .inl (by rw [heldUser, if_pos hlimit, hk])
  · exact .inr (by rw [heldToken, if_pos hlimit, hk])

theorem Slots.held_apart (h : sl.heldUser ≠ "") : sl.heldToken ≠ sl.heldUser := by
  unfold heldUser at h ⊢
  split at h
  · unfold heldToken
    split
    · exact Ne.symm (sl.apart h)
    · exact Ne.symm h
  · exact absurd rfl h

theorem Both.releaseKey {r : Redis} {m : Shards} {E : Entries} {key : String} (h : Both ttl r m E)
    (hnodup : ((E key).map Prod.fst).Nodup) (hmem : key ≠ "" → member ∈ (E key).map Prod.fst) :
    Both ttl (if key = "" then r else r.zrem key member)
      ((if key = "" then (pure () : Prog Shards Unit) else releaseMemorySlot key).exec m).2
      (if key = "" then E else E.drop key member) := by
  split_ifs with hkey
  · exact h
  · exact h.drop hnodup (hmem hkey)

theorem dropKey_apply (E : Entries) (key member k : String) : (if key = "" then E else E.drop key member) k =
    if k = key ∧ k ≠ "" then (E k).filter (fun x => x.1 ≠ member) else E k := by
  by_cases hkey : key = ""
  · rw [if_pos hkey, if_neg]
    rintro ⟨rfl, hne⟩
    exact hne hkey
  · rw [if_neg hkey, Entries.drop]
    by_cases hk : k = key
    · subst hk
      rw [update_self, if_pos ⟨rfl, hkey⟩]
    · rw [update_of_ne hk, if_neg (fun h => hk h.1)]

/-- What is left when a holder gives back its slots. -/
theorem Agree.entries_release (h : Agree ttl w) (hh : holder ∈ w.holders) :
    (if holder.slots.heldToken = "" then
        if holder.slots.heldUser = "" then entries w.holders
        else (entries w.holders).drop holder.slots.heldUser holder.member
      else Entries.drop (if holder.slots.heldUser = "" then entries w.holders
        else (entries w.holders).drop holder.slots.heldUser holder.member) holder.slots.heldToken holder.member) =
      entries (w.holders.filter fun h' => h'.member ≠ holder.member) := by
  rw [entries_filter]
  funext k
  rw [dropKey_apply, dropKey_apply]
  by_cases huser : k = holder.slots.heldUser ∧ k ≠ ""
  · have htoken : ¬ (k = holder.slots.heldToken ∧ k ≠ "") := by
      rintro ⟨hk, hne⟩
      exact held_apart (huser.1 ▸ hne) (hk.symm.trans huser.1)
    rw [if_neg htoken, if_pos huser]
  · rw [if_neg huser]
    by_cases htoken : k = holder.slots.heldToken ∧ k ≠ ""
    · rw [if_pos htoken]
    rw [if_neg htoken]
    refine (h.entries_other hh fun hholds => ?_).symm
    have hne : k ≠ "" := by
      rintro rfl
      simp [holds] at hholds
    rcases held_of_holds hholds with hk | hk
    · exact huser ⟨hk, hne⟩
    · exact htoken ⟨hk, hne⟩

theorem Agree.release (h : Agree ttl w) (hclock : w.Clock ttl now) (hh : holder ∈ w.holders) :
    Agree ttl (w.release now holder) := by
  have hsub : ∀ h' ∈ w.holders.filter (fun h' => h'.member ≠ holder.member), h' ∈ w.holders :=
    fun h' hh' => (mem_filter.mp hh').1
  refine ⟨?_, ⟨Int.le_refl _, fun h' hh' => hclock.2 h' (hsub h' hh')⟩,
    fun h' hh' => Int.le_trans (h.past h' (hsub h' hh')) hclock.1, h.nodup.sublist (filter_sublist.map _)⟩
  show Both ttl (releaseConcurrencySlots now holder.slots.heldUser holder.slots.heldToken holder.member w.redis)
    ((releaseMemoryConcurrencySlots holder.slots.heldUser holder.slots.heldToken).exec w.mem).2
    (entries (w.holders.filter fun h' => h'.member ≠ holder.member))
  have huser := h.both.releaseKey (h.nodup_entries holder.slots.heldUser)
    (fun hne => (h.member_entries hh _).mpr (holds_heldUser hne))
  -- the key of the token is another one, so its entries are as before
  have hsame : (if holder.slots.heldUser = "" then entries w.holders
      else (entries w.holders).drop holder.slots.heldUser holder.member) holder.slots.heldToken =
        entries w.holders holder.slots.heldToken := by
    split
    · rfl
    · exact update_of_ne (held_apart ‹_›) ..
  have htoken := huser.releaseKey (hsame ▸ h.nodup_entries holder.slots.heldToken)
    (fun hne => hsame ▸ (h.member_entries hh _).mpr (holds_heldToken hne))
  rw [release_eq, Prog.exec_bind]
  unfold releaseConcurrencySlots
  rw [h.alive hclock, ← h.entries_release hh]
  exact htoken

theorem agree_reached (httl : 0 < ttl) (hw : Reached ttl (youngHolders ttl) w) : Agree ttl w := by
  induction hw with
  | start now =>
    refine ⟨⟨fun k => .inl ⟨rfl, rfl⟩, fun k => rfl⟩, ⟨Int.le_refl _, fun h hh => ?_⟩, fun h hh => ?_, nodup_nil⟩
    · cases hh
    · cases hh
  | acquire now member sl _ hclock hfresh hguard ih => exact ih.acquire hclock hfresh hguard httl
  | release now holder _ hclock hh ih => exact ih.release hclock hh

end

/-- **Both limiters agree.** After every sequence of operations in which acquisitions find
holders that are young enough, the next acquisition of that kind has the same outcome in Redis
and in memory. At every time at which no holder has stayed longer than the `ttl`, the
cardinality of every set is the count in memory, and every holder is in the sets of its keys. -/
theorem limiters_agree (ttl : Int) (httl : 0 < ttl) (w : World) (hw : Reached ttl (youngHolders ttl) w) :
    (∀ now member sl, w.Clock ttl now → (∀ h ∈ w.holders, h.member ≠ member) → youngHolders ttl w now sl →
      (w.inRedis ttl now member sl).1 = (w.inMemory sl).1) ∧
    w.Clock ttl w.now ∧
    ∀ now, w.Clock ttl now →
      (∀ k, (w.redis.alive now).zcard k = w.mem.inUse k) ∧
      ∀ h ∈ w.holders, ∀ k, h.slots.holds k = true →
        ∃ z, w.redis.alive now k = some z ∧ (h.member, seconds h.since) ∈ z.members := by
  have hagree := agree_reached httl hw
  refine ⟨fun now member sl hclock hfresh hguard => ?_, hagree.clock, fun now hclock =>
    ⟨fun k => ?_, fun h hh k hk => ?_⟩⟩
  · exact (hagree.outcomes hclock hfresh hguard httl).outcome
  · rw [hagree.alive hclock, hagree.both.redis.zcard, hagree.both.mem]
  rw [hagree.alive hclock]
  have hentry : (h.member, h.since) ∈ entries w.holders k := mem_entries.mpr ⟨h, hh, hk, rfl⟩
  rcases hagree.both.redis k with ⟨hnil, -⟩ | ⟨-, e, hset, -⟩
  · rw [hnil] at hentry
    cases hentry
  · exact ⟨_, hset, mem_map.mpr ⟨_, hentry, rfl⟩⟩

/-! One request at a time, for a user. -/

def exampleSlots : Slots where
  userKey := "concurrency:user:7"
  userLimit := 1
  tokenKey := ""
  tokenLimit := 0
  apart := id

def exampleWorld : World := World.acquire 600 900 "r1" exampleSlots ⟨fun _ => none, noSlots, [], 0⟩

/-- 599 seconds later, by the clock, the second request finds no slot. -/
theorem second_refused :
    (exampleWorld.inRedis 600 599000 "r2" exampleSlots).1 = .userExceeded ∧
      (exampleWorld.inRedis 600 599000 "r2" exampleSlots).1 = (exampleWorld.inMemory exampleSlots).1 := by
  have hstart : Reached 600 (youngHolders 600) ⟨fun _ => none, noSlots, [], 0⟩ := .start 0
  have hfirst : Reached 600 (youngHolders 600) exampleWorld :=
    .acquire 900 "r1" exampleSlots hstart ⟨by decide, nofun⟩ nofun nofun
  have hholders : exampleWorld.holders = [⟨"r1", exampleSlots, 900⟩] := rfl
  refine ⟨by decide +kernel, (limiters_agree 600 (by decide) exampleWorld hfirst).1 599000 "r2" exampleSlots ?_ ?_ ?_⟩
  · refine ⟨by decide, fun h hh => ?_⟩
    rw [hholders, mem_singleton] at hh
    subst hh
    decide
  · intro h hh
    rw [hholders, mem_singleton] at hh
    subst hh
    decide
  · intro h hh k _ _
    rw [hholders, mem_singleton] at hh
    subst hh
    decide

/-- The second comes 600 seconds after the start. The first has stayed for 599.1 seconds, but
its score is 600 seconds back: it is removed, and Redis admits the second. -/
theorem holder_purged :
    ∃ w, Reached 600 anyAcquire w ∧ w.Clock 600 600000 ∧ (∀ h ∈ w.holders, h.member ≠ "r2") ∧
      (w.inRedis 600 600000 "r2" exampleSlots).1 = .ok ∧ (w.inMemory exampleSlots).1 = .userExceeded := by
  have hstart : Reached 600 anyAcquire ⟨fun _ => none, noSlots, [], 0⟩ := .start 0
  have hfirst : Reached 600 anyAcquire exampleWorld :=
    .acquire 900 "r1" exampleSlots hstart ⟨by decide, nofun⟩ nofun trivial
  have hholders : exampleWorld.holders = [⟨"r1", exampleSlots, 900⟩] := rfl
  refine ⟨exampleWorld, hfirst, ⟨by decide, fun h hh => ?_⟩, fun h hh => ?_, by decide +kernel, by decide +kernel⟩
  · rw [hholders, mem_singleton] at hh
    subst hh
    decide
  · rw [hholders, mem_singleton] at hh
    subst hh
    decide

end AmuxApi.Limiter
