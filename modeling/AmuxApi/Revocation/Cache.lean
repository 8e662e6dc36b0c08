import Mathlib.Tactic.SplitIfs
import AmuxApi.Conc.Rely
import AmuxApi.Revocation.Model

/- What the steps of requests, operations and tasks do to the copies of one token and its user.

   A token has access by its row, when it is stored and enabled, and by its copy in the cache; so
   has its user. `refillsCurrent` is the condition on the steps: an enabled copy appears in a cache
   only while the row is enabled. `Onward` is all that a step under this condition may do, and a
   token that is `Out`, by the row and by the copy, stays out along it. -/
namespace AmuxApi.Revocation
open Conc List
open Account

variable {ι : Type}

/-! Who has access. -/

/-- The database has the token, and it is enabled. -/
def Store.stored (m : Store) (key : String) : Bool :=
  m.tokens.any fun t => !t.deleted && (t.key == key && t.status == tokenStatusEnabled)

def Store.cached (m : Store) (key : String) : Bool := (m.tokenCache key).any fun t => t.status == tokenStatusEnabled

def Store.userStored (m : Store) (id : Int) : Bool :=
  m.users.any fun u => !u.deleted && (u.id == id && u.status == userStatusEnabled)

def Store.userCached (m : Store) (id : Int) : Bool := (m.userCache id).any fun u => u.status == userStatusEnabled

/-- No step makes a cached token enabled that the database does not have enabled at that moment,
and none such a user: for the token `row` and its user. -/
def refillsCurrent (row : Token) : Guard (Thread ι) Store := fun _ m m' =>
  (!m'.cached row.key || (m.cached row.key || m.stored row.key)) &&
    (!m'.userCached row.userId || (m.userCached row.userId || m.userStored row.userId))

/-- The task takes the token out of the cache, or makes it one that is not enabled. -/
def Job.clears (key : String) : Job → Bool
  | .setToken token => token.key == key && token.status != tokenStatusEnabled
  | .deleteTokens keys => keys.contains key
  | .setUser _ => false

structure WellFormed (m : Store) : Prop where
  keys : (m.tokens.map (·.key)).Nodup
  users : (m.users.map (·.id)).Nodup
  cached : ∀ t ∈ m.tokens, ∀ c, m.tokenCache t.key = some c → c.userId = t.userId
  jobs : m.jobs = []

/-- What is known of the copies of `row`. -/
structure Sound (row : Token) (m : Store) : Prop where
  unique : ∀ t ∈ m.tokens, ∀ t' ∈ m.tokens, t.key = row.key → t'.key = row.key → t = t'
  rows : ∀ t ∈ m.tokens, t.key = row.key → t.id = row.id ∧ t.userId = row.userId
  users : (m.users.map (·.id)).Nodup
  cached : ∀ c, m.tokenCache row.key = some c → c.userId = row.userId
  jobs : ∀ t, Job.setToken t ∈ m.jobs → t.key = row.key → t.userId = row.userId
  clears : ∀ job ∈ m.jobs, job.clears row.key = true → m.stored row.key = false

/-- What a step may do. -/
structure Onward (row : Token) (m m' : Store) : Prop where
  jobs : m.jobs <+: m'.jobs
  stored : m'.stored row.key = true → m.stored row.key = true
  cached : m.stored row.key = false → m'.cached row.key = true → m.cached row.key = true
  userStored : m'.userStored row.userId = true → m.userStored row.userId = true
  userCached : m.userStored row.userId = false → m'.userCached row.userId = true → m.userCached row.userId = true
  sound : Sound row m → Sound row m'

variable {row : Token} {m m' m'' : Store}

theorem Onward.stays_out (h : Onward row m m') (hm : m.stored row.key = false) : m'.stored row.key = false := by
  rw [Bool.eq_false_iff] at hm ⊢
  exact fun hm' => hm (h.stored hm')

theorem Onward.user_stays_out (h : Onward row m m') (hm : m.userStored row.userId = false) :
    m'.userStored row.userId = false := by
  rw [Bool.eq_false_iff] at hm ⊢
  exact fun hm' => hm (h.userStored hm')

theorem Onward.job (h : Onward row m m') {n : Nat} {job : Job} (hjob : m.jobs[n]? = some job) :
    m'.jobs[n]? = some job := by
  obtain ⟨later, hlater⟩ := h.jobs
  obtain ⟨hn, -⟩ := List.getElem?_eq_some_iff.mp hjob
  rw [← hlater, List.getElem?_append_left hn]
  exact hjob

theorem onward_refl (m : Store) : Onward row m m :=
  ⟨prefix_refl _, id, fun _ => id, id, fun _ => id, id⟩

theorem Onward.trans (h : Onward row m m') (h' : Onward row m' m'') : Onward row m m'' where
  jobs := h.jobs.trans h'.jobs
  stored hm := h.stored (h'.stored hm)
  cached hm hm'' := h.cached hm (h'.cached (h.stays_out hm) hm'')
  userStored hm := h.userStored (h'.userStored hm)
  userCached hm hm'' := h.userCached hm (h'.userCached (h.user_stays_out hm) hm'')
  sound hm := h'.sound (h.sound hm)

instance onwardPreorder : IsPreorder Store (Onward row) where
  refl := onward_refl
  trans _ _ _ := Onward.trans

/-- The token has no access, by what is stored and what is cached. -/
def Out (row : Token) (m : Store) : Prop := m.stored row.key = false ∧ m.cached row.key = false

def UserOut (row : Token) (m : Store) : Prop := m.userStored row.userId = false ∧ m.userCached row.userId = false

theorem Onward.out (h : Onward row m m') (hm : Out row m) : Out row m' := by
  refine ⟨h.stays_out hm.1, ?_⟩
  rw [Bool.eq_false_iff]
  intro hcached
  exact Bool.eq_false_iff.mp hm.2 (h.cached hm.1 hcached)

theorem Onward.userOut (h : Onward row m m') (hm : UserOut row m) : UserOut row m' := by
  refine ⟨h.user_stays_out hm.1, ?_⟩
  rw [Bool.eq_false_iff]
  intro hcached
  exact Bool.eq_false_iff.mp hm.2 (h.userCached hm.1 hcached)

/-! The steps. -/

variable {key : String} {id : Int}

theorem setTokenCache_self {token : Option Token} : (m.setTokenCache key token).tokenCache key = token :=
  Function.update_self ..

section
variable {i : Thread ι}

theorem refillsCurrent_token (h : refillsCurrent row i m m' = true) (hm : m.stored row.key = false)
    (hm' : m'.cached row.key = true) : m.cached row.key = true := by
  unfold refillsCurrent at h
  rw [hm, hm', Bool.and_eq_true] at h
  simpa using h.1

theorem refillsCurrent_user (h : refillsCurrent row i m m' = true) (hm : m.userStored row.userId = false)
    (hm' : m'.userCached row.userId = true) : m.userCached row.userId = true := by
  unfold refillsCurrent at h
  rw [hm, hm', Bool.and_eq_true] at h
  simpa using h.2

theorem onward_start {job : Job} (hguard : refillsCurrent row i m (m.start job) = true)
    (howner : ∀ t, job = .setToken t → t.key = row.key → t.userId = row.userId)
    (hclears : job.clears row.key = true → m.stored row.key = false) : Onward row m (m.start job) where
  jobs := prefix_append _ _
  stored := id
  cached := refillsCurrent_token hguard
  userStored := id
  userCached := refillsCurrent_user hguard
  sound hm := by
    refine ⟨hm.unique, hm.rows, hm.users, hm.cached, fun t ht => ?_, fun j hj => ?_⟩
    · rcases mem_append.mp ht with ht | ht
      · exact hm.jobs t ht
      · exact howner t (mem_singleton.mp ht).symm
    · rcases mem_append.mp hj with hj | hj
      · exact hm.clears j hj
      · exact mem_singleton.mp hj ▸ hclears

theorem onward_setTokenCache {key : String} {token : Option Token}
    (hguard : refillsCurrent row i m (m.setTokenCache key token) = true)
    (howner : key = row.key → ∀ c, token = some c → c.userId = row.userId) :
    Onward row m (m.setTokenCache key token) where
  jobs := prefix_refl _
  stored := id
  cached := refillsCurrent_token hguard
  userStored := id
  userCached := refillsCurrent_user hguard
  sound hm := by
    refine ⟨hm.unique, hm.rows, hm.users, fun c hc => ?_, hm.jobs, hm.clears⟩
    by_cases hkey : row.key = key
    · rw [hkey, setTokenCache_self] at hc
      exact howner hkey.symm c hc
    · exact hm.cached c ((Function.update_of_ne hkey ..).symm.trans hc)

theorem onward_setUserCache {id : Int} {user : Option UserBase}
    (hguard : refillsCurrent row i m (m.setUserCache id user) = true) : Onward row m (m.setUserCache id user) where
  jobs := prefix_refl _
  stored h := h
  cached := refillsCurrent_token hguard
  userStored h := h
  userCached := refillsCurrent_user hguard
  sound hm := ⟨hm.unique, hm.rows, hm.users, hm.cached, hm.jobs, hm.clears⟩

/-- Rows of tokens are changed: none is made another's, and none is enabled. -/
theorem onward_updateTokens {p : Token → Bool} {f : Token → Token}
    (hguard : refillsCurrent row i m (m.updateTokens p f) = true)
    (hf : ∀ t, (f t).id = t.id ∧ (f t).key = t.key ∧ (f t).userId = t.userId)
    (hstored : (m.updateTokens p f).stored row.key = true → m.stored row.key = true) :
    Onward row m (m.updateTokens p f) where
  jobs := prefix_refl _
  stored := hstored
  cached := refillsCurrent_token hguard
  userStored := id
  userCached := refillsCurrent_user hguard
  sound hm := by
    have hsame : ∀ t, (if p t then f t else t).id = t.id ∧ (if p t then f t else t).key = t.key ∧
        (if p t then f t else t).userId = t.userId := by
      intro t
      split_ifs with hp
      · exact hf t
      · exact ⟨rfl, rfl, rfl⟩
    refine ⟨fun t ht t' ht' hkey hkey' => ?_, fun t ht hkey => ?_, hm.users, hm.cached, hm.jobs,
      fun job hjob hclears => ?_⟩
    · obtain ⟨a, ha, rfl⟩ := mem_map.mp ht
      obtain ⟨a', ha', rfl⟩ := mem_map.mp ht'
      rw [hm.unique a ha a' ha' ((hsame a).2.1.symm.trans hkey) ((hsame a').2.1.symm.trans hkey')]
    · obtain ⟨a, ha, rfl⟩ := mem_map.mp ht
      obtain ⟨hid, huser⟩ := hm.rows a ha ((hsame a).2.1.symm.trans hkey)
      exact ⟨(hsame a).1.trans hid, (hsame a).2.2.trans huser⟩
    · have hout := hm.clears job hjob hclears
      rw [Bool.eq_false_iff] at hout ⊢
      exact fun h => hout (hstored h)

/-- Rows of users are changed, and none is enabled. -/
theorem onward_updateUsers {p : User → Bool} {f : User → User}
    (hguard : refillsCurrent row i m (m.updateUsers p f) = true) (hf : ∀ u, (f u).id = u.id)
    (hstored : (m.updateUsers p f).userStored row.userId = true → m.userStored row.userId = true) :
    Onward row m (m.updateUsers p f) where
  jobs := prefix_refl _
  stored := id
  cached := refillsCurrent_token hguard
  userStored := hstored
  userCached := refillsCurrent_user hguard
  sound hm := by
    refine ⟨hm.unique, hm.rows, ?_, hm.cached, hm.jobs, hm.clears⟩
    have hids : (m.updateUsers p f).users.map (·.id) = m.users.map (·.id) := by
      unfold Store.updateUsers
      rw [map_map]
      refine map_congr_left fun u _ => ?_
      by_cases hp : p u = true
      · exact (congrArg User.id (if_pos hp)).trans (hf u)
      · exact congrArg User.id (if_neg hp)
    rw [hids]
    exact hm.users

end

/-! Rows after an operation. -/

theorem stored_iff :
    m.stored key = true ↔ ∃ t ∈ m.tokens, t.deleted = false ∧ t.key = key ∧ t.status = tokenStatusEnabled := by
  simp [Store.stored]

theorem userStored_iff :
    m.userStored id = true ↔ ∃ u ∈ m.users, u.deleted = false ∧ u.id = id ∧ u.status = userStatusEnabled := by
  simp [Store.userStored]

/-- A token that has access after a change is one that was not changed. -/
theorem stored_updateTokens {p : Token → Bool} {f : Token → Token}
    (hf : ∀ t, (f t).deleted = true ∨ (f t).status ≠ tokenStatusEnabled) (h : (m.updateTokens p f).stored key = true) :
    ∃ t ∈ m.tokens, p t = false ∧ t.deleted = false ∧ t.key = key ∧ t.status = tokenStatusEnabled := by
  obtain ⟨t', ht', hlive, hkey, hstatus⟩ := stored_iff.mp h
  obtain ⟨t, ht, rfl⟩ := mem_map.mp ht'
  by_cases hp : p t = true
  · rw [if_pos hp] at hlive hstatus
    rcases hf t with hdeleted | hdisabled
    · rw [hlive] at hdeleted
      cases hdeleted
    · exact absurd hstatus hdisabled
  · rw [if_neg hp] at hlive hkey hstatus
    exact ⟨t, ht, Bool.eq_false_iff.mpr hp, hlive, hkey, hstatus⟩

theorem userStored_updateUsers {p : User → Bool} {f : User → User}
    (hf : ∀ u, (f u).status ≠ userStatusEnabled) (h : (m.updateUsers p f).userStored id = true) :
    ∃ u ∈ m.users, p u = false ∧ u.deleted = false ∧ u.id = id ∧ u.status = userStatusEnabled := by
  obtain ⟨u', hu', hlive, hid, hstatus⟩ := userStored_iff.mp h
  obtain ⟨u, hu, rfl⟩ := mem_map.mp hu'
  by_cases hp : p u = true
  · rw [if_pos hp] at hstatus
    exact absurd hstatus (hf u)
  · rw [if_neg hp] at hlive hid hstatus
    exact ⟨u, hu, Bool.eq_false_iff.mpr hp, hlive, hid, hstatus⟩

end AmuxApi.Revocation
