import Mathlib.Data.List.Perm.Subperm
import AmuxApi.Revocation.Cache

/- One specification for each function, against whatever the others do meanwhile: a request that
   comes when the token or its user is out is rejected; an operation that has succeeded leaves the
   token to a task that will clear it, or the user out; and such a task leaves the token out. -/
namespace AmuxApi.Revocation
open Conc List
open Account

variable {ι : Type} {row : Token} {m m' : Store}

/-! Requests. -/

section
variable {i : Thread ι} {s : Store}

/-- Whatever the others do, the call makes allowed steps only, and returns with `Q`. -/
abbrev Ensures {α : Type} (row : Token) (i : Thread ι) (x : Prog Store α) (Q : α → Store → Prop) (s : Store) : Prop :=
  safe (Onward row) (refillsCurrent row) i x Q s

/-- A row that is read was stored at some moment before. -/
theorem safe_firstToken {p : Token → Bool} :
    Ensures row i (firstToken p) (fun a s' => ∀ t, a = .ok t →
        ∃ m, Onward row s m ∧ Onward row m s' ∧ t ∈ m.tokens ∧ t.deleted = false ∧ p t = true) s := by
  refine safe_bind (safe_query (fun m s' hm hs' => ?_) fun s' _ => ?_)
  · cases hfind : m.tokens.find? fun t => !t.deleted && p t with
    | none => exact safe_pure fun _ _ _ h => nomatch h
    | some t =>
      refine safe_pure fun s'' hs'' t' ht' => ?_
      cases ht'
      have hp := List.find?_some hfind
      rw [Bool.and_eq_true, Bool.not_eq_true'] at hp
      exact ⟨m, hm, hs'.trans hs'', mem_of_find?_eq_some hfind, hp.1, hp.2⟩
  · exact safe_pure fun _ _ _ h => nomatch h

/-- The token that is found is the owner's, and is not enabled once it is out. -/
def Found (row : Token) (s : Store) (key : String) (t : Token) : Prop :=
  key = row.key → t.userId = row.userId ∧ (Out row s → t.status ≠ tokenStatusEnabled)

variable {key : String} {job : Job} {now userId : Int} {ids : List Int} {user : User}

theorem safe_cacheGetTokenByKey (hs : Sound row s) :
    Ensures row i (cacheGetTokenByKey key) (fun a _ => ∀ t, a = some t → Found row s key t) s := by
  refine safe_bind (safe_query (fun m s' hm _ => safe_pure fun s'' _ t ht => ?_) fun s' _ => ?_)
  · rintro rfl
    obtain ⟨c, hc, rfl⟩ := Option.map_eq_some_iff.mp ht
    refine ⟨(hm.sound hs).cached c hc, fun hout hstatus => ?_⟩
    have hcached := (hm.out hout).2
    rw [Store.cached, hc] at hcached
    exact Bool.eq_false_iff.mp hcached (beq_iff_eq.mpr hstatus)
  · exact safe_pure fun _ _ _ h => nomatch h

theorem safe_spawn {Q : Unit → Store → Prop}
    (howner : ∀ t, job = .setToken t → t.key = row.key → t.userId = row.userId)
    (hclears : job.clears row.key = true → s.stored row.key = false)
    (hQ : ∀ s', Onward row s s' → job ∈ s'.jobs → Q () s') : Ensures row i (spawn job) Q s := by
  refine safe_atomically fun m hm hguard => ?_
  have hstart := onward_start hguard howner fun h => hm.stays_out (hclears h)
  refine ⟨hstart, fun s' hs' => hQ s' (hm.trans (hstart.trans hs')) ?_⟩
  exact hs'.jobs.subset (mem_append_right _ (mem_singleton_self job))

theorem safe_getTokenByKey (hs : Sound row s) :
    Ensures row i (getTokenByKey key) (fun a _ => ∀ t, a = .ok t → Found row s key t) s := by
  refine safe_seq (safe_cacheGetTokenByKey hs) fun a s1 hs1 ha => ?_
  cases a with
  | some t =>
    refine safe_pure fun _ _ t' ht' => ?_
    cases ht'
    exact ha t rfl
  | none =>
    refine safe_seq safe_firstToken fun a s2 hs2 ha => ?_
    cases a with
    | error err => exact safe_pure fun _ _ _ h => nomatch h
    | ok t =>
      obtain ⟨m, hm, hs2', ht, hlive, hkey⟩ := ha t rfl
      have hsound := (hs1.trans hm).sound hs
      have hkey : t.key = key := beq_iff_eq.mp hkey
      -- The row with the key is the only one, so one that is not enabled is the token's last word.
      have hclears : t.key = row.key → t.status ≠ tokenStatusEnabled → m.stored row.key = false := by
        intro hrow hstatus
        rw [Bool.eq_false_iff]
        intro hstored
        obtain ⟨t', ht', -, hkey', hstatus'⟩ := stored_iff.mp hstored
        exact hstatus (hsound.unique t' ht' t ht hkey' hrow ▸ hstatus')
      refine safe_bind (safe_spawn ?_ ?_ fun s3 _ _ => safe_pure fun _ _ t' ht' => ?_)
      · intro t' ht' hrow
        cases ht'
        exact (hsound.rows t ht hrow).2
      · intro hjob
        simp only [Job.clears, Bool.and_eq_true, beq_iff_eq, bne_iff_ne] at hjob
        exact hs2'.stays_out (hclears hjob.1 hjob.2)
      · cases ht'
        rintro rfl
        refine ⟨(hsound.rows t ht hkey).2, fun hout hstatus => ?_⟩
        have hstored := ((hs1.trans hm).out hout).1
        exact Bool.eq_false_iff.mp hstored (stored_iff.mpr ⟨t, ht, hlive, hkey, hstatus⟩)

theorem enabled_of_validate {t t' : Token} (h : t.validate now = .ok t') : t' = t ∧ t.status = tokenStatusEnabled := by
  unfold Token.validate at h
  split_ifs at h with h1
  cases h
  exact ⟨rfl, by_contra fun hstatus => h1 (Or.inr (Or.inr hstatus))⟩

theorem safe_validateUserToken (hs : Sound row s) :
    Ensures row i (validateUserToken key now)
      (fun a _ => ∀ t, a = .ok t → key = row.key → t.userId = row.userId ∧ ¬ Out row s) s := by
  unfold validateUserToken
  split_ifs with hkey
  · exact safe_pure fun _ _ _ h => nomatch h
  refine safe_seq (safe_getTokenByKey hs) fun a s1 _ ha => ?_
  cases a with
  | error err => cases err <;> exact safe_pure fun _ _ t ht => by cases ht
  | ok t =>
    refine safe_pure fun _ _ t' ht' hrow => ?_
    obtain ⟨rfl, hstatus⟩ := enabled_of_validate ht'
    obtain ⟨huser, hout⟩ := ha t' rfl hrow
    exact ⟨huser, fun h => hout h hstatus⟩

variable {id : Int}

theorem safe_getUserById :
    Ensures row i (getUserById id)
      (fun a _ => ∀ u, a = .ok u → id = row.userId → UserOut row s → u.status ≠ userStatusEnabled) s := by
  unfold getUserById
  split_ifs with hid
  · exact safe_pure fun _ _ _ h => nomatch h
  refine safe_bind (safe_query (fun m s' hm _ => ?_) fun s' _ => ?_)
  · cases hfind : m.users.find? fun u => !u.deleted && u.id == id with
    | none => exact safe_pure fun _ _ _ h => nomatch h
    | some u =>
      refine safe_pure fun _ _ u' hu' hrow hout hstatus => ?_
      cases hu'
      have hp := List.find?_some hfind
      rw [Bool.and_eq_true, Bool.not_eq_true', beq_iff_eq] at hp
      exact Bool.eq_false_iff.mp (hm.userOut hout).1
        (userStored_iff.mpr ⟨u, mem_of_find?_eq_some hfind, hp.1, hp.2.trans hrow, hstatus⟩)
  · exact safe_pure fun _ _ _ h => nomatch h

theorem safe_cacheGetUserBase :
    Ensures row i (cacheGetUserBase id)
      (fun a _ => ∀ u, a = some u → id = row.userId → UserOut row s → u.status ≠ userStatusEnabled) s := by
  refine safe_bind (safe_query (fun m s' hm _ => safe_pure fun _ _ u hu => ?_) fun s' _ => ?_)
  · rintro rfl hout hstatus
    have hcached := (hm.userOut hout).2
    have hu : m.userCache row.userId = some u := hu
    rw [Store.userCached, hu] at hcached
    exact Bool.eq_false_iff.mp hcached (beq_iff_eq.mpr hstatus)
  · exact safe_pure fun _ _ _ h => nomatch h

theorem safe_getUserCache :
    Ensures row i (getUserCache id)
      (fun a _ => ∀ u, a = .ok u → id = row.userId → UserOut row s → u.status ≠ userStatusEnabled) s := by
  refine safe_seq safe_cacheGetUserBase fun a s1 hs1 ha => ?_
  cases a with
  | some u =>
    refine safe_pure fun _ _ u' hu' => ?_
    cases hu'
    exact ha u rfl
  | none =>
    refine safe_seq safe_getUserById fun a s2 hs2 ha => ?_
    cases a with
    | error err => exact safe_pure fun _ _ _ h => nomatch h
    | ok u =>
      refine safe_bind (safe_spawn (fun _ h => nomatch h) nofun fun s3 _ _ => safe_pure fun _ _ u' hu' => ?_)
      cases hu'
      exact fun hrow hout => ha u rfl hrow (hs1.userOut hout)

/-- A request is rejected, or it passes, and then neither the token nor its user was out when it came. -/
def Answered (row : Token) (req : Request) (s : Store) (a : Answer) : Prop :=
  a.rejected = true ∨ a = .next ∧ (req.key = row.key → ¬ Out row s ∧ ¬ UserOut row s)

theorem safe_tokenAuth {req : Request} (hs : Sound row s) :
    Ensures row i (tokenAuth req) (fun a _ => Answered row req s a) s := by
  refine safe_seq (safe_validateUserToken hs) fun a s1 hs1 ha => ?_
  cases a with
  | error err => cases err <;> exact safe_pure fun _ _ => .inl rfl
  | ok t =>
    dsimp only
    cases hip : req.checkIp t.allowIps with
    | some message => exact safe_pure fun _ _ => .inl rfl
    | none =>
      refine safe_seq safe_getUserCache fun a s2 hs2 hu => ?_
      cases a with
      | error err => exact safe_pure fun _ _ => .inl rfl
      | ok u =>
        dsimp only
        split_ifs with hstatus
        · exact safe_pure fun _ _ => .inl rfl
        cases hgroup : req.checkGroup t u with
        | some message => exact safe_pure fun _ _ => .inl rfl
        | none =>
          refine safe_pure fun _ _ => .inr ⟨rfl, fun hkey => ?_⟩
          obtain ⟨huser, hin⟩ := ha t rfl hkey
          exact ⟨hin, fun hout => hu u rfl huser (hs1.userOut hout) (not_not.mp hstatus)⟩

/-! Operations. -/

/-- What an operation that has succeeded has done: a task clears a token that it took, and a user
that it took is out. -/
def Done (row : Token) (a : Answer) (s : Store) : Prop :=
  ∀ revoked, a = .success revoked →
    (.token row.key ∈ revoked → ∃ job ∈ s.jobs, job.clears row.key = true) ∧
      (.user row.userId ∈ revoked → UserOut row s)

theorem safe_failed {err : Err} : Ensures row i (pure (.failed err)) (Done row) s :=
  safe_pure fun _ _ _ h => nomatch h

/-- The rows that are meant are changed, and one that has no access clears the cache. -/
theorem safe_changeTokens {p : Token → Bool} {f : Token → Token} {revoked : List Subject} (hs : Sound row s)
    (hf : ∀ t, (f t).id = t.id ∧ (f t).key = t.key ∧ (f t).userId = t.userId)
    (hout : ∀ t, (f t).deleted = true ∨ (f t).status ≠ tokenStatusEnabled)
    (hp : job.clears row.key = true →
      ∀ t, t.deleted = false → t.id = row.id → t.userId = row.userId → p t = true)
    (howner : ∀ t, job = .setToken t → t.key = row.key → t.userId = row.userId)
    (hrevoked : .token row.key ∈ revoked → job.clears row.key = true) (huser : .user row.userId ∉ revoked) :
    Ensures row i (changeTokens p f job revoked) (Done row) s := by
  refine safe_bind (safe_statement (fun m hm hguard => ?_) fun s' _ => safe_failed)
  have hstep : Onward row m (m.updateTokens p f) := by
    refine onward_updateTokens hguard hf fun h => ?_
    obtain ⟨t, ht, -, hlive, hkey, hstatus⟩ := stored_updateTokens hout h
    exact stored_iff.mpr ⟨t, ht, hlive, hkey, hstatus⟩
  have hgone : job.clears row.key = true → (m.updateTokens p f).stored row.key = false := by
    intro hclears
    rw [Bool.eq_false_iff]
    intro h
    obtain ⟨t, ht, hnot, hlive, hkey, -⟩ := stored_updateTokens hout h
    obtain ⟨hid, hown⟩ := (hm.sound hs).rows t ht hkey
    rw [hp hclears t hlive hid hown] at hnot
    cases hnot
  refine ⟨hstep, fun s1 hs1 => ?_⟩
  refine safe_bind (safe_spawn howner (fun h => hs1.stays_out (hgone h)) fun s2 _ hjob => ?_)
  refine safe_pure fun s3 hs3 revoked' hrevoked' => ?_
  cases hrevoked'
  exact ⟨fun h => ⟨job, hs3.jobs.subset hjob, hrevoked h⟩, fun h => absurd h huser⟩

theorem safe_deleteTokenById {id : Int} (hs : Sound row s) :
    Ensures row i (deleteTokenById id userId) (Done row) s := by
  unfold deleteTokenById
  split_ifs with hid
  · exact safe_failed
  refine safe_seq safe_firstToken fun a s1 hs1 ha => ?_
  cases a with
  | error err => exact safe_failed
  | ok token =>
    obtain ⟨m, hm, -, htoken, -, -⟩ := ha token rfl
    refine safe_changeTokens (hs1.sound hs) (fun t => ⟨rfl, rfl, rfl⟩) (fun t => .inl rfl) ?_
      (fun _ h => nomatch h) ?_ (by simp)
    · intro hclears t hlive hrow _
      have hkey : row.key = token.key := by simpa [Job.clears] using hclears
      simp [hlive, hrow, ((hm.sound hs).rows token htoken hkey.symm).1]
    · intro h
      simpa [Job.clears] using h

theorem safe_batchDeleteTokens (hs : Sound row s) : Ensures row i (batchDeleteTokens ids userId) (Done row) s := by
  unfold batchDeleteTokens
  split_ifs with hids
  · exact safe_failed
  refine safe_bind (safe_query (fun m s1 hm hs1 => ?_) fun s1 _ => safe_failed)
  refine safe_changeTokens ((hm.trans hs1).sound hs) (fun t => ⟨rfl, rfl, rfl⟩) (fun t => .inl rfl) ?_
    (fun _ h => nomatch h) ?_ (by simp)
  · intro hclears t hlive hid huser
    obtain ⟨token, htoken, hkey⟩ := mem_map.mp (contains_iff_mem.mp hclears)
    obtain ⟨htoken, hfound⟩ := mem_filter.mp htoken
    obtain ⟨hid', huser'⟩ := (hm.sound hs).rows token htoken hkey
    rw [Bool.and_eq_true] at hfound
    rw [hlive, hid, huser, ← hid', ← huser', hfound.2]
    rfl
  · intro h
    obtain ⟨t, ht, hkey⟩ := mem_map.mp h
    have hkey : t.key = row.key := Subject.token.inj hkey
    exact contains_iff_mem.mpr (mem_map.mpr ⟨t, ht, hkey⟩)

theorem safe_updateToken {maxQuotaValue : Int} {req : TokenRequest} (hs : Sound row s) (honly : req.statusOnly = true)
    (hreq : req.status ≠ tokenStatusEnabled) :
    Ensures row i (updateToken maxQuotaValue userId now req) (Done row) s := by
  unfold updateToken
  split_ifs with hname hnegative hmax
  · exact safe_failed
  · exact safe_failed
  · exact safe_failed
  unfold getTokenByIds
  split_ifs with hid
  · exact safe_failed
  refine safe_seq safe_firstToken fun a s1 hs1 ha => ?_
  cases a with
  | error err => exact safe_failed
  | ok cleanToken =>
    obtain ⟨m, hm, -, htoken, -, -⟩ := ha cleanToken rfl
    have happly : req.apply now cleanToken = .ok { cleanToken with status := req.status } := by
      unfold TokenRequest.apply
      rw [if_neg fun h => hreq h.1, if_neg fun h => hreq h.1, if_pos honly]
    dsimp only
    rw [happly]
    refine safe_changeTokens (hs1.sound hs) (fun t => ⟨rfl, rfl, rfl⟩) (fun t => .inr hreq) ?_ ?_ ?_ (by simp)
    · intro hclears t hlive hrow _
      have hkey : cleanToken.key = row.key := (beq_iff_eq.mp (Bool.and_eq_true_iff.mp hclears).1)
      simp [hlive, hrow, ((hm.sound hs).rows cleanToken htoken hkey).1]
    · intro t ht hkey
      cases ht
      exact ((hm.sound hs).rows cleanToken htoken hkey).2
    · intro h
      have hkey : row.key = cleanToken.key := by simpa using h
      simp [Job.clears, hkey, hreq]

theorem safe_updateUserCache : Ensures row i (updateUserCache user) (fun _ s' => Onward row s s') s := by
  refine safe_atomically fun m hm hguard => ?_
  have hstep := onward_setUserCache hguard
  exact ⟨hstep, fun s' hs' => hm.trans (hstep.trans hs')⟩

theorem safe_cacheUpdateUserProfileFields :
    Ensures row i (cacheUpdateUserProfileFields user) (fun _ s' => Onward row s s') s := by
  refine safe_bind (safe_get fun m s1 hm hs1 => ?_)
  split_ifs with hcached
  · exact safe_mono (fun _ s2 hs2 _ => hm.trans (hs1.trans hs2)) (onward_refl s1) safe_updateUserCache
  · exact safe_pure fun s2 hs2 => hm.trans (hs1.trans hs2)

theorem nonZero_disabled {stored : User} :
    ((Action.disable.change user).nonZero stored).status ≠ userStatusEnabled := by
  exact nofun

theorem onward_disable {p : User → Bool} {f : User → User}
    (hguard : refillsCurrent row i m (m.updateUsers p f) = true) (hf : ∀ u, (f u).id = u.id)
    (hout : ∀ u, (f u).status ≠ userStatusEnabled) : Onward row m (m.updateUsers p f) := by
  refine onward_updateUsers hguard hf fun h => ?_
  obtain ⟨u, hu, -, hlive, hid, hstatus⟩ := userStored_updateUsers hout h
  exact userStored_iff.mpr ⟨u, hu, hlive, hid, hstatus⟩

theorem disabled_all {p : User → Bool} {f : User → User} (hout : ∀ u, (f u).status ≠ userStatusEnabled)
    (hp : ∀ u, u.deleted = false → u.id = row.userId → p u = true) :
    (m.updateUsers p f).userStored row.userId = false := by
  rw [Bool.eq_false_iff]
  intro h
  obtain ⟨u, -, hnot, hlive, hid, -⟩ := userStored_updateUsers hout h
  rw [hp u hlive hid] at hnot
  cases hnot

theorem safe_userUpdate :
    Ensures row i (User.update (Action.disable.change user))
      (fun a s' => a = true → user.id = row.userId → s'.userStored row.userId = false) s := by
  refine safe_bind (safe_query_any fun found s1 _ => ?_)
  refine safe_bind (safe_statement (fun m _ hguard => ?_) fun s2 _ => safe_pure fun _ _ h => nomatch h)
  refine ⟨onward_disable hguard (fun _ => rfl) fun _ => nonZero_disabled, fun s2 hs2 => ?_⟩
  refine safe_seq safe_cacheUpdateUserProfileFields fun _ s3 hs3 _ => ?_
  refine safe_pure fun s4 hs4 _ hid => (hs2.trans (hs3.trans hs4)).user_stays_out ?_
  refine disabled_all (fun _ => nonZero_disabled) fun u hlive hu => ?_
  simp [hlive, hu, ← hid, Action.change]

theorem safe_cacheDeleteToken :
    Ensures row i (cacheDeleteToken key) (fun _ s' => key = row.key → s.stored row.key = false → Out row s') s := by
  refine safe_atomically fun m hm hguard => ?_
  refine ⟨onward_setTokenCache hguard (fun _ _ h => nomatch h), fun s' hs' hkey hstored => hs'.out ⟨?_, ?_⟩⟩
  · exact hm.stays_out hstored
  · rw [Store.cached, ← hkey, setTokenCache_self]
    rfl

theorem safe_invalidateUserCache :
    Ensures row i (invalidateUserCache id)
      (fun _ s' => id = row.userId → s.userStored row.userId = false → UserOut row s') s := by
  refine safe_atomically fun m hm hguard => ?_
  refine ⟨onward_setUserCache hguard, fun s' hs' hid hstored => hs'.userOut ⟨hm.user_stays_out hstored, ?_⟩⟩
  simp [Store.userCached, ← hid, Store.setUserCache]

theorem safe_invalidateUserTokensCache : Ensures row i (invalidateUserTokensCache id) (fun _ _ => True) s := by
  unfold invalidateUserTokensCache
  split_ifs with hid
  · exact safe_pure fun _ _ => trivial
  refine safe_bind (safe_query (fun m s1 _ _ => ?_) fun s1 _ => safe_pure fun _ _ => trivial)
  -- Nothing is needed of the loop but that its steps are allowed.
  refine safe_mono (fun _ _ _ _ => trivial) (onward_refl s1) (safe_forEach (p := fun _ => False) (P := fun _ => True)
    (Q := fun _ => True) (fun _ _ _ h => h) (fun _ _ _ h => h) (fun key s' => ?_) _ s1)
  split_ifs with hkey
  · exact safe_pure fun _ _ h => h.elim
  · exact safe_mono (fun _ _ _ _ h => h.elim) (onward_refl s') safe_cacheDeleteToken

/-- The caches of a user who is disabled are cleared. -/
theorem safe_invalidateUser :
    Ensures row i (invalidateUserCache id >>= fun _ => invalidateUserTokensCache id)
      (fun _ s' => id = row.userId → s.userStored row.userId = false → UserOut row s') s := by
  refine safe_seq safe_invalidateUserCache fun _ s1 _ hout => ?_
  exact safe_mono (fun _ s2 hs2 _ hid hstored => hs2.userOut (hout hid hstored)) (onward_refl s1)
    safe_invalidateUserTokensCache

theorem safe_manageUser {id myRole : Int} : Ensures row i (manageUser id myRole) (Done row) s := by
  refine safe_bind (safe_query_any fun found s1 _ => ?_)
  generalize found.join.getD { id := id } = user
  dsimp only
  split_ifs with hid
  · exact safe_failed
  cases hcheck : Action.check myRole user .disable with
  | some err => exact safe_failed
  | none =>
    refine safe_seq safe_userUpdate fun ok s2 _ hok => ?_
    cases ok with
    | false => exact safe_failed
    | true =>
      refine safe_seq safe_invalidateUserCache fun _ s3 _ hout => ?_
      refine safe_seq safe_invalidateUserTokensCache fun _ s4 hs4 _ => ?_
      refine safe_pure fun s5 hs5 revoked hrevoked => ?_
      cases hrevoked
      refine ⟨fun h => by simp at h, fun h => ?_⟩
      have hid : user.id = row.userId := (Subject.user.inj (mem_singleton.mp h)).symm
      exact (hs4.trans hs5).userOut (hout hid (hok rfl hid))

/-- When as many users are found as there are ids, every id is a user's. -/
theorem all_found (hs : Sound row s)
    (hlength : (s.users.filter fun u => !u.deleted && ids.contains u.id).length = ids.length) (hid : id ∈ ids) :
    id ∈ (s.users.filter fun u => !u.deleted && ids.contains u.id).map (·.id) := by
  have hnodup : ((s.users.filter fun u => !u.deleted && ids.contains u.id).map (·.id)).Nodup :=
    hs.users.sublist (filter_sublist.map _)
  have hsub : (s.users.filter fun u => !u.deleted && ids.contains u.id).map (·.id) ⊆ ids := by
    intro x hx
    obtain ⟨u, hu, rfl⟩ := mem_map.mp hx
    have hfound := (mem_filter.mp hu).2
    rw [Bool.and_eq_true] at hfound
    exact contains_iff_mem.mp hfound.2
  refine ((List.Nodup.subperm hnodup hsub).perm_of_length_le ?_).mem_iff.mpr hid
  exact Nat.le_of_eq (by rw [length_map, hlength])

theorem safe_batchManageUsers {myRole : Int} (hs : Sound row s) :
    Ensures row i (batchManageUsers ids myRole) (Done row) s := by
  unfold batchManageUsers
  split_ifs with hids
  · exact safe_failed
  refine safe_bind (safe_query (fun m s1 hm hs1 => ?_) fun s1 _ => safe_failed)
  dsimp only
  split_ifs with hlength
  · exact safe_failed
  have hfound : row.userId ∈ ids.eraseDups → row.userId ∈
      (m.users.filter fun u => !u.deleted && ids.eraseDups.contains u.id).map (·.id) :=
    all_found (hm.sound hs) (not_not.mp hlength)
  generalize (m.users.filter fun u => !u.deleted && ids.eraseDups.contains u.id) = users at hfound
  cases hcheck : users.findSome? (Action.check myRole · .disable) with
  | some err => exact safe_failed
  | none =>
    refine safe_bind (safe_statement (fun m' _ hguard => ?_) fun s2 _ => safe_failed)
    have hout : ∀ u, (Action.disable.change u).status ≠ userStatusEnabled := by
      exact nofun
    refine ⟨onward_disable hguard (fun _ => rfl) hout, fun s2 hs2 => ?_⟩
    refine safe_seq (safe_forEach
      (fun _ _ h => h.user_stays_out)
      (fun _ _ h => h.userOut) (fun user _ => safe_invalidateUser) users s2) fun _ s3 _ hloop => ?_
    refine safe_pure fun s4 hs4 revoked hrevoked => ?_
    cases hrevoked
    refine ⟨fun h => by simp at h, fun h => hs4.userOut ?_⟩
    obtain ⟨id, hid, hrow⟩ := mem_map.mp h
    have hmem : row.userId ∈ ids.eraseDups := Subject.user.inj hrow ▸ hid
    obtain ⟨user, huser, hid⟩ := mem_map.mp (hfound hmem)
    refine hloop ⟨user, huser, hid⟩ (hs2.user_stays_out (disabled_all hout fun u hlive hu => ?_))
    simp only [hlive, hu, contains_iff_mem.mpr hmem, Bool.not_false, Bool.and_self]

/-! Tasks in the background. -/

/-- A task that clears the token leaves it out. -/
theorem safe_jobRun (hs : Sound row s) (hjob : job ∈ s.jobs) :
    Ensures row i job.run (fun _ s' => job.clears row.key = true → Out row s') s := by
  cases job with
  | setToken token =>
    refine safe_atomically fun m hm hguard => ?_
    have howner : token.key = row.key → ∀ c, some { token with key := "" } = some c → c.userId = row.userId := by
      intro hkey c hc
      cases hc
      exact hs.jobs token hjob hkey
    have hstep := onward_setTokenCache hguard howner
    refine ⟨hstep, fun s' hs' hclears => hs'.out ⟨?_, ?_⟩⟩
    · exact (hm.trans hstep).stays_out (hs.clears _ hjob hclears)
    · simp only [Job.clears, Bool.and_eq_true, beq_iff_eq, bne_iff_ne] at hclears
      rw [Store.cached, ← hclears.1, setTokenCache_self]
      exact beq_eq_false_iff_ne.mpr hclears.2
  | deleteTokens keys =>
    refine safe_mono (fun _ s' _ hloop hclears => ?_) (onward_refl s)
      (safe_forEach
        (fun _ _ h => h.stays_out) (fun _ _ h => h.out) (fun key _ => safe_cacheDeleteToken) keys s)
    exact hloop ⟨row.key, contains_iff_mem.mp hclears, rfl⟩ (hs.clears _ hjob hclears)
  | setUser user =>
    refine safe_seq safe_cacheGetUserBase fun a s1 _ _ => ?_
    cases a with
    | some _ => exact safe_pure fun _ _ h => nomatch h
    | none => exact safe_mono (fun _ _ _ _ h => by cases h) (onward_refl s1) safe_updateUserCache

theorem safe_background {n : Nat} (hs : Sound row s) :
    Ensures row i (background n)
      (fun _ s' => ∃ job, s'.jobs[n]? = some job ∧ (job.clears row.key = true → Out row s')) s := by
  refine safe_bind (safe_await fun m s1 job hm hjob hs1 => ?_)
  have hmem : job ∈ s1.jobs := hs1.jobs.subset (mem_of_getElem? hjob)
  refine safe_seq (safe_jobRun ((hm.trans hs1).sound hs) hmem) fun _ s2 hs2 hout => ?_
  refine safe_pure fun s3 hs3 => ⟨job, ?_, fun hclears => hs3.out (hout hclears)⟩
  exact (hs1.trans (hs2.trans hs3)).job hjob

end

end AmuxApi.Revocation
