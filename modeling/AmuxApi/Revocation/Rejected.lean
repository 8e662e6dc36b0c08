import Mathlib.Data.List.Nodup
import AmuxApi.Revocation.Calls

/- The whole system: requests and operations in any order, with the tasks that they start.

   `revoked_is_rejected`: in every run in which enabled copies appear in the caches only while the
   rows are enabled, access that an operation has taken is gone once its tasks have finished.
   `deleted_token_passes` is a run without that condition: a request has read the row before it is
   deleted, and its task writes the copy after the one that the deletion has started. -/
namespace AmuxApi.Revocation
open Conc
open Account

variable {ι : Type} {row : Token} {m m' : Store}

/-! The system. -/

theorem WellFormed.sound (hm : WellFormed m) (hrow : row ∈ m.tokens) : Sound row m where
  unique t ht t' ht' hkey hkey' := List.inj_on_of_nodup_map hm.keys ht ht' (hkey.trans hkey'.symm)
  rows t ht hkey := by
    rw [List.inj_on_of_nodup_map hm.keys ht hrow hkey]
    exact ⟨rfl, rfl⟩
  users := hm.users
  cached := hm.cached row hrow
  jobs t ht := by
    rw [hm.jobs] at ht
    cases ht
  clears job hjob := by
    rw [hm.jobs] at hjob
    cases hjob

section
variable [DecidableEq ι] {maxQuotaValue : Int} {calls : ι → Call} {s₁ s₂ : Sys (Thread ι) Store Answer}

def Spec (row : Token) : Thread ι → Answer → Store → Prop
  | .call _, a, s => Done row a s
  | .job n, _, s => ∃ job, s.jobs[n]? = some job ∧ (job.clears row.key = true → Out row s)

omit [DecidableEq ι] in
theorem safe_call {i : Thread ι} {s : Store} {c : Call} (hs : Sound row s) (hc : c.Disables) :
    Ensures row i (c.run maxQuotaValue) (Done row) s := by
  cases c with
  | request req =>
    refine safe_mono (fun a _ _ ha revoked hrevoked => ?_) (onward_refl s) (safe_tokenAuth hs)
    subst hrevoked
    rcases ha with ha | ha <;> cases ha
    rename_i h _
    cases h
  | deleteToken id userId => exact safe_deleteTokenById hs
  | batchDelete ids userId => exact safe_batchDeleteTokens hs
  | updateToken userId now req => exact safe_updateToken hs hc.1 hc.2
  | manageUser id myRole => exact safe_manageUser
  | batchManageUsers ids myRole => exact safe_batchManageUsers hs
  | expireToken key =>
    refine safe_seq safe_cacheDeleteToken fun _ _ _ _ => safe_pure fun _ _ revoked h => ?_
    cases h
  | expireUser id =>
    refine safe_seq safe_invalidateUserCache fun _ _ _ _ => safe_pure fun _ _ revoked h => ?_
    cases h

theorem system_sound (hm : WellFormed m) (hrow : row ∈ m.tokens) (hcalls : ∀ i, (calls i).Disables)
    (h : Reach (refillsCurrent row) (system maxQuotaValue m calls) s₁) :
    Sound row s₁.mem ∧ ∀ i, Ensures row i (s₁.prog i) (Spec row i) s₁.mem := by
  have hsound := hm.sound hrow
  have hstart : ∀ i, Ensures row i ((system maxQuotaValue m calls).prog i) (Spec row i) m := by
    intro i
    cases i with
    | call i => exact safe_call hsound (hcalls i)
    | job n => exact safe_background hsound
  obtain ⟨hR, hsafe⟩ := safe_reach hstart h
  exact ⟨hR.sound hsound, hsafe⟩

/-- Once an operation has returned, and the tasks that were started by then have finished, what it took is out. -/
theorem out_after {o : ι} {revoked : List Subject} (hsafe : ∀ i, Ensures row i (s₁.prog i) (Spec row i) s₁.mem)
    (hdone : s₁.prog (.call o) = .ret (.success revoked))
    (hrevoked : .token row.key ∈ revoked ∨ .user row.userId ∈ revoked) (h : Reach (refillsCurrent row) s₁ s₂)
    (hjobs : ∀ n < s₁.mem.jobs.length, ∃ a, s₂.prog (.job n) = .ret a) : Out row s₂.mem ∨ UserOut row s₂.mem := by
  obtain ⟨hR, hsafe2⟩ := safe_reach hsafe h
  have hop : Done row (.success revoked) s₁.mem := safe_returned (hsafe (.call o)) hdone
  obtain ⟨htoken, huser⟩ := hop revoked rfl
  rcases hrevoked with hrevoked | hrevoked
  · left
    obtain ⟨job, hjob, hclears⟩ := htoken hrevoked
    obtain ⟨n, hn, hget⟩ := List.getElem_of_mem hjob
    have hget : s₁.mem.jobs[n]? = some job := List.getElem?_eq_some_iff.mpr ⟨hn, hget⟩
    obtain ⟨a, ha⟩ := hjobs n hn
    obtain ⟨job', hjob', hout⟩ : Spec row (.job n : Thread ι) a s₂.mem := safe_returned (hsafe2 (.job n)) ha
    rw [hR.job hget] at hjob'
    cases hjob'
    exact hout hclears
  · exact .inr (hR.userOut (huser hrevoked))

/-! A request always returns. -/

/-- A step that leaves the caches as they are. -/
def KeepsCaches (m m' : Store) : Prop := m'.tokenCache = m.tokenCache ∧ m'.userCache = m.userCache

omit [DecidableEq ι] in
theorem refillsCurrent_keeps {i : Thread ι} (h : KeepsCaches m m') : refillsCurrent row i m m' = true := by
  unfold refillsCurrent Store.cached Store.userCached
  rw [h.1, h.2]
  cases Option.any (fun t => t.status == tokenStatusEnabled) (m.tokenCache row.key) <;>
    cases Option.any (fun u => u.status == userStatusEnabled) (m.userCache row.userId) <;> rfl

theorem free_spawn {job : Job} : (spawn job).Free KeepsCaches := free_atomically fun _ => ⟨rfl, rfl⟩

theorem free_read {α : Type} {answer : Store → α} : (query answer).Free KeepsCaches := free_query fun _ => ⟨rfl, rfl⟩

theorem free_getTokenByKey {key : String} : (getTokenByKey key).Free KeepsCaches := by
  refine free_bind (fun a => ?_) (free_bind (fun _ => free_pure _) free_read)
  cases a with
  | some t => exact free_pure _
  | none =>
    refine free_bind (fun a => ?_) (free_bind (fun found => ?_) free_read)
    · cases a with
      | error err => exact free_pure _
      | ok t => exact free_bind (fun _ => free_pure _) free_spawn
    · rcases found with _ | _ | t <;> exact free_pure _

theorem free_validateUserToken {key : String} {now : Int} : (validateUserToken key now).Free KeepsCaches := by
  unfold validateUserToken
  split_ifs with hkey
  · exact free_pure _
  · refine free_bind (fun a => ?_) free_getTokenByKey
    rcases a with err | t
    · cases err <;> exact free_pure _
    · exact free_pure _

theorem free_getUserById {id : Int} : (getUserById id).Free KeepsCaches := by
  unfold getUserById
  split_ifs with hid
  · exact free_pure _
  · refine free_bind (fun found => ?_) free_read
    rcases found with _ | _ | u <;> exact free_pure _

theorem free_getUserCache {id : Int} : (getUserCache id).Free KeepsCaches := by
  refine free_bind (fun a => ?_) (free_bind (fun _ => free_pure _) free_read)
  cases a with
  | some u => exact free_pure _
  | none =>
    refine free_bind (fun a => ?_) free_getUserById
    cases a with
    | error err => exact free_pure _
    | ok u => exact free_bind (fun _ => free_pure _) free_spawn

theorem free_tokenAuth {req : Request} : (tokenAuth req).Free KeepsCaches := by
  refine free_bind (fun a => ?_) free_validateUserToken
  rcases a with err | t
  · cases err <;> exact free_pure _
  dsimp only
  cases req.checkIp t.allowIps with
  | some message => exact free_pure _
  | none =>
    refine free_bind (fun a => ?_) free_getUserCache
    rcases a with err | u
    · exact free_pure _
    dsimp only
    split_ifs with hstatus
    · exact free_pure _
    · cases req.checkGroup t u <;> exact free_pure _

/-- **Revoked access stays revoked, when the caches are filled with what is stored.** After an
operation that takes the token's access or its user's, and after the tasks started by then, a
request with the token returns, and is rejected. -/
theorem revoked_is_rejected (hm : WellFormed m) (hrow : row ∈ m.tokens) (hcalls : ∀ i, (calls i).Disables)
    (h₁ : Reach (refillsCurrent row) (system maxQuotaValue m calls) s₁) {o : ι} {revoked : List Subject}
    (hdone : s₁.prog (.call o) = .ret (.success revoked))
    (hrevoked : .token row.key ∈ revoked ∨ .user row.userId ∈ revoked) (h₂ : Reach (refillsCurrent row) s₁ s₂)
    (hjobs : ∀ n < s₁.mem.jobs.length, ∃ a, s₂.prog (.job n) = .ret a) {r : ι} {req : Request}
    (hkey : req.key = row.key) (hlater : s₂.prog (.call r) = tokenAuth req) :
    (∃ s a, Reach (refillsCurrent row) s₂ s ∧ s.prog (.call r) = .ret a) ∧
      ∀ s a, Reach (refillsCurrent row) s₂ s → s.prog (.call r) = .ret a → a.rejected = true := by
  obtain ⟨_, hsafe₁⟩ := system_sound hm hrow hcalls h₁
  obtain ⟨hsound, hsafe₂⟩ := system_sound hm hrow hcalls (h₁.trans h₂)
  have hout := out_after hsafe₁ hdone hrevoked h₂ hjobs
  refine ⟨exists_returned (fun _ _ => refillsCurrent_keeps) _ s₂ hlater free_tokenAuth, fun s a hs ha => ?_⟩
  -- The request is judged from here on; the others go on as before.
  have hsafe : ∀ i, Ensures row i (s₂.prog i)
      (fun a _ => i = .call r → Answered row req s₂.mem a) s₂.mem := by
    intro i
    by_cases hi : i = .call r
    · subst hi
      rw [hlater]
      exact safe_mono (fun _ _ _ h _ => h) (onward_refl s₂.mem) (safe_tokenAuth hsound)
    · exact safe_mono (fun _ _ _ _ h => absurd h hi) (onward_refl s₂.mem) (hsafe₂ i)
  rcases safe_returned ((safe_reach hsafe hs).2 (.call r)) ha rfl with hrejected | ⟨-, hin⟩
  · exact hrejected
  · obtain ⟨htoken, huser⟩ := hin hkey
    rcases hout with hout | hout
    · exact absurd hout htoken
    · exact absurd hout huser

end

/-! A token that is deleted while a request looks it up. -/

def exampleToken : Token where
  id := 1
  userId := 1
  key := "k"
  status := tokenStatusEnabled
  unlimitedQuota := true

def exampleStore : Store where
  tokens := [exampleToken]
  users := [{ id := 1, role := 1, status := userStatusEnabled }]

def exampleRequest : Request where
  key := "k"
  now := 0
  checkIp := fun _ => none
  checkGroup := fun _ _ => none

def exampleCalls (i : Fin 3) : Call :=
  if i = 1 then .deleteToken 1 1 else .request exampleRequest

def exampleSystem : Sys (Thread (Fin 3)) Store Answer := system 0 exampleStore exampleCalls

theorem example_wellFormed : WellFormed exampleStore where
  keys := by decide
  users := by decide
  cached t _ c hc := by cases hc
  jobs := rfl

theorem example_disables (i : Fin 3) : (exampleCalls i).Disables := by
  unfold exampleCalls
  split_ifs <;> trivial

def lookup : List (Thread (Fin 3) × Bool) := [(.call 0, true), (.call 0, true), (.call 0, true)]

def deletion : List (Thread (Fin 3) × Bool) := [(.call 1, true), (.call 1, true), (.call 1, true)]

def task (n : Nat) : List (Thread (Fin 3) × Bool) := [(.job n, true), (.job n, true)]

/-- The copy is written before the deletion: when it is deleted, and later. -/
def refilledThenDeleted : Sys (Thread (Fin 3)) Store Answer :=
  after (refillsCurrent exampleToken) exampleSystem (lookup ++ task 0 ++ deletion)

def afterTask : Sys (Thread (Fin 3)) Store Answer := after (refillsCurrent exampleToken) refilledThenDeleted (task 1)

theorem second_rejected :
    ∃ s a, Reach (refillsCurrent exampleToken) afterTask s ∧ s.prog (.call 2) = .ret a ∧ a.rejected = true := by
  have hrun₁ : run (refillsCurrent exampleToken) exampleSystem (lookup ++ task 0 ++ deletion) =
      some refilledThenDeleted :=
    run_after (by decide +kernel)
  have hrun₂ : run (refillsCurrent exampleToken) refilledThenDeleted (task 1) = some afterTask :=
    run_after (by decide +kernel)
  have hdone : refilledThenDeleted.prog (.call 1) = .ret (.success [.token "k"]) :=
    Prog.eq_ret_of_result (by decide +kernel)
  have hjobs : ∀ n < refilledThenDeleted.mem.jobs.length, ∃ a, afterTask.prog (.job n) = .ret a := by
    have hfinished : ∀ n < 2, (afterTask.prog (.job n)).result = some .finished := by decide +kernel
    intro n hn
    exact ⟨.finished, Prog.eq_ret_of_result (hfinished n hn)⟩
  have hlater : afterTask.prog (.call 2) = tokenAuth exampleRequest := by
    rfl
  obtain ⟨⟨s, a, hs, ha⟩, hall⟩ := revoked_is_rejected example_wellFormed
    (show exampleToken ∈ exampleStore.tokens by decide) example_disables (reach_run .start hrun₁) hdone
      (.inl (by decide)) (reach_run .start hrun₂) hjobs rfl hlater
  exact ⟨s, a, hs, ha, hall s a hs ha⟩

/-- The first request has read the row when it is deleted. -/
def readThenDeleted : Sys (Thread (Fin 3)) Store Answer := after anyStep exampleSystem (lookup ++ deletion)

/-- The deletion's task runs, and then the one that writes the copy. -/
def afterTasks : Sys (Thread (Fin 3)) Store Answer := after anyStep readThenDeleted (task 1 ++ task 0)

theorem deleted_token_passes :
    WellFormed exampleStore ∧ exampleToken ∈ exampleStore.tokens ∧ (∀ i, (exampleCalls i).Disables) ∧
      Reach anyStep exampleSystem readThenDeleted ∧
      readThenDeleted.prog (.call 1) = .ret (.success [.token exampleToken.key]) ∧
      Reach anyStep readThenDeleted afterTasks ∧
      (∀ n < readThenDeleted.mem.jobs.length, ∃ a, afterTasks.prog (.job n) = .ret a) ∧
      exampleRequest.key = exampleToken.key ∧ afterTasks.prog (.call 2) = tokenAuth exampleRequest ∧
      ∃ s, Reach anyStep afterTasks s ∧ s.prog (.call 2) = .ret .next := by
  have hrun₁ : run anyStep exampleSystem (lookup ++ deletion) = some readThenDeleted := run_after (by decide +kernel)
  have hrun₂ : run anyStep readThenDeleted (task 1 ++ task 0) = some afterTasks := run_after (by decide +kernel)
  refine ⟨example_wellFormed, by decide, example_disables, reach_run .start hrun₁,
    Prog.eq_ret_of_result (by decide +kernel), reach_run .start hrun₂, fun n hn => ?_, rfl, ?_, ?_⟩
  · have hfinished : ∀ n < 2, (afterTasks.prog (.job n)).result = some .finished := by decide +kernel
    exact ⟨.finished, Prog.eq_ret_of_result (hfinished n hn)⟩
  · rw [run_idle hrun₂ (by decide), run_idle hrun₁ (by decide)]
    rfl
  · -- The copy is found in the cache; the user is read from the database.
    obtain ⟨s, hs, hnext⟩ : ∃ s, Reach anyStep afterTasks s ∧ (s.prog (.call 2)).result = some .next :=
      exists_of_run (List.replicate 4 (.call 2, true)) (by decide +kernel)
    exact ⟨s, hs, Prog.eq_ret_of_result hnext⟩

end AmuxApi.Revocation
