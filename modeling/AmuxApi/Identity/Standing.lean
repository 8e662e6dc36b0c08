import AmuxApi.Identity.Sessions
import AmuxApi.Identity.Validity
import Mathlib.Data.List.Nodup

/- Who gets through, over any history of logins, logouts, changes of role, bans and deletions.

   A login copies the role and the status of the user into the cookie, and `authHelper` asks the
   copy. What the copy says is so when it is made. It stays so as long as no user is banned, demoted
   or deleted while a cookie of theirs can still be sent (`Unwatched`, `Backed`): then whoever gets
   through exists, is not disabled and has the role that is asked for (`passed_user_stands`). A
   request with an access token reads the row, and needs no condition.

   Nothing takes a cookie back: an administrator who is banned goes on as one, for up to thirty days
   (`banned_session_passes`). -/
namespace AmuxApi.Identity
open Account
open Machine List

/-! Histories. -/

/-- The database, the clock, and every session that was saved, with the time at which it was. -/
structure Site where
  tables : Tables
  now : Int
  issued : List (Session × Int)

/-- The store takes a cookie that is not too old. -/
def fresh (now : Int) (c : Session × Int) : Bool := now - c.2 ≤ cookieMaxAge

/-- The session of a request that sends one of the cookies, or none. -/
def Site.carried (w : Site) (cookie : Option Nat) : Session :=
  match cookie.bind (w.issued[·]?) with
  | some c => if fresh w.now c then c.1 else {}
  | none => {}

def Site.issue (w : Site) (session : Option Session) : Site :=
  match session with
  | some session => { w with issued := w.issued ++ [(session, w.now)] }
  | none => w

inductive LoginWay
  | password (userId : Int) (twoFAEnabled : Bool)
  | external (userId : Int)
  | telegram (userId : Int)
  | verify2FA

def LoginWay.login (s : Tables) (session : Session) : LoginWay → Option Session
  | .password userId twoFAEnabled => passwordLogin s userId twoFAEnabled session
  | .external userId => loginEnabled s userId session
  | .telegram userId => telegramLogin s userId session
  | .verify2FA => verify2FALogin s session

/-- `save` is any other handler that saves the session: the login stays as it is. -/
inductive SessionEvent
  | login (way : LoginWay) (cookie : Option Nat)
  | logout (cookie : Option Nat)
  | save (cookie : Option Nat) (marks : Session)
  | access (e : Event)
  | edit (id : Int) (username group : String)
  | insert (user : User)
  | manage (myRole id : Int) (action : Action)
  | batch (myRole : Int) (ids : List Int) (action : Action)
  | deleteUser (myRole id : Int)
  | deleteSelf (id : Int)

section
variable (hash : String → String)

def sessionStep (w : Site) : SessionEvent → Site
  | .login way cookie => w.issue (way.login w.tables (w.carried cookie))
  | .logout cookie => w.issue (some (Identity.logout (w.carried cookie)))
  | .save cookie marks =>
    w.issue (some { marks with
      login := (w.carried cookie).login
      pendingUserId := (w.carried cookie).pendingUserId })
  | .access e => { w with tables := tablesAfter hash w.now w.tables e, now := w.now + e.seconds }
  | .edit id username group => { w with tables := editUser id username group w.tables }
  | .insert user => { w with tables := insertUser user w.tables }
  | .manage myRole id action => { w with tables := manageUser myRole id action w.tables }
  | .batch myRole ids action => { w with tables := batchManageUsers myRole ids action w.tables }
  | .deleteUser myRole id => { w with tables := Identity.deleteUser myRole id w.tables }
  | .deleteSelf id => { w with tables := Identity.deleteSelf id w.tables }

end

/-- Whom an event bans, demotes or deletes. -/
def lowered (s : Tables) : SessionEvent → List Int
  | .manage _ id .disable => ((managed s.users id).map User.id).toList
  | .manage _ id .delete => ((managed s.users id).map User.id).toList
  | .manage _ id .demote => ((managed s.users id).map User.id).toList
  | .batch _ ids .disable => ids
  | .batch _ ids .delete => ids
  | .deleteUser _ id => [id]
  | .deleteSelf id => [id]
  | _ => []

/-- Nobody is banned, demoted or deleted of whom there is a cookie that is still taken. -/
def Unwatched (w : Site) (e : SessionEvent) : Prop :=
  ∀ id ∈ lowered w.tables e, ∀ c ∈ w.issued, fresh w.now c = true → ∀ login ∈ c.1.login, login.id ≠ id

instance unwatchedDecidable (w : Site) (e : SessionEvent) : Decidable (Unwatched w e) :=
  inferInstanceAs (Decidable (∀ id ∈ _, ∀ c ∈ w.issued, _ → ∀ login ∈ c.1.login, login.id ≠ id))

/-! Standing. -/

/-- The user exists, is not disabled and has at least this role. -/
def Holds (s : Tables) (id minRole : Int) : Prop :=
  ∃ u ∈ s.users, u.id = id ∧ u.deleted = false ∧ u.status ≠ userStatusDisabled ∧ minRole ≤ u.role

instance holdsDecidable (s : Tables) (id minRole : Int) : Decidable (Holds s id minRole) :=
  inferInstanceAs (Decidable (∃ u ∈ s.users, _ ∧ _ ∧ _ ∧ _))

theorem Holds.mono {s : Tables} {id r r' : Int} (h : Holds s id r) (hr : r' ≤ r) : Holds s id r' := by
  obtain ⟨u, hu, hid, hdeleted, hstatus, hrole⟩ := h
  exact ⟨u, hu, hid, hdeleted, hstatus, Int.le_trans hr hrole⟩

variable {p : User → Bool} {u : User}

theorem firstUser_some {users : List User} (h : firstUser users p = some u) :
    u ∈ users ∧ u.deleted = false ∧ p u = true := by
  have hp := List.find?_some h
  rw [Bool.and_eq_true, Bool.not_eq_true'] at hp
  exact ⟨mem_of_find?_eq_some h, hp⟩

theorem holds_of_firstUser {s : Tables} (h : firstUser s.users p = some u)
    (hstatus : u.status ≠ userStatusDisabled) : Holds s u.id u.role := by
  obtain ⟨hu, hdeleted, -⟩ := firstUser_some h
  exact ⟨u, hu, rfl, hdeleted, hstatus, Int.le_refl _⟩

/-! What each event does to the users. -/

def Distinct (s : Tables) : Prop := (s.users.map User.id).Nodup

/-- Ids stay distinct, and who stands goes on standing, unless lowered. -/
structure Spares (low : List Int) (s s' : Tables) : Prop where
  distinct : Distinct s'
  holds : ∀ id r, id ∉ low → Holds s id r → Holds s' id r

theorem users_tablesAfter (hash : String → String) (now : Int) (s : Tables) (e : Event) :
    (tablesAfter hash now s e).users = s.users ∨
      ∃ userId text, (tablesAfter hash now s e).users = (setColumn userId text s).users := by
  cases e with
  | deviceFlow _ _ _ _ | migrate | adminRevoke _ _ | cleanup | advance _ => exact .inl rfl
  | create _ _ _ _ _ | rotate _ _ _ | delete _ _ | validate _ _ =>
    left
    simp only [tablesAfter, createAccessToken, rotateAccessToken, rotateUserAccessToken, deleteAccessToken, useToken]
    repeat' split
    all_goals rfl
  | generateLegacy userId plaintext => exact .inr ⟨userId, some plaintext, rfl⟩
  | resetPassword email =>
    unfold tablesAfter resetUserPasswordByEmail revokePasswordResetTokens
    dsimp only
    split
    · exact .inl rfl
    split
    · rename_i u _
      split
      · rw [if_neg (by omega)]
        exact .inr ⟨u.id, none, rfl⟩
      · exact .inl rfl
    · exact .inl rfl
  | changePassword userId =>
    unfold tablesAfter revokePasswordResetTokens
    dsimp only
    split
    · exact .inl rfl
    · exact .inr ⟨userId, none, rfl⟩

section
variable {low : List Int} {s s' : Tables}

theorem check_promote {myRole : Int} (h : Action.check myRole u .promote = none) : u.role < roleAdminUser := by
  dsimp only [Action.check] at h
  split_ifs at h with hrank hroot hrole
  exact Int.not_le.mp hrole

variable (h : Distinct s)
include h

theorem Distinct.same (husers : s'.users = s.users) : Spares low s s' := by
  constructor
  · rw [Distinct, husers]
    exact h
  · intro id r _ hholds
    rw [Holds, husers]
    exact hholds

/-- An update that lowers only those whom it may. -/
theorem Distinct.map {q : User → Prop} [DecidablePred q] {f : User → User}
    (husers : s'.users = s.users.map fun u => if q u then f u else u) (hid : ∀ u, (f u).id = u.id)
    (hf : ∀ u ∈ s.users, q u → u.id ∉ low → (f u).deleted = u.deleted ∧
      (u.status ≠ userStatusDisabled → (f u).status ≠ userStatusDisabled) ∧ u.role ≤ (f u).role) : Spares low s s' := by
  constructor
  · have hids : s'.users.map User.id = s.users.map User.id := by
      rw [husers, map_map]
      refine map_congr_left fun u _ => ?_
      rw [Function.comp_apply]
      split
      · exact hid u
      · rfl
    rw [Distinct, hids]
    exact h
  · rintro id r hlow ⟨u, hu, rfl, hdeleted, hstatus, hrole⟩
    rw [Holds, husers]
    refine ⟨_, mem_map_of_mem hu, ?_⟩
    split
    · obtain ⟨hdeleted', hstatus', hrole'⟩ := hf u hu ‹_› hlow
      exact ⟨hid u, hdeleted'.trans hdeleted, hstatus' hstatus, Int.le_trans hrole hrole'⟩
    · exact ⟨rfl, hdeleted, hstatus, hrole⟩

theorem Distinct.access (hash : String → String) (now : Int) (e : Event) : Spares low s (tablesAfter hash now s e) := by
  rcases users_tablesAfter hash now s e with husers | ⟨userId, text, husers⟩
  · exact h.same husers
  · exact h.map husers (fun _ => rfl) fun u _ _ _ => ⟨rfl, id, Int.le_refl _⟩

theorem Distinct.insert (user : User) : Spares low s (insertUser user s) := by
  unfold insertUser
  split
  · exact h.same rfl
  rename_i hnew
  constructor
  · rw [Distinct, map_append, nodup_append]
    refine ⟨h, nodup_singleton _, fun id hid id' hid' heq => hnew ?_⟩
    obtain ⟨u, hu, rfl⟩ := mem_map.mp hid
    rw [map_singleton, mem_singleton] at hid'
    exact any_eq_true.mpr ⟨u, hu, decide_eq_true (heq.trans hid')⟩
  · rintro id r - ⟨u, hu, hrest⟩
    exact ⟨u, mem_append_left _ hu, hrest⟩

theorem Distinct.deleteUser (myRole target : Int) : Spares [target] s (deleteUser myRole target s) := by
  unfold Identity.deleteUser
  split
  · exact h.same rfl
  split
  · exact h.same rfl
  · refine ⟨h.sublist (filter_sublist.map _), fun id r hlow ⟨u, hu, hid, hrest⟩ => ⟨u, ?_, hid, hrest⟩⟩
    rw [mem_filter, decide_eq_true_eq, hid]
    exact ⟨hu, fun heq => hlow (mem_singleton.mpr heq)⟩

theorem Distinct.deleteSelf (target : Int) : Spares [target] s (deleteSelf target s) := by
  unfold Identity.deleteSelf
  split
  · exact h.same rfl
  split
  · exact h.same rfl
  · exact h.map rfl (fun _ => rfl) fun u _ hq hlow => absurd (mem_singleton.mpr hq.1) hlow

/-- An administrator raises a user, or lowers one who is named. -/
theorem Distinct.manage (myRole target : Int) (action : Action) :
    Spares (lowered s (.manage myRole target action)) s (manageUser myRole target action s) := by
  unfold manageUser
  cases hmanaged : managed s.users target with
  | none => exact h.same rfl
  | some user =>
    dsimp only
    split
    · exact h.same rfl
    rename_i hrefused
    have hlow : ∀ u : User, u.id = user.id → u.id ∈ ((managed s.users target).map User.id).toList := by
      intro u hid
      rw [hmanaged, hid]
      exact mem_singleton_self _
    refine h.map rfl (fun _ => by cases action <;> rfl) fun u hu hq hspared => ?_
    cases action with
    | disable => exact absurd (hlow u hq.1) hspared
    | enable => exact ⟨rfl, fun _ => (by decide : userStatusEnabled ≠ userStatusDisabled), Int.le_refl _⟩
    | delete => exact absurd (hlow u hq.1) hspared
    | promote =>
      -- the row that is met is the row that was looked at
      obtain rfl : u = user := inj_on_of_nodup_map h hu (mem_of_find?_eq_some hmanaged) hq.1
      rw [not_or, Option.not_isSome_iff_eq_none] at hrefused
      exact ⟨rfl, id, Int.le_of_lt (check_promote hrefused.2)⟩
    | demote => exact absurd (hlow u hq.1) hspared

theorem Distinct.batch (myRole : Int) (ids : List Int) (action : Action) :
    Spares (lowered s (.batch myRole ids action)) s (batchManageUsers myRole ids action s) := by
  unfold batchManageUsers
  dsimp only
  split
  · exact h.same rfl
  rename_i hvalid
  split
  · exact h.same rfl
  split
  · exact h.same rfl
  refine h.map rfl (fun _ => by cases action <;> rfl) fun u _ hq hspared => ?_
  cases action with
  | enable => exact ⟨rfl, fun _ => (by decide : userStatusEnabled ≠ userStatusDisabled), Int.le_refl _⟩
  | disable | delete => exact absurd hq.1 hspared
  | promote | demote => exact absurd (.inr rfl) hvalid

end

theorem Distinct.event {w : Site} (h : Distinct w.tables) (hash : String → String) (e : SessionEvent) :
    Spares (lowered w.tables e) w.tables (sessionStep hash w e).tables := by
  cases e with
  | login way cookie =>
    unfold sessionStep Site.issue
    dsimp only
    split <;> exact h.same rfl
  | logout cookie | save cookie marks => exact h.same rfl
  | access e => exact h.access hash w.now e
  | edit target username group => exact h.map rfl (fun _ => rfl) fun u _ _ _ => ⟨rfl, id, Int.le_refl _⟩
  | insert user => exact h.insert user
  | manage myRole target action => exact h.manage myRole target action
  | batch myRole ids action => exact h.batch myRole ids action
  | deleteUser myRole target => exact h.deleteUser myRole target
  | deleteSelf target => exact h.deleteSelf target

/-! What the cookies say. -/

/-- A login that is not that of a disabled user says what the row of the user bears out. -/
def Borne (s : Tables) (session : Session) : Prop :=
  ∀ login ∈ session.login, login.status ≠ userStatusDisabled → Holds s login.id login.role

structure Backed (w : Site) : Prop where
  distinct : Distinct w.tables
  borne : ∀ c ∈ w.issued, fresh w.now c = true → Borne w.tables c.1

section
variable {s : Tables} {w : Site}

theorem borne_empty : Borne s {} := by
  exact nofun

theorem borne_setupLogin (h : firstUser s.users p = some u) (session : Session) : Borne s (setupLogin u session) := by
  intro login hlogin hstatus
  rw [setupLogin, Option.mem_some_iff] at hlogin
  subst hlogin
  exact holds_of_firstUser h hstatus

/-- A login says who is to give the second factor, or who is logged in. -/
theorem login_some {way : LoginWay} {session session' : Session} (h : way.login s session = some session') :
    ∃ pending, session' = { session with pendingUserId := pending } ∨
      ∃ p u, firstUser s.users p = some u ∧ session' = setupLogin u { session with pendingUserId := pending } := by
  cases way with
  | password userId twoFAEnabled =>
    obtain ⟨u, hu, h⟩ := Option.bind_eq_some_iff.mp h
    split at h
    · cases h
    split at h
    · cases h
      exact ⟨some u.id, .inl rfl⟩
    · cases h
      exact ⟨_, .inr ⟨_, u, hu, rfl⟩⟩
  | external userId =>
    obtain ⟨u, hu, h⟩ := Option.bind_eq_some_iff.mp h
    split_ifs at h
    cases h
    exact ⟨_, .inr ⟨_, u, hu, rfl⟩⟩
  | telegram userId =>
    obtain ⟨u, hu, h⟩ := Option.bind_eq_some_iff.mp h
    cases h
    exact ⟨_, .inr ⟨_, u, hu, rfl⟩⟩
  | verify2FA =>
    obtain ⟨userId, -, h⟩ := Option.bind_eq_some_iff.mp h
    obtain ⟨u, hu, h⟩ := Option.bind_eq_some_iff.mp h
    cases h
    exact ⟨none, .inr ⟨_, u, hu, rfl⟩⟩

theorem borne_login {session session' : Session} (h : Borne s session) (way : LoginWay)
    (hsaved : way.login s session = some session') : Borne s session' := by
  rcases login_some hsaved with ⟨pending, rfl | ⟨p, u, hu, rfl⟩⟩
  · exact h
  · exact borne_setupLogin hu _

theorem Backed.carried (h : Backed w) (cookie : Option Nat) : Borne w.tables (w.carried cookie) := by
  unfold Site.carried
  split
  · rename_i c hc
    split_ifs with hfresh
    · obtain ⟨i, -, hi⟩ := Option.bind_eq_some_iff.mp hc
      exact h.borne c (mem_of_getElem? hi) hfresh
    · exact borne_empty
  · exact borne_empty

theorem Backed.issue (h : Backed w) {session : Session} (hsession : Borne w.tables session) :
    Backed (w.issue (some session)) := by
  refine ⟨h.distinct, fun c hc hfresh => ?_⟩
  rcases mem_append.mp hc with hc | hc
  · exact h.borne c hc hfresh
  · rw [mem_singleton] at hc
    subst hc
    exact hsession

/-- The cookies that are still taken are of users whom the event does not lower. -/
theorem Backed.tables (h : Backed w) (hash : String → String) {e : SessionEvent} (hguard : Unwatched w e)
    (hissued : (sessionStep hash w e).issued = w.issued) (hnow : w.now ≤ (sessionStep hash w e).now) :
    Backed (sessionStep hash w e) := by
  obtain ⟨hdistinct, hspares⟩ := h.distinct.event hash e
  refine ⟨hdistinct, fun c hc hfresh login hlogin hstatus => ?_⟩
  rw [hissued] at hc
  have hfresh' : fresh w.now c = true := by
    unfold fresh at hfresh ⊢
    rw [decide_eq_true_eq] at hfresh ⊢
    omega
  refine hspares _ _ (fun hid => ?_) (h.borne c hc hfresh' login hlogin hstatus)
  exact hguard login.id hid c hc hfresh' login hlogin rfl

theorem Backed.event (h : Backed w) (hash : String → String) (e : SessionEvent) (hguard : Unwatched w e) :
    Backed (sessionStep hash w e) := by
  cases e with
  | login way cookie =>
    show Backed (w.issue (way.login w.tables (w.carried cookie)))
    cases hsaved : way.login w.tables (w.carried cookie) with
    | none => exact h
    | some session => exact h.issue (borne_login (h.carried cookie) way hsaved)
  | logout cookie => exact h.issue borne_empty
  | save cookie marks => exact h.issue (h.carried cookie)
  | access e =>
    refine h.tables hash hguard rfl ?_
    show w.now ≤ w.now + e.seconds
    omega
  | edit _ _ _ | insert _ | manage _ _ _ | batch _ _ _ | deleteUser _ _ | deleteSelf _ =>
    exact h.tables hash hguard rfl (Int.le_refl _)

end

/-! What passes. -/

section
variable {hash : String → String} {cachedGroup : Int → Option String} {s : Tables} {now minRole : Int} {r : Request}

theorem allows_ok {newApiUser : String} {login : Login} (h : allows minRole newApiUser login = .ok ()) :
    login.status ≠ userStatusDisabled ∧ minRole ≤ login.role := by
  unfold allows at h
  split at h
  · cases h
  split at h
  · cases h
  split at h
  · cases h
  split at h
  · cases h
  rename_i hstatus
  split_ifs at h with hrole
  exact ⟨hstatus, Int.not_lt.mp hrole⟩

theorem ok_of_bind {ε α β : Type} {x : Except ε α} {f : α → Except ε β} {b : β} (h : x >>= f = .ok b) :
    ∃ a, x = .ok a ∧ f a = .ok b := by
  cases x with
  | error e => cases h
  | ok a => exact ⟨a, rfl, h⟩

theorem authHelper_ok {ctx : Context} (h : authHelper hash cachedGroup s now minRole r = .ok ctx) :
    ∃ who, identify hash s now r = .ok who ∧ ctx.id = who.1.id ∧ ctx.role = who.1.role ∧
      ctx.useAccessToken = who.2 ∧ who.1.status ≠ userStatusDisabled ∧ minRole ≤ who.1.role := by
  obtain ⟨who, hwho, h⟩ := ok_of_bind h
  obtain ⟨_, hallows, h⟩ := ok_of_bind h
  cases h
  exact ⟨who, hwho, rfl, rfl, rfl, allows_ok hallows⟩

theorem validated_user {token : String} {a : Accepted} (h : validateAccessTokenWithIP hash s now token = some a) :
    ∃ p, firstUser s.users p = some a.user := by
  unfold validateAccessTokenWithIP validateUserAccessToken at h
  dsimp only at h
  split at h
  · cases h
  split at h
  · split at h
    · cases h
    split at h
    · cases h
    split_ifs at h
    obtain ⟨⟨row, i⟩, -, h⟩ := Option.bind_eq_some_iff.mp h
    obtain ⟨u, hu, h⟩ := Option.bind_eq_some_iff.mp h
    cases h
    exact ⟨_, hu⟩
  · obtain ⟨u, hu, h⟩ := Option.bind_eq_some_iff.mp h
    cases h
    exact ⟨_, hu⟩

/-- Whom a request stands for is borne out: by the session, or by the row that the token leads to. -/
theorem identify_holds (hsession : Borne s r.session) {who : Login × Bool} (h : identify hash s now r = .ok who)
    (hstatus : who.1.status ≠ userStatusDisabled) : Holds s who.1.id who.1.role := by
  unfold identify at h
  split at h
  · rename_i login hlogin
    cases h
    exact hsession login hlogin hstatus
  · split_ifs at h
    split at h
    · cases h
    rename_i user i hvalid
    split at h
    · cases h
    split_ifs at h
    cases h
    obtain ⟨p, hu⟩ := validated_user hvalid
    exact holds_of_firstUser hu hstatus

end

/-- **Whoever gets through stands so.** In every history in which nobody is banned, demoted or
deleted of whom there is a cookie that is still taken, a request with any cookie that was issued, or
with an access token, passes only if its user exists, is not disabled and has the role asked for. -/
theorem passed_user_stands (hash : String → String) (cachedGroup : Int → Option String) (tables : Tables) (now : Int)
    (hids : Distinct tables) (w : Site) (h : Reach Unwatched (sessionStep hash) ⟨tables, now, []⟩ w)
    (cookie : Option Nat) (authorization newApiUser : String) (minRole : Int) (ctx : Context)
    (hpass : authHelper hash cachedGroup w.tables w.now minRole
      ⟨w.carried cookie, authorization, newApiUser⟩ = .ok ctx) :
    Holds w.tables ctx.id minRole := by
  have hbacked : Backed w :=
    h.keeps ⟨hids, fun c hc => absurd hc not_mem_nil⟩ fun _ e hw hguard => hw.event hash e hguard
  obtain ⟨who, hwho, hid, -, -, hstatus, hrole⟩ := authHelper_ok hpass
  rw [hid]
  exact (identify_holds (hbacked.carried cookie) hwho hstatus).mono hrole

/-! Two histories. -/

section

def root : User := { id := 1, username := "root", role := roleRootUser, status := userStatusEnabled }
def admin : User := { id := 2, username := "admin", role := roleAdminUser, status := userStatusEnabled }
def carol : User := { id := 3, username := "carol", role := roleCommonUser, status := userStatusEnabled }

def opened : Site := ⟨⟨[root, admin, carol], []⟩, 1000, []⟩

/-- The administrator logs in, and somebody without a session is banned. -/
def carolBanned : List SessionEvent := [.login (.password 2 false) none, .manage roleRootUser 3 .disable]

def adminBanned : List SessionEvent := [.login (.password 2 false) none, .manage roleRootUser 2 .disable]

def after (events : List SessionEvent) : Site := events.foldl (sessionStep id) opened

def adminRequest (w : Site) : Except Refusal Context :=
  authHelper id (fun _ => none) w.tables w.now roleAdminUser ⟨w.carried (some 0), "", "2"⟩

theorem admin_passes_and_stands :
    adminRequest (after carolBanned) = .ok ⟨2, "admin", roleAdminUser, "", false⟩ ∧
      Holds (after carolBanned).tables 2 roleAdminUser ∧ ¬ Holds (after carolBanned).tables 3 roleGuestUser :=
  ⟨by decide +kernel,
    passed_user_stands id (fun _ => none) opened.tables 1000 (by unfold Distinct; decide) (after carolBanned)
      (reach_foldl .start carolBanned (by decide +kernel)) (some 0) "" "2" roleAdminUser
      ⟨2, "admin", roleAdminUser, "", false⟩ (by decide +kernel),
    by decide +kernel⟩

/-- The administrator was banned after the login, and the cookie still passes as theirs. -/
theorem banned_session_passes :
    Reach anyEvent (sessionStep id) opened (after adminBanned) ∧
      adminRequest (after adminBanned) = .ok ⟨2, "admin", roleAdminUser, "", false⟩ ∧
      ¬ Holds (after adminBanned).tables 2 roleAdminUser :=
  ⟨reach_foldl .start adminBanned ⟨trivial, trivial, trivial⟩, by decide +kernel, by decide +kernel⟩

end

end AmuxApi.Identity
