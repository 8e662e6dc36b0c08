import AmuxApi.Identity.Standing

/- The step-up verification before a protected request, over any history of one browser session.

   `UniversalVerify` checks a second factor of the user and writes the time and the method into the
   session; `SecureVerificationRequired` and `requireSecureVerificationMethod` look at these marks.
   A passkey is checked first by `PasskeyVerifyFinish`, which leaves a mark of its own for a minute.

   The marks do not say whose they are. As long as nobody logs in over the session of another user,
   and nobody is verified in a session without a login (`OwnSession`), they are those of the user who
   is logged in (`Marked`), and who gets past has verified within the last five minutes
   (`step_up_is_own`). A login does not clear them: whoever logs in next on the same browser gets
   past without a second factor of their own (`other_user_gets_past`).

   Correspondence (Go ↔ Lean): the functions of `controller/secure_verification.go`,
   `controller/passkey.go` and `middleware/secure_verification.go` have the source's names.
   A handler returns the session that it leaves, and what it has really checked (`Entry`): the
   entries are not in the code. What the database says of a user's factors at a request, and whether
   the code or the assertion that comes with it is right, is given with the request (`Answers`). -/
namespace AmuxApi.Identity
open Account
open Machine List Option

def secureVerificationTimeout : Int := 300
def passkeyReadyTimeout : Int := 60

/-- What was checked, of whom and when: an assertion of a passkey; a code, with the verification
that it ends in; a verification by passkey. -/
inductive Entry
  | asserted (userId at_ : Int)
  | byCode (userId at_ : Int)
  | byPasskey (userId at_ : Int)
  deriving DecidableEq, Repr

def Entry.time : Entry → Int
  | .asserted _ at_ => at_
  | .byCode _ at_ => at_
  | .byPasskey _ at_ => at_

/-- `right`: the code, or the assertion, is the user's. -/
structure Answers where
  passkeyOn : Bool
  has2FA : Bool
  hasPasskey : Bool
  right : Bool
  deriving DecidableEq, Repr

/-! The handlers. -/

abbrev Outcome := Session × List Entry

def getSessionUser (s : Tables) (session : Session) : Option User := do
  let login ← session.login
  let user ← firstUser s.users (·.id = login.id)
  if user.status ≠ userStatusEnabled then none else some user

def passkeyVerifyBegin (s : Tables) (a : Answers) (session : Session) : Outcome :=
  if !a.passkeyOn then (session, [])
  else match getSessionUser s session with
    | none => (session, [])
    | some user => if !a.hasPasskey then (session, []) else ({ session with verifyChallenge := some user.id }, [])

/-- The challenge is used up; the assertion has to be by the user for whom it was made. -/
def finishLogin (now : Int) (user : User) (challenge : Int) (a : Answers) (session : Session) : Outcome :=
  if challenge ≠ user.id ∨ !a.right then ({ session with verifyChallenge := none }, [])
  else
    ({ session with
        verifyChallenge := none, passkeyReadyAt := some now
        secureVerifiedAt := none, secureVerifiedMethod := none }, [.asserted user.id now])

def passkeyVerifyFinish (s : Tables) (now : Int) (a : Answers) (session : Session) : Outcome :=
  if !a.passkeyOn then (session, [])
  else match getSessionUser s session with
    | none => (session, [])
    | some user =>
      if !a.hasPasskey then (session, [])
      else match session.verifyChallenge with
        | none => (session, [])
        | some challenge => finishLogin now user challenge a session

def setSecureVerificationSession (now : Int) (method : Method) (session : Session) : Session :=
  { session with passkeyReadyAt := none, secureVerifiedAt := some now, secureVerifiedMethod := some method }

def consumePasskeyReady (now : Int) (session : Session) : Session × Bool :=
  match session.passkeyReadyAt with
  | none => (session, false)
  | some readyAt => ({ session with passkeyReadyAt := none }, now - readyAt < passkeyReadyTimeout)

def verifyBy (now userId : Int) (code : String) (a : Answers) (session : Session) : Method → Outcome
  | .twoFA =>
    if !a.has2FA ∨ code = "" ∨ !a.right then (session, [])
    else (setSecureVerificationSession now .twoFA session, [.byCode userId now])
  | .passkey =>
    if !a.hasPasskey then (session, [])
    else
      let ready := consumePasskeyReady now session
      if !ready.2 then (ready.1, [])
      else (setSecureVerificationSession now .passkey ready.1, [.byPasskey userId now])

def universalVerify (s : Tables) (now userId : Int) (method : Method) (code : String) (a : Answers)
    (session : Session) : Outcome :=
  if userId = 0 then (session, [])
  else match firstUser s.users (·.id = userId) with
    | none => (session, [])
    | some user =>
      if user.status ≠ userStatusEnabled then (session, [])
      else if !a.has2FA && !a.hasPasskey then (session, [])
      else verifyBy now userId code a session method

def clearSecureVerificationSession (session : Session) : Session :=
  { session with secureVerifiedAt := none, secureVerifiedMethod := none }

/-- The session that is left, and whether the request passes. -/
def secureVerificationRequired (now userId : Int) (session : Session) : Session × Bool :=
  if userId = 0 then (session, false)
  else match session.secureVerifiedAt with
    | none => (session, false)
    | some verifiedAt =>
      if now - verifiedAt ≥ secureVerificationTimeout then (clearSecureVerificationSession session, false)
      else (session, true)

def requireSecureVerificationMethod (now : Int) (method : Method) (session : Session) : Session × Bool :=
  match session.secureVerifiedAt with
  | none => (clearSecureVerificationSession session, false)
  | some verifiedAt =>
    if now - verifiedAt ≥ secureVerificationTimeout then (clearSecureVerificationSession session, false)
    else (session, session.secureVerifiedMethod = some method)

def requirePasskeyRegistrationVerification (now : Int) (a : Answers) (session : Session) : Session × Bool :=
  if !a.has2FA then (session, true) else requireSecureVerificationMethod now .twoFA session

def requirePasskeyDeleteVerification (now : Int) (a : Answers) (session : Session) : Session × Bool :=
  if a.has2FA then requireSecureVerificationMethod now .twoFA session
  else if !a.hasPasskey then (session, false)
  else requireSecureVerificationMethod now .passkey session

/-! One browser. -/

/-- The browser sends the session that it was sent last. -/
structure Browser where
  tables : Tables
  now : Int
  session : Session
  log : List Entry

structure Headers where
  authorization : String
  newApiUser : String

/-- `database`: whatever else happens to the tables between two requests. -/
inductive BrowserEvent
  | login (way : LoginWay)
  | logout
  | passkeyBegin (headers : Headers) (a : Answers)
  | passkeyFinish (headers : Headers) (a : Answers)
  | verify (headers : Headers) (method : Method) (code : String) (a : Answers)
  | channelKey (headers : Headers)
  | passkeyRegister (headers : Headers) (a : Answers)
  | passkeyDelete (headers : Headers) (a : Answers)
  | database (tables : Tables)
  | advance (seconds : Nat)

section
variable (hash : String → String) (cachedGroup : Int → Option String)

/-- A handler behind `authHelper` is given the user of the request. -/
def Browser.behind (w : Browser) (minRole : Int) (headers : Headers) (handler : Int → Outcome) : Browser :=
  match authHelper hash cachedGroup w.tables w.now minRole ⟨w.session, headers.authorization, headers.newApiUser⟩ with
  | .error _ => w
  | .ok ctx => { w with session := (handler ctx.id).1, log := w.log ++ (handler ctx.id).2 }

/-- A handler of passkeys looks for the user of the session, then at the marks. -/
def protectedPasskey (s : Tables) (check : Session → Session × Bool) (session : Session) : Outcome :=
  match getSessionUser s session with
  | none => (session, [])
  | some _ => ((check session).1, [])

def browserStep (w : Browser) : BrowserEvent → Browser
  | .login way => { w with session := (way.login w.tables w.session).getD w.session }
  | .logout => { w with session := Identity.logout w.session }
  | .passkeyBegin headers a =>
    w.behind hash cachedGroup roleCommonUser headers fun _ => passkeyVerifyBegin w.tables a w.session
  | .passkeyFinish headers a =>
    w.behind hash cachedGroup roleCommonUser headers fun _ => passkeyVerifyFinish w.tables w.now a w.session
  | .verify headers method code a =>
    w.behind hash cachedGroup roleCommonUser headers fun id => universalVerify w.tables w.now id method code a w.session
  | .channelKey headers =>
    w.behind hash cachedGroup roleAdminUser headers fun id => ((secureVerificationRequired w.now id w.session).1, [])
  | .passkeyRegister headers a =>
    w.behind hash cachedGroup roleCommonUser headers fun _ =>
      protectedPasskey w.tables (requirePasskeyRegistrationVerification w.now a) w.session
  | .passkeyDelete headers a =>
    w.behind hash cachedGroup roleCommonUser headers fun _ =>
      protectedPasskey w.tables (requirePasskeyDeleteVerification w.now a) w.session
  | .database tables => { w with tables }
  | .advance seconds => { w with now := w.now + seconds }

/-- The user as whom a request gets past `SecureVerificationRequired`. -/
def Browser.pastRequired (w : Browser) (minRole : Int) (headers : Headers) : Option Int :=
  match authHelper hash cachedGroup w.tables w.now minRole ⟨w.session, headers.authorization, headers.newApiUser⟩ with
  | .error _ => none
  | .ok ctx => if (secureVerificationRequired w.now ctx.id w.session).2 then some ctx.id else none

/-- The user as whom a request gets past `requireSecureVerificationMethod`. -/
def Browser.pastMethod (w : Browser) (method : Method) : Option Int :=
  match getSessionUser w.tables w.session with
  | none => none
  | some user => if (requireSecureVerificationMethod w.now method w.session).2 then some user.id else none

end

/-- Nobody logs in over the login of another user, and nobody is verified without a login. -/
def OwnSession (w : Browser) : BrowserEvent → Prop
  | .login way =>
    ∀ session ∈ way.login w.tables w.session, ∀ new ∈ session.login, ∀ old ∈ w.session.login, new.id = old.id
  | .verify _ _ _ _ => w.session.login.isSome = true
  | _ => True

instance ownSessionDecidable (w : Browser) : ∀ e, Decidable (OwnSession w e)
  | .login way =>
    inferInstanceAs (Decidable (∀ session ∈ way.login _ _, ∀ new ∈ session.login, ∀ old ∈ w.session.login, _ = _))
  | .verify _ _ _ _ => inferInstanceAs (Decidable (_ = true))
  | .logout | .passkeyBegin _ _ | .passkeyFinish _ _ | .channelKey _ | .passkeyRegister _ _ | .passkeyDelete _ _
  | .database _ | .advance _ => .isTrue trivial

/-! Whose the marks are. -/

/-- The user was verified at this time: by a code of theirs, or with a passkey that they had shown
less than a minute before. -/
def Done (log : List Entry) (userId at_ : Int) : Method → Prop
  | .twoFA => .byCode userId at_ ∈ log
  | .passkey =>
    .byPasskey userId at_ ∈ log ∧ ∃ readyAt, at_ - readyAt < passkeyReadyTimeout ∧ .asserted userId readyAt ∈ log

/-- The user was verified so less than five minutes ago. -/
def CompletedBy (log : List Entry) (userId now : Int) (method : Method) : Prop :=
  ∃ at_, at_ ≤ now ∧ now - at_ < secureVerificationTimeout ∧ Done log userId at_ method

variable {userId at_ : Int} {method : Method}

theorem Done.mono {log more : List Entry} (h : Done log userId at_ method) : Done (log ++ more) userId at_ method := by
  cases method with
  | twoFA => exact mem_append_left _ h
  | passkey =>
    obtain ⟨hpasskey, readyAt, hready, hasserted⟩ := h
    exact ⟨mem_append_left _ hpasskey, readyAt, hready, mem_append_left _ hasserted⟩

theorem Done.entry {log : List Entry} (h : Done log userId at_ method) : ∃ e ∈ log, e.time = at_ := by
  cases method with
  | twoFA => exact ⟨_, h, rfl⟩
  | passkey => exact ⟨_, h.1, rfl⟩

/-- The marks of a session are of the user who is logged in. -/
structure Marked (log : List Entry) (session : Session) : Prop where
  anonymous : session.login = none → session.passkeyReadyAt = none ∧ session.secureVerifiedAt = none
  ready : ∀ login ∈ session.login, ∀ at_ ∈ session.passkeyReadyAt, .asserted login.id at_ ∈ log
  verified : ∀ login ∈ session.login, ∀ at_ ∈ session.secureVerifiedAt,
    ∀ method ∈ session.secureVerifiedMethod, Done log login.id at_ method
  method : session.secureVerifiedAt.isSome = true → session.secureVerifiedMethod.isSome = true

section
variable {log more : List Entry} {session session' : Session}

theorem marked_unmarked (hready : session.passkeyReadyAt = none) (hverified : session.secureVerifiedAt = none) :
    Marked log session := by
  refine ⟨fun _ => ⟨hready, hverified⟩, fun _ _ at_ hat => ?_, fun _ _ at_ hat => ?_, fun hsome => ?_⟩
  · rw [hready] at hat
    cases hat
  · rw [hverified] at hat
    cases hat
  · rw [hverified] at hsome
    cases hsome

theorem Marked.mono (h : Marked log session) : Marked (log ++ more) session :=
  ⟨h.anonymous, fun login hlogin at_ hat => mem_append_left _ (h.ready login hlogin at_ hat),
    fun login hlogin at_ hat method hmethod => (h.verified login hlogin at_ hat method hmethod).mono, h.method⟩

/-- Marks may go, as long as the user stays; another challenge is no mark. -/
theorem Marked.fewer (h : Marked log session) (hlogin : session'.login.map (·.id) = session.login.map (·.id))
    (hready : ∀ at_ ∈ session'.passkeyReadyAt, at_ ∈ session.passkeyReadyAt)
    (hverified : ∀ at_ ∈ session'.secureVerifiedAt,
      at_ ∈ session.secureVerifiedAt ∧ session'.secureVerifiedMethod = session.secureVerifiedMethod) :
    Marked log session' := by
  have hsame : ∀ new ∈ session'.login, ∃ old ∈ session.login, old.id = new.id := by
    intro new hnew
    rw [show session'.login = some new from hnew] at hlogin
    exact map_eq_some_iff.mp hlogin.symm
  refine ⟨fun hnone => ?_, fun login hlog at_ hat => ?_, fun login hlog at_ hat method hmethod => ?_, fun hsome => ?_⟩
  · rw [hnone] at hlogin
    obtain ⟨hnoReady, hnoMark⟩ := h.anonymous (map_eq_none_iff.mp hlogin.symm)
    rw [hnoReady] at hready
    rw [hnoMark] at hverified
    constructor
    · exact eq_none_iff_forall_not_mem.mpr fun at_ hat => nomatch hready at_ hat
    · exact eq_none_iff_forall_not_mem.mpr fun at_ hat => nomatch (hverified at_ hat).1
  · obtain ⟨old, hold, hid⟩ := hsame login hlog
    exact hid ▸ h.ready old hold at_ (hready at_ hat)
  · obtain ⟨old, hold, hid⟩ := hsame login hlog
    obtain ⟨hat, hkept⟩ := hverified at_ hat
    exact hid ▸ h.verified old hold at_ hat method (hkept ▸ hmethod)
  · obtain ⟨at_, hat⟩ := isSome_iff_exists.mp hsome
    obtain ⟨hat, hkept⟩ := hverified at_ hat
    rw [hkept]
    exact h.method (isSome_iff_exists.mpr ⟨at_, hat⟩)

theorem Marked.clear (h : Marked log session) : Marked log (clearSecureVerificationSession session) :=
  h.fewer rfl (fun _ => id) nofun

theorem Marked.set (h : session.login.isSome = true) {now : Int}
    (hdone : ∀ login ∈ session.login, Done log login.id now method) :
    Marked log (setSecureVerificationSession now method session) := by
  refine ⟨fun hnone => ?_, nofun, fun login hlogin at_ hat method' hmethod => ?_, fun _ => rfl⟩
  · rw [show session.login = none from hnone] at h
    cases h
  · cases hat
    cases hmethod
    exact hdone login hlogin

end

/-! What each handler leaves. -/

/-- The marks are still the user's own, and what was checked was checked now. -/
structure Leaves (log : List Entry) (now : Int) (o : Outcome) : Prop where
  marked : Marked (log ++ o.2) o.1
  times : ∀ e ∈ o.2, e.time = now

section
variable {log : List Entry} {session : Session} {s : Tables} {now : Int} {a : Answers}

theorem Marked.leaves (h : Marked log session) : Leaves log now (session, []) := ⟨h.mono, nofun⟩

theorem leaves_entry {e : Entry} (h : Marked (log ++ [e]) session) (htime : e.time = now) :
    Leaves log now (session, [e]) :=
  ⟨h, fun e' he => by rw [mem_singleton.mp he, htime]⟩

theorem getSessionUser_some {user : User} (h : getSessionUser s session = some user) :
    ∃ login, session.login = some login ∧ login.id = user.id := by
  obtain ⟨login, hlogin, h⟩ := bind_eq_some_iff.mp h
  obtain ⟨found, hfound, h⟩ := bind_eq_some_iff.mp h
  split_ifs at h
  cases h
  have hid := (firstUser_some hfound).2.2
  rw [decide_eq_true_eq] at hid
  exact ⟨login, hlogin, hid.symm⟩

theorem login_marks {way : LoginWay} {session' : Session} (h : way.login s session = some session') :
    session'.passkeyReadyAt = session.passkeyReadyAt ∧ session'.secureVerifiedAt = session.secureVerifiedAt ∧
      session'.secureVerifiedMethod = session.secureVerifiedMethod ∧
      (session'.login = session.login ∨ session'.login.isSome = true) := by
  rcases login_some h with ⟨pending, rfl | ⟨p, u, -, rfl⟩⟩
  · exact ⟨rfl, rfl, rfl, .inl rfl⟩
  · exact ⟨rfl, rfl, rfl, .inr rfl⟩

variable (h : Marked log session)
include h

theorem Marked.login {way : LoginWay} {session' : Session} (hway : way.login s session = some session')
    (hown : ∀ new ∈ session'.login, ∀ old ∈ session.login, new.id = old.id) : Marked log session' := by
  obtain ⟨hready, hverified, hmethod, hlogin⟩ := login_marks hway
  cases hold : session.login with
  | none =>
    -- without a login there were no marks
    obtain ⟨hnoReady, hnoMark⟩ := h.anonymous hold
    exact marked_unmarked (hready.trans hnoReady) (hverified.trans hnoMark)
  | some old =>
    refine h.fewer ?_ (fun at_ hat => hready ▸ hat) fun at_ hat => ⟨hverified ▸ hat, hmethod⟩
    rcases hlogin with heq | hsome
    · rw [heq]
    · obtain ⟨new, hnew⟩ := isSome_iff_exists.mp hsome
      rw [hnew, hold, map_some, map_some, hown new hnew old hold]

theorem Marked.passkeyBegin : Leaves log now (passkeyVerifyBegin s a session) := by
  unfold passkeyVerifyBegin
  split
  · exact h.leaves
  split
  · exact h.leaves
  split
  · exact h.leaves
  · exact Marked.leaves (h.fewer rfl (fun _ => id) fun _ hat => ⟨hat, rfl⟩)

theorem Marked.finishLogin {user : User} (huser : getSessionUser s session = some user) (challenge : Int) :
    Leaves log now (finishLogin now user challenge a session) := by
  unfold Identity.finishLogin
  split
  · exact Marked.leaves (h.fewer rfl (fun _ => id) fun _ hat => ⟨hat, rfl⟩)
  -- a new assertion of the user who is logged in; the marks of an earlier verification are gone
  obtain ⟨login, hlogin, hid⟩ := getSessionUser_some huser
  refine leaves_entry ⟨fun hnone => ?_, fun login' hlogin' at_ hat => ?_, nofun, nofun⟩ rfl
  · cases hlogin.symm.trans hnone
  · cases hlogin.symm.trans hlogin'
    cases hat
    rw [hid]
    exact mem_append_right _ (mem_singleton_self _)

theorem Marked.passkeyFinish : Leaves log now (passkeyVerifyFinish s now a session) := by
  unfold passkeyVerifyFinish
  split
  · exact h.leaves
  split
  · exact h.leaves
  rename_i user huser
  split
  · exact h.leaves
  split
  · exact h.leaves
  · exact h.finishLogin huser _

theorem Marked.verifyBy (hsome : session.login.isSome = true)
    (hown : ∀ login ∈ session.login, login.id = userId) (code : String) (method : Method) :
    Leaves log now (verifyBy now userId code a session method) := by
  cases method with
  | twoFA =>
    unfold Identity.verifyBy
    dsimp only
    split
    · exact h.leaves
    · refine leaves_entry (Marked.set hsome fun login hlogin => ?_) rfl
      rw [hown login hlogin]
      exact mem_append_right _ (mem_singleton_self _)
  | passkey =>
    unfold Identity.verifyBy consumePasskeyReady
    dsimp only
    split
    · exact h.leaves
    cases hready : session.passkeyReadyAt with
    | none => exact h.leaves
    | some readyAt =>
      dsimp only
      split
      · exact Marked.leaves (h.fewer rfl nofun fun _ hat => ⟨hat, rfl⟩)
      rename_i hin
      rw [Bool.not_eq_true', Bool.not_eq_false, decide_eq_true_eq] at hin
      refine leaves_entry (Marked.set hsome fun login hlogin => ?_) rfl
      have hasserted := h.ready login hlogin readyAt hready
      rw [hown login hlogin] at hasserted ⊢
      exact ⟨mem_append_right _ (mem_singleton_self _), readyAt, hin, mem_append_left _ hasserted⟩

theorem Marked.verify (hsome : session.login.isSome = true)
    (hown : ∀ login ∈ session.login, login.id = userId) (code : String) (method : Method) :
    Leaves log now (universalVerify s now userId method code a session) := by
  unfold universalVerify
  split
  · exact h.leaves
  split
  · exact h.leaves
  split
  · exact h.leaves
  split
  · exact h.leaves
  · exact h.verifyBy hsome hown code method

theorem Marked.required (userId : Int) : Marked log (secureVerificationRequired now userId session).1 := by
  unfold secureVerificationRequired
  split
  · exact h
  split
  · exact h
  split
  · exact h.clear
  · exact h

theorem Marked.requireMethod (method : Method) : Marked log (requireSecureVerificationMethod now method session).1 := by
  unfold requireSecureVerificationMethod
  split
  · exact h.clear
  split
  · exact h.clear
  · exact h

theorem Marked.requireRegister : Marked log (requirePasskeyRegistrationVerification now a session).1 := by
  unfold requirePasskeyRegistrationVerification
  split
  · exact h
  · exact h.requireMethod .twoFA

theorem Marked.requireDelete : Marked log (requirePasskeyDeleteVerification now a session).1 := by
  unfold requirePasskeyDeleteVerification
  split
  · exact h.requireMethod .twoFA
  split
  · exact h
  · exact h.requireMethod .passkey

theorem Marked.passkeyRequest {check : Session → Session × Bool} (hcheck : Marked log (check session).1) :
    Leaves log now (protectedPasskey s check session) := by
  unfold protectedPasskey
  split
  · exact h.leaves
  · exact hcheck.leaves

end

/-! Histories. -/

/-- Nothing in the log is of the future. -/
def Past (w : Browser) : Prop := ∀ e ∈ w.log, e.time ≤ w.now

section
variable {hash : String → String} {cachedGroup : Int → Option String} {w : Browser} {session : Session} {s : Tables}

/-- With a login in the session, a request is of that user. -/
theorem authHelper_own {now minRole : Int} {authorization newApiUser : String} {ctx : Context}
    (h : authHelper hash cachedGroup s now minRole ⟨session, authorization, newApiUser⟩ = .ok ctx) :
    ∀ login ∈ session.login, login.id = ctx.id := by
  intro login hlogin
  obtain ⟨who, hwho, hid, -⟩ := authHelper_ok h
  have hsession : identify hash s now ⟨session, authorization, newApiUser⟩ = .ok (login, false) := by
    unfold identify
    rw [show session.login = some login from hlogin]
  rw [hsession] at hwho
  cases hwho
  exact hid.symm

section
variable (h : Marked w.log w.session) (hpast : Past w)
include h hpast

theorem Marked.behind (minRole : Int) (headers : Headers)
    {handler : Int → Outcome}
    (hhandler : ∀ userId, (∀ login ∈ w.session.login, login.id = userId) → Leaves w.log w.now (handler userId)) :
    Marked (w.behind hash cachedGroup minRole headers handler).log
        (w.behind hash cachedGroup minRole headers handler).session ∧
      Past (w.behind hash cachedGroup minRole headers handler) := by
  unfold Browser.behind
  split
  · exact ⟨h, hpast⟩
  · rename_i ctx hctx
    obtain ⟨hmarked, htimes⟩ := hhandler ctx.id (authHelper_own hctx)
    exact ⟨hmarked, fun e he => (mem_append.mp he).elim (hpast e) fun he => Int.le_of_eq (htimes e he)⟩

theorem Marked.event (e : BrowserEvent) (hown : OwnSession w e) :
    Marked (browserStep hash cachedGroup w e).log (browserStep hash cachedGroup w e).session ∧
      Past (browserStep hash cachedGroup w e) := by
  cases e with
  | login way =>
    refine ⟨?_, hpast⟩
    unfold browserStep
    dsimp only
    cases hway : way.login w.tables w.session with
    | none => exact h
    | some session => exact h.login hway (hown session hway)
  | logout => exact ⟨marked_unmarked rfl rfl, hpast⟩
  | passkeyBegin headers a => exact h.behind hpast _ headers fun _ _ => h.passkeyBegin
  | passkeyFinish headers a => exact h.behind hpast _ headers fun _ _ => h.passkeyFinish
  | verify headers method code a => exact h.behind hpast _ headers fun _ hid => h.verify hown hid code method
  | channelKey headers => exact h.behind hpast _ headers fun userId _ => (h.required userId).leaves
  | passkeyRegister headers a => exact h.behind hpast _ headers fun _ _ => h.passkeyRequest h.requireRegister
  | passkeyDelete headers a => exact h.behind hpast _ headers fun _ _ => h.passkeyRequest h.requireDelete
  | database tables => exact ⟨h, hpast⟩
  | advance seconds => exact ⟨h, fun e he =>
    Int.le_trans (hpast e he) (Int.le_add_of_nonneg_right (Int.natCast_nonneg _))⟩

/-- A mark that is not too old is of a verification of the user who is logged in. -/
theorem Marked.completed {login : Login} (hlogin : login ∈ w.session.login) (hat : at_ ∈ w.session.secureVerifiedAt)
    (hrecent : ¬ w.now - at_ ≥ secureVerificationTimeout)
    (hmethod : method ∈ w.session.secureVerifiedMethod) : CompletedBy w.log login.id w.now method := by
  have hdone := h.verified login hlogin at_ hat method hmethod
  obtain ⟨e, he, htime⟩ := hdone.entry
  have hle := hpast e he
  exact ⟨at_, by omega, by omega, hdone⟩

theorem Marked.pastRequired {minRole : Int} {headers : Headers}
    (hpass : w.pastRequired hash cachedGroup minRole headers = some userId) :
    ∃ method, CompletedBy w.log userId w.now method := by
  unfold Browser.pastRequired secureVerificationRequired at hpass
  split at hpass
  · cases hpass
  rename_i ctx hctx
  cases hat : w.session.secureVerifiedAt with
  | none =>
    rw [hat] at hpass
    simp at hpass
  | some at_ =>
    rw [hat] at hpass
    by_cases hzero : ctx.id = 0
    · simp [hzero] at hpass
    by_cases hold : w.now - at_ ≥ secureVerificationTimeout
    · simp [hzero, hold] at hpass
    simp only [hzero, hold, if_false, if_true, Option.some.injEq] at hpass
    cases hlogin : w.session.login with
    | none =>
      rw [(h.anonymous hlogin).2] at hat
      cases hat
    | some login =>
      have hsome := h.method (by rw [hat]; rfl)
      obtain ⟨method, hmethod⟩ := isSome_iff_exists.mp hsome
      rw [← hpass, ← authHelper_own hctx login hlogin]
      exact ⟨method, h.completed hpast hlogin hat hold hmethod⟩

theorem Marked.pastMethod (hpass : w.pastMethod method = some userId) : CompletedBy w.log userId w.now method := by
  unfold Browser.pastMethod requireSecureVerificationMethod at hpass
  split at hpass
  · cases hpass
  rename_i user huser
  cases hat : w.session.secureVerifiedAt with
  | none =>
    rw [hat] at hpass
    simp at hpass
  | some at_ =>
    rw [hat] at hpass
    by_cases hold : w.now - at_ ≥ secureVerificationTimeout
    · simp [hold] at hpass
    simp only [hold, if_false, decide_eq_true_eq] at hpass
    split_ifs at hpass with hmethod
    cases hpass
    obtain ⟨login, hlogin, hid⟩ := getSessionUser_some huser
    rw [← hid]
    exact h.completed hpast hlogin hat hold hmethod

end

end

/-- **The step-up verification is the user's own.** In every history of a browser in which nobody logs
in over the login of another user, and nobody is verified without a login, a request gets past
`SecureVerificationRequired` only if its user was verified less than five minutes ago, and past
`requireSecureVerificationMethod` only if they were so by this method. -/
theorem step_up_is_own (hash : String → String) (cachedGroup : Int → Option String) (tables : Tables) (now : Int)
    (w : Browser) (h : Reach OwnSession (browserStep hash cachedGroup) ⟨tables, now, {}, []⟩ w) (userId : Int) :
    (∀ minRole headers, w.pastRequired hash cachedGroup minRole headers = some userId →
        ∃ method, CompletedBy w.log userId w.now method) ∧
      ∀ method, w.pastMethod method = some userId → CompletedBy w.log userId w.now method := by
  obtain ⟨hmarked, hpast⟩ := h.keeps (P := fun w => Marked w.log w.session ∧ Past w)
    ⟨marked_unmarked rfl rfl, fun _ he => absurd he not_mem_nil⟩ fun _ e hw hown => hw.1.event hw.2 e hown
  exact ⟨fun minRole headers hpass => hmarked.pastRequired hpast hpass,
    fun method hpass => hmarked.pastMethod hpast hpass⟩

/-! Two histories. -/

section

def secondAdmin : User := { id := 4, username := "second", role := roleAdminUser, status := userStatusEnabled }

def desk : Browser := ⟨⟨[root, admin, carol, secondAdmin], []⟩, 1000, {}, []⟩

def rightCode : Answers := ⟨true, true, false, true⟩

def verifiedAdmin : List BrowserEvent :=
  [.login (.password 2 false), .advance 10, .verify ⟨"", "2"⟩ .twoFA "123456" rightCode, .advance 10]

def thenSecond : List BrowserEvent := verifiedAdmin ++ [.login (.password 4 false)]

def atDesk (events : List BrowserEvent) : Browser := events.foldl (browserStep id fun _ => none) desk

theorem verified_admin_gets_past :
    (atDesk verifiedAdmin).pastRequired id (fun _ => none) roleAdminUser ⟨"", "2"⟩ = some 2 ∧
      ∃ method, CompletedBy (atDesk verifiedAdmin).log 2 (atDesk verifiedAdmin).now method :=
  ⟨by decide +kernel,
    (step_up_is_own id (fun _ => none) desk.tables 1000 (atDesk verifiedAdmin)
      (reach_foldl .start verifiedAdmin (by decide +kernel)) 2).1 roleAdminUser ⟨"", "2"⟩ (by decide +kernel)⟩

/-- Nobody but the first administrator was verified, and the second one gets past. -/
theorem other_user_gets_past :
    Reach anyEvent (browserStep id fun _ => none) desk (atDesk thenSecond) ∧
      (atDesk thenSecond).pastRequired id (fun _ => none) roleAdminUser ⟨"", "4"⟩ = some 4 ∧
      (atDesk thenSecond).pastMethod .twoFA = some 4 ∧
      ¬ ∃ method, CompletedBy (atDesk thenSecond).log 4 (atDesk thenSecond).now method := by
  refine ⟨reach_foldl .start thenSecond ⟨trivial, trivial, trivial, trivial, trivial, trivial⟩, by decide +kernel,
    by decide +kernel, ?_⟩
  rintro ⟨method, at_, -, -, hdone⟩
  rw [show (atDesk thenSecond).log = [.byCode 2 1010] by decide +kernel] at hdone
  cases method with
  | twoFA =>
    rw [Done, mem_singleton] at hdone
    cases hdone
  | passkey =>
    have hentry := hdone.1
    rw [mem_singleton] at hentry
    cases hentry

end

end AmuxApi.Identity
