import AmuxApi.Identity.AccessTokens
import AmuxApi.Machine.Run

/- Which texts are accepted as access tokens, over any history.

   A row of the table goes from active to revoked or expired and never back, and its hash and its
   time never change (`Later`): what is accepted by a row was acceptable by it at any earlier time.
   A text without a prefix is looked up in the column of `users` alone. As long as nothing retires
   the row of a text that stands in the column (`ColumnKept`), each such text has an active row
   (`Covered`), and every text that is accepted has one (`accepted_is_active`).

   Revoking, rotating and the clean-up do not look at the column: a text that was copied into the
   table at start-up is accepted after an administrator has revoked it (`revoked_text_accepted`). -/
namespace AmuxApi.Identity
open Account
open Machine List

/-! Histories. -/

structure World where
  tables : Tables
  now : Int

/-- The random parts and the new texts are given. -/
inductive Event
  | create (userId : Int) (name description : String) (expiresInDays : Option Int) (body : String)
  | deviceFlow (userId : Int) (name sourceMeta body : String)
  | generateLegacy (userId : Int) (plaintext : String)
  | migrate
  | rotate (userId : Int) (id : Nat) (body : String)
  | delete (userId : Int) (id : Nat)
  | adminRevoke (id : Nat) (reason : String)
  | resetPassword (email : String)
  | changePassword (userId : Int)
  | cleanup
  | validate (token ip : String)
  | advance (seconds : Nat)

section
variable (hash : String → String)

/-- A request with a token: the row that it was accepted by is marked as used. -/
def useToken (now : Int) (token ip : String) (s : Tables) : Tables :=
  match validateAccessTokenWithIP hash s now token with
  | some ⟨_, some id⟩ => touchLastUsed now ip id s
  | _ => s

def tablesAfter (now : Int) (s : Tables) : Event → Tables
  | .create userId name description expiresInDays body =>
    createAccessToken hash now userId name description expiresInDays body s
  | .deviceFlow userId name sourceMeta body => createDeviceToken hash now userId name sourceMeta body s
  | .generateLegacy userId plaintext => generateAccessTokenLegacy hash now userId plaintext s
  | .migrate => migrateLegacyAccessTokens hash now s
  | .rotate userId id body => rotateAccessToken hash now userId id body s
  | .delete userId id => deleteAccessToken now userId id s
  | .adminRevoke id reason => adminRevokeAccessToken now id reason s
  | .resetPassword email => resetUserPasswordByEmail now email s
  | .changePassword userId => revokePasswordResetTokens now userId s
  | .cleanup => cleanupExpiredUserAccessTokens now s
  | .validate token ip => useToken hash now token ip s
  | .advance _ => s

def Event.seconds : Event → Nat
  | .advance seconds => seconds
  | _ => 0

def step (s : World) (e : Event) : World := ⟨tablesAfter hash s.now s.tables e, s.now + e.seconds⟩

/-- The server has started on a database whose table of tokens was empty. -/
def start (users : List User) (now : Int) : World := ⟨migrateLegacyAccessTokens hash now ⟨users, []⟩, now⟩

/-- The text of this row stands in the column of its user. -/
def inColumn (s : Tables) (t : UserAccessToken) : Bool :=
  s.users.any fun u =>
    !u.deleted && decide (u.id = t.userId) && decide (t.source = .legacy) && u.accessToken.any (hash · = t.tokenHash)

/-- What the clean-up is about to expire. -/
def overdue (now : Int) (t : UserAccessToken) : Bool := hardExpired now t || idleUsed now t || idleUnused now t

/-- A row that is revoked, rotated or expired by the clean-up is not that of a text in the column. -/
def ColumnKept (s : World) : Event → Prop
  | .rotate _ id _ => ∀ t ∈ s.tables.tokens[id]?, inColumn hash s.tables t = false
  | .delete _ id => ∀ t ∈ s.tables.tokens[id]?, inColumn hash s.tables t = false
  | .adminRevoke id _ => ∀ t ∈ s.tables.tokens[id]?, inColumn hash s.tables t = false
  | .cleanup => ∀ t ∈ s.tables.tokens, overdue s.now t = true → inColumn hash s.tables t = false
  | _ => True

end

/-! Rows never become active again. -/

structure Later (a b : UserAccessToken) : Prop where
  owner : b.userId = a.userId
  hash : b.tokenHash = a.tokenHash
  source : b.source = a.source
  expires : b.expiresAt = a.expiresAt
  status : b.status = .active → a.status = .active

theorem Later.refl (a : UserAccessToken) : Later a a := ⟨rfl, rfl, rfl, rfl, id⟩

theorem Later.trans {a b c : UserAccessToken} (h : Later a b) (h' : Later b c) : Later a c :=
  ⟨h'.owner.trans h.owner, h'.hash.trans h.hash, h'.source.trans h.source, h'.expires.trans h.expires,
    h.status ∘ h'.status⟩

theorem later_touch (now : Int) (ip : String) (a : UserAccessToken) :
    Later a (touch now ip a) ∧ (touch now ip a).status = a.status := by
  unfold touch
  split
  · exact ⟨.refl a, rfl⟩
  · exact ⟨⟨rfl, rfl, rfl, rfl, id⟩, rfl⟩

variable {now : Int}

theorem Later.isActive {a b : UserAccessToken} (h : Later a b) {now' : Int} (hnow : now ≤ now')
    (hb : b.isActive now' = true) : a.isActive now = true := by
  unfold UserAccessToken.isActive at hb ⊢
  rw [Bool.and_eq_true, decide_eq_true_eq, Bool.not_eq_true'] at hb ⊢
  refine ⟨h.status hb.1, ?_⟩
  rw [← h.expires]
  cases hexp : b.expiresAt with
  | none => rfl
  | some e =>
    have hnot := hb.2
    rw [hexp, Option.any_some, decide_eq_false_iff_not] at hnot
    rw [Option.any_some, decide_eq_false_iff_not]
    omega

/-- Every row is in its place, as it was or later. -/
def Onward (l l' : List UserAccessToken) : Prop := ∀ (i : Nat) a, l[i]? = some a → ∃ b, l'[i]? = some b ∧ Later a b

theorem Onward.refl (l : List UserAccessToken) : Onward l l := fun _ a ha => ⟨a, ha, .refl a⟩

theorem Onward.trans {l l' l'' : List UserAccessToken} (h : Onward l l') (h' : Onward l' l'') : Onward l l'' := by
  intro i a ha
  obtain ⟨b, hb, hab⟩ := h i a ha
  obtain ⟨c, hc, hbc⟩ := h' i b hb
  exact ⟨c, hc, hab.trans hbc⟩

/-- The rows go on, and those with `P` have the status they had. -/
def Keeps (P : UserAccessToken → Prop) (l l' : List UserAccessToken) : Prop :=
  ∀ (i : Nat) a, l[i]? = some a → ∃ b, l'[i]? = some b ∧ Later a b ∧ (P a → b.status = a.status)

section
variable {P : UserAccessToken → Prop} {l l' : List UserAccessToken} {f : UserAccessToken → UserAccessToken}

theorem Keeps.refl : Keeps P l l := fun _ a ha => ⟨a, ha, .refl a, fun _ => rfl⟩

theorem Keeps.onward (h : Keeps P l l') : Onward l l' := by
  intro i a ha
  obtain ⟨b, hb, hlater, -⟩ := h i a ha
  exact ⟨b, hb, hlater⟩

theorem Keeps.append (h : Keeps P l l') (more : List UserAccessToken) : Keeps P l (l' ++ more) := by
  intro i a ha
  obtain ⟨b, hb, hkept⟩ := h i a ha
  exact ⟨b, List.getElem?_append_left (List.getElem?_eq_some_iff.mp hb).1 ▸ hb, hkept⟩

theorem keeps_map (hf : ∀ a ∈ l, Later a (f a) ∧ (P a → (f a).status = a.status)) : Keeps P l (l.map f) :=
  fun _ a ha => ⟨f a, by rw [List.getElem?_map, ha, Option.map_some], hf a (mem_of_getElem? ha)⟩

theorem keeps_modify {id : Nat} (hf : ∀ a, l[id]? = some a → Later a (f a) ∧ (P a → (f a).status = a.status)) :
    Keeps P l (l.modify id f) := by
  intro i a ha
  refine ⟨if id = i then f a else a, by rw [List.getElem?_modify, ha, Option.map_eq_map, Option.map_some], ?_⟩
  split_ifs with hid
  · subst hid
    exact hf a ha
  · exact ⟨.refl a, fun _ => rfl⟩

/-- The rows that an update retires. -/
theorem later_retireIf {p : Prop} [Decidable p] {status : TokenStatus} (hstatus : status ≠ .active) (now : Int)
    (reason : String) (a : UserAccessToken) : Later a (if p then a.retire status now reason else a) := by
  split
  · exact ⟨rfl, rfl, rfl, rfl, fun h => absurd h hstatus⟩
  · exact .refl a

theorem keeps_retire {p q : Prop} [Decidable p] (now : Int) (reason : String) (a : UserAccessToken) (hp : q → ¬ p) :
    Later a (if p then a.retire .revoked now reason else a) ∧
      (q → (if p then a.retire .revoked now reason else a).status = a.status) :=
  ⟨later_retireIf (by decide) now reason a, fun h => by rw [if_neg (hp h)]⟩

theorem keeps_revokeAll (s : Tables) (now userId : Int) (reason : String) (sourceFilter : Option TokenSource) :
    Keeps (·.userId ≠ userId) s.tokens (revokeAllUserAccessTokens now userId reason sourceFilter s).tokens := by
  refine keeps_map fun a _ => keeps_retire now reason a fun hne => ?_
  simp [hne]

end

/-! Texts in the column have active rows. -/

section
variable (hash : String → String)

/-- An active row of a user for a text that was copied into the table. -/
structure Upright (userId : Int) (text : String) (t : UserAccessToken) : Prop where
  owner : t.userId = userId
  source : t.source = .legacy
  hash : t.tokenHash = hash text
  status : t.status = .active
  expires : t.expiresAt = none

def Stands (tokens : List UserAccessToken) (userId : Int) (text : String) : Prop :=
  ∃ (i : Nat) (t : UserAccessToken), tokens[i]? = some t ∧ Upright hash userId text t

def Covered (s : Tables) : Prop :=
  ∀ u ∈ s.users, u.deleted = false → ∀ text, u.accessToken = some text → Stands hash s.tokens u.id text

end

section
variable {hash : String → String} {tokens : List UserAccessToken} {userId : Int} {text : String} {t : UserAccessToken}

theorem Upright.later {t' : UserAccessToken} (h : Upright hash userId text t) (hlater : Later t t')
    (hstatus : t'.status = t.status) : Upright hash userId text t' :=
  ⟨hlater.owner.trans h.owner, hlater.source.trans h.source, hlater.hash.trans h.hash, hstatus.trans h.status,
    hlater.expires.trans h.expires⟩

theorem Stands.keeps {P : UserAccessToken → Prop} {tokens' : List UserAccessToken} (h : Stands hash tokens userId text)
    (hkeeps : Keeps P tokens tokens') (hP : ∀ t, Upright hash userId text t → P t) :
      Stands hash tokens' userId text := by
  obtain ⟨i, t, ht, hup⟩ := h
  obtain ⟨t', ht', hlater, hstatus⟩ := hkeeps i t ht
  exact ⟨i, t', ht', hup.later hlater (hstatus (hP t hup))⟩

theorem stands_last (t : UserAccessToken) (h : Upright hash userId text t) : Stands hash (tokens ++ [t]) userId text :=
  ⟨tokens.length, t, by rw [List.getElem?_append_right (Nat.le_refl _), Nat.sub_self]; rfl, h⟩

end

section
variable {hash : String → String}

/-- The migration adds rows, each of which is active. -/
theorem migrateUser_cases (now : Int) (tokens : List UserAccessToken) (u : User) :
    migrateUser hash now tokens u = tokens ∨
      ∃ t, t.status = .active ∧ t.expiresAt = none ∧ migrateUser hash now tokens u = tokens ++ [t] := by
  unfold migrateUser
  split
  · exact .inl rfl
  split
  · exact .inl rfl
  split
  · exact .inl rfl
  · split
    · exact .inl rfl
    · exact .inr ⟨_, rfl, rfl, rfl⟩

theorem migrate_appends (now : Int) (users : List User) :
    ∀ tokens, ∃ more, users.foldl (migrateUser hash now) tokens = tokens ++ more := by
  induction users with
  | nil => exact fun tokens => ⟨[], (append_nil tokens).symm⟩
  | cons u users ih =>
    intro tokens
    obtain ⟨more, hmore⟩ := ih (migrateUser hash now tokens u)
    rw [foldl_cons, hmore]
    rcases migrateUser_cases now tokens u with h | ⟨t, -, -, h⟩
    · exact ⟨more, by rw [h]⟩
    · exact ⟨t :: more, by rw [h, append_assoc]; rfl⟩

end

/-! At start-up. -/

variable {tokens : List UserAccessToken} {text : String}

section
variable {hash : String → String}

/-- Nothing has been taken back yet. -/
def Untouched (tokens : List UserAccessToken) : Prop := ∀ t ∈ tokens, t.status = .active ∧ t.expiresAt = none

theorem Untouched.migrateUser (h : Untouched tokens) (now : Int) (u : User) :
    Untouched (migrateUser hash now tokens u) := by
  rcases migrateUser_cases now tokens u with heq | ⟨t, hactive, hexpires, heq⟩
  · rw [heq]
    exact h
  rw [heq]
  intro a ha
  rcases mem_append.mp ha with ha | ha
  · exact h a ha
  · rw [mem_singleton.mp ha]
    exact ⟨hactive, hexpires⟩

theorem stands_migrateUser (h : Untouched tokens) (now : Int) {u : User}
    (hdeleted : u.deleted = false) (htext : u.accessToken = some text) (hne : text ≠ "") :
    Stands hash (migrateUser hash now tokens u) u.id text := by
  unfold migrateUser
  rw [hdeleted, htext]
  dsimp only
  rw [if_neg hne]
  by_cases hany : (tokens.any fun t => t.userId = u.id ∧ t.source = .legacy ∧ t.tokenHash = hash text) = true
  · rw [if_pos hany]
    obtain ⟨t, ht, hrow⟩ := any_eq_true.mp hany
    obtain ⟨hid, hsource, hhash⟩ := of_decide_eq_true hrow
    obtain ⟨i, hi⟩ := mem_iff_getElem?.mp ht
    exact ⟨i, t, hi, hid, hsource, hhash, (h t ht).1, (h t ht).2⟩
  · rw [if_neg hany]
    exact stands_last _ ⟨rfl, rfl, rfl, rfl, rfl⟩

theorem stands_migrate (now : Int) (users : List User) :
    ∀ {tokens : List UserAccessToken}, Untouched tokens → ∀ u ∈ users, u.deleted = false → ∀ text,
      u.accessToken = some text → text ≠ "" → Stands hash (users.foldl (migrateUser hash now) tokens) u.id text := by
  induction users with
  | nil =>
    intro tokens _ u hu
    cases hu
  | cons v users ih =>
    intro tokens h u hu hdeleted text htext hne
    rcases mem_cons.mp hu with rfl | hu
    · obtain ⟨more, hmore⟩ := migrate_appends now users (migrateUser hash now tokens u)
      rw [foldl_cons, hmore]
      exact (stands_migrateUser h now hdeleted htext hne).keeps (Keeps.append .refl more) fun _ hup => hup
    · exact ih (h.migrateUser now v) u hu hdeleted text htext hne

theorem covered_start {users : List User} (hne : ∀ u ∈ users, u.accessToken ≠ some "") (now : Int) :
    Covered hash (start hash users now).tables := by
  intro u hu hdeleted text htext
  refine stands_migrate now users (fun t ht => ?_) u hu hdeleted text htext fun h => hne u hu (h ▸ htext)
  cases ht

end

/-! One event. -/

section
variable {hash : String → String} {s s' : Tables}

/-- What an event does: the rows go on, and the texts of the column still have theirs. -/
structure Moves (hash : String → String) (s s' : Tables) : Prop where
  onward : Onward s.tokens s'.tokens
  covered : Covered hash s → Covered hash s'

theorem Moves.refl : Moves hash s s := ⟨.refl _, id⟩

theorem inColumn_of_upright {u : User} (hu : u ∈ s.users) (hdeleted : u.deleted = false)
    (htext : u.accessToken = some text) {t : UserAccessToken} (hup : Upright hash u.id text t) :
    inColumn hash s t = true := by
  refine any_eq_true.mpr ⟨u, hu, ?_⟩
  rw [hdeleted, htext, hup.owner, hup.source, hup.hash]
  simp

/-- The rows of the texts in the column keep their status. -/
theorem moves_tokens (husers : s'.users = s.users) (h : Keeps (inColumn hash s · = true) s.tokens s'.tokens) :
    Moves hash s s' := by
  refine ⟨h.onward, fun hcovered u hu hdeleted text htext => ?_⟩
  rw [husers] at hu
  exact (hcovered u hu hdeleted text htext).keeps h fun t hup => inColumn_of_upright hu hdeleted htext hup

/-- The column of a user gets another text, which has a row. -/
theorem moves_setColumn {userId : Int} (column : Option String)
    (husers : s'.users = (setColumn userId column s).users) (h : Keeps (·.userId ≠ userId) s.tokens s'.tokens)
    (hown : ∀ text, column = some text → Stands hash s'.tokens userId text) : Moves hash s s' := by
  refine ⟨h.onward, fun hcovered u hu hdeleted text htext => ?_⟩
  rw [husers] at hu
  obtain ⟨v, hv, rfl⟩ := mem_map.mp hu
  by_cases hid : v.id = userId ∧ v.deleted = false
  · rw [if_pos hid] at htext ⊢
    exact hid.1 ▸ hown text htext
  · rw [if_neg hid] at hdeleted htext ⊢
    refine (hcovered v hv hdeleted text htext).keeps h fun t hup hown => hid ⟨?_, hdeleted⟩
    exact hup.owner.symm.trans hown

theorem moves_append (more : List UserAccessToken) : Moves hash s { s with tokens := s.tokens ++ more } :=
  moves_tokens rfl (Keeps.append .refl more)

/-- A row that is not that of a text in the column is revoked. -/
theorem moves_modify {id : Nat} (hid : ∀ t ∈ s.tokens[id]?, inColumn hash s t = false) (p : UserAccessToken → Prop)
    [DecidablePred p] (now : Int) (reason : String) (more : List UserAccessToken) :
    Moves hash s { s with
      tokens := (s.tokens.modify id fun t => if p t then t.retire .revoked now reason else t) ++ more } := by
  refine moves_tokens rfl ((keeps_modify fun a ha => keeps_retire now reason a fun hin => ?_).append more)
  rw [hid a ha] at hin
  cases hin

theorem moves_revoke {id : Nat} (hid : ∀ t ∈ s.tokens[id]?, inColumn hash s t = false)
    (now : Int) (reason : String) : Moves hash s (revokeUserAccessToken now id reason s) := by
  unfold revokeUserAccessToken
  rw [← append_nil (s.tokens.modify id _)]
  exact moves_modify hid _ now reason []

theorem moves_passwordReset (now userId : Int) : Moves hash s (revokePasswordResetTokens now userId s) := by
  unfold revokePasswordResetTokens
  split
  · exact .refl
  · exact moves_setColumn none rfl (keeps_revokeAll s now userId _ none) nofun

theorem moves_generateLegacy (now userId : Int) (plaintext : String) :
    Moves hash s (generateAccessTokenLegacy hash now userId plaintext s) := by
  refine moves_setColumn (some plaintext) rfl
    ((keeps_revokeAll s now userId _ (some .legacy)).append _) fun text htext => ?_
  cases htext
  exact stands_last _ ⟨rfl, rfl, rfl, rfl, rfl⟩

theorem moves_migrate (now : Int) : Moves hash s (migrateLegacyAccessTokens hash now s) := by
  obtain ⟨more, hmore⟩ := migrate_appends now s.users s.tokens
  unfold migrateLegacyAccessTokens
  rw [hmore]
  exact moves_append more

theorem moves_cleanup (hkept : ∀ t ∈ s.tokens, overdue now t = true → inColumn hash s t = false) :
    Moves hash s (cleanupExpiredUserAccessTokens now s) := by
  let expire (p : UserAccessToken → Bool) (a : UserAccessToken) : UserAccessToken :=
    if p a then a.retire .expired now userAccessTokenRevokeIdleExpired else a
  have hexpire : ∀ p a, Later a (expire p a) := fun p a => later_retireIf (by decide) now _ a
  refine moves_tokens rfl ?_
  show Keeps _ s.tokens (((s.tokens.map (expire (hardExpired now))).map (expire (idleUsed now))).map
    (expire (idleUnused now)))
  rw [map_map, map_map]
  refine keeps_map fun a ha => ⟨(hexpire _ a).trans ((hexpire _ _).trans (hexpire _ _)), fun hin => ?_⟩
  -- a row of the column is hit by none of the three updates
  have hnot : overdue now a = false := by
    refine Bool.eq_false_iff.mpr fun hoverdue => ?_
    rw [hkept a ha hoverdue] at hin
    cases hin
  unfold overdue at hnot
  simp only [Bool.or_eq_false_iff] at hnot
  simp [expire, hnot]

theorem moves_rotate {id : Nat} (hid : ∀ t ∈ s.tokens[id]?, inColumn hash s t = false) (now userId : Int)
    (body : String) : Moves hash s (rotateAccessToken hash now userId id body s) := by
  unfold rotateAccessToken
  split
  · split
    · unfold rotateUserAccessToken
      split
      · exact .refl
      · split
        · exact .refl
        · exact moves_modify hid (·.status = .active) now _ _
    · exact .refl
  · exact .refl

theorem moves_delete {id : Nat} (hid : ∀ t ∈ s.tokens[id]?, inColumn hash s t = false)
    (now userId : Int) : Moves hash s (deleteAccessToken now userId id s) := by
  unfold deleteAccessToken
  split
  · exact moves_revoke hid now _
  · exact .refl

theorem moves_create (now userId : Int) (name description : String) (expiresInDays : Option Int)
    (body : String) : Moves hash s (createAccessToken hash now userId name description expiresInDays body s) := by
  unfold createAccessToken
  dsimp only
  split
  · exact .refl
  · split
    · exact .refl
    · exact moves_append _

theorem moves_resetPassword (now : Int) (email : String) : Moves hash s (resetUserPasswordByEmail now email s) := by
  unfold resetUserPasswordByEmail
  split
  · exact .refl
  split
  · split
    · exact moves_passwordReset now _
    · exact .refl
  · exact .refl

theorem moves_use (now : Int) (token ip : String) : Moves hash s (useToken hash now token ip s) := by
  unfold useToken
  split
  · exact moves_tokens rfl (keeps_modify fun a _ => (later_touch now ip a).imp_right fun h _ => h)
  · exact .refl

theorem moves_event {w : World} (e : Event) (hkept : ColumnKept hash w e) :
    Moves hash w.tables (step hash w e).tables := by
  cases e with
  | create userId name description expiresInDays body =>
    exact moves_create w.now userId name description expiresInDays body
  | deviceFlow userId name sourceMeta body => exact moves_append _
  | generateLegacy userId plaintext => exact moves_generateLegacy w.now userId plaintext
  | migrate => exact moves_migrate w.now
  | rotate userId id body => exact moves_rotate hkept w.now userId body
  | delete userId id => exact moves_delete hkept w.now userId
  | adminRevoke id reason => exact moves_revoke hkept w.now _
  | resetPassword email => exact moves_resetPassword w.now email
  | changePassword userId => exact moves_passwordReset w.now userId
  | cleanup => exact moves_cleanup hkept
  | validate token ip => exact moves_use w.now token ip
  | advance seconds => exact .refl

/-- Over a history: the clock goes on, and so do the rows. -/
theorem moves_reach {w w' : World} (h : Reach (ColumnKept hash) (step hash) w w') :
    w.now ≤ w'.now ∧ Moves hash w.tables w'.tables := by
  refine h.keeps (P := fun w' => w.now ≤ w'.now ∧ Moves hash w.tables w'.tables) ⟨Int.le_refl _, .refl⟩ ?_
  intro w' e hw hkept
  have hstep := moves_event e hkept
  refine ⟨?_, hw.2.onward.trans hstep.onward, hstep.covered ∘ hw.2.covered⟩
  show w.now ≤ w'.now + e.seconds
  omega

end

/-! What is accepted. -/

section
variable {hash : String → String} {s : Tables} {now : Int}

theorem matching_some {t : UserAccessToken} {i : Nat} (h : matching hash tokens now text = some (t, i)) :
    tokens[i]? = some t ∧ t.tokenHash = hash text ∧ t.isActive now = true := by
  have hmem := mem_of_getLast? h
  obtain ⟨hmem, hmatch⟩ := mem_filter.mp hmem
  obtain ⟨hhash, hactive⟩ := of_decide_eq_true hmatch
  exact ⟨mem_zipIdx_iff_getElem?.mp (mem_filter.mp hmem).1, hhash, hactive⟩

theorem validateUser_some {plaintext : String} {a : Accepted}
    (h : validateUserAccessToken hash s now plaintext = some a) :
    ∃ (i : Nat) (t : UserAccessToken), s.tokens[i]? = some t ∧ t.tokenHash = hash (bearer plaintext) ∧
      t.isActive now = true := by
  unfold validateUserAccessToken at h
  dsimp only at h
  split at h
  · cases h
  split at h
  · cases h
  split_ifs at h
  obtain ⟨⟨t, i⟩, hmatch, -⟩ := Option.bind_eq_some_iff.mp h
  exact ⟨i, t, matching_some hmatch⟩

theorem hasPrefix_head {start : String} (c : Char) (rest : List Char) (hstart : start.toList = c :: rest)
    (h : hasPrefix text start = true) : text.toList.head? = some c := by
  unfold hasPrefix Go.after at h
  split_ifs at h with hpre
  · obtain ⟨more, hmore⟩ := hpre
    rw [← hmore, hstart]
    rfl
  · cases h

/-- The text of a token of the table is not cut a second time. -/
theorem bearer_bearer {token : String} (h : hasPrefix (bearer token) userAccessTokenPrefixPAT = true ∨
    hasPrefix (bearer token) userAccessTokenPrefixOAT = true) : bearer (bearer token) = bearer token := by
  have hhead : (bearer token).toList.head? = some 'a' := by
    rcases h with h | h
    · exact hasPrefix_head 'a' "mux_api_pat_".toList (by decide) h
    · exact hasPrefix_head 'a' "mux_api_oat_".toList (by decide) h
  have hcut : trimPrefix (bearer token) "Bearer " = bearer token := by
    unfold trimPrefix
    cases hafter : Go.after "Bearer " (bearer token) with
    | none => rfl
    | some rest =>
      have hB : hasPrefix (bearer token) "Bearer " = true := by
        unfold hasPrefix
        rw [hafter]
        rfl
      rw [hasPrefix_head 'B' "earer ".toList (by decide) hB] at hhead
      cases hhead
  rw [bearer, hcut, bearer, Go.trimSpace_trimSpace]

theorem validate_some (hcovered : Covered hash s) {token : String} {a : Accepted}
    (h : validateAccessTokenWithIP hash s now token = some a) :
    ∃ (i : Nat) (t : UserAccessToken), s.tokens[i]? = some t ∧ t.tokenHash = hash (bearer token) ∧
      t.isActive now = true := by
  unfold validateAccessTokenWithIP at h
  dsimp only at h
  split at h
  · cases h
  split_ifs at h with hprefix
  · rw [← bearer_bearer ((Bool.or_eq_true _ _).mp hprefix)]
    exact validateUser_some h
  · -- the column of the users: its text has a row
    obtain ⟨u, hfound, -⟩ := Option.bind_eq_some_iff.mp h
    have hu := List.find?_some hfound
    rw [Bool.and_eq_true, Bool.not_eq_true', decide_eq_true_eq] at hu
    obtain ⟨i, t, ht, hup⟩ := hcovered u (mem_of_find?_eq_some hfound) hu.1 _ hu.2
    refine ⟨i, t, ht, hup.hash, ?_⟩
    unfold UserAccessToken.isActive
    rw [hup.status, hup.expires]
    rfl

/-- **Only active tokens are accepted.** In every history in which nothing retires the row of a
text that stands in the column of `users`, a text that is accepted has a row that is active then,
and was so at any earlier time at which it was there: no token is accepted again after it was
revoked, rotated or expired. -/
theorem accepted_is_active (hash : String → String) (users : List User) (now : Int)
    (hcolumn : ∀ u ∈ users, u.accessToken ≠ some "") (w₁ w₂ : World)
    (h₁ : Reach (ColumnKept hash) (step hash) (start hash users now) w₁)
    (h₂ : Reach (ColumnKept hash) (step hash) w₁ w₂) (token : String) (a : Accepted)
    (ha : validateAccessTokenWithIP hash w₂.tables w₂.now token = some a) :
    ∃ (i : Nat) (t : UserAccessToken), w₂.tables.tokens[i]? = some t ∧ t.tokenHash = hash (bearer token) ∧
      t.isActive w₂.now = true ∧ ∀ t₁, w₁.tables.tokens[i]? = some t₁ → t₁.isActive w₁.now = true := by
  have hcovered : Covered hash w₁.tables := (moves_reach h₁).2.covered (covered_start hcolumn now)
  obtain ⟨hnow, hmoves⟩ := moves_reach h₂
  obtain ⟨i, t, ht, hhash, hactive⟩ := validate_some (hmoves.covered hcovered) ha
  refine ⟨i, t, ht, hhash, hactive, fun t₁ ht₁ => ?_⟩
  obtain ⟨b, hb, hlater⟩ := hmoves.onward i t₁ ht₁
  rw [ht] at hb
  cases hb
  exact hlater.isActive hnow hactive

end

/-! Two histories. -/

section

instance columnKeptDecidable (hash : String → String) (w : World) : ∀ e, Decidable (ColumnKept hash w e)
  | .rotate _ _ _ | .delete _ _ | .adminRevoke _ _ => inferInstanceAs (Decidable (∀ t ∈ w.tables.tokens[_]?, _ = false))
  | .cleanup => inferInstanceAs (Decidable (∀ t ∈ w.tables.tokens, _ = true → _ = false))
  | .create _ _ _ _ _ | .deviceFlow _ _ _ _ | .generateLegacy _ _ | .migrate | .resetPassword _ | .changePassword _
  | .validate _ _ | .advance _ => .isTrue trivial

def alice : User :=
  { id := 1, username := "alice", role := 1, status := 1, accessToken := some "0123456789abcdef0123456789abcdef" }

def firstBody : String := "0000000000000000000000000000000000000000"
def secondBody : String := "1111111111111111111111111111111111111111"

def rotated : List Event :=
  [.create 1 "laptop" "" none firstBody, .advance 60, .rotate 1 1 secondBody, .advance 60]

def afterRotation : World := rotated.foldl (step id) (start id [alice] 1000)

/-- The token that was rotated is refused; its successor is accepted, by a row that is active. -/
theorem successor_is_active :
    validateAccessTokenWithIP id afterRotation.tables afterRotation.now ("Bearer amux_api_pat_" ++ firstBody) = none ∧
      ∃ (i : Nat) (t : UserAccessToken), afterRotation.tables.tokens[i]? = some t ∧
        t.tokenHash = bearer ("Bearer amux_api_pat_" ++ secondBody) ∧ t.isActive afterRotation.now = true ∧
        ∀ t₁, (start id [alice] 1000).tables.tokens[i]? = some t₁ → t₁.isActive 1000 = true :=
  ⟨by decide +kernel, accepted_is_active id [alice] 1000 (by decide +kernel)
    (start id [alice] 1000) afterRotation .start
    (reach_foldl .start rotated (by decide +kernel)) ("Bearer amux_api_pat_" ++ secondBody) ⟨alice, some 2⟩
    (by decide +kernel)⟩

/-- **The column is not looked after.** The old text of a user is copied into the table, and an
administrator revokes it: it is accepted as before, and no row of it is active. -/
theorem revoked_text_accepted :
    ∃ w, Reach anyEvent (step id) (start id [alice] 1000) w ∧ (∀ u ∈ [alice], u.accessToken ≠ some "") ∧
      (validateAccessTokenWithIP id w.tables w.now "Bearer 0123456789abcdef0123456789abcdef").isSome = true ∧
      ∀ t ∈ w.tables.tokens, t.tokenHash = "0123456789abcdef0123456789abcdef" → t.isActive w.now = false := by
  refine ⟨[Event.adminRevoke 0 ""].foldl (step id) (start id [alice] 1000), ?_, ?_, ?_, ?_⟩
  · exact reach_foldl .start _ ⟨trivial, trivial⟩
  · decide +kernel
  · decide +kernel
  · decide +kernel

end

end AmuxApi.Identity
