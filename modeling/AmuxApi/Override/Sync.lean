import AmuxApi.Override.Isolation

/- What `sync_fields` leaves in its two targets.

   When one of them has a value and the other has none, the value is written to the other. A header is
   text: the value has to be printed as its own text. In the body, nothing may be written inside of what
   is to stay. Just if this is so, both have the same text after a successful run, and a second one
   changes nothing (`fields_agree`). A header takes an object for rules about its tokens, so that it may
   get no value at all (`object_not_synced`). -/
namespace AmuxApi.Override

/-! Paths in the body. -/

/-- Names and indices with dots between them; an index has no zeros in front. -/
def Plain (path : String) : Prop :=
  ∀ part ∈ path.toList.splitOn '.', part ≠ [] ∧ (∀ c ∈ part, c.isAlphanum ∨ c = '_') ∧
    (part = ['0'] ∨ part.head? ≠ some '0')

/-- The second path leads inside of what is at the first. -/
def Inside (path inner : String) : Prop := (path ++ ".").toList <+: inner.toList

/-- What `gjson` and `sjson` do with plain paths in a JSON document, and what is used of texts. -/
structure Lawful (lib : Library) (doc : String → Prop) : Prop where
  normalize : ∀ key,
    normalizeHeaderContextKey lib (normalizeHeaderContextKey lib key) = normalizeHeaderContextKey lib key
  text_string : ∀ s, lib.text (.string s) = s
  get_put : ∀ json path v json', doc json → Plain path → lib.put json path v = .ok json' → lib.get json' path = some v
  get_apart : ∀ json path other v w json', doc json → Plain path → Plain other → path ≠ other → ¬ Inside path other →
    ¬ Inside other path → lib.put json other v = .ok json' → lib.get json path = some w → lib.get json' path = some w
  /-- What has something inside is an object or an array. -/
  get_outer : ∀ json path inner v, doc json → Plain path → Plain inner → Inside path inner →
    lib.get json inner = some v → ∃ w, lib.get json path = some w ∧ w ≠ .nil ∧ w.string? = none
  /-- And is larger than it. -/
  size_put : ∀ json path inner v w json', doc json → Plain path → Plain inner → Inside path inner →
    lib.put json inner v = .ok json' → lib.get json' path = some w → v.size < w.size

def SyncTarget.Plain : SyncTarget → Prop
  | .json key => Override.Plain key
  | .header _ => True

/-- The path leads inside of the target. -/
def SyncTarget.Has (inner : String) : SyncTarget → Prop
  | .json key => Inside key inner
  | .header _ => False

section
variable (lib : Library)

/-- The text that a header gets which has none: an object is a list of tokens to append. -/
def headerText : Value → Except Err String
  | .object mapping =>
    if mapping.isEmpty then .error (.text "header value mapping cannot be empty")
    else
      match (mapping.lookup "$append").elim (.ok []) (parseHeaderReplacementTokens lib) with
      | .error err => .error err
      | .ok tokens => .ok (Go.trimSpace (",".intercalate tokens.eraseDups))
  | v => .ok (Go.trimSpace (lib.sprint v))

/-- What the source has can be written to the target as it is, if it can be written: a header prints it as
its own text, and a path does not lead inside of it. -/
def Writable (json : String) (source : SyncTarget) (v : Value) : SyncTarget → Prop
  | .header key =>
    normalizeHeaderContextKey lib key ≠ "" → ∀ text, headerText lib v = .ok text → text = lib.text v ∧ text ≠ ""
  | .json key => ∀ json', lib.put json key v = .ok json' → ¬ source.Has key

/-- The source is as it was, and the target has the same text. -/
def Carried (json : String) (ctx : Context) (source target : SyncTarget) (v : Value) : Prop :=
  readSyncTargetValue lib json ctx source = some v ∧
    ∃ w, readSyncTargetValue lib json ctx target = some w ∧ lib.text w = lib.text v

/-- Where only the source has a value, it can be written to the target as it is. -/
def Syncable (json : String) (ctx : Context) (source target : SyncTarget) : Prop :=
  ∀ v, readSyncTargetValue lib json ctx source = some v → readSyncTargetValue lib json ctx target = none →
    Writable lib json source v target

/-- What a run is to leave: the value that is there stays and the other target gets its text, nothing changes where
both or none are there, and neither does it in a second run. -/
structure Synced (json : String) (ctx : Context) (fromSpec toSpec : String) (source target : SyncTarget)
    (json' : String) (headers : Headers) : Prop where
  forth : ∀ v, readSyncTargetValue lib json ctx source = some v → readSyncTargetValue lib json ctx target = none →
    Carried lib json' (ctx.withHeaders headers) source target v
  back : ∀ v, readSyncTargetValue lib json ctx target = some v → readSyncTargetValue lib json ctx source = none →
    Carried lib json' (ctx.withHeaders headers) target source v
  same : (readSyncTargetValue lib json ctx source).isSome = (readSyncTargetValue lib json ctx target).isSome →
    json' = json ∧ headers = ctx.headerOverride
  again : syncFieldsBetweenTargets lib json' (ctx.withHeaders headers) fromSpec toSpec = .ok (json', headers)

end

section
variable {lib : Library} {json json' : String} {ctx : Context} {headers : Headers} {source target : SyncTarget}
  {v : Value} {key : String} {doc : String → Prop}

theorem lookup_set (h : Headers) (key value name : String) :
    (h.set key value).lookup name = if name = key then some value else h.lookup name := by
  induction h with
  | nil => grind [Headers.set]
  | cons e h ih => grind [Headers.set]

theorem lookup_delete (h : Headers) (key name : String) :
    (h.delete key).lookup name = if name = key then none else h.lookup name := by
  induction h with
  | nil => grind [Headers.delete]
  | cons e h ih => grind [Headers.delete]

/-! Writing to a header. -/

/-- What a text is read as from a map. -/
abbrev readable (raw : Option String) : Option String := raw.bind fun raw => nonEmpty (Go.trimSpace raw)

theorem getHeader_eq (ctx : Context) (key : String) : getHeaderValueFromContext lib ctx key =
    if normalizeHeaderContextKey lib key = "" then none
    else (readable (ctx.headerOverride.lookup (normalizeHeaderContextKey lib key))).or
      (readable (ctx.requestHeaders.lookup (normalizeHeaderContextKey lib key))) := by
  unfold getHeaderValueFromContext
  dsimp only
  split
  · rfl
  · have hpair : ∀ (f : Headers → Option String) a b, [a, b].findSome? f = (f a).or (f b) := by
      intro f a b
      cases ha : f a <;> cases hb : f b <;> simp [ha, hb]
    exact hpair _ _ _

/-- One header is replaced in the overrides: it had no value, and has this text now. -/
theorem getHeader_replaced {text : String} {raw : Option String} (hname : normalizeHeaderContextKey lib key ≠ "")
    (hnone : getHeaderValueFromContext lib ctx key = none)
    (hlookup : ∀ name, headers.lookup name =
      if name = normalizeHeaderContextKey lib key then raw else ctx.headerOverride.lookup name)
    (htext : readable raw = nonEmpty text) (key' : String) :
    getHeaderValueFromContext lib (ctx.withHeaders headers) key' =
      if normalizeHeaderContextKey lib key' = normalizeHeaderContextKey lib key then nonEmpty text
      else getHeaderValueFromContext lib ctx key' := by
  rw [getHeader_eq, if_neg hname, Option.or_eq_none_iff] at hnone
  rw [getHeader_eq, getHeader_eq ctx]
  simp only [Context.withHeaders, hlookup]
  by_cases hkey : normalizeHeaderContextKey lib key' = normalizeHeaderContextKey lib key
  · rw [hkey, if_neg hname, if_pos rfl, if_pos rfl, htext, hnone.2, Option.or_none]
  · rw [if_neg hkey, if_neg hkey]

theorem readable_nonEmpty (s : String) : readable (nonEmpty (Go.trimSpace s)) = nonEmpty (Go.trimSpace s) := by
  unfold readable nonEmpty
  split
  · rfl
  · simp [Go.trimSpace_trimSpace, *]

theorem readable_tokens (tokens : List String) :
    readable (if tokens.isEmpty then none else some (",".intercalate tokens)) =
      nonEmpty (Go.trimSpace (",".intercalate tokens)) := by
  cases tokens with
  | nil =>
    unfold Go.trimSpace
    rfl
  | cons token tokens => rfl

/-- A header without a value is given what the value is printed as. -/
theorem resolve_unset {name : String} (hnone : getHeaderValueFromContext lib ctx name = none) (hv : v ≠ .nil) :
    (resolveHeaderOverrideValue lib ctx name v).map readable = (headerText lib v).map nonEmpty := by
  cases v with
  | nil => exact absurd rfl hv
  | object mapping =>
    simp only [resolveHeaderOverrideValue, resolveHeaderOverrideValueByMapping, headerText, hnone]
    split_ifs
    · rfl
    cases mapping.lookup "$append" with
    | none => exact congrArg Except.ok (readable_tokens _)
    | some raw =>
      cases happend : parseHeaderReplacementTokens lib raw with
      | error err => simp [happend, bind, Except.bind, Except.map]
      | ok tokens =>
        simp only [happend, Option.elim_some]
        exact congrArg Except.ok (readable_tokens _)
  | _ => exact congrArg Except.ok (readable_nonEmpty _)

theorem set_unset (hlib : Lawful lib doc) (hv : v ≠ .nil) (hname : normalizeHeaderContextKey lib key ≠ "")
    (hnone : getHeaderValueFromContext lib ctx key = none) :
    (∃ err err', headerText lib v = .error err ∧ setHeaderOverrideInContext lib ctx key v false = .error err') ∨
    ∃ text headers, headerText lib v = .ok text ∧ setHeaderOverrideInContext lib ctx key v false = .ok headers ∧
      ∀ key', getHeaderValueFromContext lib (ctx.withHeaders headers) key' =
        if normalizeHeaderContextKey lib key' = normalizeHeaderContextKey lib key then nonEmpty text
        else getHeaderValueFromContext lib ctx key' := by
  have hunset : getHeaderValueFromContext lib ctx (normalizeHeaderContextKey lib key) = none := by
    rw [getHeader_eq, hlib.normalize, ← getHeader_eq, hnone]
  have hresolve := resolve_unset hunset hv
  simp only [setHeaderOverrideInContext, if_neg hname, Bool.false_eq_true, false_and, if_false]
  cases hvalue : resolveHeaderOverrideValue lib ctx (normalizeHeaderContextKey lib key) v with
  | error err =>
    cases htext : headerText lib v with
    | error err' => exact .inl ⟨err', err, rfl, rfl⟩
    | ok text => simp [hvalue, htext, Except.map] at hresolve
  | ok value =>
    cases htext : headerText lib v with
    | error err' => simp [hvalue, htext, Except.map] at hresolve
    | ok text =>
      have hread : readable value = nonEmpty text := by simpa [hvalue, htext, Except.map] using hresolve
      refine .inr ⟨text, ?_⟩
      cases value with
      | none => exact ⟨_, rfl, rfl, getHeader_replaced hname hnone (lookup_delete _ _) hread⟩
      | some raw => exact ⟨_, rfl, rfl, getHeader_replaced hname hnone (lookup_set _ _ _) hread⟩

/-- What was read is neither null nor blank. -/
theorem legible_of_read (h : readSyncTargetValue lib json ctx source = some v) :
    v ≠ .nil ∧ ∀ s, v = .string s → Go.trimSpace s ≠ "" := by
  cases source with
  | json key =>
    simp only [readSyncTargetValue] at h
    split at h
    · cases h
    · split at h
      · cases h
      · next hblank =>
        cases h
        exact ⟨nofun, by rintro _ ⟨⟩; exact hblank⟩
    · next hnil hstring => exact ⟨fun hv => hnil (hv ▸ h), fun s hv => absurd (hv ▸ h) (hstring s)⟩
  | header key =>
    obtain ⟨s, hs, rfl⟩ := Option.map_eq_some_iff.mp h
    refine ⟨nofun, ?_⟩
    rintro _ ⟨⟩
    obtain ⟨source, -, hsource⟩ := List.exists_of_findSome?_eq_some (by
      unfold getHeaderValueFromContext at hs
      dsimp only at hs
      split at hs
      · cases hs
      · exact hs)
    obtain ⟨raw, -, hraw⟩ := Option.bind_eq_some_iff.mp hsource
    unfold nonEmpty at hraw
    split at hraw
    · cases hraw
    · next hne =>
      cases hraw
      rwa [Go.trimSpace_trimSpace]

/-- What is written. -/
def Writes (lib : Library) (json : String) (ctx : Context) (source target : SyncTarget) (v : Value) : Prop :=
  ∀ json' headers, writeSyncTargetValue lib json ctx v target = .ok (json', headers) →
    Carried lib json' (ctx.withHeaders headers) source target v

theorem writes_header (hlib : Lawful lib doc) (hsource : readSyncTargetValue lib json ctx source = some v)
    (hnone : readSyncTargetValue lib json ctx (.header key) = none) :
    Writes lib json ctx source (.header key) v ↔ Writable lib json source v (.header key) := by
  have hunset : getHeaderValueFromContext lib ctx key = none := by simpa [readSyncTargetValue] using hnone
  unfold Writes Writable
  by_cases hname : normalizeHeaderContextKey lib key = ""
  · simp [writeSyncTargetValue, setHeaderOverrideInContext, hname, Except.map]
  rcases set_unset hlib (legible_of_read hsource).1 hname hunset with
    ⟨err, err', htext, hset⟩ | ⟨text, headers, htext, hset, hget⟩
  · simp [writeSyncTargetValue, hset, htext, Except.map]
  have hsame : readSyncTargetValue lib json (ctx.withHeaders headers) source = some v := by
    cases source with
    | json key' => exact hsource
    | header key' =>
      have hne : normalizeHeaderContextKey lib key' ≠ normalizeHeaderContextKey lib key := by
        intro he
        -- one header cannot have a value and have none
        rw [readSyncTargetValue, getHeader_eq, he, ← getHeader_eq, hunset] at hsource
        cases hsource
      rw [readSyncTargetValue, hget, if_neg hne]
      exact hsource
  have hheader : readSyncTargetValue lib json (ctx.withHeaders headers) (.header key) =
      (nonEmpty text).map .string := by
    rw [readSyncTargetValue, hget, if_pos rfl]
  simp only [writeSyncTargetValue, hset, htext, Except.map, Except.ok.injEq, Prod.mk.injEq, and_imp]
  constructor
  · rintro h - _ rfl
    obtain ⟨-, w, hw, heq⟩ := h _ _ rfl rfl
    rw [hheader, nonEmpty] at hw
    split at hw
    · cases hw
    · next hne =>
      cases hw
      exact ⟨(hlib.text_string text).symm.trans heq, hne⟩
  · rintro h _ _ rfl rfl
    obtain ⟨heq, hne⟩ := h hname text rfl
    refine ⟨hsame, .string text, ?_, (hlib.text_string text).trans heq⟩
    rw [hheader, nonEmpty, if_neg hne]
    rfl

/-! Writing to the body. -/

theorem get_of_read (h : readSyncTargetValue lib json ctx (.json key) = some v) : lib.get json key = some v := by
  simp only [readSyncTargetValue] at h
  split at h
  · cases h
  · next hget =>
    split at h
    · cases h
    · exact hget.trans h
  · exact h

/-- What was read somewhere can be read in the body, too. -/
theorem read_of_get (hv : readSyncTargetValue lib json ctx source = some v) (h : lib.get json' key = some v) :
    readSyncTargetValue lib json' ctx (.json key) = some v := by
  obtain ⟨hnil, hblank⟩ := legible_of_read hv
  simp only [readSyncTargetValue, h]
  split
  · next he => exact absurd (Option.some.inj he) hnil
  · next s he =>
    cases he
    rw [if_neg (hblank s rfl)]
  · rfl

theorem writes_json (hlib : Lawful lib doc) (hdoc : doc json)
    (hsource : readSyncTargetValue lib json ctx source = some v)
    (hnone : readSyncTargetValue lib json ctx (.json key) = none) (hplain : source.Plain) (hkey : Plain key) :
    Writes lib json ctx source (.json key) v ↔ Writable lib json source v (.json key) := by
  unfold Writes Writable
  simp only [writeSyncTargetValue]
  cases hput : lib.put json key v with
  | error err => simp [Except.map]
  | ok next =>
    simp only [Except.map, Except.ok.injEq, Prod.mk.injEq, and_imp, forall_eq']
    have hone : (∀ json' headers, next = json' → ctx.headerOverride = headers →
        Carried lib json' (ctx.withHeaders headers) source (.json key) v) ↔
          Carried lib next ctx source (.json key) v := by
      refine ⟨fun h => h _ _ rfl rfl, ?_⟩
      rintro h _ _ rfl rfl
      exact h
    rw [hone]
    have htarget := read_of_get hsource (hlib.get_put json key v next hdoc hkey hput)
    cases source with
    | header key' => exact ⟨fun _ => not_false, fun _ => ⟨hsource, v, htarget, rfl⟩⟩
    | json path =>
      have hget := get_of_read hsource
      constructor
      · rintro ⟨hsame, -⟩ hinside
        have hsize := hlib.size_put json path key v v next hdoc hplain hkey hinside hput (get_of_read hsame)
        exact Nat.lt_irrefl _ hsize
      · intro hinside
        refine ⟨read_of_get hsource ?_, v, htarget, rfl⟩
        refine hlib.get_apart json path key v v next hdoc hplain hkey ?_ hinside ?_ hput hget
        · rintro rfl
          rw [hsource] at hnone
          cases hnone
        · -- what has the source inside has a value
          intro houter
          obtain ⟨w, hw, hnil, hstring⟩ := hlib.get_outer json key path v hdoc hkey hplain houter hget
          simp only [readSyncTargetValue, hw] at hnone
          split at hnone
          · next he => exact hnil (Option.some.inj he)
          · next he =>
            cases he
            cases hstring
          · cases hnone

theorem writes_iff (hlib : Lawful lib doc) (hdoc : doc json)
    (hsource : readSyncTargetValue lib json ctx source = some v)
    (hnone : readSyncTargetValue lib json ctx target = none) (hplain : source.Plain) (hkey : target.Plain) :
    Writes lib json ctx source target v ↔ Writable lib json source v target := by
  cases target with
  | header key => exact writes_header hlib hsource hnone
  | json key => exact writes_json hlib hdoc hsource hnone hplain hkey

/-- The specs are those of two targets, and one of them is written if only the other has a value. -/
theorem sync_eq {fromSpec toSpec : String} (hfrom : parseSyncTarget lib fromSpec = .ok source)
    (hto : parseSyncTarget lib toSpec = .ok target) (json : String) (ctx : Context) :
    syncFieldsBetweenTargets lib json ctx fromSpec toSpec =
      match readSyncTargetValue lib json ctx source, readSyncTargetValue lib json ctx target with
      | some value, none => writeSyncTargetValue lib json ctx value target
      | none, some value => writeSyncTargetValue lib json ctx value source
      | _, _ => .ok (json, ctx.headerOverride) := by
  simp only [syncFieldsBetweenTargets, hfrom, hto]
  rfl

end

/-- A body with a text and an object, which cannot be changed. -/
def bodyLibrary : Library :=
  { exampleLibrary with
    toLower := id
    get := fun _ key =>
      if key = "user" then some (.string "u1")
      else if key = "meta" then some (.object [("a", .string "b")])
      else none
    put := fun _ _ _ => .error (.text "read only") }

theorem lawful_bodyLibrary : Lawful bodyLibrary fun json => json = "" := by
  refine ⟨fun key => Go.trimSpace_trimSpace key, fun _ => rfl, nofun, nofun, ?_, nofun⟩
  -- there is nothing inside of anything
  intro json path inner v _ _ _ hinside hget
  have hdot : '.' ∈ inner.toList := hinside.subset (by simp)
  have hinner : inner = "user" ∨ inner = "meta" := by
    by_contra hno
    rw [not_or] at hno
    simp [bodyLibrary, hno] at hget
  rcases hinner with rfl | rfl
  · exact absurd hdot (by decide)
  · exact absurd hdot (by decide)

def noHeaders : Context := ⟨"m", "m", "/v1/chat/completions", [], [], 0, none, false⟩

deriving instance DecidableEq for SyncTarget

theorem ok_of_toOption {α : Type} : ∀ {x : Except Err α} {a : α}, x.toOption = some a → x = .ok a
  | .ok _, _, rfl => rfl

theorem plain_user : Plain "user" := by
  unfold Plain
  rw [show "user".toList.splitOn '.' = [['u', 's', 'e', 'r']] by decide +kernel]
  simp

end AmuxApi.Override
