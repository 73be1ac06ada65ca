import StopArrivals.Proofs.Numerals
import StopArrivals.Settings

/-!
# Where each setting comes from

A setting can come from the environment, from the setup file or from a default, and what counts as
given differs from one kind of setting to the next: a number that cannot be read still keeps the
setup file out, while a blank text gives way to it. `UrlFrom`, `TextFrom` and `NumberFrom` say it
with one constructor for each source. A load gives the settings that these relations allow and no
others, and fails only for want of a URL (`load_precedence`). As each relation looks at the
variables of one setting only, these have no say in any other.
-/

namespace StopArrivals

/-- The values of a setup file. One that cannot be read as a whole has none, as if it were not
there. -/
def SetupFile.values? : SetupFile → Option SetupValues
  | .content text => SetupValues.read? text
  | .absent | .unreadable => none

namespace Settings

theorem setupValues_fst (path : String) (file : SetupFile) :
    (setupValues path file).1 = file.values? := by
  cases file with
  | absent | unreadable => rfl
  | content text =>
    simp only [setupValues, SetupFile.values?]
    cases SetupValues.read? text <;> rfl

/-! ## What a source says -/

/-- There is a text, and it is not blank. -/
structure Speaks (source : Option String) (text : String) : Prop where
  given : source = some text
  notBlank : isBlankText text = false

/-- There is no text but a blank one. -/
def Silent (source : Option String) : Prop := ∀ text, source = some text → isBlankText text = true

theorem silent_or_speaks (source : Option String) : Silent source ∨ ∃ text, Speaks source text := by
  cases source with
  | none => exact .inl fun _ h => by cases h
  | some text =>
    cases h : isBlankText text with
    | true => exact .inl fun _ heq => Option.some.inj heq ▸ h
    | false => exact .inr ⟨text, rfl, h⟩

section

variable {source : Option String} {text : String}

theorem Speaks.bind_nonBlank? (h : Speaks source text) :
    source.bind nonBlank? = some (trimmed text) := by
  rw [h.given, Option.bind_some, nonBlank?, if_neg (by rw [h.notBlank]; exact Bool.false_ne_true)]

theorem Silent.bind_nonBlank? (h : Silent source) : source.bind nonBlank? = none := by
  cases source with
  | none => rfl
  | some text => exact nonBlank?_of_blank (h text rfl)

end

section

variable {α : Type} {env : Environment} {name text : String}

theorem settle_of_speaks (h : Speaks (env.get? name) text) (value : α) (file : Option α) :
    settle env name value file = value := by
  have hclosed : isOpen env name = false := by rw [isOpen, h.bind_nonBlank?, Option.isNone_some]
  rw [settle, hclosed, if_neg Bool.false_ne_true]

theorem settle_of_silent (h : Silent (env.get? name)) (value : α) (file : Option α) :
    settle env name value file = file.getD value := by
  have hopen : isOpen env name = true := by rw [isOpen, h.bind_nonBlank?, Option.isNone_none]
  rw [settle, if_pos hopen]

end

/-! ## Numbers -/

/-- Where a number comes from: its variable, the setup file or the default. -/
inductive NumberFrom {α : Type} (Reads : String → α → Prop) (Usable : α → Prop) (default : α)
    (source : Option String) (given : Option α) : α → Prop
  | environment {text : String} {n : α} (hspeaks : Speaks source text) (hreads : Reads text n) :
    NumberFrom Reads Usable default source given n
  /-- The variable holds no number, and even so the setup file is not asked. -/
  | unreadable {text : String} (hspeaks : Speaks source text) (hreads : ∀ n, ¬ Reads text n) :
    NumberFrom Reads Usable default source given default
  | file {n : α} (hsilent : Silent source) (hgiven : given = some n) (husable : Usable n) :
    NumberFrom Reads Usable default source given n
  | byDefault (hsilent : Silent source) (hgiven : ∀ n, given = some n → ¬ Usable n) :
    NumberFrom Reads Usable default source given default

section

variable {α : Type}

theorem exists_numberFrom (Reads : String → α → Prop) (Usable : α → Prop) (default : α)
    (source : Option String) (given : Option α) :
    ∃ n, NumberFrom Reads Usable default source given n := by
  rcases silent_or_speaks source with hsilent | ⟨text, hspeaks⟩
  · by_cases h : ∃ n, given = some n ∧ Usable n
    · obtain ⟨n, hgiven, husable⟩ := h
      exact ⟨n, .file hsilent hgiven husable⟩
    · exact ⟨default, .byDefault hsilent fun n hgiven husable => h ⟨n, hgiven, husable⟩⟩
  · by_cases h : ∃ n, Reads text n
    · obtain ⟨n, hreads⟩ := h
      exact ⟨n, .environment hspeaks hreads⟩
    · exact ⟨default, .unreadable hspeaks fun n hreads => h ⟨n, hreads⟩⟩

variable {Reads : String → α → Prop} {Usable : α → Prop} [DecidablePred Usable] {default n : α}
  {given : Option α} {env : Environment} {name : String} {read : List Char → Option α}

theorem settle_number_iff (hread : ∀ text n, read text.toList = some n ↔ Reads text n)
    (hblank : ∀ text, isBlankText text = true → read text.toList = none) :
    settle env name (numberOr env name read default) (given.filter fun n => Usable n) = n ↔
      NumberFrom Reads Usable default (env.get? name) given n := by
  have hsettle {m : α} (h : NumberFrom Reads Usable default (env.get? name) given m) :
      settle env name (numberOr env name read default) (given.filter fun n => Usable n) = m := by
    have hdefault (hsilent : Silent (env.get? name)) :
        numberOr env name read default = default := by
      unfold numberOr
      cases hget : env.get? name with
      | none => rfl
      | some text => rw [Option.bind_some, hblank text (hsilent text hget), Option.getD_none]
    cases h with
    | environment hspeaks hreads =>
      rw [settle_of_speaks hspeaks, numberOr, hspeaks.given, Option.bind_some,
        (hread _ _).mpr hreads, Option.getD_some]
    | unreadable hspeaks hreads =>
      have hnone : read _ = none :=
        Option.eq_none_iff_forall_ne_some.mpr fun n hn => hreads n ((hread _ n).mp hn)
      rw [settle_of_speaks hspeaks, numberOr, hspeaks.given, Option.bind_some, hnone,
        Option.getD_none]
    | file hsilent hgiven husable =>
      rw [settle_of_silent hsilent, hgiven, Option.filter_some, if_pos (decide_eq_true husable),
        Option.getD_some]
    | byDefault hsilent hgiven =>
      have hnone : (given.filter fun n => Usable n) = none :=
        Option.filter_eq_none_iff.mpr fun n hn => by simpa using hgiven n hn
      rw [settle_of_silent hsilent, hnone, Option.getD_none, hdefault hsilent]
  constructor
  · rintro rfl
    obtain ⟨m, hm⟩ := exists_numberFrom Reads Usable default (env.get? name) given
    rwa [hsettle hm]
  · exact hsettle

end

/-! ## Texts -/

/-- Where a text comes from. A variable counts as it is, the text of the setup file without the
white space around it. -/
inductive TextFrom (default : String) (source given : Option String) : String → Prop
  | environment {text : String} (hspeaks : Speaks source text) : TextFrom default source given text
  | file {text : String} (hsilent : Silent source) (hgiven : Speaks given text) :
    TextFrom default source given (trimmed text)
  /-- A blank variable gives way to the setup file but not to the default. -/
  | blank {text : String} (hset : source = some text) (hblank : isBlankText text = true)
    (hgiven : Silent given) : TextFrom default source given text
  | byDefault (hunset : source = none) (hgiven : Silent given) :
    TextFrom default source given default

theorem exists_textFrom (default : String) (source given : Option String) :
    ∃ text, TextFrom default source given text := by
  rcases silent_or_speaks source with hsilent | ⟨text, hspeaks⟩
  · rcases silent_or_speaks given with hgiven | ⟨text, hgiven⟩
    · cases source with
      | none => exact ⟨default, .byDefault rfl hgiven⟩
      | some text => exact ⟨text, .blank rfl (hsilent text rfl) hgiven⟩
    · exact ⟨trimmed text, .file hsilent hgiven⟩
  · exact ⟨text, .environment hspeaks⟩

theorem settle_text_iff {env : Environment} {name default value : String}
    {given : Option String} :
    settle env name ((env.get? name).getD default) (given.bind nonBlank?) = value ↔
      TextFrom default (env.get? name) given value := by
  have hsettle {text : String} (h : TextFrom default (env.get? name) given text) :
      settle env name ((env.get? name).getD default) (given.bind nonBlank?) = text := by
    cases h with
    | environment hspeaks => rw [settle_of_speaks hspeaks, hspeaks.given, Option.getD_some]
    | file hsilent hgiven =>
      rw [settle_of_silent hsilent, hgiven.bind_nonBlank?, Option.getD_some]
    | blank hset hblank hgiven =>
      have hsilent : Silent (env.get? name) := fun other hother => by
        rw [hset] at hother
        exact Option.some.inj hother ▸ hblank
      rw [settle_of_silent hsilent, hgiven.bind_nonBlank?, Option.getD_none, hset, Option.getD_some]
    | byDefault hunset hgiven =>
      have hsilent : Silent (env.get? name) := fun other hother => by
        rw [hunset] at hother
        cases hother
      rw [settle_of_silent hsilent, hgiven.bind_nonBlank?, Option.getD_none, hunset,
        Option.getD_none]
  constructor
  · rintro rfl
    obtain ⟨text, htext⟩ := exists_textFrom default (env.get? name) given
    rwa [hsettle htext]
  · exact hsettle

/-! ## The URL -/

/-- The URL of the environment. The general variable counts only if that of this service is not set
at all. -/
def urlVariable? (env : Environment) : Option String :=
  (env.get? "TU_EVENTS_DATABASE_URL").or (env.get? "DATABASE_URL")

/-- Where the URL comes from; there is no default. -/
inductive UrlFrom (source given : Option String) : String → Prop
  | environment {text : String} (hspeaks : Speaks source text) : UrlFrom source given (trimmed text)
  | file {text : String} (hsilent : Silent source) (hgiven : Speaks given text) :
    UrlFrom source given (trimmed text)

/-- A URL that names a driver, and the one without it. Only one name is taken out. -/
inductive PlainUrl : String → String → Prop
  | driver {scheme : String} (hscheme : scheme ∈ driverSchemes) (rest : String) :
    PlainUrl (scheme ++ rest) ("postgresql://" ++ rest)
  | plain {url : String} (hurl : ∀ scheme ∈ driverSchemes, ∀ rest, url ≠ scheme ++ rest) :
    PlainUrl url url

/-- No scheme is the beginning of another. -/
theorem driverSchemes_apart : ∀ scheme ∈ driverSchemes, ∀ scheme' ∈ driverSchemes,
    scheme.toList <+: scheme'.toList → scheme = scheme' := by
  decide

theorem PlainUrl.unique {url plain plain' : String} (h : PlainUrl url plain)
    (h' : PlainUrl url plain') : plain = plain' := by
  cases h with
  | @driver scheme hscheme rest =>
    generalize hurl : scheme ++ rest = url at h'
    cases h' with
    | @driver scheme' hscheme' rest' =>
      have hchars : scheme.toList ++ rest.toList = scheme'.toList ++ rest'.toList := by
        rw [← String.toList_append, ← String.toList_append, hurl]
      have hsame : scheme = scheme' := by
        rcases List.prefix_or_prefix_of_prefix (List.prefix_append _ _)
          (hchars ▸ List.prefix_append _ _) with hle | hle
        · exact (driverSchemes_apart _ hscheme' _ hscheme hle).symm
        · exact driverSchemes_apart _ hscheme _ hscheme' hle
      subst hsame
      rw [String.toList_inj.mp (List.append_cancel_left hchars)]
    | plain hplain => exact absurd hurl.symm (hplain _ hscheme _)
  | plain hplain =>
    cases h' with
    | driver hscheme rest => exact absurd rfl (hplain _ hscheme _)
    | plain => rfl

theorem plainUrl_iff {url plain : String} : plainUrl url = plain ↔ PlainUrl url plain := by
  have hplain : PlainUrl url (plainUrl url) := by
    unfold plainUrl
    split
    · next rest hfound =>
      obtain ⟨scheme, hscheme, hrest⟩ := List.exists_of_findSome?_eq_some hfound
      have hurl : url = scheme ++ String.ofList rest := by
        rw [← String.toList_inj, String.toList_append, String.toList_ofList]
        exact dropBeginning?_eq_some_iff.mp hrest
      rw [hurl]
      exact .driver hscheme _
    · next hnone =>
      refine .plain fun scheme hscheme rest hurl => ?_
      have hdrop : dropBeginning? scheme.toList url.toList = some rest.toList := by
        rw [dropBeginning?_eq_some_iff, hurl, String.toList_append]
      rw [List.findSome?_eq_none_iff.mp hnone scheme hscheme] at hdrop
      cases hdrop
  exact ⟨fun h => h ▸ hplain, fun h => hplain.unique h⟩

theorem urlFrom_iff {source given : Option String} {text : String} :
    (source.bind nonBlank?).or (given.bind nonBlank?) = some text ↔ UrlFrom source given text := by
  constructor
  · intro h
    rcases silent_or_speaks source with hsilent | ⟨own, hspeaks⟩
    · rw [hsilent.bind_nonBlank?, Option.none_or] at h
      rcases silent_or_speaks given with hgiven | ⟨other, hgiven⟩
      · rw [hgiven.bind_nonBlank?] at h
        cases h
      · obtain rfl := Option.some.inj (hgiven.bind_nonBlank?.symm.trans h)
        exact .file hsilent hgiven
    · rw [hspeaks.bind_nonBlank?, Option.some_or] at h
      obtain rfl := Option.some.inj h
      exact .environment hspeaks
  · rintro (hspeaks | ⟨hsilent, hgiven⟩)
    · rw [hspeaks.bind_nonBlank?, Option.some_or]
    · rw [hsilent.bind_nonBlank?, Option.none_or, hgiven.bind_nonBlank?]

theorem databaseUrl?_eq_some_iff {env : Environment} {file : Option SetupValues} {url : String} :
    databaseUrl? env file = some url ↔
      ∃ text, UrlFrom (urlVariable? env) (file.bind (·.databaseUrl)) text ∧ PlainUrl text url := by
  simp only [databaseUrl?, Option.map_eq_some_iff, plainUrl_iff]
  exact exists_congr fun text => and_congr_left' urlFrom_iff

/-! ## All settings -/

/-- Settings with each value from where it comes. The switches and the endpoint have no other source
than their variable. -/
structure GivenBy (env : Environment) (file : Option SetupValues) (s : Settings) : Prop where
  databaseUrl : ∃ text, UrlFrom (urlVariable? env) (file.bind (·.databaseUrl)) text ∧
    PlainUrl text s.databaseUrl
  poolSize : NumberFrom (fun text n => WritesUnsigned 32 text.toList n) (· ≠ 0) 5
    (env.get? "TU_EVENTS_DB_POOL_SIZE") (file.bind (·.poolSize)) s.poolSize
  sourceTag : TextFrom defaultSourceTag (env.get? "TU_EVENTS_SOURCE_TAG")
    (file.bind (·.sourceTag)) s.sourceTag
  batchRoot : TextFrom "." (env.get? "TU_EVENTS_BATCH_ROOT") (file.bind (·.batchRoot)) s.batchRoot
  horizon : NumberFrom (fun text n => WritesSigned 64 text.toList n) (0 < ·) defaultHorizon
    (env.get? "TU_EVENTS_PREDICTION_HORIZON_SECONDS") (file.bind (·.horizon)) s.horizon
  pollMilliseconds : NumberFrom (fun text n => WritesUnsigned 64 text.toList n) (· ≠ 0) 5000
    (env.get? "TU_EVENTS_POLL_INTERVAL_MS") (file.bind (·.pollInterval)) s.pollMilliseconds
  runOnce : s.runOnce = flag env "TU_EVENTS_RUN_ONCE"
  createSchema : s.createSchema = flag env "TU_EVENTS_BOOTSTRAP_SCHEMA"
  traceEndpoint : s.traceEndpoint = env.get? "OTEL_EXPORTER_OTLP_ENDPOINT"

section

variable {env : Environment} {name : String}

theorem settle_unsigned_iff {width default n : Nat} {given : Option Nat} :
    settle env name (numberOr env name (readUnsigned width) default) (given.filter (· ≠ 0)) = n ↔
      NumberFrom (fun text n => WritesUnsigned width text.toList n) (· ≠ 0) default (env.get? name)
        given n :=
  settle_number_iff (fun _ _ => readUnsigned_eq_some_iff) fun _ => readUnsigned_of_blank

theorem settle_signed_iff {width : Nat} {default v : Int} {given : Option Int} :
    settle env name (numberOr env name (readSigned width) default) (given.filter (0 < ·)) = v ↔
      NumberFrom (fun text v => WritesSigned width text.toList v) (0 < ·) default (env.get? name)
        given v :=
  settle_number_iff (fun _ _ => readSigned_eq_some_iff_writes) fun _ => readSigned_of_blank

end

theorem resolve_eq_ok_iff {env : Environment} {file : Option SetupValues} {s : Settings} :
    resolve env file = .ok s ↔ GivenBy env file s := by
  constructor
  · intro h
    unfold resolve at h
    split at h
    · cases h
    · next url hurl =>
      cases h
      exact
        { databaseUrl := databaseUrl?_eq_some_iff.mp hurl
          poolSize := settle_unsigned_iff.mp rfl
          sourceTag := settle_text_iff.mp rfl
          batchRoot := settle_text_iff.mp rfl
          horizon := settle_signed_iff.mp rfl
          pollMilliseconds := settle_unsigned_iff.mp rfl
          runOnce := rfl
          createSchema := rfl
          traceEndpoint := rfl }
  · intro h
    unfold resolve
    rw [databaseUrl?_eq_some_iff.mpr h.databaseUrl]
    dsimp only
    rw [settle_unsigned_iff.mpr h.poolSize, settle_text_iff.mpr h.sourceTag,
      settle_text_iff.mpr h.batchRoot, settle_signed_iff.mpr h.horizon,
      settle_unsigned_iff.mpr h.pollMilliseconds, ← h.runOnce, ← h.createSchema, ← h.traceEndpoint]

theorem resolve_eq_error_iff {env : Environment} {file : Option SetupValues} {cause : Cause} :
    resolve env file = .error cause ↔ cause = missingUrl ∧
      ∀ text, ¬ UrlFrom (urlVariable? env) (file.bind (·.databaseUrl)) text := by
  have hnone : databaseUrl? env file = none ↔
      ∀ text, ¬ UrlFrom (urlVariable? env) (file.bind (·.databaseUrl)) text := by
    rw [databaseUrl?, Option.map_eq_none_iff, Option.eq_none_iff_forall_ne_some]
    exact forall_congr' fun text => not_congr urlFrom_iff
  rw [← hnone, resolve]
  cases databaseUrl? env file with
  | none => simp [eq_comm]
  | some url => simp

/-! ## One setting by itself -/

/-- The settings by their names. -/
inductive Setting where
  | databaseUrl
  | poolSize
  | sourceTag
  | batchRoot
  | horizon
  | pollMilliseconds
  | runOnce
  | createSchema
  | traceEndpoint
deriving DecidableEq

namespace Setting

/-- The variables that a setting is read from. -/
def sources : Setting → List String
  | databaseUrl => ["TU_EVENTS_DATABASE_URL", "DATABASE_URL"]
  | poolSize => ["TU_EVENTS_DB_POOL_SIZE"]
  | sourceTag => ["TU_EVENTS_SOURCE_TAG"]
  | batchRoot => ["TU_EVENTS_BATCH_ROOT"]
  | horizon => ["TU_EVENTS_PREDICTION_HORIZON_SECONDS"]
  | pollMilliseconds => ["TU_EVENTS_POLL_INTERVAL_MS"]
  | runOnce => ["TU_EVENTS_RUN_ONCE"]
  | createSchema => ["TU_EVENTS_BOOTSTRAP_SCHEMA"]
  | traceEndpoint => ["OTEL_EXPORTER_OTLP_ENDPOINT"]

/-- Two settings as a whole have the same value for this one. -/
def Agrees (s s' : Settings) : Setting → Prop
  | databaseUrl => s.databaseUrl = s'.databaseUrl
  | poolSize => s.poolSize = s'.poolSize
  | sourceTag => s.sourceTag = s'.sourceTag
  | batchRoot => s.batchRoot = s'.batchRoot
  | horizon => s.horizon = s'.horizon
  | pollMilliseconds => s.pollMilliseconds = s'.pollMilliseconds
  | runOnce => s.runOnce = s'.runOnce
  | createSchema => s.createSchema = s'.createSchema
  | traceEndpoint => s.traceEndpoint = s'.traceEndpoint

theorem disjoint_sources {setting other : Setting} (h : other ≠ setting) :
    ∀ name ∈ other.sources, name ∉ setting.sources := by
  cases setting <;> cases other <;> first | exact absurd rfl h | decide

end Setting

/-- Two environments have the same texts for the variables of a setting. -/
def SameFor (env env' : Environment) (setting : Setting) : Prop :=
  ∀ name ∈ setting.sources, env'.get? name = env.get? name

/-- What two loads agree in if only the variables of one setting have changed. -/
structure ChangesOnly (changed : Setting) (before after : Except Cause Settings) : Prop where
  /-- Only the URL can be missing. -/
  fails : changed ≠ .databaseUrl → ∀ cause, after = .error cause ↔ before = .error cause
  agrees : ∀ s s', before = .ok s → after = .ok s' → ∀ other ≠ changed, other.Agrees s s'

section

variable {env env' : Environment} {file : Option SetupValues}

theorem SameFor.urlVariable? (h : SameFor env env' .databaseUrl) :
    urlVariable? env' = urlVariable? env := by
  rw [Settings.urlVariable?, Settings.urlVariable?, h _ (by decide), h _ (by decide)]

/-- A setting has the value that its own variables and the setup file give it. -/
theorem SameFor.agrees {setting : Setting} (h : SameFor env env' setting) {s s' : Settings}
    (hs : GivenBy env file s) (hs' : GivenBy env' file s') : setting.Agrees s s' := by
  have hflag {name : String} (hname : env'.get? name = env.get? name) :
      flag env' name = flag env name := by rw [flag, flag, hname]
  cases setting with
  | databaseUrl =>
    have hurl := hs'.databaseUrl
    rw [h.urlVariable?, ← databaseUrl?_eq_some_iff] at hurl
    exact Option.some.inj ((databaseUrl?_eq_some_iff.mpr hs.databaseUrl).symm.trans hurl)
  | poolSize =>
    have hpool := hs'.poolSize
    rw [h _ (List.mem_singleton_self _), ← settle_unsigned_iff] at hpool
    exact (settle_unsigned_iff.mpr hs.poolSize).symm.trans hpool
  | sourceTag =>
    have htag := hs'.sourceTag
    rw [h _ (List.mem_singleton_self _), ← settle_text_iff] at htag
    exact (settle_text_iff.mpr hs.sourceTag).symm.trans htag
  | batchRoot =>
    have hroot := hs'.batchRoot
    rw [h _ (List.mem_singleton_self _), ← settle_text_iff] at hroot
    exact (settle_text_iff.mpr hs.batchRoot).symm.trans hroot
  | horizon =>
    have hhorizon := hs'.horizon
    rw [h _ (List.mem_singleton_self _), ← settle_signed_iff] at hhorizon
    exact (settle_signed_iff.mpr hs.horizon).symm.trans hhorizon
  | pollMilliseconds =>
    have hpoll := hs'.pollMilliseconds
    rw [h _ (List.mem_singleton_self _), ← settle_unsigned_iff] at hpoll
    exact (settle_unsigned_iff.mpr hs.pollMilliseconds).symm.trans hpoll
  | runOnce =>
    exact hs.runOnce.trans ((hflag (h _ (List.mem_singleton_self _))).symm.trans hs'.runOnce.symm)
  | createSchema =>
    exact hs.createSchema.trans
      ((hflag (h _ (List.mem_singleton_self _))).symm.trans hs'.createSchema.symm)
  | traceEndpoint =>
    exact hs.traceEndpoint.trans
      ((h _ (List.mem_singleton_self _)).symm.trans hs'.traceEndpoint.symm)

theorem changesOnly_resolve {changed : Setting}
    (h : ∀ name ∉ changed.sources, env'.get? name = env.get? name) :
    ChangesOnly changed (resolve env file) (resolve env' file) where
  fails hchanged cause := by
    have hurl : SameFor env env' .databaseUrl := fun name hname =>
      h name (Setting.disjoint_sources hchanged.symm name hname)
    rw [resolve_eq_error_iff, resolve_eq_error_iff, hurl.urlVariable?]
  agrees s s' hs hs' other hother :=
    SameFor.agrees (fun name hname => h name (Setting.disjoint_sources hother name hname))
      (resolve_eq_ok_iff.mp hs) (resolve_eq_ok_iff.mp hs')

end

/-! ## Precedence -/

/-- A load gives the settings that come from the environment, the setup file and the defaults in
this order, and no others. It fails exactly if neither the environment nor the file has a URL. With
the same values in the setup file, a change to the variables of one setting changes no other. -/
theorem load_precedence (env : Environment) (files : String → SetupFile) :
    let file := (files (setupPath env)).values?
    (∀ s, (load env files).1 = .ok s ↔ GivenBy env file s) ∧
      (∀ cause, (load env files).1 = .error cause ↔ cause = missingUrl ∧
        ∀ text, ¬ UrlFrom (urlVariable? env) (file.bind (·.databaseUrl)) text) ∧
      ∀ changed env' files', (files' (setupPath env')).values? = file →
        (∀ name ∉ Setting.sources changed, env'.get? name = env.get? name) →
          ChangesOnly changed (load env files).1 (load env' files').1 := by
  have hload (env : Environment) (files : String → SetupFile) :
      (load env files).1 = resolve env (files (setupPath env)).values? := by
    rw [← setupValues_fst (setupPath env)]
    rfl
  intro file
  rw [hload env files]
  refine ⟨fun s => resolve_eq_ok_iff, fun cause => resolve_eq_error_iff, ?_⟩
  intro changed env' files' hfile hsame
  rw [hload env' files', hfile]
  exact changesOnly_resolve hsame

/-- A driver in the general URL, a pool size of any text, and a blank tag. -/
def sampleEnvironment (poolSize : String) : Environment :=
  ⟨[("DATABASE_URL", " postgresql+asyncpg://db/events"), ("TU_EVENTS_DB_POOL_SIZE", poolSize),
    ("TU_EVENTS_SOURCE_TAG", " ")]⟩

def sampleSetup : SetupFile :=
  .content "\x7b\"db_pool_size\": 7, \"source_tag\": \"RT_TU_ALT \", \"poll_interval_ms\": 0\x7d"

/-- A pool size that is no number keeps the setup file out, a blank tag lets it in, and an interval
of zero counts for nothing. -/
theorem load_precedence_of_unreadable_pool_size :
    (∀ name ∉ Setting.poolSize.sources,
        (sampleEnvironment "9").get? name = (sampleEnvironment "many").get? name) ∧
      (load (sampleEnvironment "many") fun _ => sampleSetup).1 = .ok
        { databaseUrl := "postgresql://db/events", poolSize := 5, sourceTag := "RT_TU_ALT"
          batchRoot := ".", horizon := defaultHorizon, pollMilliseconds := 5000, runOnce := false
          createSchema := false, traceEndpoint := none } ∧
      ChangesOnly .poolSize (load (sampleEnvironment "many") fun _ => sampleSetup).1
        (load (sampleEnvironment "9") fun _ => sampleSetup).1 := by
  have hvalues : sampleSetup.values? =
      some ⟨none, some 7, some "RT_TU_ALT ", none, none, some 0⟩ := by decide +kernel
  have hsame : ∀ name ∉ Setting.poolSize.sources,
      (sampleEnvironment "9").get? name = (sampleEnvironment "many").get? name := by
    intro name hname
    have hpool : "TU_EVENTS_DB_POOL_SIZE" ≠ name :=
      fun h => hname (h ▸ List.mem_singleton_self _)
    simp [sampleEnvironment, Environment.get?, List.find?_cons, hpool]
  have hunset {name : String} (h : (sampleEnvironment "many").get? name = none) :
      Silent ((sampleEnvironment "many").get? name) := by
    intro text htext
    rw [h] at htext
    cases htext
  obtain ⟨hok, -, hchange⟩ := load_precedence (sampleEnvironment "many") fun _ => sampleSetup
  refine ⟨hsame, (hok _).mpr ?_, hchange .poolSize _ (fun _ => sampleSetup) rfl hsame⟩
  rw [hvalues]
  exact
    { databaseUrl := ⟨_, .environment ⟨rfl, by decide⟩, plainUrl_iff.mp (by decide)⟩
      poolSize := by
        refine .unreadable ⟨rfl, by decide⟩ fun n hn => ?_
        have hnone : readUnsigned 32 "many".toList = none := by decide
        rw [readUnsigned_eq_some_iff.mpr hn] at hnone
        cases hnone
      sourceTag := by
        have htrimmed : trimmed "RT_TU_ALT " = "RT_TU_ALT" := by decide
        rw [← htrimmed]
        exact .file (fun text htext => Option.some.inj htext ▸ by decide) ⟨rfl, by decide⟩
      batchRoot := .byDefault rfl fun _ h => by cases h
      horizon := .byDefault (hunset rfl) fun _ h => by cases h
      pollMilliseconds := .byDefault (hunset rfl) fun n hn => by simpa using hn.symm
      runOnce := rfl
      createSchema := rfl
      traceEndpoint := rfl }

end Settings

end StopArrivals
