import StopArrivals.Proofs.Numerals
import StopArrivals.Settings

/-!
# Blank variables

A variable with nothing but white space for its value leaves the setup file as free to speak as one
that is not set, and no number is read from it. So three of the settings cannot tell a blank variable
from a missing one. The other three can: a blank URL hides the general one, and a blank tag or root
is taken as it is where the setup file has none. `blank_variable_unset_iff` says exactly when it
makes no difference.
-/

namespace StopArrivals

/-! ## Two environments -/

namespace Environment

/-- The environment without a variable. -/
def without (env : Environment) (name : String) : Environment :=
  ⟨env.bindings.filter fun v => v.1 ≠ name⟩

/-- The environment with a value for a variable in place of the one that it has. -/
def withValue (env : Environment) (name value : String) : Environment :=
  ⟨(name, value) :: (env.without name).bindings⟩

variable {env : Environment} {name value other : String}

theorem get?_without : (env.without name).get? name = none := by
  simp [get?, without]

theorem get?_without_of_ne (h : other ≠ name) : (env.without name).get? other = env.get? other := by
  unfold get? without
  rw [List.find?_filter]
  congr 2
  funext v
  by_cases hv : v.1 = other <;> simp [hv, h]

theorem get?_withValue : (env.withValue name value).get? name = some value := by
  simp [get?, withValue]

theorem get?_withValue_of_ne (h : other ≠ name) :
    (env.withValue name value).get? other = env.get? other := by
  unfold get? withValue
  rw [List.find?_cons_of_neg (by simpa using h.symm)]
  exact get?_without_of_ne h

end Environment

namespace Settings

open Environment

/-- The text in a field of a setup file, if there is one and it is not blank. -/
def fileText? (file : Option SetupValues) (field : SetupValues → Option String) : Option String :=
  (file.bind field).bind nonBlank?

/-- The variables of the settings that a setup file can give as well. -/
def sharedVariables : List String :=
  ["TU_EVENTS_DATABASE_URL", "TU_EVENTS_DB_POOL_SIZE", "TU_EVENTS_SOURCE_TAG",
    "TU_EVENTS_BATCH_ROOT", "TU_EVENTS_PREDICTION_HORIZON_SECONDS", "TU_EVENTS_POLL_INTERVAL_MS"]

theorem ne_of_mem_sharedVariables {name other : String} (hname : name ∈ sharedVariables)
    (hother : other ∉ sharedVariables) : other ≠ name := by
  rintro rfl
  exact hother hname

/-! ## Settings that cannot tell -/

section

variable {α : Type} {env : Environment} {name value other : String}

theorem get?_agree (h : other ≠ name) :
    (env.withValue name value).get? other = (env.without name).get? other := by
  rw [get?_withValue_of_ne h, get?_without_of_ne h]

theorem flag_agree (h : other ≠ name) :
    flag (env.withValue name value) other = flag (env.without name) other := by
  rw [flag, flag, get?_agree h]

theorem setupPath_agree (h : "TU_EVENTS_SETUP_CONFIG_PATH" ≠ name) :
    setupPath (env.withValue name value) = setupPath (env.without name) := by
  rw [setupPath, setupPath, get?_agree h]

/-- A value that no number is read from gives the default, as no value does. -/
theorem numberOr_agree {read : List Char → Option α} (hread : read value.toList = none)
    (default : α) :
    numberOr (env.withValue name value) other read default =
      numberOr (env.without name) other read default := by
  unfold numberOr
  by_cases h : other = name
  · subst h
    rw [get?_withValue, get?_without, Option.bind_some, hread]
    rfl
  · rw [get?_agree h]

variable (hblank : isBlankText value = true)

include hblank

/-- A blank variable is as open as one that is not set. -/
theorem isOpen_agree :
    isOpen (env.withValue name value) other = isOpen (env.without name) other := by
  unfold isOpen
  by_cases h : other = name
  · subst h
    rw [get?_withValue, get?_without, Option.bind_some, nonBlank?_of_blank hblank]
    rfl
  · rw [get?_agree h]

theorem settle_agree {a b : α} (h : a = b) (file : Option α) :
    settle (env.withValue name value) other a file = settle (env.without name) other b file := by
  rw [settle, settle, isOpen_agree hblank, h]

/-! ## Settings that can tell -/

/-- A text setting shows a blank variable as it is, unless the setup file has a text to replace
it. -/
theorem settle_text_agree_iff {default : String} (hdefault : isBlankText default = false)
    (file : Option String) :
    settle (env.withValue name value) other
        (((env.withValue name value).get? other).getD default) file =
      settle (env.without name) other (((env.without name).get? other).getD default) file ↔
    (other = name → file.isSome = true) := by
  by_cases h : other = name
  · subst h
    have hopen : isOpen (env.without other) other = true := by
      rw [isOpen, get?_without]
      rfl
    rw [settle, settle, isOpen_agree hblank, hopen, if_pos rfl, if_pos rfl, get?_withValue,
      get?_without]
    cases file with
    | some text => simp
    | none =>
      have hne : value ≠ default := by
        rintro rfl
        rw [hblank] at hdefault
        cases hdefault
      simpa using hne
  · rw [get?_agree h]
    exact iff_of_true (settle_agree hblank rfl file) fun heq => absurd heq h

/-- A blank URL hides the general one, so that the setup file has to give it again. -/
theorem databaseUrl?_agree_iff (hgeneral : "DATABASE_URL" ≠ name) (file : Option SetupValues) :
    databaseUrl? (env.withValue name value) file = databaseUrl? (env.without name) file ↔
    ("TU_EVENTS_DATABASE_URL" = name →
      ∀ url, (env.get? "DATABASE_URL").bind nonBlank? = some url →
        (fileText? file (·.databaseUrl)).map plainUrl = some (plainUrl url)) := by
  simp only [databaseUrl?, get?_withValue_of_ne hgeneral, get?_without_of_ne hgeneral]
  by_cases h : "TU_EVENTS_DATABASE_URL" = name
  · subst h
    rw [get?_withValue, get?_without, Option.some_or, Option.none_or, Option.bind_some,
      nonBlank?_of_blank hblank, Option.none_or]
    cases (env.get? "DATABASE_URL").bind nonBlank? with
    | none => simp
    | some url => simp [fileText?]
  · rw [get?_agree h]
    exact iff_of_true rfl fun heq => absurd heq h

end

/-! ## All settings -/

/-- What it takes for a blank variable to count as one that is not set. The blank URL must hide no
general URL but one that the setup file gives as well. Where there is a URL at all, the setup file
must have a tag in place of the blank tag, and a root in place of the blank root. -/
structure BlankIsUnset (env : Environment) (file : Option SetupValues) (name : String) :
    Prop where
  url : "TU_EVENTS_DATABASE_URL" = name →
    ∀ url, (env.get? "DATABASE_URL").bind nonBlank? = some url →
      (fileText? file (·.databaseUrl)).map plainUrl = some (plainUrl url)
  sourceTag : "TU_EVENTS_SOURCE_TAG" = name → databaseUrl? env file ≠ none →
    (fileText? file (·.sourceTag)).isSome = true
  batchRoot : "TU_EVENTS_BATCH_ROOT" = name → databaseUrl? env file ≠ none →
    (fileText? file (·.batchRoot)).isSome = true

variable {env : Environment} {name value : String}

/-- Only the URL, the source tag and the batch root can tell a blank variable from one that is not
set. -/
theorem resolve_agree_iff (hname : name ∈ sharedVariables) (hblank : isBlankText value = true)
    (file : Option SetupValues) :
    resolve (env.withValue name value) file = resolve (env.without name) file ↔
      databaseUrl? (env.withValue name value) file = databaseUrl? (env.without name) file ∧
      (databaseUrl? (env.without name) file ≠ none →
        ("TU_EVENTS_SOURCE_TAG" = name → (fileText? file (·.sourceTag)).isSome = true) ∧
        ("TU_EVENTS_BATCH_ROOT" = name → (fileText? file (·.batchRoot)).isSome = true)) := by
  have hother (other : String) (h : other ∉ sharedVariables) : other ≠ name :=
    ne_of_mem_sharedVariables hname h
  have htag : isBlankText defaultSourceTag = false := by decide
  have hroot : isBlankText "." = false := by decide
  unfold resolve
  rw [flag_agree (hother "TU_EVENTS_RUN_ONCE" (by decide)),
    flag_agree (hother "TU_EVENTS_BOOTSTRAP_SCHEMA" (by decide)),
    get?_agree (hother "OTEL_EXPORTER_OTLP_ENDPOINT" (by decide))]
  simp only [settle_agree hblank (numberOr_agree (readUnsigned_of_blank hblank) _),
    settle_agree hblank (numberOr_agree (readSigned_of_blank hblank) _)]
  cases databaseUrl? (env.withValue name value) file with
  | none => cases databaseUrl? (env.without name) file <;> simp
  | some url =>
    cases databaseUrl? (env.without name) file with
    | none => simp
    | some url' =>
      simp [settle_text_agree_iff hblank htag, settle_text_agree_iff hblank hroot, fileText?]

theorem databaseUrl?_without (hgeneral : "DATABASE_URL" ≠ name)
    (hown : "TU_EVENTS_DATABASE_URL" ≠ name) (file : Option SetupValues) :
    databaseUrl? (env.without name) file = databaseUrl? env file := by
  unfold databaseUrl?
  rw [get?_without_of_ne hgeneral, get?_without_of_ne hown]

theorem resolve_agree_iff_blankIsUnset (hname : name ∈ sharedVariables)
    (hblank : isBlankText value = true) (file : Option SetupValues) :
    resolve (env.withValue name value) file = resolve (env.without name) file ↔
      BlankIsUnset env file name := by
  have hgeneral : "DATABASE_URL" ≠ name := ne_of_mem_sharedVariables hname (by decide)
  rw [resolve_agree_iff hname hblank, databaseUrl?_agree_iff hblank hgeneral]
  constructor
  · rintro ⟨hurl, htexts⟩
    refine ⟨hurl, fun htag hsome => ?_, fun hroot hsome => ?_⟩
    · rw [← databaseUrl?_without hgeneral (htag ▸ by decide)] at hsome
      exact (htexts hsome).1 htag
    · rw [← databaseUrl?_without hgeneral (hroot ▸ by decide)] at hsome
      exact (htexts hsome).2 hroot
  · intro h
    refine ⟨h.url, fun hsome => ⟨fun htag => ?_, fun hroot => ?_⟩⟩
    · rw [databaseUrl?_without hgeneral (htag ▸ by decide)] at hsome
      exact h.sourceTag htag hsome
    · rw [databaseUrl?_without hgeneral (hroot ▸ by decide)] at hsome
      exact h.batchRoot hroot hsome

theorem load_eq (env : Environment) (files : String → SetupFile) :
    load env files =
      (resolve env (setupValues (setupPath env) (files (setupPath env))).1,
        (setupValues (setupPath env) (files (setupPath env))).2) := rfl

theorem setupPath_without (h : "TU_EVENTS_SETUP_CONFIG_PATH" ≠ name) :
    setupPath (env.without name) = setupPath env := by
  rw [setupPath, setupPath, get?_without_of_ne h]

/-- A blank value for a variable that the setup file can stand in for loads the same settings, with
the same notices, as no value for it, exactly when it counts as unset (`BlankIsUnset`). That is so
for the numbers, whatever else is set. -/
theorem blank_variable_unset_iff {name value : String} (hname : name ∈ sharedVariables)
    (hblank : isBlankText value = true) (env : Environment) (files : String → SetupFile) :
    load (env.withValue name value) files = load (env.without name) files ↔
      BlankIsUnset env (setupValues (setupPath env) (files (setupPath env))).1 name := by
  have hpath : "TU_EVENTS_SETUP_CONFIG_PATH" ≠ name := ne_of_mem_sharedVariables hname (by decide)
  rw [load_eq, load_eq, setupPath_agree hpath, setupPath_without hpath, Prod.mk.injEq,
    and_iff_left rfl, resolve_agree_iff_blankIsUnset hname hblank]

theorem blank_variable_unset_iff_of_pool_size :
    "TU_EVENTS_DB_POOL_SIZE" ∈ sharedVariables ∧ isBlankText " \t" = true ∧
    load (Environment.withValue ⟨[("DATABASE_URL", "postgresql://db/events")]⟩
        "TU_EVENTS_DB_POOL_SIZE" " \t") (fun _ => .absent) =
      load (Environment.without ⟨[("DATABASE_URL", "postgresql://db/events")]⟩
        "TU_EVENTS_DB_POOL_SIZE") fun _ => .absent := by
  refine ⟨by decide, by decide, (blank_variable_unset_iff (by decide) (by decide) _ _).mpr ?_⟩
  exact ⟨fun h => absurd h (by decide), fun h => absurd h (by decide),
    fun h => absurd h (by decide)⟩

-- An empty tag stands in the settings as it is, and every path contains it.
example : (load (Environment.withValue ⟨[("DATABASE_URL", "postgresql://db/events")]⟩
    "TU_EVENTS_SOURCE_TAG" "") fun _ => .absent).1.toOption.map (·.sourceTag) = some "" := rfl

/-- A blank URL of this service hides the general URL, and no settings are left. -/
theorem blank_url_hides_general :
    isBlankText "  " = true ∧
    load (Environment.withValue ⟨[("DATABASE_URL", "postgresql://db/events")]⟩
        "TU_EVENTS_DATABASE_URL" "  ") (fun _ => .absent) = (.error missingUrl, []) ∧
    load (Environment.without ⟨[("DATABASE_URL", "postgresql://db/events")]⟩
        "TU_EVENTS_DATABASE_URL") (fun _ => .absent) =
      (.ok
        { databaseUrl := "postgresql://db/events", poolSize := 5, sourceTag := "RT_TRIP_UPDATES"
          batchRoot := ".", horizon := defaultHorizon, pollMilliseconds := 5000, runOnce := false
          createSchema := false, traceEndpoint := none }, []) ∧
    load (Environment.withValue ⟨[("DATABASE_URL", "postgresql://db/events")]⟩
        "TU_EVENTS_DATABASE_URL" "  ") (fun _ => .absent) ≠
      load (Environment.without ⟨[("DATABASE_URL", "postgresql://db/events")]⟩
        "TU_EVENTS_DATABASE_URL") fun _ => .absent := by
  have hblank : load (Environment.withValue ⟨[("DATABASE_URL", "postgresql://db/events")]⟩
      "TU_EVENTS_DATABASE_URL" "  ") (fun _ => .absent) = (.error missingUrl, []) := rfl
  refine ⟨by decide, hblank, rfl, ?_⟩
  intro h
  rw [hblank] at h
  cases h

end Settings

end StopArrivals
