import StopArrivals.Extraction
import StopArrivals.Settings.Environment
import StopArrivals.Settings.SetupFile
import StopArrivals.Text.Search

/-!
# Settings

Settings come from the environment, from a setup file and from defaults. Each is read from the
environment first; then the setup file, if it has a usable value, replaces what the environment
leaves blank.
-/

namespace StopArrivals

structure Settings where
  databaseUrl : String
  poolSize : Nat
  sourceTag : String
  batchRoot : String
  /-- How far ahead predictions are believed, in seconds. -/
  horizon : Int
  /-- Between two cycles, in milliseconds, as it was set. -/
  pollMilliseconds : Nat
  runOnce : Bool
  createSchema : Bool
  traceEndpoint : Option String
deriving DecidableEq

namespace Settings

def defaultSourceTag : String := "RT_TRIP_UPDATES"

def defaultSetupPath : String := "/etc/trip-update-events/config.json"

/-- The variables that settings are read from. -/
def variableNames : List String :=
  ["TU_EVENTS_SETUP_CONFIG_PATH", "TU_EVENTS_DATABASE_URL", "DATABASE_URL",
    "TU_EVENTS_DB_POOL_SIZE", "TU_EVENTS_SOURCE_TAG", "TU_EVENTS_BATCH_ROOT",
    "TU_EVENTS_PREDICTION_HORIZON_SECONDS", "TU_EVENTS_POLL_INTERVAL_MS", "TU_EVENTS_RUN_ONCE",
    "TU_EVENTS_BOOTSTRAP_SCHEMA", "OTEL_EXPORTER_OTLP_ENDPOINT"]

/-- The time between two cycles; it is never zero. -/
def pollInterval (s : Settings) : Nat := max s.pollMilliseconds 1

/-! ## The setup file -/

def setupPath (env : Environment) : String :=
  ((env.get? "TU_EVENTS_SETUP_CONFIG_PATH").bind nonBlank?).getD defaultSetupPath

/-- The values of a setup file. One that is there but of no use is noticed. -/
def setupValues (path : String) : SetupFile → Option SetupValues × List Notice
  | .absent => (none, [])
  | .unreadable => (none, [.setupUnreadable path])
  | .content text =>
    match SetupValues.read? text with
    | some values => (some values, [])
    | none => (none, [.setupUnparsable path])

/-! ## Single settings -/

/-- Names of database drivers that may be part of a URL's scheme and mean nothing here. -/
def driverSchemes : List String :=
  ["postgresql+psycopg://", "postgresql+psycopg2://", "postgresql+asyncpg://"]

/-- The URL without the name of a driver. -/
def plainUrl (url : String) : String :=
  match driverSchemes.findSome? fun scheme => dropBeginning? scheme.toList url.toList with
  | some rest => "postgresql://" ++ String.ofList rest
  | none => url

/-- The URL of the database. The variable of this service, even a blank one, hides the general
one. -/
def databaseUrl? (env : Environment) (file : Option SetupValues) : Option String :=
  let fromEnv := (env.get? "TU_EVENTS_DATABASE_URL").or (env.get? "DATABASE_URL")
  ((fromEnv.bind nonBlank?).or ((file.bind (·.databaseUrl)).bind nonBlank?)).map plainUrl

/-- Is the variable unset or blank, so that the setup file may speak? -/
def isOpen (env : Environment) (name : String) : Bool :=
  ((env.get? name).bind nonBlank?).isNone

/-- A setting with its value by the environment and its usable value by the setup file. -/
def settle {α : Type} (env : Environment) (name : String) (value : α) (file : Option α) : α :=
  if isOpen env name then file.getD value else value

/-- A number in the environment; one that cannot be read counts for nothing. -/
def numberOr {α : Type} (env : Environment) (name : String) (read : List Char → Option α)
    (default : α) : α :=
  ((env.get? name).bind fun text => read text.toList).getD default

def lowerAscii (s : String) : String := s.map Char.toLower

def flag (env : Environment) (name : String) : Bool :=
  match env.get? name with
  | some value => value == "1" || lowerAscii value == "true"
  | none => false

/-! ## All settings -/

def missingUrl : Cause :=
  .plain ("TU_EVENTS_DATABASE_URL or DATABASE_URL is required " ++
    "(or present as database_url in the setup config)")

/-- The settings that an environment and the values of a setup file give. -/
def resolve (env : Environment) (file : Option SetupValues) : Except Cause Settings :=
  match databaseUrl? env file with
  | none => .error missingUrl
  | some databaseUrl =>
    .ok
      { databaseUrl
        poolSize := settle env "TU_EVENTS_DB_POOL_SIZE"
          (numberOr env "TU_EVENTS_DB_POOL_SIZE" (readUnsigned 32) 5)
          ((file.bind (·.poolSize)).filter (· ≠ 0))
        sourceTag := settle env "TU_EVENTS_SOURCE_TAG"
          ((env.get? "TU_EVENTS_SOURCE_TAG").getD defaultSourceTag)
          ((file.bind (·.sourceTag)).bind nonBlank?)
        batchRoot := settle env "TU_EVENTS_BATCH_ROOT"
          ((env.get? "TU_EVENTS_BATCH_ROOT").getD ".")
          ((file.bind (·.batchRoot)).bind nonBlank?)
        horizon := settle env "TU_EVENTS_PREDICTION_HORIZON_SECONDS"
          (numberOr env "TU_EVENTS_PREDICTION_HORIZON_SECONDS" (readSigned 64) defaultHorizon)
          ((file.bind (·.horizon)).filter (0 < ·))
        pollMilliseconds := settle env "TU_EVENTS_POLL_INTERVAL_MS"
          (numberOr env "TU_EVENTS_POLL_INTERVAL_MS" (readUnsigned 64) 5000)
          ((file.bind (·.pollInterval)).filter (· ≠ 0))
        runOnce := flag env "TU_EVENTS_RUN_ONCE"
        createSchema := flag env "TU_EVENTS_BOOTSTRAP_SCHEMA"
        traceEndpoint := env.get? "OTEL_EXPORTER_OTLP_ENDPOINT" }

/-- The settings by an environment and the setup file that it points to. -/
def load (env : Environment) (files : String → SetupFile) :
    Except Cause Settings × List Notice :=
  let path := setupPath env
  let (file, notices) := setupValues path (files path)
  (resolve env file, notices)

end Settings

end StopArrivals
