import StopArrivals.Settings
import StopArrivals.Settings.EnvFile
import StopArrivals.TraceEndpoint

/-!
# Command line

Shows the settings that the service would run with, one on a line, or says why there are none.
Notices go to the error stream.
-/

namespace StopArrivals.CommandLine

/-- The variables of this process that settings depend on. -/
def processEnvironment : IO Environment := do
  let bindings ← Settings.variableNames.filterMapM fun name => do
    return (← IO.getEnv name).map fun value => (name, value)
  return ⟨bindings⟩

/-- The environment with what an environment file in the working directory adds to it. -/
def filledEnvironment : IO Environment := do
  let env ← processEnvironment
  match ← (IO.FS.readFile ".env").toBaseIO with
  | .ok text => return EnvFile.load text env
  | .error _ => return env

def readSetupFile (path : String) : IO SetupFile := do
  match ← (IO.FS.readBinFile path).toBaseIO with
  | .ok bytes => return .ofBytes bytes.toList
  | .error (.noFileOrDirectory ..) => return .absent
  | .error _ => return .unreadable

def showNotice (n : Notice) : IO Unit :=
  IO.eprintln (n.level.name ++ " " ++ n.message)

def showSettings (s : Settings) : IO Unit := do
  IO.println ("database_url " ++ s.databaseUrl)
  IO.println ("db_pool_size " ++ toString s.poolSize)
  IO.println ("source_tag " ++ s.sourceTag)
  IO.println ("batch_root " ++ s.batchRoot)
  IO.println ("prediction_horizon_seconds " ++ toString s.horizon)
  IO.println ("poll_interval_ms " ++ toString s.pollInterval)
  IO.println ("run_once " ++ toString s.runOnce)
  IO.println ("bootstrap_schema " ++ toString s.createSchema)
  IO.println ("otlp_endpoint " ++ (s.traceEndpoint.map traceEndpoint).getD "")

end StopArrivals.CommandLine

open StopArrivals StopArrivals.CommandLine in
def main : IO UInt32 := do
  let env ← filledEnvironment
  let file ← readSetupFile (Settings.setupPath env)
  let (result, notices) := Settings.load env fun _ => file
  notices.forM showNotice
  match result with
  | .ok settings =>
    showSettings settings
    return 0
  | .error cause =>
    IO.eprintln ("Error: " ++ cause.full)
    return 1
