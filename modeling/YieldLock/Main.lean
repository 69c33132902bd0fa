import YieldLock.Demo.CommandLine

/-!
# The program

Reads the file that the first argument names, executes a run with the settings in
it, logs to standard error and prints the counters of the lock.
-/

namespace YieldLock

/-- The number of the system's error behind a failure to read a file. -/
def errorNumber : IO.Error → Int32
  | .noFileOrDirectory _ code _ => code.toInt32
  | .inappropriateType _ code _ => code.toInt32
  | .permissionDenied _ code _ => code.toInt32
  | .invalidArgument _ code _ => code.toInt32
  | _ => 5

def readFile (path : String) : IO (Except SystemError ByteArray) := do
  match ← (IO.FS.readBinFile path).toBaseIO with
  | .ok bytes => return .ok bytes
  | .error cause => return .error (.code (errorNumber cause))

end YieldLock

open YieldLock in
def main (arguments : List String) : IO UInt32 := do
  let argument ← match arguments with
    | [] => pure none
    | path :: _ => do
      let file ← readFile path
      pure (some (path, file))
  let report := Demo.CommandLine.run .checked argument
  for line in report.lines do
    IO.eprint (Demo.shown line.text)
  for line in report.failureLines do
    IO.eprintln line
  match report.stats? with
  | some stats => IO.println (Json.writeStatsStacked stats)
  | none => pure ()
  return report.exitCode.toUInt32
