import YieldLock.Demo.Run
import YieldLock.Json.Settings
import YieldLock.Json.Stats
import YieldLock.Text.Terminal

/-!
# The command line

The program takes the path of a file with settings, or none. It reads the
settings, executes a run and prints the counters of the lock. What can go wrong
is told on several lines, the outermost error first and its cause indented. The log
is written for a terminal: a text of several lines is indented from its second line
on, and what a terminal would take as a command is left out.
-/

namespace YieldLock.Demo

inductive Failure where
  | unreadable (path : String) (cause : String)
  | malformed (path : String) (cause : Json.ReadError)
  | invalidLock (cause : LockError)
  | workerFailed (cause : LockError)
  | panicked (panic : Panic)
  deriving DecidableEq, Repr

namespace Failure

/-- The error and its cause. -/
def parts : Failure → String × String
  | unreadable path cause => ("failed to read config file '" ++ path ++ "'", cause)
  | malformed path cause => ("failed to parse config file '" ++ path ++ "'", cause.message)
  | invalidLock cause => ("invalid lock configuration", cause.message)
  | workerFailed cause => ("machine thread failed", cause.message)
  | panicked panic => ("<panic>", panic.message)

/-- The lines that tell of a failure. -/
def lines (failure : Failure) : List String :=
  let (error, cause) := failure.parts
  match failure with
  | panicked _ => Text.Terminal.lines error ++ Text.Terminal.lines cause
  | _ =>
    Text.Terminal.lines ("Error: " ++ error) ++ "" :: "Caused by:" ::
      (Text.Terminal.lines cause).map fun line ↦ "    " ++ line

def exitCode : Failure → UInt8
  | panicked _ => 101
  | _ => 1

end Failure

/-- What a text of the log is like where it is read, with the end of its last line. -/
def shown (text : String) : String :=
  Text.Terminal.plain ("\n    ".intercalate (text.splitOn "\n") ++ "\n")

/-- All that a run of the program shows. -/
structure Report where
  lines : List Line
  result : Except Failure Stats

namespace CommandLine

/-- Reads settings from the bytes of a file. -/
def load (build : Build) (path : String) (file : Except SystemError ByteArray) :
    Except Failure Settings :=
  match file with
  | .error cause => .error (.unreadable path cause.message)
  | .ok bytes =>
    match String.fromUTF8? bytes with
    | none => .error (.unreadable path "stream did not contain valid UTF-8")
    | some text => (Json.readSettings build text).mapError (.malformed path)

/-- Executes a run with settings. -/
def runSettings (build : Build) (settings : Settings) : Report :=
  let starting := Line.notice (.starting settings)
  match Run.start settings with
  | .error cause => { lines := [starting], result := .error (.invalidLock cause) }
  | .ok run =>
    let (last, lines) := run.execute build
    let result := match last.main with
      | .done (.panicked panic) => .error (.panicked panic)
      | .done (.workerFailed error) => .error (.workerFailed error)
      | _ => .ok last.world.lock.stats
    { lines := starting :: lines, result }

/-- The whole program, given what reading the file of its argument gave. -/
def run (build : Build) (argument : Option (String × Except SystemError ByteArray)) : Report :=
  let settings : Except Failure Settings := match argument with
    | none => .ok (.standard build)
    | some (path, file) => load build path file
  match settings with
  | .error failure => { lines := [], result := .error failure }
  | .ok settings => runSettings build settings

end CommandLine

namespace Report

def exitCode (report : Report) : UInt8 :=
  match report.result with
  | .ok _ => 0
  | .error failure => failure.exitCode

/-- The name of the thread that became the worker. -/
def workerTitle? (report : Report) : Option String :=
  report.lines.findSome? fun line ↦ match line with
    | .lock (.logged (.adopted title)) => some (title.getD "<unnamed>")
    | _ => none

/-- That name in quotes, on the lines that the log gives it. -/
def adoptionLines (report : Report) : List String :=
  match report.workerTitle? with
  | some title => Text.Terminal.lines (shown ("'" ++ title ++ "'"))
  | none => []

def failureLines (report : Report) : List String :=
  match report.result with
  | .ok _ => []
  | .error failure => failure.lines

/-- Whether a line tells something; an empty line does not, nor does a hint on how to go on. -/
def isTelling (line : String) : Bool := line ≠ "" && !line.startsWith "note: "

/-- The lines on standard error that begin no record of the log. -/
def otherLines (report : Report) : List String :=
  (report.adoptionLines.drop 1 ++ report.failureLines).filter isTelling

def stats? (report : Report) : Option Stats := report.result.toOption

/-- What does not depend on time in a line of the main thread. -/
def timeless? : Line → Option String
  | .notice (.status machine) => some ("status: border " ++ toString machine.border)
  | .notice (.handled events _) => some ("Handled " ++ toString events ++ " UI events")
  | .notice (.hostCall _) | .notice .quitRequested => none
  | .notice notice => some notice.text
  | .lock _ => none

def timelessLines (report : Report) : List String := report.lines.filterMap timeless?

/-- What the record of the worker's adoption says of the thread. -/
def adopted? (report : Report) : Option String := report.adoptionLines.head?

def teardowns (report : Report) : Nat :=
  report.lines.countP (· == .lock (.noted Run.teardownLine))

def quits (report : Report) : Nat := report.lines.countP (· == .notice .quitRequested)

end Report

end YieldLock.Demo
