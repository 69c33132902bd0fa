import YieldLock.Duration

/-!
# Log lines of the protocol

Every line that a lock or a session logs, with its level, and beside them the
notes that a sleep and a teardown leave in the log of their thread.
-/

namespace YieldLock

inductive Level where
  | error
  | warn
  | info
  | debug
  | trace
  deriving DecidableEq, Repr

inductive Message where
  | adopted (threadName : Option String)
  | workerReenters
  | workerInitiates
  | shutdownRequested
  | handedOver
  | exiting
  | keptRunning
  | windowAfterExit
  deriving DecidableEq, Repr

namespace Level

def describe : Level → String
  | error => "ERROR"
  | warn => "WARN"
  | info => "INFO"
  | debug => "DEBUG"
  | trace => "TRACE"

/-- A logged line: its level, a space and its text. -/
def line (level : Level) (text : String) : String := level.describe ++ " " ++ text

end Level

namespace Message

def level : Message → Level
  | adopted _ | workerInitiates | shutdownRequested | exiting => .info
  | workerReenters => .warn
  | handedOver => .trace
  | keptRunning | windowAfterExit => .error

def text : Message → String
  | adopted threadName =>
      "Mainlock: adopted worker thread '" ++ threadName.getD "<unnamed>" ++ "'"
  | workerReenters => "Mainlock: worker thread is acquiring the lock it already owns"
  | workerInitiates => "Mainlock: worker thread initiating shutdown"
  | shutdownRequested => "Mainlock: shutdown requested, waiting for worker to yield"
  | handedOver => "Mainlock: worker handed the lock to a waiting controller"
  | exiting => "Mainlock: worker thread is exiting"
  | keptRunning => "Mainlock: worker thread kept running after it was told to exit"
  | windowAfterExit => "Mainlock: yield_begin called after the worker terminated"

/-- The lines that announce a shutdown. -/
def isInitiation : Message → Bool
  | workerInitiates | shutdownRequested => true
  | _ => false

def line (message : Message) : String := message.level.line message.text

end Message

/-- One line in the log of a thread. -/
inductive Entry where
  | logged (message : Message)
  | slept (span : Duration)
  | noted (text : String)
  deriving DecidableEq, Repr

namespace Entry

def line : Entry → String
  | logged message => message.line
  | slept span => "sleep " ++ toString span.secs ++ " " ++ toString span.nanos.val
  | noted text => text

end Entry

end YieldLock
