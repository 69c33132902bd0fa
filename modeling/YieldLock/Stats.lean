import YieldLock.Text.Record

/-!
# Counters of a lock

Five words that tell how the lock was used: blocking acquisitions by threads
other than the worker, yields, yields that handed the lock over, completed
windows, and the longest wait of an acquisition in microseconds.
-/

namespace YieldLock

structure Stats where
  acquisitions : UInt64 := 0
  yieldCalls : UInt64 := 0
  handoffs : UInt64 := 0
  windows : UInt64 := 0
  longestWait : UInt64 := 0
  deriving DecidableEq, Repr, Inhabited

namespace Stats

/-- The counters of a lock that nobody has used. -/
def empty : Stats := {}

def countAcquisition (stats : Stats) (waited : UInt64) : Stats :=
  { stats with
    acquisitions := stats.acquisitions + 1
    longestWait := max stats.longestWait waited }

def countYield (stats : Stats) : Stats :=
  { stats with yieldCalls := stats.yieldCalls + 1 }

def countHandoff (stats : Stats) : Stats :=
  { stats with handoffs := stats.handoffs + 1 }

def countWindow (stats : Stats) : Stats :=
  { stats with windows := stats.windows + 1 }

/-- The counters in their fixed order. -/
def values (stats : Stats) : List UInt64 :=
  [stats.acquisitions, stats.yieldCalls, stats.handoffs, stats.windows, stats.longestWait]

/-- The names under which the counters are written, in the same order. -/
def names : List String :=
  ["controller_acquisitions", "yield_calls", "yield_handoffs", "yield_windows",
    "longest_controller_wait_us"]

def describe (stats : Stats) : String :=
  Text.Record.inline
    { name := "StatsSnapshot", fields := names.zip (stats.values.map toString) }

end Stats

end YieldLock
