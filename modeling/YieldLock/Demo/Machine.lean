import YieldLock.Panic
import YieldLock.Text.Record

/-!
# The toy machine

The value that the demonstration guards: a frame counter, a cycle counter and a
border colour. A frame adds a fixed number of cycles and is counted after that, in
two accesses to the machine, so an overflow of the cycles leaves both counters as
they were.
-/

namespace YieldLock.Demo

structure Machine where
  frame : UInt64 := 0
  cycles : UInt64 := 0
  border : UInt8 := 0
  deriving DecidableEq, Repr, Inhabited

namespace Machine

def cyclesPerFrame : UInt64 := 19656

/-- The machine with the cycles of one more frame. -/
def addCycles (build : Build) (machine : Machine) : Except Panic Machine :=
  (build.add machine.cycles cyclesPerFrame).map fun cycles ↦ { machine with cycles }

/-- The machine with one more frame counted. -/
def countFrame (build : Build) (machine : Machine) : Except Panic Machine :=
  (build.add machine.frame 1).map fun frame ↦ { machine with frame }

def describeCell (value : String) : String :=
  Text.Record.inline { name := "Cell", fields := [("value", value)] }

def describe (machine : Machine) : String :=
  Text.Record.inline
    { name := "Machine"
      fields :=
        [("frame", describeCell (toString machine.frame)),
          ("cycles", describeCell (toString machine.cycles)),
          ("border_color", describeCell (toString machine.border))] }

end Machine

end YieldLock.Demo
