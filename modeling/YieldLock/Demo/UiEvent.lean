/-!
# Events of the user interface

What the controller reacts to: a look at the machine, a change of its border
colour, and the wish to quit.
-/

namespace YieldLock.Demo

inductive UiEvent where
  | inspect
  | poke (color : UInt8)
  | quit
  deriving DecidableEq, Repr

namespace UiEvent

def describe : UiEvent → String
  | inspect => "Inspect"
  | poke color => "Poke(" ++ toString color ++ ")"
  | quit => "Quit"

end UiEvent

end YieldLock.Demo
