/-!
# Records as text

A value with named fields, shown on one line or with one field a line. A record
that does not show all its fields ends in two points.
-/

namespace YieldLock.Text

structure Record where
  name : String
  fields : List (String × String)
  hasMore : Bool := false
  deriving DecidableEq, Repr

namespace Record

def items (record : Record) : List String :=
  record.fields.map (fun field ↦ field.1 ++ ": " ++ field.2) ++
    if record.hasMore then [".."] else []

/-- The record on one line. -/
def inline (record : Record) : String :=
  match record.items with
  | [] => record.name
  | items => record.name ++ " \x7b " ++ String.intercalate ", " items ++ " \x7d"

/-- The record with each field on a line of its own, which a comma ends. -/
def stacked (record : Record) : String :=
  match record.items with
  | [] => record.name
  | _ =>
    record.name ++ " \x7b\n" ++
      String.join (record.fields.map fun field ↦ "    " ++ field.1 ++ ": " ++ field.2 ++ ",\n") ++
      (if record.hasMore then "    ..\n" else "") ++ "\x7d"

end Record

end YieldLock.Text
