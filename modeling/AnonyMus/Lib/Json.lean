/-!
# JSON values

What `json.loads` makes of a JSON text. An object is its members in order, no
key twice; a number without fraction or exponent is an integer of any size, any
other number is a binary64 float, given by its bits.

* `required`, `defaulted`, `optional` — how a record reads its members.
-/

inductive Json
  | null
  | bool (b : Bool)
  | int (n : Int)
  | float (bits : UInt64)
  | str (s : String)
  | arr (items : List Json)
  | obj (members : List (String × Json))

namespace Json

/-- The members of an object. -/
def members? : Json → Option (List (String × Json))
  | obj members => some members
  | _ => none

/-- The items of an array. -/
def items? : Json → Option (List Json)
  | arr items => some items
  | _ => none

section

variable {α : Type} (read : Json → Option α) (members : List (String × Json)) (key : String)

/-- A member that must be there. -/
def required : Option α := (members.lookup key).bind read

/-- A member that has a default. -/
def defaulted (default : α) : Option α :=
  match members.lookup key with
  | none => some default
  | some value => read value

/-- A member that may be missing or null. -/
def optional : Option (Option α) :=
  match members.lookup key with
  | none => some none
  | some null => some none
  | some value => (read value).map some

end

end Json
