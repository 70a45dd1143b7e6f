import Scriptlet.Bindings
import Scriptlet.Decimal.Numeral
import Scriptlet.Value

/-! # Values given from outside

Before a program runs, names can be bound to values from outside: booleans, integers of any size,
numbers and strings. Integers become the nearest number; everything else is refused. -/

namespace Scriptlet

/-- A value given from outside. -/
inductive Given where
  /-- A boolean. -/
  | boolean (value : Bool)
  /-- An integer of any size. -/
  | integer (value : Int)
  /-- A number. -/
  | number (value : Float)
  /-- A string. -/
  | string (content : String)
  /-- Something else, known by the name of its type. -/
  | other (typeName : String)
  deriving Repr, DecidableEq

/-- Why a name cannot be bound. -/
inductive BindFault where
  /-- The type of the value has no counterpart. -/
  | unsupported (name typeName : String)
  /-- The integer is beyond every number. -/
  | overflow
  deriving Repr, DecidableEq

/-- What a fault of a binding says. -/
def BindFault.message : BindFault → String
  | .unsupported name typeName => "Cannot bind `" ++ name ++ "` to a " ++ typeName ++ " value."
  | .overflow => "int too large to convert to float"

namespace Given

/-- The value for a name; a string gets the given handle. -/
def toValue (name : String) (handle : Nat) : Given → Except BindFault Value
  | .boolean value => .ok (.boolean value)
  | .integer value =>
    let number := Decimal.nearest value
    if number.isInf then .error .overflow else .ok (.number number)
  | .number value => .ok (.number value)
  | .string content => .ok (.string ⟨content, handle⟩)
  | .other typeName => .error (.unsupported name typeName)

/-- What a text stands for: a boolean, a number or else itself. -/
def ofText (raw : String) : Given :=
  if raw = "true" then .boolean true
  else if raw = "false" then .boolean false
  else
    match Decimal.ofText? raw with
    | some value => .number value
    | none => .string raw

/-- How a value from outside is printed. -/
def printed : Given → String
  | .boolean value => (Value.boolean value).printed
  | .integer value => String.ofList (Decimal.integerText value)
  | .number value => Decimal.printed value
  | .string content => content
  | .other typeName => typeName

/-- How a value from outside is shown: as printed, but with strings in quotes. -/
def shown : Given → String
  | .string content => "\"" ++ content ++ "\""
  | given => given.printed

/-- Converts the values of names in order; the strings get handles from the given one on. -/
def convertAll (handle : Nat) : List (String × Given) → Except BindFault (List (String × Value))
  | [] => .ok []
  | (name, given) :: rest => do
    let value ← given.toValue name handle
    let others ← convertAll (handle + 1) rest
    .ok ((name, value) :: others)

end Given

namespace Bindings

/-- Binds names to values given from outside. Of two values for one name the later one counts, in
the place of the earlier. The strings get handles from the given one on. -/
def ofGiven (handle : Nat) (given : List (String × Given)) : Except BindFault (Bindings Value) := do
  let entries ← Given.convertAll handle (ofList given).entries
  .ok (ofList entries)

end Bindings

end Scriptlet
