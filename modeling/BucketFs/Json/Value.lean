import BucketFs.Text.Number

/-!
# JSON values

A value keeps what a typed reader needs to tell apart: members in their order with repetitions,
integers apart from other numbers, and texts whose escapes name no character.
-/

namespace BucketFs.Json

/-- A JSON value as it was written. -/
inductive Value where
  | null
  | bool (b : Bool)
  /-- A number; it has a value when it is written as an integer and is not `-0`. -/
  | number (integer : Option Int)
  /-- A string; it has a value when its escapes write characters. -/
  | text (value : Option String)
  | array (items : List Value)
  | object (members : List (Option String × Value))

namespace Value

/-- The value of a text. -/
def ofText (s : String) : Value := .text (some s)

/-- The value of a number. -/
def ofWord (n : Nat) : Value := .number (some n)

/-- The value of a text that may be absent. -/
def ofOptionalText (s : Option String) : Value := s.elim .null ofText

/-- The object of named values. -/
def record (members : List (String × Value)) : Value :=
  .object (members.map fun m => (some m.1, m.2))

/-- The value of an integer that fits a machine word. -/
def asWord? : Value → Option Nat
  | .number (some (.ofNat n)) => if n < Text.wordLimit then some n else none
  | _ => none

/-- The text of a string. -/
def asText? : Value → Option String
  | .text s => s
  | _ => none

/-- The truth value of a literal. -/
def asBool? : Value → Option Bool
  | .bool b => some b
  | _ => none

/-- The text of a string, or nothing for `null`. -/
def asOptionalText? : Value → Option (Option String)
  | .null => some none
  | v => v.asText?.map some

/-- The fields of a record with the given field names, each present value in its place.  A record
is an object, in which unknown members are passed over and a known one stands at most once, or an
array that holds all fields in order. -/
def fields? (names : List String) : Value → Option (List (Option Value))
  | .array items => if items.length = names.length then some (items.map some) else none
  | .object members =>
    if members.all (fun m => m.1.isSome) then
      names.mapM fun name =>
        match members.filter (fun m => m.1 == some name) with
        | [] => some none
        | [m] => some (some m.2)
        | _ => none
    else none
  | _ => none

end Value

end BucketFs.Json
