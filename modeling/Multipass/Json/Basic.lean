import Multipass.Number.Binary

/-!
# JSON values

Values with the fields of an object in ascending order of their keys, one field to a key. Integers
keep their value when they fit in 64 bits, with a sign or without; every other number is a double.
-/

namespace Multipass

open Number

/-- A JSON value. -/
inductive Json where
  | null
  | bool (b : Bool)
  | int (i : Int)
  | float (x : Double)
  | str (s : String)
  | arr (items : List Json)
  | obj (fields : List (String × Json))
  deriving Repr, Inhabited

namespace Json

/-- Sets a field, before the first key that is greater. A field with the key is replaced. -/
def insertField (key : String) (value : Json) : List (String × Json) → List (String × Json)
  | [] => [(key, value)]
  | (k, v) :: rest =>
    if key < k then (key, value) :: (k, v) :: rest
    else if key = k then (key, value) :: rest
    else (k, v) :: insertField key value rest

/-- An object from fields in any order; of two fields with one key the last counts. -/
def ofFields (fields : List (String × Json)) : Json :=
  .obj (fields.foldl (fun acc (k, v) => insertField k v acc) [])

/-- The field of a key among fields. -/
def lookup (key : String) : List (String × Json) → Option Json
  | [] => none
  | (k, v) :: rest => if k = key then some v else lookup key rest

/-- The field of an object. -/
def field? (j : Json) (key : String) : Option Json :=
  match j with
  | .obj fields => lookup key fields
  | _ => none

/-- The item of an array. -/
def item? (j : Json) (i : Nat) : Option Json :=
  match j with
  | .arr items => items[i]?
  | _ => none

/-- The fields of an object. -/
def fields? : Json → Option (List (String × Json))
  | .obj fields => some fields
  | _ => none

/-- The items of an array. -/
def items? : Json → Option (List Json)
  | .arr items => some items
  | _ => none

/-- The text of a string. -/
def str? : Json → Option String
  | .str s => some s
  | _ => none

/-- The truth value of a boolean. -/
def bool? : Json → Option Bool
  | .bool b => some b
  | _ => none

/-- The value of an integer. -/
def int? : Json → Option Int
  | .int i => some i
  | _ => none

/-- The value of an integer that is not negative. -/
def nat? : Json → Option Nat
  | .int i => if 0 ≤ i then some i.toNat else none
  | _ => none

/-- The value of a number as a double. -/
def number? : Json → Option Double
  | .int i => some (Double.ofInt i)
  | .float x => some x
  | _ => none

/-- A natural number. -/
def nat (n : Nat) : Json := .int n

/-- A string, or null. -/
def strOrNull : Option String → Json
  | some s => .str s
  | none => .null

/-- An array of strings. -/
def strs (items : List String) : Json :=
  .arr (items.map .str)

mutual

/-- Equality of values, with numbers compared as numbers within each of the two kinds: the two
zeros of the doubles are equal. -/
def same : Json → Json → Bool
  | .null, .null => true
  | .bool a, .bool b => a == b
  | .int a, .int b => a == b
  | .float a, .float b => a.eq b
  | .str a, .str b => a == b
  | .arr a, .arr b => sameItems a b
  | .obj a, .obj b => sameFields a b
  | _, _ => false

/-- Equality of lists of values. -/
def sameItems : List Json → List Json → Bool
  | [], [] => true
  | a :: as, b :: bs => same a b && sameItems as bs
  | _, _ => false

/-- Equality of lists of fields. -/
def sameFields : List (String × Json) → List (String × Json) → Bool
  | [], [] => true
  | (k, a) :: as, (l, b) :: bs => k == l && same a b && sameFields as bs
  | _, _ => false

end

end Json

end Multipass
