import CardCombat.Json.Basic
import CardCombat.Number.Decimal

/-!
# Records, variants and tags

How a JSON value stands for a value of the domain. A reader returns nothing when the value does not
have the form it wants; there is one kind of failure and no message.

* A *record* is an object. Members with other keys than the ones asked for are ignored; a key that
  is asked for may not be repeated. A member may be required, may have a default, or may be
  optional, and only then may be `null`.
* A *named* value is a string out of a table of names; the object with that name as its only key
  and `null` as its value stands for the same.
* A *tagged* value is a record in which one member names the variant; if the tag is all that there
  is to say, the array with nothing but the tag stands for the same. Every part of a tagged value is
  read before the variant is known, so no part may be unreadable.
* What is *inside* a tagged value may be written more freely: a named value also as the object with
  its name as the only key and the empty object as value, and a tagged value with its tag given by
  number, which is its place in the table of tags.
-/

namespace CardCombat

/-- The members of an object. -/
abbrev Members := List (String × Json)

namespace Json

/-! ## Plain values -/

def bool? : Json → Option Bool
  | .bool value => some value
  | _ => none

def string? : Json → Option String
  | .string value => some value
  | _ => none

/-- An integer in the signed range. -/
def signed? : Json → Option Int
  | .int n => if -2147483648 ≤ n ∧ n ≤ 2147483647 then some n else none
  | _ => none

/-- A natural number with at most `bits` binary digits. -/
def unsigned? (bits : Nat) : Json → Option Nat
  | .int n => if 0 ≤ n ∧ n < 1 <<< bits then some n.toNat else none
  | _ => none

/-- Any number, with double precision. -/
def double? : Json → Option Float
  | .int n => Decimal.ofInt? n
  | .double x => some x
  | .single x => some x.toFloat
  | _ => none

/-- Any number, with single precision. A whole number of 64 binary digits, signed or unsigned, is
rounded once, all others to double precision first. -/
def single? : Json → Option Float32
  | .int n =>
    if -(1 <<< 63 : Nat) ≤ n ∧ n < (1 <<< 64 : Nat) then
      let magnitude := n.natAbs.toUInt64.toFloat32
      some (if n < 0 then -magnitude else magnitude)
    else (Decimal.ofInt? n).map Float.toFloat32
  | .double x => some x.toFloat32
  | .single x => some x
  | _ => none

/-- An array of values that `read` accepts. -/
def list? {α : Type} (read : Json → Option α) : Json → Option (List α)
  | .array items => items.mapM read
  | _ => none

/-- A value that may be `null`. -/
def nullable? {α : Type} (read : Json → Option α) : Json → Option (Option α)
  | .null => some none
  | value => (read value).map some

/-- The written form of a value that may be absent. -/
def ofOption {α : Type} (write : α → Json) : Option α → Json
  | none => .null
  | some value => write value

def ofList {α : Type} (write : α → Json) (values : List α) : Json := .array (values.map write)

def ofNat (n : Nat) : Json := .int n

/-! ## Named values -/

/-- The value out of `all` with the given name. -/
def byName? {α : Type} (name : α → String) (all : List α) (s : String) : Option α :=
  all.find? (name · == s)

/-- A value given by its name; `inner` says that it is inside a tagged value. -/
def named? {α : Type} (inner : Bool) (name : α → String) (all : List α) : Json → Option α
  | .string s => byName? name all s
  | .object [(s, .null)] => byName? name all s
  | .object [(s, .object [])] => if inner then byName? name all s else none
  | _ => none

/-- A value given as an object whose only key is `key`. -/
def wrapped? {α : Type} (key : String) (read : Json → Option α) : Json → Option α
  | .object [(k, value)] => if k == key then read value else none
  | _ => none

/-! ## Tagged values -/

/-- The tag that a value stands for. -/
def tag? (tags : List String) (inner : Bool) : Json → Option String
  | .string s => if s ∈ tags then some s else none
  | .int n => if inner ∧ 0 ≤ n then tags[n.toNat]? else none
  | _ => none

end Json

/-! ## Records -/

namespace Members

/-- The value of a key that is not repeated, if it is there. -/
def unique? (members : Members) (key : String) : Option (Option Json) :=
  match members.filter (·.1 == key) with
  | [] => some none
  | [(_, value)] => some (some value)
  | _ => none

/-- A member that must be there. -/
def required {α : Type} (members : Members) (key : String) (read : Json → Option α) : Option α :=
  match members.unique? key with
  | some (some value) => read value
  | _ => none

/-- A member with a default. -/
def withDefault {α : Type} (members : Members) (key : String) (default : α)
    (read : Json → Option α) : Option α :=
  match members.unique? key with
  | some (some value) => read value
  | some none => some default
  | none => none

/-- A member that may be absent or `null`. -/
def optional {α : Type} (members : Members) (key : String) (read : Json → Option α) :
    Option (Option α) :=
  members.withDefault key none (Json.nullable? read)

end Members

namespace Json

/-- The members of a record. -/
def record? : Json → Option Members
  | .object members => some members
  | _ => none

/-- The tag and the members of a tagged value; `inner` says that it is inside another one. -/
def tagged? (key : String) (tags : List String) (inner : Bool) : Json → Option (String × Members)
  | .object members =>
    if readableMembers members then
      (Members.required members key (tag? tags inner)).map fun tag => (tag, members)
    else none
  | .array [tag] => (tag? tags inner tag).map fun tag => (tag, [])
  | _ => none

end Json

end CardCombat
