/-!
# JSON values

The interchange format of content packs, saved runs and events. Members of an object are kept in
order and a repeated key is kept twice, so that a record can refuse it. Whole numbers are apart
from other numbers: an integer field accepts only the former.

A text can hold a value that is well formed and yet denotes nothing: a number beyond the largest
finite one, a string with half of a surrogate pair, a container nested too deeply. Such a value may
stand where it is skipped and nowhere else; it is `unreadable`.
-/

namespace CardCombat

/-- A JSON value. -/
inductive Json where
  | null
  | bool (value : Bool)
  /-- A number written without fraction and exponent. -/
  | int (value : Int)
  /-- Any other number. -/
  | double (value : Float)
  /-- A number that is written with single precision. -/
  | single (value : Float32)
  | string (value : String)
  | array (items : List Json)
  | object (members : List (String × Json))
  /-- A value that can be skipped but not used. -/
  | unreadable
  deriving Repr, Inhabited

namespace Json

mutual

/-- Whether every part of the value can be used. -/
def readable : Json → Bool
  | .array items => readableItems items
  | .object members => readableMembers members
  | .unreadable => false
  | _ => true

def readableItems : List Json → Bool
  | [] => true
  | item :: items => item.readable && readableItems items

def readableMembers : List (String × Json) → Bool
  | [] => true
  | (_, value) :: members => value.readable && readableMembers members

end

mutual

/-- How many containers are nested in one another. -/
def depth : Json → Nat
  | .array items => depthItems items + 1
  | .object members => depthMembers members + 1
  | _ => 0

def depthItems : List Json → Nat
  | [] => 0
  | item :: items => max item.depth (depthItems items)

def depthMembers : List (String × Json) → Nat
  | [] => 0
  | (_, value) :: members => max value.depth (depthMembers members)

end

theorem depth_le_depthItems {item : Json} {items : List Json} (h : item ∈ items) :
    item.depth ≤ depthItems items := by
  induction items with
  | nil => cases h
  | cons head tail ih =>
    rw [depthItems]
    rcases List.mem_cons.1 h with rfl | h
    · omega
    · have := ih h
      omega

theorem depth_le_depthMembers {key : String} {value : Json} {members : List (String × Json)}
    (h : (key, value) ∈ members) : value.depth ≤ depthMembers members := by
  induction members with
  | nil => cases h
  | cons head tail ih =>
    obtain ⟨_, _⟩ := head
    rw [depthMembers]
    rcases List.mem_cons.1 h with h | h
    · cases h
      omega
    · have := ih h
      omega

end Json

end CardCombat
