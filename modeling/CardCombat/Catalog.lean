/-!
# Catalogs

A catalog holds definitions by name in the order of their first registration. Replacing a
definition keeps its place, so the order of a catalog depends only on the order in which names were
first seen.
-/

namespace CardCombat

/-- Definitions by name. -/
structure Catalog (α : Type) where
  entries : List (String × α) := []

namespace Catalog

variable {α : Type}

def empty : Catalog α := ⟨[]⟩

instance : Inhabited (Catalog α) := ⟨empty⟩

/-- The definition of a name. -/
def find? (catalog : Catalog α) (name : String) : Option α := catalog.entries.lookup name

def contains (catalog : Catalog α) (name : String) : Bool := (catalog.find? name).isSome

def values (catalog : Catalog α) : List α := catalog.entries.map (·.2)

def names (catalog : Catalog α) : List String := catalog.entries.map (·.1)

def size (catalog : Catalog α) : Nat := catalog.entries.length

/-- Puts a definition in the place of the one with its name, or else behind all others. -/
def putEntry (name : String) (value : α) : List (String × α) → List (String × α)
  | [] => [(name, value)]
  | entry :: entries =>
    if name == entry.1 then (name, value) :: entries else entry :: putEntry name value entries

/-- Registers a definition, replacing one of the same name. -/
def put (catalog : Catalog α) (name : String) (value : α) : Catalog α :=
  ⟨putEntry name value catalog.entries⟩

/-- Registers a definition unless its name is taken. -/
def register? (catalog : Catalog α) (name : String) (value : α) : Option (Catalog α) :=
  if catalog.contains name then none else some (catalog.put name value)

theorem lookup_putEntry (name key : String) (value : α) (entries : List (String × α)) :
    (putEntry name value entries).lookup key =
      if key == name then some value else entries.lookup key := by
  induction entries with
  | nil =>
    rw [putEntry, List.lookup_cons, List.lookup_nil]
    cases key == name <;> rfl
  | cons entry entries ih =>
    obtain ⟨k, v⟩ := entry
    rw [putEntry]
    by_cases hk : name = k
    · subst hk
      rw [if_pos (beq_self_eq_true name), List.lookup_cons, List.lookup_cons]
      cases key == name <;> rfl
    · rw [if_neg (mt eq_of_beq hk), List.lookup_cons, List.lookup_cons, ih]
      cases h : key == k with
      | false => rfl
      | true =>
        have hne : (key == name) = false := beq_false_of_ne fun e => hk (e ▸ eq_of_beq h)
        rw [hne]
        rfl

/-- A registered definition is found under its name, and no other name is affected. -/
theorem find?_put (catalog : Catalog α) (name key : String) (value : α) :
    (catalog.put name value).find? key = if key == name then some value else catalog.find? key :=
  lookup_putEntry name key value catalog.entries

end Catalog

end CardCombat
