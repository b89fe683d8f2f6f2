import CardCombat.Power.Definition

/-!
# Held powers

The powers that a combatant holds, in the order in which they were gained. The set finds a power by
its name; the first one of a name is the one that counts.
-/

namespace CardCombat

/-- A power that someone holds. -/
structure Power where
  id : PowerId
  amount : Int
  duration : Option Int := none
  /-- For how many turns the power neither modifies nor acts. -/
  silencedTurns : Nat := 0
  deriving Repr, DecidableEq

/-- The powers that someone holds. -/
abbrev PowerSet := List Power

def Power.isSilenced (power : Power) : Bool := 0 < power.silencedTurns

namespace PowerSet

/-- The power of a name. -/
def get? (powers : PowerSet) (id : PowerId) : Option Power := powers.find? (·.id == id)

def contains (powers : PowerSet) (id : PowerId) : Bool := (powers.get? id).isSome

/-- The stack of a power, zero if it is not held. -/
def amount (powers : PowerSet) (id : PowerId) : Int := ((powers.get? id).map (·.amount)).getD 0

/-- Puts a power in the place of the one with its name, or else behind all others. -/
def insert (power : Power) : PowerSet → PowerSet
  | [] => [power]
  | held :: powers => if held.id == power.id then power :: powers else held :: insert power powers

@[simp] theorem get?_insert_self (powers : PowerSet) (power : Power) :
    (insert power powers).get? power.id = some power := by
  induction powers with
  | nil => simp [insert, get?]
  | cons held powers ih =>
    by_cases h : held.id = power.id
    · simp [insert, get?, h]
    · simpa [insert, get?, h] using ih

theorem get?_insert_ne (powers : PowerSet) (power : Power) {id : PowerId} (h : id ≠ power.id) :
    (insert power powers).get? id = powers.get? id := by
  induction powers with
  | nil => simp [insert, get?, h.symm]
  | cons held powers ih =>
    by_cases hid : held.id = power.id
    · simp [insert, get?, hid, h.symm]
    · by_cases hheld : held.id = id
      · simp [insert, get?, hheld, h]
      · simpa [insert, get?, hid, hheld] using ih

/-- Takes out the power of a name. -/
def remove (powers : PowerSet) (id : PowerId) : PowerSet := powers.eraseP (·.id == id)

/-- Changes the power of a name. -/
def modify (id : PowerId) (change : Power → Power) : PowerSet → PowerSet
  | [] => []
  | held :: powers =>
    if held.id == id then change held :: powers else held :: modify id change powers

/-- Silences the powers of a name, or all of them, for at least so many turns; which those were. -/
def silence (powers : PowerSet) (id : Option PowerId) (turns : Nat) : List PowerId × PowerSet :=
  let isMeant (power : Power) : Bool := id.all (power.id == ·)
  ((powers.filter isMeant).map (·.id),
    powers.map fun power =>
      if isMeant power then { power with silencedTurns := max power.silencedTurns turns }
      else power)

/-- One turn of silence passes. -/
def passSilence (powers : PowerSet) : PowerSet :=
  powers.map fun power => { power with silencedTurns := power.silencedTurns - 1 }

end PowerSet

end CardCombat
