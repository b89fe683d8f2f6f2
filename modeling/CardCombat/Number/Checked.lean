/-!
# Integers that refuse to leave their range

Every quantity of a combat lives in a fixed range: amounts, costs and stacks in signed 32 bits,
turns and charges in unsigned 32 bits, identifiers and totals in unsigned 64 bits. The values are
kept as `Int` and `Nat`, so that arithmetic on them is ordinary arithmetic, and the operations
here compute the exact result first and then ask whether it still fits. A result that does not fit
is a `Fault`, never a wrapped number: a rule that succeeds has computed what it says.

`Signed.saturate` and `Signed.wrap` are the two conversions that give up exactness on purpose.
-/

namespace CardCombat

/-- The operation whose exact result left its range. -/
inductive Operation where
  | add
  | subtract
  | multiply
  | negate
  deriving Repr, DecidableEq

/-- Why a rule could not be carried out. -/
inductive Fault where
  /-- The exact result does not fit the range of the quantity. -/
  | overflow (operation : Operation)
  /-- A number was to be drawn from an empty interval. -/
  | emptyRange
  /-- A quantity was to be brought between bounds of which the lower is the greater. -/
  | crossedBounds (low high : Int)
  deriving Repr, DecidableEq

def Operation.name : Operation → String
  | .add => "add"
  | .subtract => "subtract"
  | .multiply => "multiply"
  | .negate => "negate"

def Fault.message : Fault → String
  | .overflow operation => "attempt to " ++ operation.name ++ " with overflow"
  | .emptyRange => "cannot sample empty range"
  | .crossedBounds low high =>
    "min > max. min = " ++ toString low ++ ", max = " ++ toString high

/-! ## Signed quantities -/

namespace Signed

/-- The least signed quantity. -/
abbrev least : Int := -2147483648

/-- The greatest signed quantity. -/
abbrev greatest : Int := 2147483647

/-- The range of a signed quantity. -/
def Fits (n : Int) : Prop := least ≤ n ∧ n ≤ greatest

instance (n : Int) : Decidable (Fits n) := inferInstanceAs (Decidable (_ ∧ _))

/-- Accepts an exact result that fits. -/
def check (operation : Operation) (n : Int) : Except Fault Int :=
  if Fits n then .ok n else .error (.overflow operation)

def add (a b : Int) : Except Fault Int := check .add (a + b)

def sub (a b : Int) : Except Fault Int := check .subtract (a - b)

def mul (a b : Int) : Except Fault Int := check .multiply (a * b)

def neg (a : Int) : Except Fault Int := check .negate (-a)

/-- The sum of a list, from the left, refusing the first partial sum that does not fit. -/
def sum (xs : List Int) : Except Fault Int := xs.foldlM add 0

/-- `percent` hundredths of `n`, rounded toward zero. -/
def percentOf (n percent : Int) : Except Fault Int := do
  return (← mul n percent).tdiv 100

/-- The quantity from `low` to `high` nearest to `n`. -/
def clamp (n low high : Int) : Except Fault Int :=
  if low ≤ high then .ok (max low (min high n)) else .error (.crossedBounds low high)

/-- The quantity nearest to `n`. -/
def saturate (n : Int) : Int := max least (min greatest n)

/-- The quantity that has the last 32 binary digits of `n`. -/
def wrap (n : Int) : Int := n.bmod 4294967296

theorem check_eq_ok_iff {operation : Operation} {n m : Int} :
    check operation n = .ok m ↔ Fits n ∧ m = n := by
  unfold check
  split <;> simp_all [eq_comm]

theorem add_eq_ok_iff {a b c : Int} : add a b = .ok c ↔ Fits (a + b) ∧ c = a + b :=
  check_eq_ok_iff

theorem sub_eq_ok_iff {a b c : Int} : sub a b = .ok c ↔ Fits (a - b) ∧ c = a - b :=
  check_eq_ok_iff

theorem mul_eq_ok_iff {a b c : Int} : mul a b = .ok c ↔ Fits (a * b) ∧ c = a * b :=
  check_eq_ok_iff

theorem fits_saturate (n : Int) : Fits (saturate n) := by
  unfold Fits saturate least greatest
  omega

theorem saturate_of_fits {n : Int} (h : Fits n) : saturate n = n := by
  unfold Fits least greatest at h
  unfold saturate least greatest
  omega

end Signed

/-! ## Unsigned quantities -/

namespace Unsigned

/-- `a + b`, if it is written with `bits` binary digits. -/
def add (bits a b : Nat) : Except Fault Nat :=
  if a + b < 1 <<< bits then .ok (a + b) else .error (.overflow .add)

theorem add_eq_ok_iff {bits a b c : Nat} :
    add bits a b = .ok c ↔ a + b < 1 <<< bits ∧ c = a + b := by
  unfold add
  split
  · simp_all [eq_comm]
  · simp only [reduceCtorEq, false_iff, not_and]
    omega

end Unsigned

end CardCombat
