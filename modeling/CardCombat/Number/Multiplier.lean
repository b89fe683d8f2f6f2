import CardCombat.Number.Checked

/-!
# Multipliers in halves

The factors that scale a hit are 0.5, 1, 1.5 and 2. They are counted in halves, so a scaled amount
is the floor of an exact product and no rounding of floating-point numbers enters a hit.
-/

namespace CardCombat

/-- A factor, counted in halves. -/
structure Multiplier where
  halves : Nat
  deriving Repr, DecidableEq

namespace Multiplier

def half : Multiplier := ⟨1⟩

def one : Multiplier := ⟨2⟩

def oneAndHalf : Multiplier := ⟨3⟩

def two : Multiplier := ⟨4⟩

/-- The floor of `n` times the factor, brought back into range if it leaves it. -/
def scale (factor : Multiplier) (n : Int) : Int :=
  Signed.saturate (n * factor.halves / 2)

def toFloat (factor : Multiplier) : Float := Float.ofNat factor.halves / 2

theorem scale_one {n : Int} (h : Signed.Fits n) : one.scale n = n := by
  have : n * 2 / 2 = n := by omega
  simp [scale, one, this, Signed.saturate_of_fits h]

theorem scale_mono (factor : Multiplier) {m n : Int} (h : m ≤ n) :
    factor.scale m ≤ factor.scale n := by
  have : m * factor.halves ≤ n * factor.halves := Int.mul_le_mul_of_nonneg_right h (by omega)
  unfold scale Signed.saturate
  omega

end Multiplier

end CardCombat
