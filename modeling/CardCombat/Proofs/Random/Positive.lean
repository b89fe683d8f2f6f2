import CardCombat.Random.Choice
import Mathlib

/-!
# Sums of positive weights

Weights are floating point numbers of single precision. Their sums are rounded, and a sum that is
too great is infinite, but a sum of positive numbers is positive all the same: rounding to the
nearest number drops no digits that the result has room for, and the leading digit of a sum stands
no lower than those of its parts. A weight that is not a number is not positive.

Numbers are looked at as the format unpacks them, with a sign, a mantissa and an exponent.

## Main definitions

* `Above` -- an unpacked number is positive, and it fits the format or is infinite.

## Main results

* `above_add`, `above_unpack_pack` -- sums are above zero, and they stay so when they are packed.
* `pos_iff_above` -- the positive numbers are those that are unpacked to one above zero.
* `pos_add`, `pos_zero_add` -- sums of positive numbers are positive.
-/

namespace CardCombat

open Float.Model Float.Model.UnpackedFloat

/-! ## Shifts -/

/-- A shift of a mantissa is a division. -/
theorem mantissa_shiftRight (em : ExtendedMantissa) (amount : Nat) :
    (em >>> amount).mantissa = em.mantissa / 2 ^ amount := by
  induction amount with
  | zero => exact (Nat.div_one _).symm
  | succ amount ih =>
      show (em >>> amount).mantissa / 2 = _
      rw [ih, Nat.div_div_eq_div_mul, ← Nat.pow_succ]

/-- Rounding to the nearest number takes nothing off the mantissa. -/
theorem mantissa_le_roundedMantissa (em : ExtendedMantissa) :
    em.mantissa ≤ em.roundedMantissa := by
  obtain ⟨mantissa, roundBit, stickyBit⟩ := em
  cases roundBit with
  | false => cases stickyBit <;> exact Nat.le_refl _
  | true => cases stickyBit <;> exact Nat.le_add_right _ _

/-- Single precision. -/
abbrev single : Format := .binary32

/-- The exponent that numbers of single precision have at the least. -/
abbrev leastExponent : Int := -149

/-- The exponent for which a mantissa has digits enough. -/
theorem targetExponent_eq (mantissa : Nat) (exponent : Int) :
    single.targetExponent (totalExponent mantissa exponent) =
      max (mantissa.log2 + 1 + exponent - 24) leastExponent := rfl

variable {mantissa : Nat} {exponent : Int} {accuracy : Accuracy}

/-- A mantissa that was shifted to the exponent for which its digits are enough has no more digits
than the format, and its exponent is no lower than the least one. -/
theorem fits_shiftToTargetExponent {em : ExtendedMantissa} {shifted : Int}
    (h : shiftToTargetExponent single mantissa exponent accuracy = (em, shifted)) :
    em.mantissa < 2 ^ 24 ∧ leastExponent ≤ shifted ∧
      (0 < mantissa → leastExponent ≤ exponent → 0 < em.mantissa) := by
  have hstart (accuracy : Accuracy) :
      (ExtendedMantissa.ofMantissaAndAccuracy mantissa accuracy).mantissa = mantissa := by
    cases accuracy with
    | exact => rfl
    | inexact place => cases place <;> rfl
  obtain ⟨rfl, rfl⟩ := Prod.mk.inj h
  rw [mantissa_shiftRight, hstart, targetExponent_eq]
  generalize hamount :
    (max ((mantissa.log2 : Int) + 1 + exponent - 24) leastExponent - exponent).toNat = amount
  refine ⟨?few, by omega, fun hpos hleast => ?pos⟩
  case few =>
    rw [Nat.div_lt_iff_lt_mul (Nat.two_pow_pos amount), ← Nat.pow_add]
    refine Nat.lt_of_lt_of_le Nat.lt_log2_self (Nat.pow_le_pow_right (by decide) ?_)
    omega
  case pos =>
    refine Nat.div_pos (Nat.le_trans ?_ (Nat.log2_self_le (Nat.ne_of_gt hpos)))
      (Nat.two_pow_pos amount)
    exact Nat.pow_le_pow_right (by decide) (by omega)

/-! ## Numbers above zero -/

/-- An unpacked number is positive, and it has no more digits than the format and no lower exponent,
unless it is infinite. -/
inductive Above : UnpackedFloat → Prop
  | infinity : Above (.infinity .positive)
  | finite {mantissa exponent hpos} (hfew : mantissa < 2 ^ 24)
      (hleast : leastExponent ≤ exponent) : Above (.finite .positive mantissa exponent hpos)

/-- Rounding leaves a positive number above zero. -/
theorem above_round (hpos : 0 < mantissa) (hleast : leastExponent ≤ exponent) :
    Above (round single .positive mantissa exponent) := by
  unfold UnpackedFloat.round decreaseExponent roundWithAccuracy
  rw [targetExponent_eq]
  dsimp only
  generalize hamount :
    (exponent - max ((mantissa.log2 : Int) + 1 + exponent - 24) leastExponent).toNat = amount
  have hshifted : 0 < mantissa <<< amount := by
    rw [Nat.shiftLeft_eq]
    exact Nat.mul_pos hpos (Nat.two_pow_pos amount)
  generalize hfirst : shiftToTargetExponent single (mantissa <<< amount)
    (exponent - (amount : Int)) .exact = first
  obtain ⟨em, middle⟩ := first
  obtain ⟨-, hmiddle, hdigits⟩ := fits_shiftToTargetExponent hfirst
  have hrounded : 0 < em.roundedMantissa :=
    Nat.lt_of_lt_of_le (hdigits hshifted (by omega)) (mantissa_le_roundedMantissa em)
  dsimp only
  -- rounding up may need one more digit, so there is a second shift
  generalize hsecond : shiftToTargetExponent single em.roundedMantissa middle .exact = second
  obtain ⟨last, final⟩ := second
  obtain ⟨hfew, hfinal, hkept⟩ := fits_shiftToTargetExponent hsecond
  dsimp only
  rw [dif_neg (Nat.ne_of_gt (hkept hrounded hmiddle))]
  exact .finite hfew hfinal

theorem above_add {x y : UnpackedFloat} (hx : Above x) (hy : Above y) :
    Above (UnpackedFloat.add single x y) := by
  cases hx with
  | infinity =>
      cases hy with
      | infinity => exact .infinity
      | finite => exact .infinity
  | @finite mantissa exponent hpos hfew hleast =>
      cases hy with
      | infinity => exact .infinity
      | @finite mantissa' exponent' hpos' hfew' hleast' =>
          unfold UnpackedFloat.add UnpackedFloat.normalize decreaseExponent Sign.apply
          dsimp only
          have hsum : 0 < (mantissa <<< (exponent - min exponent exponent').toNat : Nat) +
              (mantissa' <<< (exponent' - min exponent exponent').toNat : Nat) := by
            rw [Nat.shiftLeft_eq]
            exact Nat.add_pos_left (Nat.mul_pos hpos (Nat.two_pow_pos _)) _
          generalize mantissa <<< (exponent - min exponent exponent').toNat = a at hsum ⊢
          generalize mantissa' <<< (exponent' - min exponent exponent').toNat = b at hsum ⊢
          have hgreater : compare ((a : Int) + (b : Int)) 0 = .gt :=
            Int.compare_eq_gt.mpr (by omega)
          rw [hgreater]
          exact above_round (by omega) (Int.le_min.mpr ⟨hleast, hleast'⟩)

/-! ## Packing -/

/-- Whatever is unpacked fits the format. -/
theorem fits_unpack {bits : BitVec single.numBits} {sign : Sign} {hpos : 0 < mantissa}
    (h : UnpackedFloat.unpack single bits = .finite sign mantissa exponent hpos) :
    mantissa < 2 ^ 24 ∧ leastExponent ≤ exponent := by
  have hdigits : (@unpackMantissa single bits).toNat < 2 ^ 23 := BitVec.isLt _
  unfold UnpackedFloat.unpack at h
  dsimp only at h
  split at h
  · split at h <;> exact absurd h nofun
  · split at h
    case isTrue hleast =>
      split at h
      · exact absurd h nofun
      · obtain ⟨-, rfl, rfl⟩ := UnpackedFloat.finite.inj h
        rw [hleast]
        exact ⟨by omega, by decide⟩
    case isFalse hnormal =>
      obtain ⟨-, rfl, rfl⟩ := UnpackedFloat.finite.inj h
      have hpositive : (@unpackExponent single bits).toNat ≠ 0 := fun h =>
        hnormal (BitVec.eq_of_toNat_eq h)
      refine ⟨BitVec.isLt (1#1 ++ @unpackMantissa single bits), ?_⟩
      show (-149 : Int) ≤ (@unpackExponent single bits).toNat - (127 + 23)
      omega

/-- Numbers that are unpacked are above zero if they are greater than zero. -/
theorem above_unpack_iff {bits : BitVec single.numBits} :
    Above (UnpackedFloat.unpack single bits) ↔
      (UnpackedFloat.zero .positive).lt (UnpackedFloat.unpack single bits) = true := by
  constructor
  · generalize UnpackedFloat.unpack single bits = x
    intro h
    cases h <;> rfl
  · cases hunpack : UnpackedFloat.unpack single bits with
    | notANumber | zero => exact fun h => absurd h nofun
    | infinity sign =>
        cases sign with
        | negative => exact fun h => absurd h nofun
        | positive => exact fun _ => .infinity
    | finite sign mantissa exponent hpos =>
        cases sign with
        | negative => exact fun h => absurd h nofun
        | positive =>
            obtain ⟨hfew, hleast⟩ := fits_unpack hunpack
            exact fun _ => .finite hfew hleast

theorem unpackSign_packComponents {spec : Format} (sign : Sign)
    (exponent : BitVec spec.exponentBits) (digits : BitVec spec.mantissaBitsWithoutImplicit) :
    unpackSign (packComponents spec sign exponent digits) = sign.toBitVec := by
  refine BitVec.eq_of_getLsbD_eq fun i hi => ?_
  obtain rfl : i = 0 := by omega
  simp [unpackSign, packComponents, BitVec.getLsbD_append, BitVec.getElem_append]

/-- Numbers that are packed without a sign are above zero when they are unpacked, unless all their
digits are zero or they are none. -/
theorem above_unpack_packComponents {exponent : BitVec single.exponentBits}
    {digits : BitVec single.mantissaBitsWithoutImplicit} (hnumber : exponent = -1#_ → digits = 0#_)
    (hzero : exponent = 0#_ → digits ≠ 0#_) :
    Above (UnpackedFloat.unpack single (packComponents single .positive exponent digits)) := by
  rw [above_unpack_iff]
  unfold UnpackedFloat.unpack
  simp only [unpackSign_packComponents, unpackExponent_packComponents,
    unpackMantissa_packComponents]
  split
  case isTrue hmax =>
    rw [if_pos (hnumber hmax)]
    rfl
  case isFalse =>
    split
    case isTrue hleast =>
      rw [dif_neg (hzero hleast)]
      rfl
    case isFalse => rfl

/-- **Numbers above zero stay above zero** when they are packed. -/
theorem above_unpack_pack {x : UnpackedFloat} (hx : Above x) :
    Above (UnpackedFloat.unpack single (UnpackedFloat.pack single x)) := by
  cases hx with
  | infinity => exact above_unpack_packComponents (fun _ => rfl) fun h => absurd h (by decide)
  | @finite mantissa exponent hpos hfew hleast =>
      unfold UnpackedFloat.pack
      dsimp only
      generalize hbiased : (exponent + single.exponentBias +
        single.mantissaBitsWithoutImplicit).toNat = biased
      have hlow : 1 ≤ biased := by
        have hbias : (single.exponentBias : Int) = 127 := rfl
        have hdigits : (single.mantissaBitsWithoutImplicit : Int) = 23 := rfl
        have hleast : -149 ≤ exponent := hleast
        omega
      split
      case isTrue => exact above_unpack_packComponents (fun _ => rfl) fun h => absurd h (by decide)
      case isFalse hroom =>
        have hroom : biased + 1 < 256 := Nat.lt_of_not_le hroom
        split
        case isTrue =>
          have hfield : (BitVec.ofNat single.exponentBits biased).toNat = biased :=
            Nat.mod_eq_of_lt (show biased < 2 ^ 8 by omega)
          refine above_unpack_packComponents (fun hmax => ?_) fun hleast => ?_
          · rw [hmax] at hfield
            have hfull : (-BitVec.ofNat single.exponentBits 1).toNat = 255 := by decide
            omega
          · rw [hleast] at hfield
            have hnone : (BitVec.ofNat single.exponentBits 0).toNat = 0 := rfl
            omega
        case isFalse hshort =>
          have hlog : mantissa.log2 < 24 := (Nat.log2_lt (Nat.ne_of_gt hpos)).mpr hfew
          have hshort : mantissa.log2 ≠ 23 := fun h => hshort (congrArg (· + 1) h)
          have hdigits : mantissa < 2 ^ 23 :=
            (Nat.log2_lt (Nat.ne_of_gt hpos)).mp (by omega)
          refine above_unpack_packComponents (fun hmax => absurd hmax (by decide)) fun _ hzero => ?_
          have hnone : mantissa % 2 ^ 23 = 0 := congrArg BitVec.toNat hzero
          omega

/-! ## Sums -/

variable {x y : Float32}

/-- A number is positive if it is unpacked to one above zero. -/
theorem pos_iff_above : 0 < x ↔ Above x.toModel.unpack := by
  show (decide _ = true) ↔ _
  rw [decide_eq_true_iff]
  exact above_unpack_iff.symm

theorem zero_not_pos : ¬(0 : Float32) < 0 := by decide

/-- **A sum of positive numbers is positive**, though it is rounded. -/
theorem pos_add (hx : 0 < x) (hy : 0 < y) : 0 < x + y :=
  pos_iff_above.mpr (above_unpack_pack (above_add (pos_iff_above.mp hx) (pos_iff_above.mp hy)))

theorem pos_zero_add (hx : 0 < x) : 0 < 0 + x := by
  refine pos_iff_above.mpr (above_unpack_pack ?_)
  have hx : Above x.toModel.unpack := pos_iff_above.mp hx
  show Above (UnpackedFloat.add _ (.zero .positive) _)
  generalize x.toModel.unpack = y at hx ⊢
  cases hx with
  | infinity => exact .infinity
  | finite hfew hleast => exact .finite hfew hleast

end CardCombat
