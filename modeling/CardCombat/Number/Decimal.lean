/-!
# Floating-point numbers and decimal text

Two rules connect a floating-point number with its decimal form.

*Reading.* The leading digits that fit 64 binary digits make a significand; what remains is a power
of ten. The significand is rounded once, when it becomes a floating-point number, and once more by
one multiplication or division by the power (`Decimal.toFloat?`). A result beyond the largest
finite number is no number.

*Writing.* The digits written are the fewest that round to the number, and of those the nearest to
it (`Decimal.shortest`). The search is in exact arithmetic: a finite number is `m · 2^q`, the reals
that round to it are an interval with ends `m · 2^q ± 2^(q-1)` (closer below a power of two), and
for each count of digits only the two neighbours of the number on the decimal grid can lie in it.
-/

namespace CardCombat

/-- The number `significand · 10^exponent`. -/
structure Decimal where
  significand : Nat
  exponent : Int
  deriving Repr, DecidableEq

namespace Decimal

/-! ## Reading -/

/-- Takes digits into a significand while it stays below `2^64`; also the digits left over. -/
def absorb : Nat → List Nat → Nat × List Nat
  | significand, [] => (significand, [])
  | significand, digit :: digits =>
    if significand * 10 + digit < 1 <<< 64 then absorb (significand * 10 + digit) digits
    else (significand, digit :: digits)

/-- The decimal with the given digits before the point, after the point, and exponent. -/
def ofDigits (whole fraction : List Nat) (exponent : Int) : Decimal :=
  let (significand, dropped) := absorb 0 whole
  let (significand, ignored) := absorb significand fraction
  ⟨significand, exponent + dropped.length - (fraction.length - ignored.length : Nat)⟩

/-- The power of ten with a given exponent, rounded. -/
def power (exponent : Nat) : Float := Float.ofScientific 1 false exponent

/-- `x / 10^n`, by divisions by at most `10^308`. -/
def divide (x : Float) (n : Nat) : Float :=
  if h : n ≤ 308 then x / power n
  else if x == 0 then x
  else divide (x / power 308) (n - 308)
termination_by n
decreasing_by omega

/-- The floating-point number that the decimal is read as, if it is finite. -/
def toFloat? (d : Decimal) : Option Float :=
  let x := d.significand.toUInt64.toFloat
  if d.exponent < 0 then
    some (divide x d.exponent.natAbs)
  else if d.exponent ≤ 308 then
    let y := x * power d.exponent.natAbs
    if y.isInf then none else some y
  else if x == 0 then some x
  else none

/-- The decimal digits of a natural number, first to last. -/
def digits (n : Nat) : List Nat := (Nat.toDigits 10 n).map (·.toNat - '0'.toNat)

/-- The floating-point number that a whole number is read as, if it is finite. -/
def ofInt? (n : Int) : Option Float := do
  let magnitude ← toFloat? (ofDigits (digits n.natAbs) [] 0)
  return if n < 0 then -magnitude else magnitude

/-! ## Writing -/

/-- A positive real with the reals that round to it: it is `value · 2^scale`, the ends of the
interval are `low · 2^scale` and `high · 2^scale`, and belong to it if `closed`. -/
structure Interval where
  low : Nat
  value : Nat
  high : Nat
  scale : Int
  closed : Bool

/-- The interval of a number in a binary format whose significands have `precision` digits and whose
least exponent is `bias`, from the two fields of its encoding. -/
def Interval.ofFields (precision : Nat) (bias : Int) (exponent fraction : Nat) : Interval :=
  let m := if exponent = 0 then fraction else fraction + (1 <<< (precision - 1))
  let step := if fraction = 0 && 1 < exponent then 1 else 2
  ⟨4 * m - step, 4 * m, 4 * m + 2, bias + (exponent - 1 : Nat) - 2, m % 2 = 0⟩

/-- The multiple of the common unit of `10^exponent` and `2^scale` that `n · 10^exponent` is. -/
def decimalUnits (exponent scale : Int) (n : Nat) : Nat :=
  (n * Nat.pow 10 exponent.toNat) <<< (-scale).toNat

/-- The multiple of the same unit that `n · 2^scale` is. -/
def binaryUnits (exponent scale : Int) (n : Nat) : Nat :=
  (n <<< scale.toNat) * Nat.pow 10 (-exponent).toNat

/-- Whether the decimal lies in the interval. -/
def Interval.contains (i : Interval) (d : Decimal) : Bool :=
  let x := decimalUnits d.exponent i.scale d.significand
  let low := binaryUnits d.exponent i.scale i.low
  let high := binaryUnits d.exponent i.scale i.high
  if i.closed then low ≤ x && x ≤ high else low < x && x < high

/-- The decimal of the interval nearest to its value on the grid of multiples of `10^exponent`, if
one of the two neighbours of the value lies in it; a tie goes to the even neighbour. -/
def Interval.onGrid? (i : Interval) (exponent : Int) : Option Decimal :=
  let value := binaryUnits exponent i.scale i.value
  let unit := decimalUnits exponent i.scale 1
  let below : Decimal := ⟨value / unit, exponent⟩
  let above : Decimal := ⟨value / unit + 1, exponent⟩
  let rest := value % unit
  if i.contains below then
    if i.contains above && (unit < 2 * rest || (unit = 2 * rest && below.significand % 2 = 1)) then
      some above
    else
      some below
  else if i.contains above then some above
  else none

/-- The first hit on the grids of the given exponent and the `count` below it. -/
def Interval.search (i : Interval) : Nat → Int → Decimal
  | 0, exponent => (i.onGrid? exponent).getD ⟨0, exponent⟩
  | count + 1, exponent => (i.onGrid? exponent).getD (i.search count (exponent - 1))

/-- The decimal with the fewest digits in the interval. -/
def Interval.shortest (i : Interval) : Decimal :=
  i.search 40 ((i.value.log2 + i.scale) * 30103 / 100000 + 2)

/-- The shortest decimal that rounds to the magnitude of a finite number, nothing for zero. -/
def ofFloat? (x : Float) : Option Decimal :=
  let bits := x.toBits.toNat
  let exponent := (bits >>> 52) % (1 <<< 11)
  let fraction := bits % (1 <<< 52)
  if exponent = 0 && fraction = 0 then none
  else some (Interval.ofFields 53 (-1074) exponent fraction).shortest

/-- The same for a number of single precision. -/
def ofFloat32? (x : Float32) : Option Decimal :=
  let bits := x.toBits.toNat
  let exponent := (bits >>> 23) % (1 <<< 8)
  let fraction := bits % (1 <<< 23)
  if exponent = 0 && fraction = 0 then none
  else some (Interval.ofFields 24 (-149) exponent fraction).shortest

/-! ## Layout -/

/-- When the digits of a number are written without an exponent: if the point falls after
`greatest` digits or fewer, and no more than `least` zeros stand between it and the digits. -/
structure Layout where
  greatest : Int
  least : Int

/-- The text of a positive decimal: positional with a point, or digits with an exponent. -/
def text (layout : Layout) (d : Decimal) : String :=
  let digits := Nat.repr d.significand
  let length : Int := digits.length
  let point := length + d.exponent
  if 0 ≤ d.exponent && point ≤ layout.greatest then
    digits ++ String.ofList (List.replicate d.exponent.toNat '0') ++ ".0"
  else if 0 < point && point ≤ layout.greatest then
    String.ofList (digits.toList.take point.toNat) ++ "." ++
      String.ofList (digits.toList.drop point.toNat)
  else if -layout.least < point && point ≤ 0 then
    "0." ++ String.ofList (List.replicate (-point).toNat '0') ++ digits
  else if length = 1 then
    digits ++ "e" ++ toString (point - 1)
  else
    String.ofList (digits.toList.take 1) ++ "." ++ String.ofList (digits.toList.drop 1) ++ "e" ++
      toString (point - 1)

/-- Layout of a number of double precision. -/
def Layout.double : Layout := ⟨16, 5⟩

/-- Layout of a number of single precision. -/
def Layout.single : Layout := ⟨13, 6⟩

end Decimal

end CardCombat
