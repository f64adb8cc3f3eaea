/-!
The fewest decimal digits that read back as a given double.

A positive double is `m * 2^q` exactly, and the reals that round to it form an interval around it
whose ends belong to it when `m` is even. For one digit, then two, and so on, the value has two
neighbours on the grid of decimals with that many digits; the first grid that has a neighbour inside
the interval gives the answer. Everything is decided by comparing natural numbers, so no rounding
enters.
-/

set_option autoImplicit false

namespace DocAtlas.Decimal

/-- A positive double as `mantissa * 2 ^ exponent`. The next double below is half as far away as the
next one above exactly when `halfGapBelow` holds. -/
structure Binary where
  mantissa : Nat
  exponent : Int
  halfGapBelow : Bool

/-- The magnitude that the 64 bits of a finite double stand for; the sign bit is not looked at. -/
def Binary.ofBits (bits : Nat) : Binary :=
  let fraction : Nat := bits % Nat.pow 2 52
  let biased : Nat := bits / Nat.pow 2 52 % Nat.pow 2 11
  if biased = 0 then ⟨fraction, -1074, false⟩
  else ⟨Nat.pow 2 52 + fraction, (biased : Int) - 1075, fraction = 0 && 1 < biased⟩

/-- A decimal `digits * 10 ^ scale`. -/
structure Scaled where
  digits : Nat
  scale : Int
  deriving DecidableEq, Repr

/-- How `a * 10 ^ s` compares with `b * 2 ^ t`. -/
def compareScaled (a : Nat) (s : Int) (b : Nat) (t : Int) : Ordering :=
  compare (a * Nat.pow 10 s.toNat * Nat.pow 2 (-t).toNat)
    (b * Nat.pow 2 t.toNat * Nat.pow 10 (-s).toNat)

namespace Binary

/-- Whether a decimal lies in the interval of reals that round to the double. -/
def readsBack (v : Binary) (d : Scaled) : Bool :=
  let low :=
    compareScaled d.digits d.scale (4 * v.mantissa - if v.halfGapBelow then 1 else 2)
      (v.exponent - 2)
  let high := compareScaled d.digits d.scale (4 * v.mantissa + 2) (v.exponent - 2)
  if v.mantissa % 2 = 0 then low != .lt && high != .gt else low == .gt && high == .lt

/-- The number of whole steps of `10 ^ scale` in the double. -/
def steps (v : Binary) (scale : Int) : Nat :=
  v.mantissa * Nat.pow 2 v.exponent.toNat * Nat.pow 10 (-scale).toNat
    / (Nat.pow 2 (-v.exponent).toNat * Nat.pow 10 scale.toNat)

/-- The exponent of the leading decimal digit: the largest `e` with `10 ^ e` at most the double. -/
def leadingExponent (v : Binary) : Int :=
  let guess := Int.fdiv ((Nat.log2 v.mantissa + v.exponent) * 30103) 100000
  let atMost (e : Int) : Bool := compareScaled 1 e v.mantissa v.exponent != .gt
  if atMost (guess + 1) then guess + 1 else if atMost guess then guess else guess - 1

/-- The better of the double's two neighbours on the grid of step `10 ^ scale`, if one reads back:
of two the nearer, of two equally near the one with the even last digit. -/
def onGrid (v : Binary) (scale : Int) : Option Scaled :=
  let below := v.steps scale
  let lower : Scaled := ⟨below, scale⟩
  let upper : Scaled := ⟨below + 1, scale⟩
  match v.readsBack lower, v.readsBack upper with
  | false, false => none
  | true, false => some lower
  | false, true => some upper
  | true, true =>
    match compareScaled (2 * below + 1) scale (2 * v.mantissa) v.exponent with
    | .gt => some lower
    | .lt => some upper
    | .eq => some (if below % 2 = 0 then lower else upper)

end Binary

/-- Moves up to `fuel` trailing zeros from the digits to the scale. -/
def Scaled.dropZeros (d : Scaled) : Nat → Scaled
  | 0 => d
  | fuel + 1 =>
    if d.digits % 10 = 0 then dropZeros ⟨d.digits / 10, d.scale + 1⟩ fuel else d

/-- The shortest decimal that reads back as the double, the nearest one among those. -/
def shortest (v : Binary) : Scaled :=
  let lead := v.leadingExponent
  match (List.range 17).findSome? fun (n : Nat) => v.onGrid (lead - n) with
  | some d => d.dropZeros 17
  | none => ⟨v.steps (lead - 16), lead - 16⟩

end DocAtlas.Decimal
