/-!
# Double-precision numbers

A float literal denotes the double nearest to its decimal value, and is written back with the
fewest digits that denote the same double. Both directions are exact computations on natural
numbers: a double is `m * 2 ^ (s - 1074)` with a mantissa `m < 2 ^ 53` and a scale `s`, and its
neighbourhood, the reals that round to it, is compared with decimal fractions by multiplying out.

Literals carry no sign, so only the non-negative doubles and infinity occur.
-/

namespace SqlBatch

/-- A non-negative double, by its 64 bits. -/
structure Binary64 where
  bits : UInt64
deriving DecidableEq, Repr

namespace Binary64

/-- The first bit of a normal double's mantissa, `2 ^ 52`. -/
def leadingBit : Nat := 0x10000000000000

/-- The power `10 ^ n`. -/
def tenTo (n : Nat) : Nat := Nat.pow 10 n

/-- The bits of positive infinity. -/
def infinityBits : Nat := 0x7FF0000000000000

/-- The double past the largest finite one. -/
def infinity : Binary64 := ⟨0x7FF0000000000000⟩

/-- The double zero. -/
def zero : Binary64 := ⟨0⟩

/-- The double `mantissa * 2 ^ (scale - 1074)`. Adding the mantissa to the scaled exponent lets a
mantissa of `2 ^ 53`, as rounding may produce, carry into the exponent. -/
def ofMantissa (mantissa scale : Nat) : Binary64 :=
  let bits := scale * leadingBit + mantissa
  if infinityBits ≤ bits then infinity else ⟨UInt64.ofNat bits⟩

/-- The integer nearest to a quotient; a half goes to the even neighbour. -/
def roundQuotient (num den : Nat) : Nat :=
  let q := num / den
  let r := num % den
  if den < 2 * r ∨ (2 * r = den ∧ q % 2 = 1) then q + 1 else q

/-- The double nearest to the positive quotient `num / den`. The scale is the least one at which
the quotient stays below `2 ^ 53`; below the least normal number it is zero. -/
def ofQuotient (num den : Nat) : Binary64 :=
  let estimate := num.log2 + 1074 - den.log2 - 53
  let scaled (scale : Nat) : Nat × Nat :=
    if 1074 ≤ scale then (num, den <<< (scale - 1074)) else (num <<< (1074 - scale), den)
  -- The logarithms fix the size of the quotient up to one bit, so one of two scales is right.
  let fits (scale : Nat) : Bool := (scaled scale).1 / (scaled scale).2 < 2 * leadingBit
  let scale := if fits estimate then estimate else estimate + 1
  ofMantissa (roundQuotient (scaled scale).1 (scaled scale).2) scale

/-- The number of decimal digits; zero has one. -/
def digitCount (n : Nat) : Nat :=
  (Nat.toDigits 10 n).length

/-- The double nearest to `mantissa * 10 ^ exponent`. Exponents far outside the range of doubles
are decided without computing the power. -/
def ofDecimal (mantissa : Nat) (exponent : Int) : Binary64 :=
  if mantissa = 0 then zero
  else if 400 < exponent then infinity
  else if exponent + digitCount mantissa < -400 then zero
  else if 0 ≤ exponent then ofQuotient (mantissa * tenTo exponent.toNat) 1
  else ofQuotient mantissa (tenTo (-exponent).toNat)

/-- The mantissa and scale of a finite double. -/
def decode (x : Binary64) : Nat × Nat :=
  let bits := x.bits.toNat
  if bits < leadingBit then (bits, 0)
  else (leadingBit + bits % leadingBit, bits / leadingBit - 1)

/-- The reals that round to a double, as `low / den` to `high / den` around `value / den`. The ends
belong to it exactly if the mantissa is even, since a tie goes to the even neighbour. -/
structure Neighbourhood where
  low : Nat
  value : Nat
  high : Nat
  den : Nat
  closed : Bool

/-- The neighbourhood of a finite double. Its lower half is narrower at a power of two, where the
doubles below lie twice as dense. -/
def neighbourhood (x : Binary64) : Neighbourhood :=
  let (m, s) := x.decode
  -- In quarters of the unit in the last place: half a unit is two of them, and half of the
  -- narrower unit below a power of two is one.
  let low := if m = leadingBit ∧ 0 < s then 4 * m - 1 else 4 * m - 2
  let factor := 1 <<< (s - 1074)
  { low := low * factor, value := 4 * m * factor, high := (4 * m + 2) * factor,
    den := 4 <<< (1074 - s), closed := m % 2 == 0 }

/-- A decimal fraction `digits * 10 ^ exponent`. -/
structure Decimal where
  digits : Nat
  exponent : Int
deriving DecidableEq, Repr

namespace Decimal

/-- Numerator over a common denominator `den` and the factor of both, so that
`digits * 10 ^ exponent = (d.scaledTo den).1 / (den * (d.scaledTo den).2)`. -/
def scaledTo (d : Decimal) (den : Nat) : Nat × Nat :=
  if 0 ≤ d.exponent then (d.digits * tenTo d.exponent.toNat * den, 1)
  else (d.digits * den, tenTo (-d.exponent).toNat)

/-- Whether the fraction rounds to the double of the neighbourhood. -/
def isIn (d : Decimal) (n : Neighbourhood) : Bool :=
  let (num, factor) := d.scaledTo n.den
  if n.closed then n.low * factor ≤ num && num ≤ n.high * factor
  else n.low * factor < num && num < n.high * factor

/-- How far the fraction lies from the value of the neighbourhood, in units that agree between
fractions of one exponent. -/
def distance (d : Decimal) (n : Neighbourhood) : Nat :=
  let (num, factor) := d.scaledTo n.den
  (num - n.value * factor) + (n.value * factor - num)

/-- The fraction with the trailing zeros of its digits moved into the exponent. -/
def normalize (d : Decimal) : Decimal :=
  let zeros := ((Nat.toDigits 10 d.digits).reverse.takeWhile (· == '0')).length
  ⟨d.digits / tenTo zeros, d.exponent + zeros⟩

/-- Positional text: never an exponent, and no point in an integral number. -/
def text (d : Decimal) : String :=
  let ds := Nat.toDigits 10 d.digits
  if 0 ≤ d.exponent then String.ofList (ds ++ List.replicate d.exponent.toNat '0')
  else
    let places := (-d.exponent).toNat
    let padded := List.replicate (places + 1 - ds.length) '0' ++ ds
    let whole := padded.length - places
    String.ofList (padded.take whole ++ '.' :: padded.drop whole)

end Decimal

/-- The power of ten just above the value of a neighbourhood: `10 ^ (k - 1) ≤ value < 10 ^ k`. -/
def magnitude (n : Neighbourhood) : Int :=
  let k : Int := (digitCount n.value : Int) - digitCount n.den
  let (num, factor) := (⟨1, k⟩ : Decimal).scaledTo n.den
  if num ≤ n.value * factor then k + 1 else k

/-- The fraction of `count` digits that denotes the double and lies nearest to it, if there is
one. Only the two neighbours of the value on the grid of such fractions have to be tried; of two
equally near ones the larger is taken. -/
def candidate? (n : Neighbourhood) (count : Nat) : Option Decimal :=
  let exponent := magnitude n - count
  let (unit, factor) := (⟨1, exponent⟩ : Decimal).scaledTo n.den
  let below := n.value * factor / unit
  let lower : Decimal := ⟨below, exponent⟩
  let upper : Decimal := ⟨below + 1, exponent⟩
  -- The larger neighbour wins a tie, so the lower one has to be strictly nearer.
  if lower.isIn n && (!upper.isIn n || lower.distance n < upper.distance n) then some lower
  else if upper.isIn n then some upper
  else none

/-- The shortest decimal fraction that denotes a positive finite double. Seventeen digits always
suffice. -/
def shortest (x : Binary64) : Decimal :=
  let n := x.neighbourhood
  (((List.range 17).findSome? fun i ↦ candidate? n (i + 1)).getD ⟨0, 0⟩).normalize

/-- The text of a double: its shortest digits in positional notation, and `inf` for infinity. -/
def text (x : Binary64) : String :=
  if infinityBits ≤ x.bits.toNat then "inf"
  else if x.bits = 0 then "0"
  else x.shortest.text

end Binary64

end SqlBatch
