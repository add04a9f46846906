/-
Finite binary64 numbers as a sign, a significand and an exponent of two, with the one rounding
that reading needs: the nearest number to a ratio of naturals, ties to the even significand.

A numeral is read in three steps, each rounded: its significant digits as a whole number, the
power of ten of its exponent, and the product or quotient of the two. Exponents below -308 are
met by dividing by `10 ^ 308` first.
-/

namespace ObjectTiers

/-- The number `± mantissa * 2 ^ exponent`. -/
structure Binary64 where
  negative : Bool
  mantissa : Nat
  exponent : Int
  deriving DecidableEq, Repr

namespace Binary64

/-- The least exponent: the one of zero and of the smallest numbers. -/
def minExponent : Int := -1074

/-- The largest exponent of a finite number. -/
def maxExponent : Int := 971

/-- Significands have 53 bits: they stay below this bound. -/
def significandLimit : Nat := 0x20000000000000

/-- A magnitude: significand and exponent of two. -/
abbrev Magnitude := Nat × Int

/-- Zero, with the least exponent. -/
def zeroMagnitude : Magnitude := (0, minExponent)

/-- `num / (den * 2 ^ e)` as a quotient and a remainder over its divisor. -/
def scaledQuotient (num den : Nat) (e : Int) : Nat × Nat × Nat :=
  let n := num <<< (-e).toNat
  let d := den <<< e.toNat
  (n / d, n % d, d)

/-- The exponent at which `num / den` has a significand of 53 bits, or the least one. -/
def exponentOf (num den : Nat) : Int :=
  let e := (num.log2 : Int) - den.log2 - 53
  let e := if (scaledQuotient num den e).1 < significandLimit then e else e + 1
  max e minExponent

/-- The magnitude nearest to `num / den`; none when it would be infinite. -/
def roundRatio (num den : Nat) : Option Magnitude :=
  if num = 0 then some zeroMagnitude
  else
    let e := exponentOf num den
    let (q, r, d) := scaledQuotient num den e
    let q := if 2 * r > d || 2 * r == d && q % 2 == 1 then q + 1 else q
    let (q, e) := if q < significandLimit then (q, e) else (q / 2, e + 1)
    if e > maxExponent then none else some (q, e)

/-- The product of two magnitudes, rounded. -/
def mul (a b : Magnitude) : Option Magnitude :=
  let e := a.2 + b.2
  roundRatio ((a.1 * b.1) <<< e.toNat) (1 <<< (-e).toNat)

/-- The quotient of two magnitudes, rounded. -/
def div (a b : Magnitude) : Option Magnitude :=
  let e := a.2 - b.2
  roundRatio (a.1 <<< e.toNat) (b.1 <<< (-e).toNat)

/-- The power `10 ^ k`, rounded. -/
def powerOfTen (k : Nat) : Magnitude := (roundRatio (Nat.pow 10 k) 1).getD zeroMagnitude

/-- The largest power of ten that is applied in one step. -/
def maxPower : Nat := 308

/-- The magnitude `f * 10 ^ exponent`, in steps of at most `maxPower`; none when it is infinite. -/
def scale (f : Magnitude) (exponent : Int) : Option Magnitude :=
  if exponent.natAbs ≤ maxPower then
    if 0 ≤ exponent then mul f (powerOfTen exponent.natAbs)
    else div f (powerOfTen exponent.natAbs)
  else if f.1 = 0 then some f
  else if 0 ≤ exponent then none
  else
    match div f (powerOfTen maxPower) with
    | some f => scale f (exponent + maxPower)
    | none => none
termination_by exponent.natAbs
decreasing_by simp only [maxPower] at *; omega

/-- The number read from a sign, the significant digits as a whole number, and a power of ten. -/
def ofParts (negative : Bool) (significand : Nat) (exponent : Int) : Option Binary64 := do
  let f ← roundRatio significand 1
  let (m, e) ← scale f exponent
  pure ⟨negative, m, e⟩

/-- The zero of a sign. -/
def zero (negative : Bool) : Binary64 := ⟨negative, 0, minExponent⟩

end Binary64

end ObjectTiers
