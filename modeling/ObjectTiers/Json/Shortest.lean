/-
The shortest decimal of a binary64 number: the fewest digits that read back as the number, and of
those the nearest to it.

The reals that round to `m * 2 ^ e` form an interval, closed exactly when `m` is even. For each
count of digits, the two points of that decimal grid beside the number are tried.
-/
import ObjectTiers.Json.Binary64

namespace ObjectTiers.Binary64

/-- The number and the two ends of its rounding interval, over one denominator. -/
structure Interval where
  low : Nat
  value : Nat
  high : Nat
  denominator : Nat
  closed : Bool

/-- The reals that round to `m * 2 ^ e`. Below a power of two they reach half as far. -/
def interval (m : Nat) (e : Int) : Interval :=
  let lower := if 2 * m = significandLimit && e > minExponent then 4 * m - 1 else 4 * m - 2
  let up := 1 <<< (e - 2).toNat
  ⟨lower * up, 4 * m * up, (4 * m + 2) * up, 1 <<< (2 - e).toNat, m % 2 == 0⟩

/-- The number of decimal digits of `n`, counted sixteen at a time. -/
def digitCount (n : Nat) : Nat :=
  if n < 10000000000000000 then (Nat.toDigits 10 n).length
  else digitCount (n / 10000000000000000) + 16

/-- The exponent of ten of the leading digit of `num / den`. -/
def leadingExponent (num den : Nat) : Int :=
  if den ≤ num then (digitCount (num / den) : Int) - 1
  else -(digitCount ((den - 1) / num) : Int)

/-- The point of the grid of multiples of `10 ^ p` that is in the interval and nearest to the
number, as a multiple. -/
def gridPoint? (i : Interval) (p : Int) : Option Nat :=
  let grid := i.denominator * Nat.pow 10 p.toNat
  let fine := Nat.pow 10 (-p).toNat
  let inside (c : Nat) : Bool :=
    let x := c * grid
    if i.closed then i.low * fine ≤ x && x ≤ i.high * fine
    else i.low * fine < x && x < i.high * fine
  let c := i.value * fine / grid
  match inside c, inside (c + 1) with
  | true, true =>
    let below := i.value * fine - c * grid
    let above := (c + 1) * grid - i.value * fine
    if below < above || below == above && c % 2 == 0 then some c else some (c + 1)
  | true, false => some c
  | false, true => some (c + 1)
  | false, false => none

/-- The first count of digits from `n` on whose grid has a point, with the exponent of ten of its
last digit. -/
def shortestFrom (i : Interval) (leading : Int) : Nat → Nat → Nat × Int
  | 0, _ => (0, 0)
  | left + 1, n =>
    let p := leading + 1 - n
    match gridPoint? i p with
    | some c => (c, p)
    | none => shortestFrom i leading left (n + 1)

/-- Digits without trailing zeros, with the exponent of ten of the last one. -/
def stripZeros (c : Nat) (p : Int) : Nat × Int :=
  if h : 0 < c ∧ c % 10 = 0 then stripZeros (c / 10) (p + 1) else (c, p)
termination_by c
decreasing_by omega

/-- The shortest decimal `digits * 10 ^ exponent` of a positive number. Seventeen digits always
suffice. -/
def shortest (m : Nat) (e : Int) : Nat × Int :=
  let i := interval m e
  let (c, p) := shortestFrom i (leadingExponent i.value i.denominator) 17 1
  stripZeros c p

/-- How a number is written: positional while the leading digit stands between the fifth place
after the point and the sixteenth before it, always with a point; otherwise with an exponent that
carries its sign. -/
def layout (digits : List Char) (exponent : Int) : List Char :=
  let count : Int := digits.length
  let point := count + exponent
  if 0 ≤ exponent ∧ point ≤ 16 then
    digits ++ List.replicate exponent.toNat '0' ++ ['.', '0']
  else if 0 < point ∧ point ≤ 16 then
    digits.take point.toNat ++ '.' :: digits.drop point.toNat
  else if -5 < point ∧ point ≤ 0 then
    '0' :: '.' :: List.replicate (-point).toNat '0' ++ digits
  else
    let power := point - 1
    let sign := if power < 0 then '-' else '+'
    let mantissa := match digits with
      | [] => []
      | [d] => [d]
      | d :: ds => d :: '.' :: ds
    mantissa ++ 'e' :: sign :: Nat.toDigits 10 power.natAbs

/-- The decimal text of a number. -/
def text (x : Binary64) : List Char :=
  let magnitude :=
    if x.mantissa = 0 then ['0', '.', '0']
    else
      let (c, p) := shortest x.mantissa x.exponent
      layout (Nat.toDigits 10 c) p
  if x.negative then '-' :: magnitude else magnitude

end ObjectTiers.Binary64
