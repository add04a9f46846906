/-
Natural numbers in decimal: written with a least width, and read under a bound with the fault
that stopped the reading.
-/

namespace ObjectTiers.Text

/-- Decimal digits, at least `width` of them. -/
def paddedDigits (width n : Nat) : List Char :=
  let ds := Nat.toDigits 10 n
  List.replicate (width - ds.length) '0' ++ ds

/-- Why a text is not a number of 64 bits. -/
inductive NumberFault
  | empty | digit | overflow
  deriving DecidableEq, Repr

/-- The text of a fault. -/
def NumberFault.message : NumberFault → String
  | .empty => "cannot parse integer from empty string"
  | .digit => "invalid digit found in string"
  | .overflow => "number too large to fit in target type"

/-- Digits after a value already read: the first character that is no digit and the first digit
that would reach `bound` are faults, whichever comes first. -/
def readDigits (bound : Nat) : Nat → List Char → Except NumberFault Nat
  | n, [] => .ok n
  | n, c :: r =>
    if !c.isDigit then .error .digit
    else
      let n := 10 * n + (c.toNat - 48)
      if n < bound then readDigits bound n r else .error .overflow

/-- A number of 64 bits: an optional plus sign, then digits. -/
def readWord64 (s : String) : Except NumberFault UInt64 :=
  let read (ds : List Char) := (readDigits UInt64.size 0 ds).map UInt64.ofNat
  match s.toList with
  | [] => .error .empty
  | ['+'] => .error .digit
  | '+' :: r => read r
  | cs => read cs

end ObjectTiers.Text
