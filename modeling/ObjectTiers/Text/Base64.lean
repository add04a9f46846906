/-
Base64 with the standard alphabet, padded and canonical: each byte string has one encoding.

A text is read in groups of four. All groups but the last are checked first, left to right; the
last group may be incomplete or padded, and is where a wrong length or padding shows.
-/
import ObjectTiers.Bytes

namespace ObjectTiers.Text.Base64

/-- Why a text encodes no bytes; offsets count bytes of the text. -/
inductive Fault
  | symbol (byte : UInt8) (offset : Nat)
  | length (length : Nat)
  | lastSymbol (byte : UInt8) (offset : Nat)
  | padding
  deriving DecidableEq, Repr

/-- The text of a fault. -/
def Fault.message : Fault → String
  | .symbol byte offset => s!"Invalid symbol {byte.toNat}, offset {offset}."
  | .length n => s!"Invalid input length: {n}"
  | .lastSymbol byte offset => s!"Invalid last symbol {byte.toNat}, offset {offset}."
  | .padding => "Invalid padding"

/-- The byte that fills up the last group. -/
def pad : UInt8 := 0x3d

/-- The value of a symbol. -/
def value? (b : UInt8) : Option Nat :=
  if 0x41 ≤ b && b ≤ 0x5a then some (b.toNat - 0x41)
  else if 0x61 ≤ b && b ≤ 0x7a then some (b.toNat - 0x61 + 26)
  else if 0x30 ≤ b && b ≤ 0x39 then some (b.toNat - 0x30 + 52)
  else if b = 0x2b then some 62
  else if b = 0x2f then some 63
  else none

/-- The symbol of a value below 64. -/
def symbol (n : Nat) : UInt8 :=
  if n < 26 then .ofNat (0x41 + n)
  else if n < 52 then .ofNat (0x61 + n - 26)
  else if n < 62 then .ofNat (0x30 + n - 52)
  else if n = 62 then 0x2b
  else 0x2f

/-- The encoding of a byte string. -/
def encode : Bytes → Bytes
  | [] => []
  | [a] => [symbol (a.toNat / 4), symbol (a.toNat % 4 * 16), pad, pad]
  | [a, b] =>
    [symbol (a.toNat / 4), symbol (a.toNat % 4 * 16 + b.toNat / 16),
      symbol (b.toNat % 16 * 4), pad]
  | a :: b :: c :: r =>
    symbol (a.toNat / 4) :: symbol (a.toNat % 4 * 16 + b.toNat / 16)
      :: symbol (b.toNat % 16 * 4 + c.toNat / 64) :: symbol (c.toNat % 64) :: encode r

/-- The values of symbols that stand from an offset on. -/
def values (offset : Nat) : Bytes → Except Fault (List Nat)
  | [] => .ok []
  | b :: r =>
    match value? b with
    | none => .error (.symbol b offset)
    | some v => (values (offset + 1) r).map (v :: ·)

/-- The three bytes of four values. -/
def groupBytes (a b c d : Nat) : Bytes :=
  [.ofNat (a * 4 + b / 16), .ofNat (b % 16 * 16 + c / 4), .ofNat (c % 4 * 64 + d)]

/-- The symbols of the last group and the number of pads behind them. A pad may stand neither in
the first two places nor before a symbol. -/
def lastGroup (offset : Nat) (group : Bytes) : Except Fault (List Nat × Nat) :=
  let symbols := group.takeWhile (· != pad)
  let rest := group.dropWhile (· != pad)
  match values offset symbols with
  | .error e => .error e
  | .ok vs =>
    if rest.isEmpty then .ok (vs, 0)
    else if symbols.length < 2 then .error (.symbol pad (offset + symbols.length))
    else if rest.any (· != pad) then .error (.symbol pad (offset + symbols.length))
    else .ok (vs, rest.length)

/-- The bytes of the last group, in which `last` is the last symbol. -/
def lastBytes (offset : Nat) (group : Bytes) : Except Fault Bytes :=
  match lastGroup offset group with
  | .error e => .error e
  | .ok (vs, pads) =>
    let last := (group.takeWhile (· != pad)).getLast?.getD 0
    if vs.length < 2 then .error (.length (offset + vs.length))
    else if (vs.length + pads) % 4 ≠ 0 then .error .padding
    else match vs with
      | [a, b] =>
        if b % 16 ≠ 0 then .error (.lastSymbol last (offset + 1))
        else .ok ((groupBytes a b 0 0).take 1)
      | [a, b, c] =>
        if c % 4 ≠ 0 then .error (.lastSymbol last (offset + 2))
        else .ok ((groupBytes a b c 0).take 2)
      | [a, b, c, d] => .ok (groupBytes a b c d)
      | _ => .error (.length (offset + vs.length))

/-- The bytes of whole groups. -/
def groups (offset : Nat) : Bytes → Except Fault Bytes
  | a :: b :: c :: d :: r =>
    if r.isEmpty then lastBytes offset (a :: b :: c :: d :: r)
    else match values offset [a, b, c, d] with
      | .ok [w, x, y, z] => (groups (offset + 4) r).map (groupBytes w x y z ++ ·)
      | .ok _ => .ok []
      | .error e => .error e
  | [] => .ok []
  | r => lastBytes offset r

/-- The bytes a text encodes. A single symbol behind whole groups is looked at first. -/
def decode (text : Bytes) : Except Fault Bytes :=
  match text.getLast? with
  | some b =>
    if text.length % 4 = 1 && b != pad && (value? b).isNone then
      .error (.symbol b (text.length - 1))
    else groups 0 text
  | none => .ok []

end ObjectTiers.Text.Base64
