/-
Quoted texts and characters in messages: a backslash before a quote of the same kind and before a
backslash, short names for the common controls, and the code point in hexadecimal for every
other character that is not shown as it is.
-/
import ObjectTiers.Text.Printable

namespace ObjectTiers.Text

/-- Hexadecimal digits without leading zeros, in lower case. -/
def hexDigits (n : Nat) : List Char := Nat.toDigits 16 n

/-- One character inside quotes of the kind `quote`. -/
def quotedChar (quote c : Char) : List Char :=
  if c = '\x00' then ['\\', '0']
  else if c = '\t' then ['\\', 't']
  else if c = '\n' then ['\\', 'n']
  else if c = '\r' then ['\\', 'r']
  else if c = quote || c = '\\' then ['\\', c]
  else if isShown c then [c]
  else ['\\', 'u', '\x7b'] ++ hexDigits c.toNat ++ ['\x7d']

/-- A text in double quotes. -/
def quoted (s : String) : String :=
  String.ofList ('"' :: s.toList.flatMap (quotedChar '"') ++ ['"'])

/-- A character in single quotes. -/
def quotedOne (c : Char) : String :=
  String.ofList ('\'' :: quotedChar '\'' c ++ ['\''])

end ObjectTiers.Text
