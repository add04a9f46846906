/-
Blank characters, texts without their surrounding blanks, and settings words that are read
without regard to case.
-/

namespace ObjectTiers.Text

/-- The White_Space characters of Unicode. -/
def isBlank (c : Char) : Bool :=
  let n := c.toNat
  9 ≤ n && n ≤ 13 || n == 0x20 || n == 0x85 || n == 0xa0 || n == 0x1680
    || 0x2000 ≤ n && n ≤ 0x200a || n == 0x2028 || n == 0x2029 || n == 0x202f || n == 0x205f
    || n == 0x3000

/-- Characters without the blanks at their two ends. -/
def trimChars (cs : List Char) : List Char :=
  ((cs.dropWhile isBlank).reverse.dropWhile isBlank).reverse

/-- The text without the blanks at its two ends. -/
def trim (s : String) : String := String.ofList (trimChars s.toList)

/-- The lower-case form of a character, as far as it holds ASCII letters. Beyond `A` to `Z` only
the Kelvin sign and the dotted capital I have an ASCII letter in it; any other character is left
alone, so a word of ASCII letters is met by the same spellings under the full mapping. -/
def lowerChar (c : Char) : List Char :=
  if c = '\u212a' then ['k']
  else if c = '\u0130' then ['i', '\u0307']
  else [c.toLower]

/-- A settings word: trimmed and in lower case. -/
def settingWord (s : String) : String :=
  String.ofList ((trimChars s.toList).flatMap lowerChar)

end ObjectTiers.Text
