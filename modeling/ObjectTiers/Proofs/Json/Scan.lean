/-
Written texts and numbers read back.

`readText_writeText`: a text is read back from its written form, whatever follows. A reader takes
the plain bytes of a text in one go, so what is proved of a round is what it does with plain bytes
(`textBytes_plain`) and with an escape (`textBytes_escape`); a written character is one or the
other (`writeChar_cases`).

`readNumber_writeNat`: a natural number below the bound of significands is read back, if what
follows cannot go on with a number (`Stops`). Of a number that is read in any way, only bytes of
numbers are gone (`Took`, `readNumber_took`).
-/
import ObjectTiers.Json.Parser
import ObjectTiers.Json.Printer
import ObjectTiers.Proofs.Text

namespace ObjectTiers.Json

/-! ### Characters -/

theorem hexValue?_hexDigit : ∀ d < 16, hexValue? (hexDigit d) = some d := by decide

theorem hexEscape_control {n : Nat} (h : n < 32) (rest : Bytes) :
    hexEscape (0x30 :: 0x30 :: hexDigit (n / 16) :: hexDigit (n % 16) :: rest) = .ok (n, rest) := by
  have hzero : hexValue? 0x30 = some 0 := by decide
  simp only [hexEscape, hzero, hexValue?_hexDigit (n / 16) (by omega),
    hexValue?_hexDigit (n % 16) (by omega)]
  rw [show ((0 * 16 + 0) * 16 + n / 16) * 16 + n % 16 = n by omega]

theorem escape_control {c : Char} (h : c.toNat < 32) (rest : Bytes) :
    escape (0x75 :: 0x30 :: 0x30 :: hexDigit (c.toNat / 16) :: hexDigit (c.toNat % 16) :: rest) =
      .ok (String.utf8EncodeChar c, rest) := by
  have hcode := hexEscape_control h rest
  simp only [escape, if_true, codePointEscape, hcode, bind, Except.bind]
  rw [if_neg (by omega), if_neg (by omega), Char.ofNat_toNat]

theorem isPlain_of_mem {c : Char} (hlow : 32 ≤ c.toNat) (hquote : c.toNat ≠ 0x22)
    (hslash : c.toNat ≠ 0x5c) {b : UInt8} (hb : b ∈ String.utf8EncodeChar c) :
    isPlain b = true := by
  have hplain {b : UInt8} (h1 : 32 ≤ b.toNat) (h2 : b.toNat ≠ 0x22) (h3 : b.toNat ≠ 0x5c) :
      isPlain b = true := by
    simp only [isPlain, Bool.and_eq_true, bne_iff_ne, decide_eq_true_eq]
    refine ⟨⟨by simpa [UInt8.le_iff_toNat_le] using h1, ?_⟩, ?_⟩
    · rintro rfl; exact h2 rfl
    · rintro rfl; exact h3 rfl
  rcases Bytes.utf8EncodeChar_cases c with ⟨hc, he⟩ | ⟨-, a, r, he, -, hall⟩
  · rw [he, List.mem_singleton] at hb
    have hn : b.toNat = c.toNat := by
      rw [hb, UInt8.toNat_ofNat']
      omega
    exact hplain (by omega) (by omega) (by omega)
  · have := hall b (he ▸ hb)
    exact hplain (by omega) (by omega) (by omega)

/-- A written character is its plain bytes, or an escape that stands for them. -/
theorem writeChar_cases (c : Char) :
    (writeChar c = String.utf8EncodeChar c ∧ ∀ b ∈ String.utf8EncodeChar c, isPlain b = true) ∨
    (∃ t, writeChar c = 0x5c :: t ∧
      ∀ rest, escape (t ++ rest) = .ok (String.utf8EncodeChar c, rest)) := by
  have hletter {n : Nat} (hn : c.toNat = n) {d : Char} (hd : Char.ofNat n = d) : c = d := by
    rw [← hd, ← hn, Char.ofNat_toNat]
  unfold writeChar
  simp only
  split
  · next h => exact .inr ⟨_, rfl, fun _ => by rw [hletter h (d := '"') rfl]; rfl⟩
  split
  · next h => exact .inr ⟨_, rfl, fun _ => by rw [hletter h (d := '\\') rfl]; rfl⟩
  split
  · next h => exact .inr ⟨_, rfl, fun _ => by rw [hletter h (d := '\x08') rfl]; rfl⟩
  split
  · next h => exact .inr ⟨_, rfl, fun _ => by rw [hletter h (d := '\t') rfl]; rfl⟩
  split
  · next h => exact .inr ⟨_, rfl, fun _ => by rw [hletter h (d := '\n') rfl]; rfl⟩
  split
  · next h => exact .inr ⟨_, rfl, fun _ => by rw [hletter h (d := '\x0c') rfl]; rfl⟩
  split
  · next h => exact .inr ⟨_, rfl, fun _ => by rw [hletter h (d := '\r') rfl]; rfl⟩
  split
  · next h => exact .inr ⟨_, rfl, fun rest => escape_control h rest⟩
  · next hquote hslash _ _ _ _ _ hlow =>
    exact .inl ⟨rfl, fun _ hb => isPlain_of_mem (by omega) hquote hslash hb⟩

theorem writeChar_ne_nil (c : Char) : writeChar c ≠ [] := by
  rcases writeChar_cases c with ⟨h, -⟩ | ⟨t, h, -⟩
  · rw [h]
    rcases Bytes.utf8EncodeChar_cases c with ⟨-, he⟩ | ⟨-, a, r, he, -⟩ <;> rw [he] <;> simp
  · rw [h]
    simp

/-! ### Texts -/

theorem textBytes_plain {p : Bytes} (hp : ∀ b ∈ p, isPlain b = true) (bound input : Bytes) :
    textBytes bound (p ++ input) = Read.map (p ++ ·) (textBytes bound input) := by
  cases bound with
  | nil => rfl
  | cons x bound =>
    simp only [textBytes, List.takeWhile_append_of_pos hp, List.dropWhile_append_of_pos hp]
    cases input.dropWhile isPlain with
    | nil => rfl
    | cons b r =>
      simp only
      split
      · rfl
      · split
        · cases escape r with
          | error e => rfl
          | ok q =>
            simp only
            cases textBytes bound q.2 with
            | error e => rfl
            | ok m => simp [Read.map, List.append_assoc]
        · rfl

theorem textBytes_escape {t e rest : Bytes} (h : escape t = .ok (e, rest)) (x : UInt8)
    (bound : Bytes) :
    textBytes (x :: bound) (0x5c :: t) = Read.map (e ++ ·) (textBytes bound rest) := by
  have hstop : isPlain 0x5c = false := by decide
  simp only [textBytes, List.takeWhile_cons, List.dropWhile_cons, hstop, Bool.false_eq_true,
    if_false]
  rw [if_neg (by decide), if_pos trivial, h]
  simp only
  cases textBytes bound rest <;> rfl

/-- The bytes written characters stand for, up to the closing quote. Every character takes one
round at most. -/
theorem textBytes_flatMap (cs : List Char) {bound : Bytes} (h : cs.length < bound.length)
    (rest : Bytes) :
    textBytes bound (cs.flatMap writeChar ++ 0x22 :: rest) =
      .ok (cs.flatMap String.utf8EncodeChar, rest) := by
  induction cs generalizing bound with
  | nil =>
    obtain ⟨x, bound, rfl⟩ := List.exists_cons_of_length_pos h
    simp [textBytes, isPlain]
  | cons c cs ih =>
    obtain ⟨x, bound, rfl⟩ := List.exists_cons_of_length_pos (Nat.zero_lt_of_lt h)
    simp only [List.length_cons] at h
    simp only [List.flatMap_cons, List.append_assoc]
    rcases writeChar_cases c with ⟨hc, hplain⟩ | ⟨t, hc, hescape⟩
    · rw [hc, textBytes_plain hplain, ih (by simp only [List.length_cons]; omega)]
      rfl
    · rw [hc, List.cons_append, textBytes_escape (hescape _), ih (by omega)]
      rfl

theorem length_le_flatMap (cs : List Char) : cs.length ≤ (cs.flatMap writeChar).length := by
  induction cs with
  | nil => exact Nat.le_refl _
  | cons c cs ih =>
    have := List.length_pos_iff.mpr (writeChar_ne_nil c)
    simp only [List.flatMap_cons, List.length_append, List.length_cons]
    omega

theorem readText_flatMap (s : String) (rest : Bytes) :
    readText (s.toList.flatMap writeChar ++ 0x22 :: rest) = .ok (s, rest) := by
  have hbound : s.toList.length < (s.toList.flatMap writeChar ++ 0x22 :: rest).length := by
    have := length_le_flatMap s.toList
    simp only [List.length_append, List.length_cons]
    omega
  have hbytes := textBytes_flatMap s.toList hbound rest
  simp only [readText, hbytes, bind, Except.bind, ← Bytes.ofText_eq_flatMap, Bytes.toText?_ofText]

/-- A text is written as an opening quote and what the text is read back from. -/
theorem writeText_append (s : String) (rest : Bytes) :
    writeText s ++ rest = 0x22 :: (s.toList.flatMap writeChar ++ 0x22 :: rest) := by
  simp [writeText]

/-! ### Numbers -/

/-- What follows a value in a written text: the end, or a comma or closing bracket. -/
def Stops : Bytes → Prop
  | [] => True
  | b :: _ => b = 0x2c ∨ b = 0x5d ∨ b = 0x7d

theorem Stops.startsDigit {rest : Bytes} (h : Stops rest) : startsDigit rest = false := by
  cases rest with
  | nil => rfl
  | cons b r => rcases h with rfl | rfl | rfl <;> rfl

theorem Stops.afterInteger {rest : Bytes} (h : Stops rest) (negative : Bool) (sig : Nat) :
    afterInteger negative sig rest =
      if !negative then .ok (.integer sig, rest)
      else if 0 < sig ∧ sig ≤ significandBound / 2 then .ok (.integer (-sig), rest)
      else realOfParts true sig 0 rest := by
  cases rest with
  | nil => rfl
  | cons b r => rcases h with rfl | rfl | rfl <;> rfl

theorem Stops.significand {rest : Bytes} (h : Stops rest) (n count : Nat) :
    significand n count rest = (n, count, rest) := by
  cases rest with
  | nil => rfl
  | cons b r => rcases h with rfl | rfl | rfl <;> rfl

theorem isDigit_ofNat : ∀ d < 10, isDigit (.ofNat (48 + d)) = true := by decide

theorem digitValue_ofNat : ∀ d < 10, digitValue (.ofNat (48 + d)) = d := by decide

/-- A positive number is written as a first digit other than zero and more digits that are taken
into the significand. -/
theorem writeNat_digits {n : Nat} (hpos : 0 < n) (hn : n < significandBound) :
    ∃ d ds, writeNat n = d :: ds ∧ isDigit d = true ∧ d ≠ 0x30 ∧ ∃ count, ∀ rest,
      significand (digitValue d) 0 (ds ++ rest) = significand n count rest := by
  induction n using writeNat.induct with
  | case1 n h =>
    refine ⟨.ofNat (48 + n), [], ?_, isDigit_ofNat n h, ?_, 0, fun rest => ?_⟩
    · rw [writeNat, if_pos h]
    · intro he
      have := congrArg digitValue he
      rw [digitValue_ofNat n h] at this
      exact absurd this (Nat.ne_of_gt hpos)
    · rw [digitValue_ofNat n h, List.nil_append]
  | case2 n h ih =>
    obtain ⟨d, ds, hw, hd, hne, count, hsig⟩ := ih (by omega) (by omega)
    refine ⟨d, ds ++ [.ofNat (48 + n % 10)], ?_, hd, hne, count + 1, fun rest => ?_⟩
    · rw [writeNat, if_neg h, hw, List.cons_append]
    · have hlast : n % 10 < 10 := Nat.mod_lt n (by decide)
      rw [List.append_assoc, hsig, List.singleton_append, significand.eq_def]
      simp only [isDigit_ofNat _ hlast, digitValue_ofNat _ hlast, Bool.true_and, decide_eq_true_eq]
      rw [show 10 * (n / 10) + n % 10 = n by omega, if_pos hn]

theorem readNumber_writeNat {n : Nat} (hn : n < significandBound) (negative : Bool) {rest : Bytes}
    (hrest : Stops rest) :
    readNumber negative (writeNat n ++ rest) = afterInteger negative n rest := by
  rcases Nat.eq_zero_or_pos n with rfl | hpos
  · have hzero : writeNat 0 = [0x30] := by rw [writeNat]; rfl
    rw [hzero, List.singleton_append, readNumber, if_pos rfl, hrest.startsDigit]
    rfl
  · obtain ⟨d, ds, hw, hd, hne, count, hsig⟩ := writeNat_digits hpos hn
    rw [hw, List.cons_append, readNumber, if_neg hne, if_pos hd, hsig, hrest.significand]
    simp only [hrest.startsDigit]
    rfl

/-- The bytes a number is written with. -/
def isNumberByte (b : UInt8) : Bool :=
  isDigit b || b == 0x2b || b == 0x2d || b == 0x2e || b == 0x65 || b == 0x45

/-- From `input` to `rest` only bytes of numbers were taken. -/
def Took (input rest : Bytes) : Prop :=
  ∃ used, input = used ++ rest ∧ ∀ b ∈ used, isNumberByte b = true

namespace Took

theorem refl (input : Bytes) : Took input input := ⟨[], rfl, by simp⟩

theorem cons {b : UInt8} {r rest : Bytes} (hb : isNumberByte b = true) (h : Took r rest) :
    Took (b :: r) rest := by
  obtain ⟨used, rfl, hused⟩ := h
  exact ⟨b :: used, rfl, List.forall_mem_cons.mpr ⟨hb, hused⟩⟩

theorem digit {b : UInt8} {r rest : Bytes} (hb : isDigit b = true) (h : Took r rest) :
    Took (b :: r) rest :=
  h.cons (by simp [isNumberByte, hb])

theorem trans {a b c : Bytes} (h : Took a b) (h' : Took b c) : Took a c := by
  obtain ⟨used, rfl, hused⟩ := h
  obtain ⟨more, rfl, hmore⟩ := h'
  refine ⟨used ++ more, by rw [List.append_assoc], fun b hb => ?_⟩
  rcases List.mem_append.mp hb with hb | hb
  · exact hused b hb
  · exact hmore b hb

theorem dropWhile (input : Bytes) : Took input (input.dropWhile isDigit) := by
  induction input with
  | nil => exact refl []
  | cons b r ih =>
    rw [List.dropWhile_cons]
    split
    · next hb => exact ih.digit hb
    · exact refl _

theorem significand (n count : Nat) (input : Bytes) :
    Took input (significand n count input).2.2 := by
  induction input generalizing n count with
  | nil => exact refl []
  | cons b r ih =>
    rw [significand.eq_def]
    simp only
    split
    · next hb => exact (ih _ _).digit (Bool.and_eq_true_iff.mp hb).1
    · exact refl _

/-- What is left before a byte that no number is written with is a part of the number. -/
theorem suffix {w rest rest' : Bytes} (h : Took (w ++ rest) rest') (hrest : Stops rest)
    (hw : ∀ b ∈ w, isNumberByte b = true) :
    ∃ w', rest' = w' ++ rest ∧ ∀ b ∈ w', isNumberByte b = true := by
  obtain ⟨used, he, hused⟩ := h
  rcases List.append_eq_append_iff.mp he with ⟨a, hused', hrest'⟩ | ⟨a, hw', hrest'⟩
  · -- the reader went beyond the number: it cannot have gone far
    cases a with
    | nil => exact ⟨[], by simpa using hrest'.symm, by simp⟩
    | cons b a =>
      have hb := hused b (by simp [hused'])
      rw [hrest'] at hrest
      rcases hrest with rfl | rfl | rfl <;> exact absurd hb (by decide)
  · exact ⟨a, hrest', fun b hb => hw b (by simp [hw', hb])⟩

end Took

section Consumption

variable {negative negativeExponent : Bool} {sig n : Nat} {start : Int} {input rest : Bytes}
  {x : Number}

theorem realOfParts_took (h : realOfParts negative sig start input = .ok (x, rest)) :
    Took input rest := by
  unfold realOfParts at h
  split at h
  · cases h; exact .refl _
  · cases h

theorem exponentDigits_took
    (h : exponentDigits negative sig start negativeExponent n input = .ok (x, rest)) :
    Took input rest := by
  induction input generalizing n with
  | nil => exact realOfParts_took h
  | cons b r ih =>
    rw [exponentDigits] at h
    split at h
    · next hb =>
      refine Took.digit hb ?_
      split at h
      · exact ih h
      · split at h
        · cases h
        · cases h; exact .dropWhile r
    · exact realOfParts_took h

theorem exponent_took (h : exponent negative sig start input = .ok (x, rest)) :
    Took input rest := by
  unfold exponent at h
  split at h
  next e r hsign =>
  have hr : Took input r := by
    split at hsign <;> cases hsign
    · exact (Took.refl _).cons (by decide)
    · exact (Took.refl _).cons (by decide)
    · exact .refl _
  refine hr.trans ?_
  split at h
  · cases h
  · split at h
    · next hb => exact (exponentDigits_took h).digit hb
    · cases h

theorem withExponent_took (h : withExponent negative sig start input = .ok (x, rest)) :
    Took input rest := by
  unfold withExponent at h
  split at h
  · exact (exponent_took h).cons (by decide)
  · exact (exponent_took h).cons (by decide)
  · exact realOfParts_took h

theorem fraction_took (h : fraction negative sig start input = .ok (x, rest)) :
    Took input rest := by
  have htook := Took.significand sig 0 input
  unfold fraction at h
  generalize significand sig 0 input = p at h htook
  obtain ⟨sig', count, r⟩ := p
  refine htook.trans ?_
  simp only at h ⊢
  split at h
  · exact (Took.dropWhile r).trans (withExponent_took h)
  · split at h
    · split at h <;> cases h
    · exact withExponent_took h

theorem afterInteger_took (h : afterInteger negative sig input = .ok (x, rest)) :
    Took input rest := by
  unfold afterInteger at h
  split at h
  · exact (fraction_took h).cons (by decide)
  · exact (exponent_took h).cons (by decide)
  · exact (exponent_took h).cons (by decide)
  · split at h
    · cases h; exact .refl _
    · split at h
      · cases h; exact .refl _
      · exact realOfParts_took h

theorem longInteger_took (h : longInteger negative sig input = .ok (x, rest)) :
    Took input rest := by
  have htook := Took.dropWhile input
  unfold longInteger countDigits at h
  generalize input.dropWhile isDigit = r at h htook
  refine htook.trans ?_
  simp only at h
  split at h
  · exact (fraction_took h).cons (by decide)
  · exact withExponent_took h

/-- A number that is read takes only bytes of numbers. -/
theorem readNumber_took (h : readNumber negative input = .ok (x, rest)) : Took input rest := by
  unfold readNumber at h
  split at h
  · cases h
  · next b r =>
    split at h
    · next hb =>
      rw [hb]
      split at h
      · cases h
      · exact (afterInteger_took h).digit (by decide)
    · split at h
      · next hb =>
        have htook := Took.significand (digitValue b) 0 r
        generalize significand (digitValue b) 0 r = p at h htook
        obtain ⟨sig', count, r'⟩ := p
        refine (htook.trans ?_).digit hb
        simp only at h ⊢
        split at h
        · exact longInteger_took h
        · exact afterInteger_took h
      · cases h

end Consumption

end ObjectTiers.Json
