import Closedness.Json.Printer
import Closedness.Proofs.JsonGrammar
import Mathlib.Data.List.Basic
import Mathlib.Data.List.Forall2

/-!
# Text that is written can be read

`Json.parse?` gives back the value that `Json.pretty` has written, if all its numbers are naturals
of at most 64 bits (`Json.parse?_pretty`): what is written follows the grammar
(`Json.writes_lines`).
-/

namespace Closedness

/-! ## Numbers -/

namespace Double

theorem lastPlace_le {n : Nat} (h : 0 < n) : lastPlace n ≤ n := by
  have hexponent : n.log2 + 1 - precision ≤ n.log2 := by
    unfold precision
    omega
  calc lastPlace n ≤ 2 ^ n.log2 := Nat.pow_le_pow_right (by decide) hexponent
    _ ≤ n := Nat.log2_self_le (Nat.pos_iff_ne_zero.1 h)

/-- Rounding at most doubles a number. -/
theorem nearest_le (n : Nat) : nearest n ≤ 2 * n := by
  by_cases h : n = 0
  · subst h
    decide
  · have hplace : lastPlace n ≤ n := lastPlace_le (Nat.pos_of_ne_zero h)
    have hbelow : n / lastPlace n * lastPlace n ≤ n := Nat.div_mul_le_self n _
    simp only [nearest, Nat.add_mul, Nat.one_mul]
    split <;> omega

end Double

namespace Json.Numeral

/-- Digits that write a number of at most 64 bits are all collected. -/
theorem readWhole_eq {digits : List Char} {significand : Nat}
    (h : Nat.ofDigitChars 10 digits significand ≤ maxSignificand) :
    readWhole significand digits
      = { significand := Nat.ofDigitChars 10 digits significand, exponent := 0 } := by
  induction digits generalizing significand with
  | nil => rw [readWhole_nil, Nat.ofDigitChars_nil]
  | cons c rest ih =>
    rw [Nat.ofDigitChars_cons, Nat.mul_comm] at h ⊢
    have hle : significand * 10 + (c.toNat - '0'.toNat)
        ≤ Nat.ofDigitChars 10 rest (significand * 10 + (c.toNat - '0'.toNat)) := by
      rw [Nat.ofDigitChars_eq_ofDigitChars_zero]
      exact Nat.le_add_right_of_le (Nat.le_mul_of_pos_left _ (Nat.pow_pos (by decide)))
    have hpush : pushDigit? significand c = some (significand * 10 + (c.toNat - '0'.toNat)) :=
      if_pos (Nat.le_trans hle h)
    rw [readWhole_cons hpush]
    exact ih h

/-- The digits of a positive number do not start with a zero. -/
theorem head?_toDigits {n : Nat} (h : 0 < n) : (Nat.toDigits 10 n).head? ≠ some '0' := by
  induction n using Nat.strongRecOn with
  | _ n ih =>
    rw [Nat.toDigits_eq_if (by decide)]
    split
    · simpa using Nat.pos_iff_ne_zero.1 h
    · have hpos : 0 < n / 10 := by omega
      rw [List.head?_append_of_ne_nil _ Nat.toDigits_ne_nil]
      exact ih (n / 10) (by omega) hpos

/-- The digits of a number are a whole part. -/
theorem wholePart_toDigits (n : Nat) : WholePart (Nat.toDigits 10 n) := by
  by_cases hzero : n = 0
  · subst hzero
    exact .zero
  · have hhead := head?_toDigits (Nat.pos_of_ne_zero hzero)
    have hdigits : ∀ c ∈ Nat.toDigits 10 n, c.isDigit = true := fun c hc =>
      Nat.isDigit_of_mem_toDigits (by decide) (by decide) hc
    cases h : Nat.toDigits 10 n with
    | nil => exact absurd h Nat.toDigits_ne_nil
    | cons first rest =>
      rw [h] at hhead hdigits
      obtain ⟨hfirst, hrest⟩ := List.forall_mem_cons.1 hdigits
      exact .digits hfirst (by simpa using hhead) hrest

/-- The number that digits only write. -/
def ofWhole (digits : List Char) : Numeral :=
  { negative := false, whole := digits, fraction := [], exponent := none }

/-- A whole number is spelled by its digits. -/
theorem lexeme_toDigits (n : Nat) :
    (ofWhole (Nat.toDigits 10 n)).Lexeme (Nat.toDigits 10 n) := by
  simpa [ofWhole, minus] using
    (Lexeme.mk (wholePart_toDigits n) .absent .absent : Lexeme { negative := false, .. } _)

theorem scaled_toDigits {n : Nat} (h : n ≤ maxSignificand) :
    (ofWhole (Nat.toDigits 10 n)).scaled = { significand := n, exponent := 0 } := by
  have hdigits : Nat.ofDigitChars 10 (Nat.toDigits 10 n) 0 = n := Nat.ofDigitChars_ten_toDigits
  have hread := readWhole_eq (hdigits.symm ▸ h : Nat.ofDigitChars 10 (Nat.toDigits 10 n) 0 ≤ _)
  rw [hdigits] at hread
  have hscaled : (ofWhole (Nat.toDigits 10 n)).scaled =
      { significand := (readWhole 0 (Nat.toDigits 10 n)).significand
        exponent := (readWhole 0 (Nat.toDigits 10 n)).exponent + 0 } := rfl
  rw [hscaled, hread]
  rfl

theorem isFinite_toDigits {n : Nat} (h : n ≤ maxSignificand) :
    (ofWhole (Nat.toDigits 10 n)).isFinite = true := by
  have hbound : Double.nearest n * Double.nearest (Nat.pow 10 0) < Double.overflowBound := by
    have hone : Double.nearest (Nat.pow 10 0) = 1 := by decide
    have hlarge : 2 * maxSignificand < Double.overflowBound := by decide +kernel
    have hle : Double.nearest n ≤ 2 * n := Double.nearest_le n
    rw [hone, Nat.mul_one]
    omega
  unfold isFinite
  rw [scaled_toDigits h]
  by_cases hzero : n = 0
  · exact if_pos (Or.inl hzero)
  · have hscaled : ¬ (n = 0 ∨ (0 : Int) < 0) := by simpa using hzero
    have hexponent : ¬ maxExponent < 0 := by decide
    exact (if_neg hscaled).trans ((if_neg hexponent).trans (decide_eq_true hbound))

/-- The digits of a number that fits are read as the number. -/
theorem value_toDigits {n : Nat} (h : n ≤ maxSignificand) (lexeme : List Char) :
    (ofWhole (Nat.toDigits 10 n)).value lexeme = .natural n := by
  have hdigits : ofDigits (Nat.toDigits 10 n) = n := Nat.ofDigitChars_ten_toDigits
  have hnatural : (ofWhole (Nat.toDigits 10 n)).isNatural = true := rfl
  rw [value, isFinite_toDigits h, hnatural]
  exact congrArg Json.natural hdigits

end Json.Numeral

namespace Json

/-! ## Strings -/

namespace Piece

/-- The piece stands for the character. -/
def Spells (p : Piece) (c : Char) : Prop :=
  p = .char c ∨ (p = .unit c.toNat ∧ c.toNat < 0x20)

theorem spell_unit {code : Nat} (h : code < 0x20) (rest : List Piece) (found : List Char) :
    spell (.unit code :: rest) found = spell rest (Char.ofNat code :: found) := by
  have hhigh : isHigh code = false := by
    simp only [isHigh, Bool.and_eq_false_iff, decide_eq_false_iff_not]
    omega
  have hlow : isLow code = false := by
    simp only [isLow, Bool.and_eq_false_iff, decide_eq_false_iff_not]
    omega
  -- whether a unit follows makes a difference to the first half of a pair only
  cases rest with
  | nil => simp [spell, hhigh, hlow]
  | cons p rest => cases p <;> simp [spell, hhigh, hlow]

/-- Pieces that spell characters one by one spell the text. -/
theorem spell_eq {pieces : List Piece} {chars : List Char} (h : List.Forall₂ Spells pieces chars)
    (found : List Char) : spell pieces found = some (found.reverse ++ chars) := by
  induction h generalizing found with
  | nil => rw [spell, List.append_nil]
  | @cons p c pieces chars hp _ ih =>
    rcases hp with rfl | ⟨rfl, hcode⟩
    · rw [spell, ih, List.reverse_cons, List.append_assoc]
      rfl
    · rw [spell_unit hcode, ih, Char.ofNat_toNat, List.reverse_cons, List.append_assoc]
      rfl

end Piece

/-- A hexadecimal digit is read back. -/
theorem hexValue?_hexDigit : ∀ n < 16, hexValue? (hexDigit n) = some n := by
  decide

/-- Inside a string, a character as it is written is one piece. -/
theorem pieces_escape (c : Char) : ∃ p : Piece, p.Spells c ∧ ∀ {pieces text},
    Pieces pieces text → Pieces (p :: pieces) (escape c ++ text) := by
  unfold escape
  -- the characters that are escaped by a letter
  iterate 7
    split
    · next h => exact ⟨.char c, Or.inl rfl, fun hrest => .escape (by subst h; rfl) hrest⟩
  split
  · next hcode =>
    have hzero : hexValue? '0' = some 0 := by decide
    have hfirst := hexValue?_hexDigit (c.toNat / 16) (by omega)
    have hsecond := hexValue?_hexDigit (c.toNat % 16) (by omega)
    have hvalue : ((0 * 16 + 0) * 16 + c.toNat / 16) * 16 + c.toNat % 16 = c.toNat := by omega
    refine ⟨.unit c.toNat, Or.inr ⟨rfl, hcode⟩, fun {pieces text} hrest => ?_⟩
    have hpieces := Pieces.hex hzero hzero hfirst hsecond hrest
    rwa [hvalue] at hpieces
  · next hquote hbackslash _ _ _ _ _ hcode =>
    have hplain : 0x20 ≤ c.toNat := Nat.le_of_not_lt hcode
    exact ⟨.char c, Or.inl rfl, fun hrest => .plain hquote hbackslash hplain hrest⟩

/-- Escaping a text gives pieces that spell it. -/
theorem pieces_escapes (chars : List Char) : ∃ pieces : List Piece,
    List.Forall₂ Piece.Spells pieces chars ∧ Pieces pieces (chars.flatMap escape) := by
  induction chars with
  | nil => exact ⟨[], .nil, .nil⟩
  | cons c rest ih =>
    obtain ⟨p, hp, hcons⟩ := pieces_escape c
    obtain ⟨pieces, hspells, hpieces⟩ := ih
    exact ⟨p :: pieces, .cons hp hspells, hcons hpieces⟩

/-- A text in quotes is read as itself, whatever is in it. -/
theorem quoted_quote (s : String) : Quoted (some s) (quote s) := by
  obtain ⟨pieces, hspells, hpieces⟩ := pieces_escapes s.toList
  have hspell : (Piece.spell pieces []).map String.ofList = some s := by
    rw [Piece.spell_eq hspells []]
    simp
  exact hspell ▸ Quoted.mk hpieces

/-! ## Values -/

mutual

/-- Every part of the value is written so that it can be read: all its numbers are naturals of at
most 64 bits. -/
def Writable : Json → Prop
  | .natural n => n ≤ Numeral.maxSignificand
  | .decimal _ | .undecodable => False
  | .array elements => AllWritable elements
  | .object members => MembersWritable members
  | .null | .bool _ | .string _ => True

def AllWritable : List Json → Prop
  | [] => True
  | element :: rest => element.Writable ∧ AllWritable rest

def MembersWritable : List (String × Json) → Prop
  | [] => True
  | (_, value) :: rest => value.Writable ∧ MembersWritable rest

end

theorem blanks_newline (depth : Nat) : Blanks (newline depth) := by
  intro c hc
  rcases List.mem_cons.1 hc with rfl | hc
  · rfl
  · rw [List.eq_of_mem_replicate hc]
    rfl

theorem writes_natural {n : Nat} (h : n ≤ Numeral.maxSignificand) :
    Writes (.natural n) (Nat.toDigits 10 n) :=
  Numeral.value_toDigits h _ ▸ Writes.number (Numeral.lexeme_toDigits n)

theorem key_quote {blanks : List Char} (h : Blanks blanks) (name : String) :
    Key name (blanks ++ quote name) := by
  have hkey := Key.mk h (quoted_quote name) (fun _ => nofun : Blanks [])
  rwa [List.append_nil] at hkey

-- deriving every equation of `lines` takes Lean seconds; these two are all that is needed
theorem lines_array_cons (first : Json) (rest : List Json) (depth : Nat) :
    (Json.array (first :: rest)).lines depth
      = '[' :: (newline (depth + 1) ++ first.lines (depth + 1) ++ elementLines (depth + 1) rest
        ++ newline depth ++ [']']) := rfl

theorem lines_object_cons (key : String) (first : Json) (rest : List (String × Json))
    (depth : Nat) :
    (Json.object ((key, first) :: rest)).lines depth
      = '\x7b' :: (newline (depth + 1) ++ quote key ++ [':', ' '] ++ first.lines (depth + 1)
        ++ memberLines (depth + 1) rest ++ newline depth ++ ['\x7d']) := rfl

mutual

/-- The text of a value follows the grammar. -/
theorem writes_lines : ∀ (value : Json) (depth : Nat), value.Writable →
    Writes value (value.lines depth)
  | .null, _, _ => .null
  | .bool true, _, _ => .true
  | .bool false, _, _ => .false
  | .natural _, _, h => writes_natural h
  | .decimal _, _, h | .undecodable, _, h => h.elim
  | .string s, _, _ => .string (quoted_quote s)
  | .array [], _, _ => .emptyArray (fun _ => nofun : Blanks [])
  | .object [], _, _ => .emptyObject (fun _ => nofun : Blanks [])
  | .array (first :: rest), depth, h => by
    have helements := elements_lines (first :: rest) (depth + 1) depth nofun h
    simpa [lines_array_cons, elementLines] using Writes.array helements
  | .object ((key, first) :: rest), depth, h => by
    have hmembers := members_lines ((key, first) :: rest) (depth + 1) depth nofun h
    simpa [lines_object_cons, memberLines] using Writes.object hmembers

/-- Elements are written like further ones, but for the comma before the first. -/
theorem elements_lines : ∀ (elements : List Json) (depth outer : Nat), elements ≠ [] →
    AllWritable elements →
    Elements elements ((elementLines depth elements).tail ++ newline outer)
  | [], _, _, hne, _ => absurd rfl hne
  | [element], depth, outer, _, h => by
    have helement := writes_lines element depth h.1
    simpa [elementLines] using
      Elements.last (.mk (blanks_newline depth) helement (blanks_newline outer))
  | element :: next :: rest, depth, outer, _, h => by
    have helement := writes_lines element depth h.1
    have hrest := elements_lines (next :: rest) depth outer nofun h.2
    simpa [elementLines] using
      Elements.cons (.mk (blanks_newline depth) helement (fun _ => nofun : Blanks [])) hrest

/-- The printed lines of members write them. -/
theorem members_lines : ∀ (members : List (String × Json)) (depth outer : Nat), members ≠ [] →
    MembersWritable members →
    Members members ((memberLines depth members).tail ++ newline outer)
  | [], _, _, hne, _ => absurd rfl hne
  | [(key, value)], depth, outer, _, h => by
    have hvalue := writes_lines value depth h.1
    have hblank : Blanks [' '] := by simp [Blanks, isBlank]
    simpa [memberLines] using
      Members.last (key_quote (blanks_newline depth) key) (.mk hblank hvalue (blanks_newline outer))
  | (key, value) :: next :: rest, depth, outer, _, h => by
    have hvalue := writes_lines value depth h.1
    have hrest := members_lines (next :: rest) depth outer nofun h.2
    have hblank : Blanks [' '] := by simp [Blanks, isBlank]
    obtain ⟨name, second⟩ := next
    simpa [memberLines] using Members.cons (key_quote (blanks_newline depth) key)
      (.mk hblank hvalue (fun _ => nofun : Blanks [])) hrest

end

/-- What is printed for a value writes it. -/
theorem padded_pretty {value : Json} (h : value.Writable) : Padded value value.pretty.toList := by
  rw [pretty, String.toList_ofList]
  exact (writes_lines value 0 h).padded

/-- **A value is read from the text it is written as.** -/
theorem parse?_pretty {value : Json} (h : value.Writable) : parse? value.pretty = some value :=
  parse?_of_padded (padded_pretty h)

end Json

end Closedness
