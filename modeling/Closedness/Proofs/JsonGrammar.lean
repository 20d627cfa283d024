import Closedness.Json.Parser
import Mathlib.Data.List.TakeWhile

/-!
# The grammar of JSON text

`Json.Padded value text` says that a text writes a value, with blanks around it, by the rules of the
JSON grammar; strings may use any escapes, and blanks may stand between any two tokens. Every such
text is read as the value it writes (`Json.parse?_of_padded`).

A number or a word ends only at the character that follows, so what scanning a text comes to is said
by the scanner it leads to, up to what that scanner does next (`Scanner.Settles`).
-/

namespace Closedness.Json

/-! ## Numbers -/

namespace Numeral

/-- A single zero, or digits that do not start with one. -/
inductive WholePart : List Char → Prop
  | zero : WholePart ['0']
  | digits {first : Char} {rest : List Char} : first.isDigit = true → first ≠ '0' →
      (∀ c ∈ rest, c.isDigit = true) → WholePart (first :: rest)

/-- At least one digit. -/
structure Digits (text : List Char) : Prop where
  ne_nil : text ≠ []
  isDigit : ∀ c ∈ text, c.isDigit = true

/-- The digits of a fraction, and how it is written. -/
inductive FractionPart : List Char → List Char → Prop
  | absent : FractionPart [] []
  | present {digits : List Char} : Digits digits → FractionPart digits ('.' :: digits)

/-- The sign of an exponent is negative, and how it is written. -/
inductive SignPart : Bool → List Char → Prop
  | absent : SignPart false []
  | plus : SignPart false ['+']
  | minus : SignPart true ['-']

/-- An exponent, and how it is written. -/
inductive ExponentPart : Option (Bool × List Char) → List Char → Prop
  | absent : ExponentPart none []
  | present {letter : Char} {negative : Bool} {sign digits : List Char} :
      letter = 'e' ∨ letter = 'E' → SignPart negative sign → Digits digits →
      ExponentPart (some (negative, digits)) (letter :: (sign ++ digits))

/-- The sign of a number as it is written. -/
def minus (negative : Bool) : List Char :=
  if negative then ['-'] else []

/-- The text writes the number. -/
inductive Lexeme : Numeral → List Char → Prop
  | mk {negative : Bool} {whole fraction point power : List Char}
      {exponent : Option (Bool × List Char)} : WholePart whole → FractionPart fraction point →
      ExponentPart exponent power →
      Lexeme { negative, whole, fraction, exponent } (minus negative ++ (whole ++ (point ++ power)))

theorem WholePart.digits_of {whole : List Char} (h : WholePart whole) : Digits whole := by
  cases h with
  | zero => exact ⟨by simp, List.forall_mem_singleton.2 rfl⟩
  | digits hfirst _ hrest => exact ⟨by simp, List.forall_mem_cons.2 ⟨hfirst, hrest⟩⟩

/-- The text does not go on with a digit. -/
def EndsDigits (text : List Char) : Prop :=
  ∀ c, text.head? = some c → c.isDigit = false

/-- Digits are taken up to where the text does not go on with one. -/
theorem span_digits {digits rest : List Char} (hdigits : ∀ c ∈ digits, c.isDigit = true)
    (hrest : EndsDigits rest) : (digits ++ rest).takeWhile Char.isDigit = digits ∧
      (digits ++ rest).dropWhile Char.isDigit = rest := by
  rw [List.takeWhile_append_of_pos hdigits, List.dropWhile_append_of_pos hdigits]
  cases rest with
  | nil => simp
  | cons c rest =>
    have hc : ¬ c.isDigit = true := by simp [hrest c rfl]
    rw [List.takeWhile_cons_of_neg hc, List.dropWhile_cons_of_neg hc, List.append_nil]
    exact ⟨rfl, rfl⟩

theorem takeDigits?_append {digits rest : List Char} (h : Digits digits) (hrest : EndsDigits rest) :
    takeDigits? (digits ++ rest) = some (digits, rest) := by
  obtain ⟨htake, hdrop⟩ := span_digits h.isDigit hrest
  rw [takeDigits?, htake, hdrop]
  cases digits with
  | nil => exact absurd rfl h.ne_nil
  | cons c digits => rfl

/-- The whole part of a number is taken off the text. -/
theorem takeWhole?_append {whole rest : List Char} (h : WholePart whole) (hrest : EndsDigits rest) :
    takeWhole? (whole ++ rest) = some (whole, rest) := by
  obtain ⟨htake, hdrop⟩ := span_digits h.digits_of.isDigit hrest
  rw [takeWhole?, htake, hdrop]
  cases h with
  | zero => rfl
  | @digits first digits _ hfirst _ =>
    split
    · next heq => cases heq
    · next heq =>
      cases heq
      exact absurd rfl hfirst
    · next heq =>
      cases heq
      exact absurd rfl hfirst
    · rfl

theorem takeMinus_append {negative : Bool} {text : List Char} {c : Char} (h : text.head? = some c)
    (hc : c.isDigit = true) : takeMinus (minus negative ++ text) = (negative, text) := by
  cases negative with
  | true => rfl
  | false =>
    show takeMinus text = (false, text)
    unfold takeMinus
    split
    · cases h
      exact absurd hc (by decide)
    · rfl

section Parts

variable {exponent : Option (Bool × List Char)} {power fraction point : List Char}

theorem ExponentPart.endsDigits (h : ExponentPart exponent power) : EndsDigits power := by
  intro c hc
  cases h with
  | absent => cases hc
  | present hletter _ _ =>
    cases hc
    rcases hletter with rfl | rfl <;> rfl

theorem FractionPart.endsDigits (h : FractionPart fraction point)
    (hexponent : ExponentPart exponent power) : EndsDigits (point ++ power) := by
  cases h with
  | absent => exact hexponent.endsDigits
  | present _ =>
    intro c hc
    cases hc
    rfl

theorem takeSign_append {negative : Bool} {sign digits : List Char} (h : SignPart negative sign)
    (hdigits : Digits digits) : takeSign (sign ++ digits) = (negative, digits) := by
  cases h with
  | plus | minus => rfl
  | absent =>
    rw [List.nil_append]
    unfold takeSign
    split
    · exact absurd (hdigits.isDigit _ List.mem_cons_self) (by decide)
    · exact absurd (hdigits.isDigit _ List.mem_cons_self) (by decide)
    · rfl

theorem takeExponent?_eq (h : ExponentPart exponent power) :
    takeExponent? power = some exponent := by
  cases h with
  | absent => rfl
  | @present letter negative sign digits hletter hsign hdigits =>
    have htake : takeDigits? digits = some (digits, []) := by
      simpa using takeDigits?_append hdigits (fun _ => nofun : EndsDigits [])
    rw [takeExponent?, if_pos hletter, takeSign_append hsign hdigits]
    simp only [htake]

/-- The fraction of a number is taken off the text. -/
theorem takeFraction?_append (h : FractionPart fraction point)
    (hexponent : ExponentPart exponent power) :
    takeFraction? (point ++ power) = some (fraction, power) := by
  cases h with
  | present hdigits => exact takeDigits?_append hdigits hexponent.endsDigits
  | absent =>
    cases hexponent with
    | absent => rfl
    | present hletter _ _ => rcases hletter with rfl | rfl <;> rfl

end Parts

/-- A number is read from its text. -/
theorem Lexeme.parse? {n : Numeral} {lexeme : List Char} (h : Lexeme n lexeme) :
    Numeral.parse? lexeme = some n := by
  obtain ⟨hwhole, hfraction, hexponent⟩ := h
  next negative whole fraction point power exponent =>
  obtain ⟨c, hhead⟩ : ∃ c, whole.head? = some c :=
    Option.ne_none_iff_exists'.1 (by simpa using hwhole.digits_of.ne_nil)
  have hc : c.isDigit = true := hwhole.digits_of.isDigit c (List.mem_of_head? hhead)
  have hminus : takeMinus (minus negative ++ (whole ++ (point ++ power))) =
      (negative, whole ++ (point ++ power)) :=
    takeMinus_append (by rw [List.head?_append, hhead]; rfl) hc
  simp [Numeral.parse?, hminus, takeWhole?_append hwhole (hfraction.endsDigits hexponent),
    takeFraction?_append hfraction hexponent, takeExponent?_eq hexponent]

theorem isNumberChar_digits {digits : List Char} (h : ∀ c ∈ digits, c.isDigit = true) :
    ∀ c ∈ digits, isNumberChar c = true := by
  intro c hc
  simp [isNumberChar, h c hc]

/-- A number is written with the characters of numbers. -/
theorem Lexeme.isNumberChar {n : Numeral} {lexeme : List Char} (h : Lexeme n lexeme) :
    ∀ c ∈ lexeme, Json.isNumberChar c = true := by
  obtain ⟨hwhole, hfraction, hexponent⟩ := h
  next negative whole fraction point power exponent =>
  have hminus : ∀ c ∈ minus negative, Json.isNumberChar c = true := by
    cases negative with
    | false => exact nofun
    | true => exact List.forall_mem_singleton.2 rfl
  have hpoint : ∀ c ∈ point, Json.isNumberChar c = true := by
    cases hfraction with
    | absent => exact nofun
    | present hdigits => exact List.forall_mem_cons.2 ⟨rfl, isNumberChar_digits hdigits.isDigit⟩
  have hpower : ∀ c ∈ power, Json.isNumberChar c = true := by
    cases hexponent with
    | absent => exact nofun
    | present hletter hsign hdigits =>
      refine List.forall_mem_cons.2 ⟨?_, List.forall_mem_append.2 ⟨?_, ?_⟩⟩
      · rcases hletter with rfl | rfl <;> rfl
      · cases hsign with
        | absent => exact nofun
        | plus => exact List.forall_mem_singleton.2 rfl
        | minus => exact List.forall_mem_singleton.2 rfl
      · exact isNumberChar_digits hdigits.isDigit
  simp only [List.forall_mem_append]
  exact ⟨hminus, isNumberChar_digits hwhole.digits_of.isDigit, hpoint, hpower⟩

/-- A number starts with a digit or a minus sign. -/
theorem Lexeme.head {n : Numeral} {lexeme : List Char} (h : Lexeme n lexeme) :
    ∃ c rest, lexeme = c :: rest ∧ startsNumber c = true := by
  obtain ⟨hwhole, hfraction, hexponent⟩ := h
  next negative whole fraction point power exponent =>
  cases negative with
  | true => exact ⟨'-', _, rfl, rfl⟩
  | false =>
    cases hwhole with
    | zero => exact ⟨'0', _, rfl, rfl⟩
    | @digits first rest hfirst _ _ => exact ⟨first, _, rfl, by simp [startsNumber, hfirst]⟩

end Numeral

/-! ## Strings -/

/-- The pieces of a string, and how they are written. -/
inductive Pieces : List Piece → List Char → Prop
  | nil : Pieces [] []
  | plain {c : Char} {pieces : List Piece} {text : List Char} : c ≠ '"' → c ≠ '\\' →
      0x20 ≤ c.toNat → Pieces pieces text → Pieces (.char c :: pieces) (c :: text)
  | escape {letter c : Char} {pieces : List Piece} {text : List Char} :
      escapeChar? letter = some c → Pieces pieces text →
      Pieces (.char c :: pieces) ('\\' :: letter :: text)
  | hex {a b c d : Char} {i j k l : Nat} {pieces : List Piece} {text : List Char} :
      hexValue? a = some i → hexValue? b = some j → hexValue? c = some k → hexValue? d = some l →
      Pieces pieces text →
      Pieces (.unit (((i * 16 + j) * 16 + k) * 16 + l) :: pieces)
        ('\\' :: 'u' :: a :: b :: c :: d :: text)

/-- The characters of a string between its quotes; there are none if halves of surrogate pairs are
left alone. -/
inductive Quoted : Option String → List Char → Prop
  | mk {pieces : List Piece} {text : List Char} : Pieces pieces text →
      Quoted ((Piece.spell pieces []).map String.ofList) ('"' :: (text ++ ['"']))

/-! ## Values -/

/-- Only blanks. -/
def Blanks (text : List Char) : Prop :=
  ∀ c ∈ text, isBlank c = true

/-- The name of a member, with blanks around it. -/
inductive Key : String → List Char → Prop
  | mk {name : String} {before text after : List Char} : Blanks before → Quoted (some name) text →
      Blanks after → Key name (before ++ (text ++ after))

mutual

/-- The text writes the value. -/
inductive Writes : Json → List Char → Prop
  | null : Writes .null "null".toList
  | true : Writes (.bool true) "true".toList
  | false : Writes (.bool false) "false".toList
  | number {n : Numeral} {lexeme : List Char} : n.Lexeme lexeme → Writes (n.value lexeme) lexeme
  | string {value : Option String} {text : List Char} : Quoted value text →
      Writes (Parser.textValue value) text
  | emptyArray {blanks : List Char} : Blanks blanks → Writes (.array []) ('[' :: (blanks ++ [']']))
  | array {elements : List Json} {text : List Char} : Elements elements text →
      Writes (.array elements) ('[' :: (text ++ [']']))
  | emptyObject {blanks : List Char} : Blanks blanks →
      Writes (.object []) ('\x7b' :: (blanks ++ ['\x7d']))
  | object {members : List (String × Json)} {text : List Char} : Members members text →
      Writes (.object members) ('\x7b' :: (text ++ ['\x7d']))

/-- The text writes the value, with blanks around it. -/
inductive Padded : Json → List Char → Prop
  | mk {value : Json} {before text after : List Char} : Blanks before → Writes value text →
      Blanks after → Padded value (before ++ (text ++ after))

/-- The text writes the elements of an array that is not empty. -/
inductive Elements : List Json → List Char → Prop
  | last {value : Json} {text : List Char} : Padded value text → Elements [value] text
  | cons {value : Json} {rest : List Json} {text more : List Char} : Padded value text →
      Elements rest more → Elements (value :: rest) (text ++ ',' :: more)

/-- The text writes the members of an object that is not empty. -/
inductive Members : List (String × Json) → List Char → Prop
  | last {name : String} {value : Json} {key text : List Char} : Key name key →
      Padded value text → Members [(name, value)] (key ++ ':' :: text)
  | cons {name : String} {value : Json} {rest : List (String × Json)} {key text more : List Char} :
      Key name key → Padded value text → Members rest more →
      Members ((name, value) :: rest) (key ++ ':' :: (text ++ ',' :: more))

end

theorem Writes.padded {value : Json} {text : List Char} (h : Writes value text) :
    Padded value text := by
  have hpadded := Padded.mk (fun _ => nofun : Blanks []) h (fun _ => nofun : Blanks [])
  rwa [List.nil_append, List.append_nil] at hpadded

/-- More blanks can follow. -/
theorem Padded.append {value : Json} {text blanks : List Char} (h : Padded value text)
    (hblanks : Blanks blanks) : Padded value (text ++ blanks) := by
  obtain ⟨hbefore, hvalue, hafter⟩ := h
  next before text after =>
  have hmore : Blanks (after ++ blanks) := List.forall_mem_append.2 ⟨hafter, hblanks⟩
  simpa using Padded.mk hbefore hvalue hmore

/-! ## Scanning -/

namespace Scanner

theorem run_append (s : Scanner) (a b : List Char) :
    run s (a ++ b) = (run s a).bind fun s => run s b := by
  induction a generalizing s with
  | nil => rfl
  | cons c rest ih =>
    rw [List.cons_append, run, run]
    cases s.step c with
    | none => rfl
    | some next => exact ih next

/-- The character ends a word and a number. -/
def isDelimiter (c : Char) : Bool :=
  !isWordChar c && !isNumberChar c

/-- The scanner has found the tokens `found`, once it is clear that the last of them ends here. -/
structure Settles (s : Scanner) (found : List Token) : Prop where
  finish : s.finish? = some found.reverse
  step : ∀ c, isDelimiter c = true → s.step c = stepBetween found c

/-- Between tokens, the text is scanned as the given ones. -/
def Reads (text : List Char) (tokens : List Token) : Prop :=
  ∀ found, ∃ s, run ⟨.between, found⟩ text = some s ∧ s.Settles (tokens.reverse ++ found)

/-- Between tokens, the text is scanned as the given ones, and the last of them ends with it. -/
def Closes (text : List Char) (tokens : List Token) : Prop :=
  ∀ found, run ⟨.between, found⟩ text = some ⟨.between, tokens.reverse ++ found⟩

theorem settles_between (found : List Token) : Settles ⟨.between, found⟩ found :=
  ⟨rfl, fun _ _ => rfl⟩

theorem settles_word {letters : List Char} {token : Token} (h : wordToken? letters = some token)
    (found : List Token) : Settles ⟨.word letters, found⟩ (token :: found) := by
  constructor
  · simp [finish?, h]
  · intro c hc
    have hword : isWordChar c = false := by
      simp only [isDelimiter, Bool.and_eq_true, Bool.not_eq_true'] at hc
      exact hc.1
    simp [Scanner.step, hword, h]

/-- The spelling of a number is one token, once it is clear that it ends. -/
theorem settles_number {lexeme : List Char} {token : Token} (h : numberToken? lexeme = some token)
    (found : List Token) : Settles ⟨.number lexeme, found⟩ (token :: found) := by
  constructor
  · simp [finish?, h]
  · intro c hc
    have hnumber : isNumberChar c = false := by
      simp only [isDelimiter, Bool.and_eq_true, Bool.not_eq_true'] at hc
      exact hc.2
    simp [Scanner.step, hnumber, h]

section Joined

variable {a b : List Char} {ta tb : List Token}

theorem Closes.reads (h : Closes a ta) : Reads a ta := fun found =>
  ⟨_, h found, settles_between _⟩

/-- Texts that end their last token are scanned one after the other. -/
theorem Closes.append (ha : Closes a ta) (hb : Closes b tb) : Closes (a ++ b) (ta ++ tb) := by
  intro found
  rw [run_append, ha, Option.bind_some, hb, List.reverse_append, List.append_assoc]

/-- Only the last text may leave its token open. -/
theorem Closes.append_reads (ha : Closes a ta) (hb : Reads b tb) : Reads (a ++ b) (ta ++ tb) := by
  intro found
  obtain ⟨s, hs, hsettles⟩ := hb (ta.reverse ++ found)
  refine ⟨s, ?_, ?_⟩
  · rw [run_append, ha, Option.bind_some, hs]
  · rwa [List.reverse_append, List.append_assoc]

/-- A delimiter ends the last token of the text before it. -/
theorem Reads.append_reads {c : Char} {rest : List Char} (ha : Reads a ta)
    (hc : isDelimiter c = true) (hb : Reads (c :: rest) tb) :
    Reads (a ++ c :: rest) (ta ++ tb) := by
  intro found
  obtain ⟨s, hs, hsettles⟩ := ha found
  have hstep : s.step c = Scanner.step ⟨.between, ta.reverse ++ found⟩ c := hsettles.step c hc
  rw [run_append, hs, Option.bind_some, run, hstep, List.reverse_append, List.append_assoc]
  exact hb (ta.reverse ++ found)

end Joined

theorem isDelimiter_of_isBlank {c : Char} (h : isBlank c = true) : isDelimiter c = true := by
  simp only [isBlank, Bool.or_eq_true, decide_eq_true_eq] at h
  obtain ((rfl | rfl) | rfl) | rfl := h <;> rfl

theorem closes_blanks {blanks : List Char} (h : Blanks blanks) : Closes blanks [] := by
  intro found
  induction blanks with
  | nil => rfl
  | cons c rest ih =>
    obtain ⟨hc, hrest⟩ := List.forall_mem_cons.1 h
    have hstep : step ⟨.between, found⟩ c = some ⟨.between, found⟩ := if_pos hc
    rw [run, hstep]
    exact ih hrest

/-- Blanks around a text change nothing. -/
theorem Reads.padded {before text after : List Char} {tokens : List Token}
    (hbefore : Blanks before) (h : Reads text tokens) (hafter : Blanks after) :
    Reads (before ++ (text ++ after)) tokens := by
  refine (closes_blanks hbefore).append_reads ?_
  cases after with
  | nil => rwa [List.append_nil]
  | cons c rest =>
    have hc : isDelimiter c = true := isDelimiter_of_isBlank (hafter c List.mem_cons_self)
    simpa using h.append_reads hc (closes_blanks hafter).reads

/-! ### Strings -/

theorem run_pieces {ps : List Piece} {text : List Char} (h : Pieces ps text)
    (pieces : List Piece) (found : List Token) :
    run ⟨.text pieces, found⟩ text = some ⟨.text (ps.reverse ++ pieces), found⟩ := by
  induction h generalizing pieces with
  | nil => rfl
  | @plain c ps text hquote hbackslash hcode _ ih =>
    have hstep : step ⟨.text pieces, found⟩ c = some ⟨.text (.char c :: pieces), found⟩ := by
      simp [step, hquote, hbackslash, Nat.not_lt.2 hcode]
    rw [run, hstep, List.reverse_cons, List.append_assoc]
    exact ih (.char c :: pieces)
  | @escape letter c ps text hletter _ ih =>
    have hu : letter ≠ 'u' := by
      rintro rfl
      cases hletter
    have hrun : run ⟨.text pieces, found⟩ ('\\' :: letter :: text) =
        run ⟨.text (.char c :: pieces), found⟩ text := by
      simp [run, step, hu, hletter]
    rw [hrun, List.reverse_cons, List.append_assoc]
    exact ih (.char c :: pieces)
  | @hex a b c d i j k l ps text ha hb hc hd _ ih =>
    have hrun : run ⟨.text pieces, found⟩ ('\\' :: 'u' :: a :: b :: c :: d :: text) =
        run ⟨.text (.unit (((i * 16 + j) * 16 + k) * 16 + l) :: pieces), found⟩ text := by
      simp [run, step, ha, hb, hc, hd]
    rw [hrun, List.reverse_cons, List.append_assoc]
    exact ih (.unit _ :: pieces)

/-- A quoted string is one token, which ends with it. -/
theorem closes_quoted {value : Option String} {text : List Char} (h : Quoted value text) :
    Closes text [.text value] := by
  intro found
  obtain ⟨hpieces⟩ := h
  next pieces text =>
  have hopen : run ⟨.between, found⟩ ('"' :: (text ++ ['"'])) =
      run ⟨.text [], found⟩ (text ++ ['"']) := rfl
  rw [hopen, run_append, run_pieces hpieces, Option.bind_some, List.append_nil]
  simp [run, step, textToken]

/-! ### Numbers -/

theorem run_number {chars : List Char} (h : ∀ c ∈ chars, isNumberChar c = true)
    (lexeme : List Char) (found : List Token) :
    run ⟨.number lexeme, found⟩ chars = some ⟨.number (chars.reverse ++ lexeme), found⟩ := by
  induction chars generalizing lexeme with
  | nil => rfl
  | cons c rest ih =>
    obtain ⟨hc, hrest⟩ := List.forall_mem_cons.1 h
    have hstep : step ⟨.number lexeme, found⟩ c = some ⟨.number (c :: lexeme), found⟩ := if_pos hc
    rw [run, hstep, List.reverse_cons, List.append_assoc]
    exact ih hrest (c :: lexeme)

theorem stepBetween_number {c : Char} (h : startsNumber c = true) (found : List Token) :
    stepBetween found c = some ⟨.number [c], found⟩ := by
  have hne : ∀ d : Char, startsNumber d = false → c ≠ d := by
    rintro d hd rfl
    rw [h] at hd
    cases hd
  have hblank : isBlank c = false := by
    simp [isBlank, hne ' ' (by decide), hne '\t' (by decide), hne '\n' (by decide),
      hne '\r' (by decide)]
  simp [stepBetween, hblank, hne '"' (by decide), h]

/-- A number is scanned as its value. -/
theorem reads_number {n : Numeral} {lexeme : List Char} (h : n.Lexeme lexeme) :
    Reads lexeme [.scalar (n.value lexeme)] := by
  intro found
  have htoken : numberToken? lexeme.reverse = some (.scalar (n.value lexeme)) := by
    rw [numberToken?, List.reverse_reverse, h.parse?, Option.map_some]
  refine ⟨⟨.number lexeme.reverse, found⟩, ?_, settles_number htoken found⟩
  obtain ⟨c, rest, rfl, hc⟩ := h.head
  have hstep : step ⟨.between, found⟩ c = some ⟨.number [c], found⟩ := stepBetween_number hc found
  rw [run, hstep]
  simpa using run_number (List.forall_mem_cons.1 h.isNumberChar).2 [c] found

end Scanner

/-! ## Parsing -/

namespace Parser

/-- The parser waits for a value inside the values that are open. -/
inductive AwaitsValue : Parser → List Open → Prop
  | value (stack : List Open) : AwaitsValue (.awaitValue stack) stack
  | element (stack : List Open) : AwaitsValue (.awaitElement stack) (.array [] :: stack)

/-- The parser waits for the key of a member after the given ones. -/
inductive AwaitsKey : Parser → List (String × Json) → List Open → Prop
  | further (before : List (String × Json)) (stack : List Open) :
      AwaitsKey (.awaitKey (some before) stack) before stack
  | first (stack : List Open) : AwaitsKey (.awaitMember stack) [] stack

/-- Parsing the tokens finishes the value, wherever a value may stand. -/
def Yields (tokens : List Token) (value : Json) : Prop :=
  ∀ {p : Parser} {stack : List Open}, AwaitsValue p stack → ∀ rest,
    run p (tokens ++ rest) = run (.done value stack) rest

/-- Parsing the tokens finishes an array with these elements after the ones it has. -/
def YieldsElements (tokens : List Token) (elements : List Json) : Prop :=
  ∀ {p : Parser} {before : List Json} {stack : List Open}, AwaitsValue p (.array before :: stack) →
    ∀ rest, run p (tokens ++ .closeBracket :: rest) =
      run (.done (.array (before.reverse ++ elements)) stack) rest

/-- Parsing the tokens finishes an object with these members after the ones it has. -/
def YieldsMembers (tokens : List Token) (members : List (String × Json)) : Prop :=
  ∀ {p : Parser} {before : List (String × Json)} {stack : List Open}, AwaitsKey p before stack →
    ∀ rest, run p (tokens ++ .closeBrace :: rest) =
      run (.done (.object (before.reverse ++ members)) stack) rest

theorem yields_scalar (value : Json) : Yields [.scalar value] value := by
  intro p stack hp rest
  cases hp <;> rfl

/-- A string is a value by itself; one that spells no text cannot be decoded. -/
theorem yields_text (value : Option String) : Yields [.text value] (textValue value) := by
  intro p stack hp rest
  cases hp <;> rfl

theorem yields_emptyArray : Yields [.openBracket, .closeBracket] (.array []) := by
  intro p stack hp rest
  cases hp <;> rfl

theorem yields_emptyObject : Yields [.openBrace, .closeBrace] (.object []) := by
  intro p stack hp rest
  cases hp <;> rfl

section Nested

variable {tokens more : List Token} {value : Json}

/-- The elements between brackets give an array. -/
theorem YieldsElements.array {elements : List Json} (h : YieldsElements tokens elements) :
    Yields (.openBracket :: (tokens ++ [.closeBracket])) (.array elements) := by
  intro p stack hp rest
  have hopen : run p (.openBracket :: (tokens ++ [.closeBracket]) ++ rest) =
      run (.awaitElement stack) (tokens ++ .closeBracket :: rest) := by
    cases hp <;> simp [run, step, startValue]
  rw [hopen]
  exact h (.element stack) rest

/-- The members between braces give an object. -/
theorem YieldsMembers.object {members : List (String × Json)} (h : YieldsMembers tokens members) :
    Yields (.openBrace :: (tokens ++ [.closeBrace])) (.object members) := by
  intro p stack hp rest
  have hopen : run p (.openBrace :: (tokens ++ [.closeBrace]) ++ rest) =
      run (.awaitMember stack) (tokens ++ .closeBrace :: rest) := by
    cases hp <;> simp [run, step, startValue]
  rw [hopen]
  exact h (.first stack) rest

theorem Yields.last (h : Yields tokens value) : YieldsElements tokens [value] := by
  intro p before stack hp rest
  rw [h hp]
  simp [run, step]

/-- A value and a comma stand before further elements. -/
theorem Yields.cons {elements : List Json} (h : Yields tokens value)
    (hmore : YieldsElements more elements) :
    YieldsElements (tokens ++ .comma :: more) (value :: elements) := by
  intro p before stack hp rest
  have hcomma : run (.done value (.array before :: stack))
      (.comma :: (more ++ .closeBracket :: rest)) =
      run (.awaitValue (.array (value :: before) :: stack)) (more ++ .closeBracket :: rest) := rfl
  rw [List.append_assoc, h hp, List.cons_append, hcomma, hmore (.value _)]
  simp

/-- A key and a colon lead to the value of a member. -/
theorem run_key {p : Parser} {before : List (String × Json)} {stack : List Open}
    (hp : AwaitsKey p before stack) (name : String) (rest : List Token) :
    run p (.text (some name) :: .colon :: rest) =
      run (.awaitValue (.object (some before) (some name) :: stack)) rest := by
  cases hp <;> rfl

theorem Yields.lastMember (name : String) (h : Yields tokens value) :
    YieldsMembers (.text (some name) :: .colon :: tokens) [(name, value)] := by
  intro p before stack hp rest
  rw [List.cons_append, List.cons_append, run_key hp, h (.value _)]
  simp [run, step, addMember, objectValue]

/-- A member and a comma stand before further members. -/
theorem Yields.consMember (name : String) {members : List (String × Json)} (h : Yields tokens value)
    (hmore : YieldsMembers more members) :
    YieldsMembers (.text (some name) :: .colon :: (tokens ++ .comma :: more))
      ((name, value) :: members) := by
  intro p before stack hp rest
  have hcomma : run (.done value (.object (some before) (some name) :: stack))
      (.comma :: (more ++ .closeBrace :: rest)) =
      run (.awaitKey (some ((name, value) :: before)) stack) (more ++ .closeBrace :: rest) := rfl
  rw [List.cons_append, List.cons_append, run_key hp, List.append_assoc, h (.value _),
    List.cons_append, hcomma, hmore (.further _ _)]
  simp

end Nested

end Parser

/-! ## Reading -/

section Reading

open Scanner Closedness.Json.Parser

/-- A key with its colon is scanned as the two tokens. -/
theorem reads_key {name : String} {key : List Char} (h : Key name key) :
    Closes (key ++ [':']) [.text (some name), .colon] := by
  obtain ⟨hbefore, hname, hafter⟩ := h
  have hcolon : Closes [':'] [.colon] := fun _ => rfl
  simpa using ((closes_blanks hbefore).append (closes_quoted hname)).append
    ((closes_blanks hafter).append hcolon)

/-- What is written between brackets or braces. -/
theorem reads_enclosed {opening closing : Char} {first last : Token} {text : List Char}
    {tokens : List Token} (hopening : Closes [opening] [first]) (h : Reads text tokens)
    (hclosing : isDelimiter closing = true) (hlast : Closes [closing] [last]) :
    Reads (opening :: (text ++ [closing])) (first :: (tokens ++ [last])) :=
  hopening.append_reads (h.append_reads hclosing hlast.reads)

/-- The text before a comma and the text after it. -/
theorem reads_comma {a b : List Char} {ta tb : List Token} (ha : Reads a ta) (hb : Reads b tb) :
    Reads (a ++ ',' :: b) (ta ++ .comma :: tb) := by
  have hcomma : Closes [','] [.comma] := fun _ => rfl
  exact ha.append_reads rfl (hcomma.append_reads hb)

mutual

/-- **A text is scanned as tokens that give the value it writes.** -/
theorem Writes.reads : ∀ {value : Json} {text : List Char}, Writes value text →
    ∃ tokens, Reads text tokens ∧ Yields tokens value
  | _, _, .null => ⟨[.scalar .null], fun found => ⟨_, rfl, settles_word rfl found⟩, yields_scalar _⟩
  | _, _, .true =>
    ⟨[.scalar (.bool true)], fun found => ⟨_, rfl, settles_word rfl found⟩, yields_scalar _⟩
  | _, _, .false =>
    ⟨[.scalar (.bool false)], fun found => ⟨_, rfl, settles_word rfl found⟩, yields_scalar _⟩
  | _, _, .number h => ⟨_, reads_number h, yields_scalar _⟩
  | _, _, .string h => ⟨_, (closes_quoted h).reads, yields_text _⟩
  | _, _, .emptyArray h => by
    have hreads := (closes_blanks h).reads
    exact ⟨_, reads_enclosed (fun _ => rfl) hreads rfl (fun _ => rfl), yields_emptyArray⟩
  | _, _, .emptyObject h => by
    have hreads := (closes_blanks h).reads
    exact ⟨_, reads_enclosed (fun _ => rfl) hreads rfl (fun _ => rfl), yields_emptyObject⟩
  | _, _, .array h => by
    obtain ⟨tokens, hreads, hyields⟩ := h.reads
    exact ⟨_, reads_enclosed (fun _ => rfl) hreads rfl (fun _ => rfl), hyields.array⟩
  | _, _, .object h => by
    obtain ⟨tokens, hreads, hyields⟩ := h.reads
    exact ⟨_, reads_enclosed (fun _ => rfl) hreads rfl (fun _ => rfl), hyields.object⟩

theorem Padded.reads : ∀ {value : Json} {text : List Char}, Padded value text →
    ∃ tokens, Reads text tokens ∧ Yields tokens value
  | _, _, .mk hbefore h hafter => by
    obtain ⟨tokens, hreads, hyields⟩ := h.reads
    exact ⟨tokens, hreads.padded hbefore hafter, hyields⟩

theorem Elements.reads : ∀ {elements : List Json} {text : List Char}, Elements elements text →
    ∃ tokens, Reads text tokens ∧ YieldsElements tokens elements
  | _, _, .last h => by
    obtain ⟨tokens, hreads, hyields⟩ := h.reads
    exact ⟨tokens, hreads, hyields.last⟩
  | _, _, .cons h hrest => by
    obtain ⟨tokens, hreads, hyields⟩ := h.reads
    obtain ⟨more, hmore, hyieldsMore⟩ := hrest.reads
    exact ⟨_, reads_comma hreads hmore, hyields.cons hyieldsMore⟩

theorem Members.reads : ∀ {members : List (String × Json)} {text : List Char},
    Members members text → ∃ tokens, Reads text tokens ∧ YieldsMembers tokens members
  | _, _, .last hkey h => by
    obtain ⟨tokens, hreads, hyields⟩ := h.reads
    refine ⟨_, ?_, hyields.lastMember _⟩
    simpa using (reads_key hkey).append_reads hreads
  | _, _, .cons hkey h hrest => by
    obtain ⟨tokens, hreads, hyields⟩ := h.reads
    obtain ⟨more, hmore, hyieldsMore⟩ := hrest.reads
    refine ⟨_, ?_, hyields.consMember _ hyieldsMore⟩
    simpa using (reads_key hkey).append_reads (reads_comma hreads hmore)

end

/-- **Every JSON text is read as the value it writes.** -/
theorem parse?_of_padded {value : Json} {text : String} (h : Padded value text.toList) :
    parse? text = some value := by
  obtain ⟨tokens, hreads, hyields⟩ := h.reads
  obtain ⟨s, hs, hsettles⟩ := hreads []
  have hparse := hyields (.value []) []
  rw [List.append_nil] at hparse
  rw [parse?, tokens?, hs, Option.bind_some, hsettles.finish, List.append_nil, List.reverse_reverse,
    Option.bind_some, ofTokens?, hparse]
  rfl

end Reading

end Closedness.Json
