import Monkey.Token.Lexer

/-!
# Lexemes

A token is read off the characters with which it is written, unless the source
goes on with a character that would lengthen it.
-/

namespace Monkey.Token

open Text

/-! ## First characters -/

theorem isBlank_eq_false_of_ascii {c : Char} (visible : 33 ≤ c.toNat) (ascii : c.toNat ≤ 126) :
    isBlank c = false := by
  simp only [isBlank, blankRanges, List.any_cons, List.any_nil, Bool.or_false,
    Bool.or_eq_false_iff, Bool.and_eq_false_iff, decide_eq_false_iff_not, Char.le_def,
    UInt32.le_iff_toNat_le, Char.toNat_val, Char.reduceToNat]
  omega

theorem isUpper_iff_toNat {c : Char} :
    c.isUpper = true ↔ 65 ≤ c.toNat ∧ c.toNat ≤ 90 := by
  change decide ('A'.val ≤ c.val ∧ c.val ≤ 'Z'.val) = true ↔ _
  rw [decide_eq_true_eq, UInt32.le_iff_toNat_le, UInt32.le_iff_toNat_le]
  exact Iff.rfl

theorem isLower_iff_toNat {c : Char} :
    c.isLower = true ↔ 97 ≤ c.toNat ∧ c.toNat ≤ 122 := by
  change (decide ('a'.val ≤ c.val) && decide (c.val ≤ 'z'.val)) = true ↔ _
  rw [Bool.and_eq_true, decide_eq_true_eq, decide_eq_true_eq, UInt32.le_iff_toNat_le,
    UInt32.le_iff_toNat_le]
  exact Iff.rfl

theorem isLetter_iff_toNat {c : Char} : isLetter c = true ↔
    (65 ≤ c.toNat ∧ c.toNat ≤ 90) ∨ (97 ≤ c.toNat ∧ c.toNat ≤ 122) ∨ c.toNat = 95 := by
  have underscore : c = '_' ↔ c.toNat = 95 := Char.toNat_inj.symm
  change (c.isUpper || c.isLower || c == '_') = true ↔ _
  rw [Bool.or_eq_true, Bool.or_eq_true, isUpper_iff_toNat, isLower_iff_toNat, beq_iff_eq,
    underscore, or_assoc]

theorem isBlank_of_isLetter {c : Char} (letter : isLetter c = true) : isBlank c = false := by
  have bounds := isLetter_iff_toNat.mp letter
  exact isBlank_eq_false_of_ascii (by omega) (by omega)

theorem isBlank_of_isDigit {c : Char} (digit : c.isDigit = true) : isBlank c = false := by
  have bounds := Char.isDigit_iff_toNat.mp digit
  simp only [Char.reduceToNat] at bounds
  exact isBlank_eq_false_of_ascii (by omega) (by omega)

theorem isLetter_of_isDigit {c : Char} (digit : c.isDigit = true) : isLetter c = false := by
  have bounds := Char.isDigit_iff_toNat.mp digit
  simp only [Char.reduceToNat] at bounds
  rw [Bool.eq_false_iff]
  intro letter
  have other := isLetter_iff_toNat.mp letter
  omega

/-! ## Reading one token -/

theorem ofChars_nil : ofChars [] = [] :=
  ofChars_of_next?_eq_none rfl

theorem ofChars_cons {first : Char} (visible : isBlank first = false) (rest : List Char) :
    ofChars (first :: rest) = (readFrom first rest).1 :: ofChars (readFrom first rest).2 := by
  apply ofChars_of_next?_eq_some
  simp [next?, visible]

theorem ofChars_cons_of_isBlank {first : Char} (blank : isBlank first = true)
    (rest : List Char) : ofChars (first :: rest) = ofChars rest := by
  have same : next? (first :: rest) = next? rest := by
    simp [next?, blank]
  cases found : next? rest with
  | none => rw [ofChars_of_next?_eq_none found, ofChars_of_next?_eq_none (same.trans found)]
  | some pair => rw [ofChars_of_next?_eq_some found, ofChars_of_next?_eq_some (same.trans found)]

/-- A run of characters ends in front of the first that is not of its kind. -/
theorem span_append {p : Char → Bool} {run rest : List Char} (all : ∀ c ∈ run, p c = true)
    (stops : ∀ c ∈ rest.head?, p c = false) :
    (run ++ rest).takeWhile p = run ∧ (run ++ rest).dropWhile p = rest := by
  rw [List.takeWhile_append_of_pos all, List.dropWhile_append_of_pos all]
  cases rest with
  | nil => simp
  | cons next behind => simp [stops next rfl]

/-! ## Lexemes -/

/-- The characters with which a token is written. -/
def lexeme : Token → List Char
  | .string text => '"' :: (text.toList ++ ['"'])
  | token => token.literal.toList

/-- Names are runs of letters, other than the keywords. -/
structure IsName (name : String) : Prop where
  ne_nil : name.toList ≠ []
  letters : ∀ c ∈ name.toList, isLetter c = true
  notKeyword : Keyword.ofSpelling? name = none

instance : DecidablePred IsName := fun name =>
  decidable_of_iff
    (name.toList ≠ [] ∧ name.toList.all isLetter = true ∧ Keyword.ofSpelling? name = none)
    ⟨fun ⟨ne_nil, letters, notKeyword⟩ => ⟨ne_nil, List.all_eq_true.mp letters, notKeyword⟩,
      fun isName => ⟨isName.ne_nil, List.all_eq_true.mpr isName.letters, isName.notKeyword⟩⟩

/-- The token is one that can be read. -/
def WellFormed : Token → Prop
  | .illegal c =>
      isBlank c = false ∧ c ≠ '"' ∧ isLetter c = false ∧ c.isDigit = false ∧
        Symbol.ofChar? c = none
  | .ident name => IsName name
  | .int digits => digits.toList ≠ [] ∧ ∀ c ∈ digits.toList, c.isDigit = true
  | .string text => '"' ∉ text.toList
  | .symbol _ | .keyword _ => True

instance : DecidablePred WellFormed
  | .illegal c => inferInstanceAs (Decidable (isBlank c = false ∧ c ≠ '"' ∧ isLetter c = false ∧
      c.isDigit = false ∧ Symbol.ofChar? c = none))
  | .ident name => inferInstanceAs (Decidable (IsName name))
  | .int digits => decidable_of_iff
      (digits.toList ≠ [] ∧ digits.toList.all Char.isDigit = true)
      (and_congr_right fun _ => List.all_eq_true)
  | .string text => inferInstanceAs (Decidable ('"' ∉ text.toList))
  | .symbol _ | .keyword _ => inferInstanceAs (Decidable True)

/-- Whether a token would be read on with the character. -/
def lengthens : Token → Char → Bool
  | .ident _, c | .keyword _, c => isLetter c
  | .int _, c => c.isDigit
  | .symbol .assign, c | .symbol .bang, c => c == '='
  | _, _ => false

/-- What follows a token does not lengthen it. -/
def Apart (token : Token) (rest : List Char) : Prop :=
  ∀ c ∈ rest.head?, token.lengthens c = false

variable {rest : List Char}

/-- A run of characters of one kind is read as one token, if its first character
decides so. -/
theorem ofChars_run {p : Char → Bool} {make : String → Token} {run : String}
    (reads : ∀ first rest, p first = true → isBlank first = false ∧
      readFrom first rest =
        (make (String.ofList (first :: rest.takeWhile p)), rest.dropWhile p))
    (ne_nil : run.toList ≠ []) (all : ∀ c ∈ run.toList, p c = true)
    (stops : ∀ c ∈ rest.head?, p c = false) :
    ofChars (run.toList ++ rest) = make run :: ofChars rest := by
  rcases List.exists_cons_of_ne_nil ne_nil with ⟨first, more, spelt⟩
  rw [spelt] at all ⊢
  rcases reads first (more ++ rest) (all first (.head _)) with ⟨visible, read⟩
  rcases span_append (fun c member => all c (.tail _ member)) stops with ⟨taken, dropped⟩
  rw [List.cons_append, ofChars_cons visible, read, taken, dropped, ← spelt, String.ofList_toList]

/-- A run of letters is read as the word that it spells. -/
theorem ofChars_word {word : String} (ne_nil : word.toList ≠ [])
    (letters : ∀ c ∈ word.toList, isLetter c = true)
    (stops : ∀ c ∈ rest.head?, isLetter c = false) :
    ofChars (word.toList ++ rest) = ofWord word :: ofChars rest := by
  refine ofChars_run (fun first rest letter => ?_) ne_nil letters stops
  have notQuote : first ≠ '"' := by
    rintro rfl
    exact absurd letter (by decide)
  exact ⟨isBlank_of_isLetter letter, by simp [readFrom, notQuote, letter]⟩

/-- A run of digits is read as a numeral. -/
theorem ofChars_numeral {digits : String} (ne_nil : digits.toList ≠ [])
    (all : ∀ c ∈ digits.toList, c.isDigit = true)
    (stops : ∀ c ∈ rest.head?, c.isDigit = false) :
    ofChars (digits.toList ++ rest) = .int digits :: ofChars rest := by
  refine ofChars_run (fun first rest digit => ?_) ne_nil all stops
  have notQuote : first ≠ '"' := by
    rintro rfl
    exact absurd digit (by decide)
  have notLetter := isLetter_of_isDigit digit
  exact ⟨isBlank_of_isDigit digit, by simp [readFrom, notQuote, notLetter, digit]⟩

/-- A text between quotes is read as a string. -/
theorem ofChars_quoted {text : String} (noQuote : '"' ∉ text.toList) :
    ofChars ('"' :: (text.toList ++ '"' :: rest)) = .string text :: ofChars rest := by
  have all : ∀ c ∈ text.toList, (decide (c ≠ '"')) = true := by
    intro c member
    simp only [ne_eq, decide_not, Bool.not_eq_true', decide_eq_false_iff_not]
    rintro rfl
    exact noQuote member
  have stops : ∀ c ∈ ('"' :: rest).head?, (decide (c ≠ '"')) = false := by simp
  rcases span_append all stops with ⟨taken, dropped⟩
  rw [ofChars_cons (by decide)]
  simp only [readFrom, if_true, taken, dropped, List.tail_cons, String.ofList_toList]

/-- An equals sign would make an assignment or a negation a comparison. -/
theorem readFrom_of_head?_ne {first : Char} {mark : Symbol} (either : first = '=' ∨ first = '!')
    (spelt : Symbol.ofChar? first = some mark) (ne : rest.head? ≠ some '=') :
    readFrom first rest = (.symbol mark, rest) := by
  cases rest with
  | nil => rcases either with rfl | rfl <;> cases spelt <;> rfl
  | cons next behind =>
    have differs : next ≠ '=' := fun same => ne (same ▸ rfl)
    rcases either with rfl | rfl <;> cases spelt <;>
      simp [readFrom, isLetter, differs, Symbol.ofChar?]

/-- A symbol is read unless an equals sign behind it makes a longer one. -/
theorem ofChars_symbol {mark : Symbol} (apart : Apart (.symbol mark) rest) :
    ofChars (mark.spelling.toList ++ rest) = .symbol mark :: ofChars rest := by
  have ne (either : mark = .assign ∨ mark = .bang) : rest.head? ≠ some '=' := by
    intro head
    rcases either with rfl | rfl <;> exact absurd (apart '=' head) (by decide)
  cases mark
  case assign =>
    have read := readFrom_of_head?_ne (.inl rfl) rfl (ne (.inl rfl))
    rw [show Symbol.assign.spelling.toList ++ rest = '=' :: rest from rfl,
      ofChars_cons (by decide), read]
  case bang =>
    have read := readFrom_of_head?_ne (.inr rfl) rfl (ne (.inr rfl))
    rw [show Symbol.bang.spelling.toList ++ rest = '!' :: rest from rfl,
      ofChars_cons (by decide), read]
  all_goals exact ofChars_cons (by decide) _

/-- The token of a lexeme is read in front of anything that does not lengthen
it. -/
theorem ofChars_lexeme_append {token : Token} (formed : token.WellFormed)
    (apart : token.Apart rest) : ofChars (token.lexeme ++ rest) = token :: ofChars rest := by
  cases token with
  | illegal c =>
    rcases formed with ⟨visible, notQuote, notLetter, notDigit, notSymbol⟩
    have notEqual : c ≠ '=' := by
      rintro rfl
      cases notSymbol
    have notBang : c ≠ '!' := by
      rintro rfl
      cases notSymbol
    rw [show lexeme (.illegal c) ++ rest = c :: rest by simp [lexeme, literal],
      ofChars_cons visible]
    simp [readFrom, notQuote, notLetter, notDigit, notEqual, notBang, notSymbol]
  | ident name =>
    have read := ofChars_word formed.ne_nil formed.letters apart
    rwa [ofWord, formed.notKeyword] at read
  | int digits => exact ofChars_numeral formed.1 formed.2 apart
  | string text =>
    simp only [lexeme, List.cons_append, List.append_assoc, List.nil_append]
    exact ofChars_quoted formed
  | symbol mark => exact ofChars_symbol apart
  | keyword word =>
    have ne_nil : word.spelling.toList ≠ [] := by cases word <;> decide
    have letters : word.spelling.toList.all isLetter = true := by cases word <;> rfl
    have read := ofChars_word ne_nil (List.all_eq_true.mp letters) apart
    rwa [ofWord, Keyword.ofSpelling?_spelling] at read

end Monkey.Token
