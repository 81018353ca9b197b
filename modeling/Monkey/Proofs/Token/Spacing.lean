import Mathlib.Data.List.Chain
import Monkey.Proofs.Token.Layout

/-!
# Spacing

Any tokens that can be read may be written one behind the other, with any blanks
around them. There is need of a blank only between two words, between two
numerals, and between an equals sign or exclamation mark and an equals sign.
-/

namespace Monkey.Token

open Text

/-- Keywords and identifiers are words. -/
def isWord : Token → Bool
  | .ident _ | .keyword _ => true
  | _ => false

/-- Integers are numerals. -/
def isNumeral : Token → Bool
  | .int _ => true
  | _ => false

/-- Neighbours that would run into each other without a blank between them. -/
def Merges (left right : Token) : Prop :=
  (left.isWord = true ∧ right.isWord = true) ∨
    (left.isNumeral = true ∧ right.isNumeral = true) ∨
    ((left = .symbol .assign ∨ left = .symbol .bang) ∧ right.lexeme.head? = some '=')

instance (left right : Token) : Decidable (Merges left right) :=
  inferInstanceAs (Decidable (_ ∨ _))

/-- The lexemes of tokens, each behind a gap, and a last gap. -/
def written : List (List Char × Token) → List Char → List Char
  | [], last => last
  | (gap, token) :: parts, last => gap ++ (token.lexeme ++ written parts last)

/-- Tokens that can be read, behind blank gaps. A gap is empty only where the
neighbours do not run into each other. -/
structure Spaced (parts : List (List Char × Token)) : Prop where
  formed : ∀ part ∈ parts, part.2.WellFormed
  blank : ∀ part ∈ parts, Blank part.1
  separate : parts.IsChain fun left right => right.1 = [] → ¬ Merges left.2 right.2

theorem Spaced.tail {part : List Char × Token} {parts : List (List Char × Token)}
    (spaced : Spaced (part :: parts)) : Spaced parts where
  formed other member := spaced.formed other (.tail _ member)
  blank other member := spaced.blank other (.tail _ member)
  separate := spaced.separate.tail

/-! ## What comes next -/

theorem lexeme_ne_nil {token : Token} (formed : token.WellFormed) : token.lexeme ≠ [] := by
  cases token with
  | illegal c => simp [lexeme, literal]
  | ident name => exact formed.ne_nil
  | int digits => exact formed.1
  | string text => simp [lexeme]
  | symbol mark => cases mark <;> decide
  | keyword word => cases word <;> decide

/-- A blank lengthens nothing. -/
theorem lengthens_of_isBlank {c : Char} (blank : isBlank c = true) (token : Token) :
    token.lengthens c = false := by
  have notLetter : isLetter c = false := by
    rw [Bool.eq_false_iff]
    intro letter
    rw [isBlank_of_isLetter letter] at blank
    cases blank
  have notDigit : c.isDigit = false := by
    rw [Bool.eq_false_iff]
    intro digit
    rw [isBlank_of_isDigit digit] at blank
    cases blank
  have notEqual : c ≠ '=' := by
    rintro rfl
    exact absurd blank (by decide)
  cases token with
  | symbol mark => cases mark <;> simp [lengthens, notEqual]
  | ident _ | keyword _ => exact notLetter
  | int _ => exact notDigit
  | illegal _ | string _ => rfl

theorem isLetter_of_isWord {token : Token} (formed : token.WellFormed)
    (word : token.isWord = true) : ∀ c ∈ token.lexeme, isLetter c = true := by
  cases token with
  | ident name => exact formed.letters
  | keyword reserved =>
    have letters : reserved.spelling.toList.all isLetter = true := by cases reserved <;> rfl
    exact List.all_eq_true.mp letters
  | _ => cases word

theorem separate_symbol (mark : Symbol) : Separate (lexeme (.symbol mark)) := by
  have separate := separate_spelling mark []
  rwa [List.append_nil] at separate

/-- Only a word begins with a letter, and only a numeral with a digit. -/
theorem kind_of_head? {token : Token} (formed : token.WellFormed) {c : Char}
    (head : c ∈ token.lexeme.head?) :
    (isLetter c = true → token.isWord = true) ∧ (c.isDigit = true → token.isNumeral = true) := by
  have ends (separate : isLetter c = false ∧ c.isDigit = false) :
      (isLetter c = true → token.isWord = true) ∧ (c.isDigit = true → token.isNumeral = true) := by
    simp [separate.1, separate.2]
  cases token with
  | illegal other =>
    cases (show some other = some c by simpa [lexeme, literal] using head)
    exact ends ⟨formed.2.2.1, formed.2.2.2.1⟩
  | string text =>
    cases head
    exact ends (by decide)
  | symbol mark => exact ends (separate_symbol mark c head)
  | int digits =>
    have digit := formed.2 c (List.mem_of_mem_head? head)
    simp [isLetter_of_isDigit digit, isNumeral]
  | ident _ | keyword _ =>
    have letter := isLetter_of_isWord formed rfl c (List.mem_of_mem_head? head)
    refine ⟨fun _ => rfl, fun digit => ?_⟩
    rw [isLetter_of_isDigit digit] at letter
    cases letter

/-- Only a token that merges with its neighbour is lengthened by it. -/
theorem lengthens_head_of_not_merges {left right : Token} (formed : right.WellFormed)
    (apart : ¬ Merges left right) {c : Char} (head : c ∈ right.lexeme.head?) :
    left.lengthens c = false := by
  rw [Bool.eq_false_iff]
  intro lengthens
  rcases kind_of_head? formed head with ⟨word, numeral⟩
  refine apart ?_
  cases left with
  | ident _ | keyword _ => exact .inl ⟨rfl, word lengthens⟩
  | int _ => exact .inr (.inl ⟨rfl, numeral lengthens⟩)
  | symbol mark =>
    have equals (same : c = '=') : right.lexeme.head? = some '=' := same ▸ head
    cases mark with
    | assign => exact .inr (.inr ⟨.inl rfl, equals (beq_iff_eq.mp lengthens)⟩)
    | bang => exact .inr (.inr ⟨.inr rfl, equals (beq_iff_eq.mp lengthens)⟩)
    | _ => cases lengthens
  | illegal _ | string _ => cases lengthens

/-! ## Spaced tokens are read -/

variable {last : List Char}

/-- What is written behind a token does not lengthen it. -/
theorem Spaced.apart {gap : List Char} {token : Token} {parts : List (List Char × Token)}
    (spaced : Spaced ((gap, token) :: parts)) (lastBlank : Blank last) :
    token.Apart (written parts last) := by
  intro c head
  cases parts with
  | nil => exact lengthens_of_isBlank (lastBlank c (List.mem_of_mem_head? head)) token
  | cons part parts =>
    rcases part with ⟨between, next⟩
    have formed := spaced.formed (between, next) (.tail _ (.head _))
    have blank := spaced.blank (between, next) (.tail _ (.head _))
    cases between with
    | cons first others =>
      cases head
      exact lengthens_of_isBlank (blank c (.head _)) token
    | nil =>
      have separate := (List.isChain_cons_cons.mp spaced.separate).1 rfl
      rw [written, List.nil_append, List.head?_append_of_ne_nil _ (lexeme_ne_nil formed)] at head
      exact lengthens_head_of_not_merges formed separate head

theorem Spaced.layout {parts : List (List Char × Token)} (spaced : Spaced parts)
    (lastBlank : Blank last) : Layout (written parts last) (parts.map Prod.snd) := by
  induction parts with
  | nil => exact .blanks lastBlank
  | cons part parts inductionHypothesis =>
    exact .lexeme (spaced.blank part (.head _)) (spaced.formed part (.head _))
      (spaced.apart lastBlank) (inductionHypothesis spaced.tail)

/-- Spaced tokens are read back, with nothing behind them. -/
theorem ofSource_written {parts : List (List Char × Token)} (spaced : Spaced parts)
    (lastBlank : Blank last) :
    ofSource (String.ofList (written parts last)) = parts.map Prod.snd ∧
      Drains (written parts last) (parts.map Prod.snd) := by
  have read : ofChars (written parts last) = parts.map Prod.snd :=
    (spaced.layout lastBlank).ofChars
  refine ⟨?_, read ▸ drains_ofChars _⟩
  rw [ofSource, String.toList_ofList, read]

/-- Ten tokens with only two blanks between them. -/
def neighbours : List (List Char × Token) :=
  [([], .keyword .bind), ([' '], .ident "x"), ([], .symbol .assign), ([], .symbol .bang),
    ([], .int "10"), ([], .keyword .function), ([], .string "= a"), ([], .symbol .equal),
    (['\u3000'], .symbol .assign), ([], .illegal '§')]

theorem ofSource_written_of_neighbours :
    Spaced neighbours ∧ Blank ['\n'] ∧
      ofSource "let x=!10fn\"= a\"==\u3000=§\n" = neighbours.map Prod.snd ∧
      Drains (written neighbours ['\n']) (neighbours.map Prod.snd) := by
  have spaced : Spaced neighbours := ⟨by decide, by decide, by decide⟩
  have blank : Blank ['\n'] := by decide
  have text : String.ofList (written neighbours ['\n']) = "let x=!10fn\"= a\"==\u3000=§\n" := by
    decide +kernel
  exact ⟨spaced, blank, text ▸ ofSource_written spaced blank⟩

end Monkey.Token
