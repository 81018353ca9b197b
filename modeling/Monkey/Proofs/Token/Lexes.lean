import Monkey.Proofs.Token.Lexeme

/-!
# Texts and their tokens

Texts are put together from lexemes and blanks. The tokens of a text are those of
its parts, provided that no part runs on into the next.
-/

namespace Monkey.Token

open Text

/-- The characters do not go on with a word or a numeral. -/
def Separate (rest : List Char) : Prop :=
  ∀ c ∈ rest.head?, isLetter c = false ∧ c.isDigit = false

@[simp]
theorem separate_nil : Separate [] := by
  intro c head
  cases head

theorem Separate.cons {c : Char} (separates : isLetter c = false ∧ c.isDigit = false)
    (rest : List Char) : Separate (c :: rest) := by
  rintro _ ⟨⟩
  exact separates

theorem Separate.append {text rest : List Char} (front : Separate text) (back : Separate rest) :
    Separate (text ++ rest) := by
  cases text with
  | nil => exact back
  | cons c text => exact .cons (front c rfl) _

/-- No symbol begins with a letter or a digit. -/
theorem separate_spelling (mark : Symbol) (rest : List Char) :
    Separate (mark.spelling.toList ++ rest) := by
  cases mark <;> exact .cons (by decide) _

/-- The text is read as the tokens in front of everything that does not go on
with a word or a numeral. -/
def Lexes (text : List Char) (tokens : List Token) : Prop :=
  ∀ rest, Separate rest → ofChars (text ++ rest) = tokens ++ ofChars rest

namespace Lexes

variable {text more : List Char} {tokens others : List Token}

theorem ofChars (lexes : Lexes text tokens) : ofChars text = tokens := by
  have read := lexes [] separate_nil
  rwa [List.append_nil, ofChars_nil, List.append_nil] at read

theorem nil : Lexes [] [] := fun _ _ => rfl

theorem append (front : Lexes text tokens) (back : Lexes more others) (separate : Separate more) :
    Lexes (text ++ more) (tokens ++ others) := by
  intro rest restSeparate
  rw [List.append_assoc, front _ (separate.append restSeparate), back rest restSeparate,
    List.append_assoc]

theorem blank {c : Char} (blank : isBlank c = true) (lexes : Lexes text tokens) :
    Lexes (c :: text) tokens := by
  intro rest separate
  rw [List.cons_append, ofChars_cons_of_isBlank blank, lexes rest separate]

/-- A token in front of a text that does not lengthen it. -/
theorem cons {token : Token} (formed : token.WellFormed)
    (apart : ∀ rest, Separate rest → token.Apart (text ++ rest)) (lexes : Lexes text tokens) :
    Lexes (token.lexeme ++ text) (token :: tokens) := by
  intro rest separate
  rw [List.append_assoc, ofChars_lexeme_append formed (apart rest separate),
    lexes rest separate, List.cons_append]

/-- A token that nothing lengthens but letters or digits. -/
theorem single {token : Token} (formed : token.WellFormed)
    (apart : ∀ rest, Separate rest → token.Apart rest) : Lexes token.lexeme [token] := by
  have lexes : Lexes (token.lexeme ++ []) [token] := cons formed apart nil
  rwa [List.append_nil] at lexes

theorem ident {name : String} (isName : IsName name) : Lexes name.toList [.ident name] :=
  single (show WellFormed (.ident name) from isName) fun _ separate c head => (separate c head).1

theorem keyword (word : Keyword) : Lexes word.spelling.toList [.keyword word] :=
  single (show WellFormed (.keyword word) from trivial) fun _ separate c head =>
    (separate c head).1

theorem numeral {digits : String} (formed : WellFormed (.int digits)) :
    Lexes digits.toList [.int digits] :=
  single formed fun _ separate c head => (separate c head).2

/-- A symbol that is the beginning of no other may be followed by anything. -/
theorem symbol (mark : Symbol) (alone : mark ≠ .assign ∧ mark ≠ .bang)
    (lexes : Lexes text tokens) :
    Lexes (mark.spelling.toList ++ text) (.symbol mark :: tokens) := by
  refine cons (show WellFormed (.symbol mark) from trivial) (fun _ _ c _ => ?_) lexes
  cases mark <;> first | rfl | simp at alone

/-- Any symbol may be followed by a text that does not begin with an equals
sign. -/
theorem mark (mark : Symbol) (ne : ∀ rest, Separate rest → (text ++ rest).head? ≠ some '=')
    (lexes : Lexes text tokens) :
    Lexes (mark.spelling.toList ++ text) (.symbol mark :: tokens) := by
  refine cons (show WellFormed (.symbol mark) from trivial) (fun rest separate c head => ?_) lexes
  have differs : c ≠ '=' := fun same => ne rest separate (same ▸ head)
  cases mark <;> simp [lengthens, differs]

/-- A symbol between two texts. -/
theorem separated (front : Lexes text tokens) (mark : Symbol)
    (alone : mark ≠ .assign ∧ mark ≠ .bang) (back : Lexes more others) :
    Lexes (text ++ (mark.spelling.toList ++ more)) (tokens ++ .symbol mark :: others) :=
  front.append (back.symbol mark alone) (separate_spelling mark more)

/-- A symbol behind a text. -/
theorem closed (lexes : Lexes text tokens) (mark : Symbol)
    (alone : mark ≠ .assign ∧ mark ≠ .bang) :
    Lexes (text ++ mark.spelling.toList) (tokens ++ [.symbol mark]) := by
  have separated := lexes.separated mark alone nil
  rwa [List.append_nil] at separated

end Lexes

end Monkey.Token
