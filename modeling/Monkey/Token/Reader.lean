import Monkey.Token.Lexer

/-!
# Readers

A reader hands out the tokens of a source one by one, whenever it is asked. Behind the
last token it hands out the end of the input, as often as it is asked again. It takes
note when no character is left where a token would have to begin; a string that lacks
its closing quote uses the characters up without such a note.
-/

namespace Monkey.Token

/-- A token as it is handed out. The end of the input is handed out in the same way. -/
structure Item where
  kind : Kind
  /-- The text of the token. The end of the input has none. -/
  literal : String
  deriving DecidableEq

namespace Item

/-- A token is handed out with its kind and its text. -/
def ofToken (token : Token) : Item :=
  ⟨token.kind, token.literal⟩

/-- What is handed out when no token is left. -/
def endOfInput : Item :=
  ⟨.endOfInput, ""⟩

/-- What is handed out for the next token, if there is one. -/
def of (next : Option Token) : Item :=
  next.elim endOfInput ofToken

@[simp]
theorem kind_ofToken (token : Token) : (ofToken token).kind = token.kind := rfl

@[simp]
theorem kind_endOfInput : endOfInput.kind = .endOfInput := rfl

end Item

/-- A source that is being read. -/
structure Reader where
  /-- The characters that are left. -/
  rest : List Char
  /-- Whether a character was missed where a token would have to begin. -/
  done : Bool
  rest_eq_nil : done = true → rest = []

namespace Reader

/-- A reader at the beginning of a source. -/
def ofSource (source : String) : Reader :=
  ⟨source.toList, false, nofun⟩

/-- Leaves some of the characters that were left before. -/
def leave (reader : Reader) (rest : List Char) (le : rest.length ≤ reader.rest.length) :
    Reader where
  rest := rest
  done := reader.done
  rest_eq_nil ends := by
    rw [reader.rest_eq_nil ends] at le
    exact List.length_eq_zero_iff.mp (Nat.le_zero.mp le)

/-- Passes over the blanks in front of a token. -/
def skipBlanks (reader : Reader) : Reader :=
  reader.leave (reader.rest.dropWhile Text.isBlank) (List.dropWhile_sublist _).length_le

/-- Takes the character with which a token begins. If there is none, this is noted, and
from then on no character is asked for. -/
def advance : Reader → Option Char × Reader
  | ⟨rest, true, ends⟩ => (none, ⟨rest, true, ends⟩)
  | ⟨[], false, _⟩ => (none, ⟨[], true, fun _ => rfl⟩)
  | ⟨first :: rest, false, _⟩ => (some first, ⟨rest, false, nofun⟩)

/-- Hands out the next token, or the end of the input. -/
def nextToken (reader : Reader) : Item × Reader :=
  match reader.skipBlanks.advance with
  | (none, reader) => (.endOfInput, reader)
  | (some first, reader) =>
      (.ofToken (readFrom first reader.rest).1,
        reader.leave (readFrom first reader.rest).2 (length_readFrom_le first reader.rest))

/-- Hands out the next token, or nothing at the end of the input. -/
def next (reader : Reader) : Option Item × Reader :=
  let (item, reader) := reader.nextToken
  (if item.kind = .endOfInput then none else some item, reader)

/-! ## The characters that are left -/

/-- No character is found when none is left, whether or not this was noted before. -/
theorem advance_of_nil {reader : Reader} (empty : reader.rest = []) :
    reader.advance.1 = none ∧ reader.advance.2.rest = [] := by
  rcases reader with ⟨rest, done, ends⟩
  cases empty
  cases done <;> exact ⟨rfl, rfl⟩

/-- A character that is left is found, since nothing can have been noted. -/
theorem advance_of_cons {reader : Reader} {first : Char} {rest : List Char}
    (next : reader.rest = first :: rest) :
    reader.advance.1 = some first ∧ reader.advance.2.rest = rest := by
  rcases reader with ⟨left, done, ends⟩
  cases next
  cases done with
  | false => exact ⟨rfl, rfl⟩
  | true => cases ends rfl

/-- What is handed out depends on the characters that are left, and on nothing else. -/
theorem nextToken_eq (reader : Reader) :
    reader.nextToken.1 = .of (pull reader.rest).1 ∧
      reader.nextToken.2.rest = (pull reader.rest).2 := by
  have skipped : reader.skipBlanks.rest = reader.rest.dropWhile Text.isBlank := rfl
  unfold nextToken pull Token.next?
  rcases advanced : reader.skipBlanks.advance with ⟨found, after⟩
  cases behind : reader.rest.dropWhile Text.isBlank with
  | nil =>
    have missed := advance_of_nil (skipped.trans behind)
    rw [advanced] at missed
    rcases missed with ⟨rfl, empty⟩
    exact ⟨rfl, empty⟩
  | cons first rest =>
    have taken := advance_of_cons (skipped.trans behind)
    rw [advanced] at taken
    rcases taken with ⟨rfl, rfl⟩
    exact ⟨rfl, rfl⟩

/-- Behind a token fewer characters are left. -/
theorem length_nextToken_lt {reader : Reader}
    (more : reader.nextToken.1.kind ≠ .endOfInput) :
    reader.nextToken.2.rest.length < reader.rest.length := by
  rcases nextToken_eq reader with ⟨item_eq, rest_eq⟩
  rw [item_eq] at more
  rw [rest_eq]
  unfold pull at more ⊢
  cases found : Token.next? reader.rest with
  | none => simp [found, Item.of] at more
  | some pair => exact length_lt_of_next?_eq_some found

theorem next_of_endOfInput {reader : Reader} (ends : reader.nextToken.1.kind = .endOfInput) :
    reader.next = (none, reader.nextToken.2) := by
  simp only [next, ends, if_true]

theorem next_of_more {reader : Reader} (more : reader.nextToken.1.kind ≠ .endOfInput) :
    reader.next = (some reader.nextToken.1, reader.nextToken.2) := by
  simp only [next, more, if_false]

theorem length_next_lt {reader : Reader} {item : Item} (found : reader.next.1 = some item) :
    reader.next.2.rest.length < reader.rest.length := by
  by_cases ends : reader.nextToken.1.kind = .endOfInput
  · rw [next_of_endOfInput ends] at found
    cases found
  · rw [next_of_more ends]
    exact length_nextToken_lt ends

/-! ## Asking more than once -/

/-- Everything that is handed out up to the end of the input, which comes last. -/
def drain (reader : Reader) : List Item :=
  if ends : reader.nextToken.1.kind = .endOfInput then [reader.nextToken.1]
  else
    have := length_nextToken_lt ends
    reader.nextToken.1 :: reader.nextToken.2.drain
termination_by reader.rest.length

/-- Everything that is handed out before there is nothing any more. -/
def collect (reader : Reader) : List Item × Reader :=
  match found : reader.next.1 with
  | none => ([], reader.next.2)
  | some item =>
      have := length_next_lt found
      let (items, last) := reader.next.2.collect
      (item :: items, last)
termination_by reader.rest.length

/-- The ways in which a reader is asked for the next token. -/
inductive Call
  | nextToken
  | next
  deriving DecidableEq

/-- The answer to a call, if there is one. -/
def ask (reader : Reader) : Call → Option Item × Reader
  | .nextToken => (some reader.nextToken.1, reader.nextToken.2)
  | .next => reader.next

/-- The answers to calls, one after the other. -/
def perform (reader : Reader) : List Call → List (Option Item) × Reader
  | [] => ([], reader)
  | call :: calls =>
      let (answer, reader) := reader.ask call
      let (answers, last) := reader.perform calls
      (answer :: answers, last)

end Reader

end Monkey.Token
