import Monkey.Token
import Monkey.Text.Blank

/-!
# Reading tokens

Source text is read one token at a time. Blanks are skipped, then the first
character decides what kind of token begins, and the token is as long as its
kind allows. Every character that begins no token is a token of its own, so
reading never fails. A string may lack its closing quote, and then runs to the
end of the source.
-/

namespace Monkey.Token

/-- Characters of identifiers and keywords. -/
def isLetter (c : Char) : Bool :=
  c.isAlpha || c == '_'

/-- The token that begins with the character `first`, and what follows it. -/
def readFrom (first : Char) (rest : List Char) : Token × List Char :=
  if first = '"' then
    (.string (String.ofList (rest.takeWhile (· ≠ '"'))), (rest.dropWhile (· ≠ '"')).tail)
  else if isLetter first then
    (ofWord (String.ofList (first :: rest.takeWhile isLetter)), rest.dropWhile isLetter)
  else if first.isDigit then
    (.int (String.ofList (first :: rest.takeWhile Char.isDigit)), rest.dropWhile Char.isDigit)
  else
    match first, rest with
    | '=', '=' :: rest => (.symbol .equal, rest)
    | '!', '=' :: rest => (.symbol .notEqual, rest)
    | _, _ => ((Symbol.ofChar? first).elim (.illegal first) .symbol, rest)

/-- The first token of a source and the source behind it. There is none when
only blanks are left. -/
def next? (source : List Char) : Option (Token × List Char) :=
  match source.dropWhile Text.isBlank with
  | [] => none
  | first :: rest => some (readFrom first rest)

/-- Reads one token and leaves the source behind it. At the end there is no
token, however often one is asked for. -/
def pull (source : List Char) : Option Token × List Char :=
  match next? source with
  | some (token, rest) => (some token, rest)
  | none => (none, [])

theorem length_readFrom_le (first : Char) (rest : List Char) :
    (readFrom first rest).2.length ≤ rest.length := by
  have dropped (p : Char → Bool) : (rest.dropWhile p).length ≤ rest.length :=
    (List.dropWhile_sublist p).length_le
  unfold readFrom
  split
  · have := dropped (· ≠ '"')
    simp only [List.length_tail]
    omega
  split
  · exact dropped isLetter
  split
  · exact dropped Char.isDigit
  split <;> simp

/-- Reading a token shortens the source. -/
theorem length_lt_of_next?_eq_some {source rest : List Char} {token : Token}
    (found : next? source = some (token, rest)) : rest.length < source.length := by
  have skipped : (source.dropWhile Text.isBlank).length ≤ source.length :=
    (List.dropWhile_sublist _).length_le
  unfold next? at found
  split at found
  · contradiction
  · next first behind split_eq =>
    have shorter := length_readFrom_le first behind
    rw [Option.some.inj found] at shorter
    rw [split_eq, List.length_cons] at skipped
    simp only at shorter
    omega

/-- The tokens of a source, in order. -/
def ofChars (source : List Char) : List Token :=
  match found : next? source with
  | none => []
  | some (token, rest) =>
      have := length_lt_of_next?_eq_some found
      token :: ofChars rest
termination_by source.length

/-- The tokens of a text, in order. -/
def ofSource (source : String) : List Token :=
  ofChars source.toList

theorem ofChars_of_next?_eq_none {source : List Char} (none_eq : next? source = none) :
    ofChars source = [] := by
  rw [ofChars]
  split
  · rfl
  · next found => rw [none_eq] at found; contradiction

theorem ofChars_of_next?_eq_some {source rest : List Char} {token : Token}
    (some_eq : next? source = some (token, rest)) :
    ofChars source = token :: ofChars rest := by
  rw [ofChars]
  split
  · next found => rw [some_eq] at found; contradiction
  · next found =>
    rw [some_eq] at found
    cases found
    rfl

end Monkey.Token
