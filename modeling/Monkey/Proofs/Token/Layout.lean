import Monkey.Proofs.Token.Lexes

/-!
# Layouts

A source is laid out as the lexemes of its tokens with blanks before, between
and behind them. Reading loses nothing of the source and takes as much as it can:
it finds the one layout in which no lexeme is followed by a character that
lengthens it.
-/

namespace Monkey.Token

open Text

/-! ## Layouts of a source -/

/-- The characters are blank. -/
def Blank (gap : List Char) : Prop :=
  ∀ c ∈ gap, isBlank c = true

instance : DecidablePred Blank :=
  fun gap => decidable_of_iff (gap.all isBlank = true) List.all_eq_true

/-- The text is laid out as the tokens. Only a string at the end of the text may
lack its closing quote. -/
inductive Layout : List Char → List Token → Prop
  | blanks {gap : List Char} (blank : Blank gap) : Layout gap []
  | lexeme {gap rest : List Char} {token : Token} {tokens : List Token} (blank : Blank gap)
      (formed : token.WellFormed) (apart : token.Apart rest) (others : Layout rest tokens) :
      Layout (gap ++ (token.lexeme ++ rest)) (token :: tokens)
  | unterminated {gap : List Char} {text : String} (blank : Blank gap)
      (noQuote : '"' ∉ text.toList) : Layout (gap ++ '"' :: text.toList) [.string text]

/-- Pulling gives the tokens one after the other, and behind them no token. -/
inductive Drains : List Char → List Token → Prop
  | over {source : List Char} (ends : (pull source).1 = none) : Drains source []
  | next {source rest : List Char} {token : Token} {tokens : List Token}
      (first : pull source = (some token, rest)) (others : Drains rest tokens) :
      Drains source (token :: tokens)

theorem drains_ofChars (source : List Char) : Drains source (ofChars source) := by
  fun_induction ofChars source with
  | case1 source found => exact .over (by rw [pull, found])
  | case2 source token rest found _ inductionHypothesis =>
    exact .next (by rw [pull, found]) inductionHypothesis

variable {gap rest : List Char} {tokens : List Token}

theorem head?_dropWhile_eq_false {p : Char → Bool} (text : List Char) :
    ∀ c ∈ (text.dropWhile p).head?, p c = false := by
  intro c head
  have stops := List.head?_dropWhile_not p text
  rwa [head] at stops

/-! ## Reading finds a layout -/

theorem lexeme_ofWord (word : String) : (ofWord word).lexeme = word.toList := by
  unfold ofWord
  split
  · next found => exact congrArg String.toList (Keyword.ofSpelling?_eq_some_iff.mp found).symm
  · rfl

theorem wellFormed_ofWord {word : String} (ne_nil : word.toList ≠ [])
    (letters : ∀ c ∈ word.toList, isLetter c = true) : (ofWord word).WellFormed := by
  unfold ofWord
  split
  · trivial
  · next notKeyword => exact ⟨ne_nil, letters, notKeyword⟩

theorem apart_ofWord (word : String) (stops : ∀ c ∈ rest.head?, isLetter c = false) :
    (ofWord word).Apart rest := by
  unfold ofWord
  split <;> exact stops

theorem spelling_of_ofChar? {c : Char} {mark : Symbol} (spelt : Symbol.ofChar? c = some mark) :
    mark.spelling.toList = [c] := by
  unfold Symbol.ofChar? at spelt
  split at spelt <;> cases spelt <;> rfl

/-- The source is the lexeme of a token and a rest that does not lengthen it. -/
structure Splits (source : List Char) (token : Token) (rest : List Char) : Prop where
  spelt : source = token.lexeme ++ rest
  formed : token.WellFormed
  apart : token.Apart rest

section Splits

variable {first : Char}

theorem splits_quoted (closed : '"' ∈ rest) :
    Splits ('"' :: rest) (.string (String.ofList (rest.takeWhile (· ≠ '"'))))
      (rest.dropWhile (· ≠ '"')).tail where
  spelt := by
    have split := List.takeWhile_append_dropWhile (p := (· ≠ '"')) (l := rest)
    have stops := head?_dropWhile_eq_false (p := (· ≠ '"')) rest
    cases dropped : rest.dropWhile (· ≠ '"') with
    | nil =>
      rw [dropped, List.append_nil] at split
      have all := List.all_takeWhile (p := (· ≠ '"')) (l := rest)
      rw [split] at all
      exact absurd (List.all_eq_true.mp all _ closed) (by decide)
    | cons c behind =>
      rw [dropped] at split stops
      have quote : c = '"' := by simpa using stops c rfl
      subst quote
      simp only [lexeme, String.toList_ofList, List.tail_cons, List.cons_append,
        List.append_assoc, List.nil_append, split]
  formed := by
    intro member
    rw [String.toList_ofList] at member
    exact absurd (List.all_eq_true.mp List.all_takeWhile _ member) (by decide)
  apart _ _ := rfl

theorem splits_word (letter : isLetter first = true) :
    Splits (first :: rest) (ofWord (String.ofList (first :: rest.takeWhile isLetter)))
      (rest.dropWhile isLetter) where
  spelt := by
    rw [lexeme_ofWord, String.toList_ofList, List.cons_append, List.takeWhile_append_dropWhile]
  formed := by
    refine wellFormed_ofWord (by simp) fun c member => ?_
    rw [String.toList_ofList] at member
    rcases List.mem_cons.mp member with rfl | member
    · exact letter
    · exact List.all_eq_true.mp List.all_takeWhile c member
  apart := apart_ofWord _ (head?_dropWhile_eq_false rest)

theorem splits_numeral (digit : first.isDigit = true) :
    Splits (first :: rest) (.int (String.ofList (first :: rest.takeWhile Char.isDigit)))
      (rest.dropWhile Char.isDigit) where
  spelt := by
    simp only [lexeme, literal, String.toList_ofList, List.cons_append,
      List.takeWhile_append_dropWhile]
  formed := by
    refine ⟨by simp, fun c member => ?_⟩
    rw [String.toList_ofList] at member
    rcases List.mem_cons.mp member with rfl | member
    · exact digit
    · exact List.all_eq_true.mp List.all_takeWhile c member
  apart := head?_dropWhile_eq_false rest

/-- A character that begins no longer token is a symbol or illegal. -/
theorem splits_character (visible : isBlank first = false) (notQuote : first ≠ '"')
    (notLetter : isLetter first = false) (notDigit : first.isDigit = false)
    (alone : first = '=' ∨ first = '!' → rest.head? ≠ some '=') :
    Splits (first :: rest) ((Symbol.ofChar? first).elim (.illegal first) .symbol) rest := by
  cases spelt : Symbol.ofChar? first with
  | none =>
    exact ⟨by simp [lexeme, literal], ⟨visible, notQuote, notLetter, notDigit, spelt⟩,
      fun _ _ => rfl⟩
  | some mark =>
    have spelling := spelling_of_ofChar? spelt
    refine ⟨?_, trivial, fun c head => ?_⟩
    · simp [lexeme, literal, spelling]
    · have differs (either : first = '=' ∨ first = '!') : c ≠ '=' :=
        fun same => alone either (same ▸ head)
      cases mark <;> try rfl
      · cases spelling
        simpa [lengthens] using differs (.inl rfl)
      · cases spelling
        simpa [lengthens] using differs (.inr rfl)

/-- What is read is split off, unless it is a string that is not closed. -/
theorem splits_readFrom (visible : isBlank first = false) (closed : first = '"' → '"' ∈ rest) :
    Splits (first :: rest) (readFrom first rest).1 (readFrom first rest).2 := by
  unfold readFrom
  split
  · next quote =>
    subst quote
    exact splits_quoted (closed rfl)
  split
  · next letter => exact splits_word letter
  split
  · next digit => exact splits_numeral digit
  split
  · exact ⟨by simp [lexeme, literal, Symbol.spelling], trivial, fun _ _ => rfl⟩
  · exact ⟨by simp [lexeme, literal, Symbol.spelling], trivial, fun _ _ => rfl⟩
  · next notQuote notLetter notDigit _ _ notEqual notNotEqual =>
    refine splits_character visible notQuote (Bool.eq_false_iff.mpr notLetter)
      (Bool.eq_false_iff.mpr notDigit) fun either head => ?_
    rcases List.head?_eq_some_iff.mp head with ⟨behind, rfl⟩
    rcases either with rfl | rfl
    · exact notEqual behind rfl rfl
    · exact notNotEqual behind rfl rfl

/-- A string that is not closed takes all of the source. -/
theorem readFrom_of_open (noQuote : '"' ∉ rest) :
    readFrom '"' rest = (.string (String.ofList rest), []) := by
  have all : ∀ c ∈ rest, decide (c ≠ '"') = true := by
    intro c member
    have differs : c ≠ '"' := fun same => noQuote (same ▸ member)
    exact decide_eq_true differs
  have stops : ∀ c ∈ ([] : List Char).head?, decide (c ≠ '"') = false := nofun
  rcases span_append all stops with ⟨taken, dropped⟩
  rw [List.append_nil] at taken dropped
  simp only [readFrom, if_true, taken, dropped, List.tail_nil]

end Splits

theorem blank_takeWhile (source : List Char) : Blank (source.takeWhile isBlank) :=
  List.all_eq_true.mp List.all_takeWhile

theorem layout_of_next? {source : List Char} {token : Token}
    (found : next? source = some (token, rest)) (others : Layout rest (ofChars rest)) :
    Layout source (token :: ofChars rest) := by
  have split := List.takeWhile_append_dropWhile (p := isBlank) (l := source)
  have visible := head?_dropWhile_eq_false (p := isBlank) source
  have blank := blank_takeWhile source
  unfold next? at found
  rw [← split]
  cases behind : source.dropWhile isBlank with
  | nil => simp [behind] at found
  | cons first last =>
    simp only [behind, Option.some.injEq] at found
    by_cases closed : first = '"' → '"' ∈ last
    · have splits := splits_readFrom (visible first (behind ▸ rfl)) closed
      rw [found] at splits
      rw [splits.spelt]
      exact .lexeme blank splits.formed splits.apart others
    · rcases Classical.not_imp.mp closed with ⟨rfl, noQuote⟩
      rw [readFrom_of_open noQuote] at found
      cases found
      have text : last = (String.ofList last).toList := String.toList_ofList.symm
      rw [ofChars_nil]
      conv => arg 1; rw [text]
      exact .unterminated blank (by rwa [← text])

theorem layout_ofChars (source : List Char) : Layout source (ofChars source) := by
  fun_induction ofChars source with
  | case1 source found =>
    have split := List.takeWhile_append_dropWhile (p := isBlank) (l := source)
    unfold next? at found
    cases behind : source.dropWhile isBlank with
    | nil =>
      rw [behind, List.append_nil] at split
      exact .blanks (split ▸ blank_takeWhile source)
    | cons first last => simp [behind] at found
  | case2 source token rest found _ inductionHypothesis =>
    exact layout_of_next? found inductionHypothesis

/-! ## A source has one layout -/

theorem ofChars_append_of_blank (blank : Blank gap) : ofChars (gap ++ rest) = ofChars rest := by
  induction gap with
  | nil => rfl
  | cons c gap inductionHypothesis =>
    rw [List.cons_append, ofChars_cons_of_isBlank (blank c (.head _))]
    exact inductionHypothesis fun other member => blank other (.tail _ member)

theorem Layout.ofChars {source : List Char} (layout : Layout source tokens) :
    ofChars source = tokens := by
  induction layout with
  | @blanks gap blank =>
    rw [← List.append_nil gap, ofChars_append_of_blank blank, ofChars_nil]
  | lexeme blank formed apart _ inductionHypothesis =>
    rw [ofChars_append_of_blank blank, ofChars_lexeme_append formed apart, inductionHypothesis]
  | unterminated blank noQuote =>
    rw [ofChars_append_of_blank blank, ofChars_cons (by decide), readFrom_of_open noQuote,
      ofChars_nil, String.ofList_toList]

/-- Pulling from a source gives its tokens and then none, and the source is laid
out as its tokens and as no others. -/
theorem layout_ofSource (source : String) :
    Drains source.toList (ofSource source) ∧
      ∀ tokens, Layout source.toList tokens ↔ tokens = ofSource source := by
  refine ⟨drains_ofChars _, fun tokens => ⟨fun layout => layout.ofChars.symm, ?_⟩⟩
  rintro rfl
  exact layout_ofChars _

/-! ## Layouts behind each other -/

theorem Layout.behind_blank {text : List Char} (blank : Blank gap) (layout : Layout text tokens) :
    Layout (gap ++ text) tokens := by
  have joined {other : List Char} (also : Blank other) : Blank (gap ++ other) := by
    intro c member
    exact (List.mem_append.mp member).elim (blank c) (also c)
  cases layout with
  | blanks also => exact .blanks (joined also)
  | lexeme also formed apart others =>
    rw [← List.append_assoc]
    exact .lexeme (joined also) formed apart others
  | unterminated also noQuote =>
    rw [← List.append_assoc]
    exact .unterminated (joined also) noQuote

/-- What follows a token still does so when there is more behind it. -/
theorem Apart.append {token : Token} (apart : token.Apart rest) (ne_nil : rest ≠ [])
    (more : List Char) : token.Apart (rest ++ more) := by
  cases rest with
  | nil => exact absurd rfl ne_nil
  | cons next behind => exact apart

theorem ne_nil_of_layout_cons {text : List Char} {token : Token}
    (layout : Layout text (token :: tokens)) : text ≠ [] := by
  rintro rfl
  have read := layout.ofChars
  rw [ofChars_nil] at read
  cases read

/-- A text that ends with a symbol, and perhaps with blanks, does not run on into
another text, unless the symbol is the beginning of another one. -/
theorem Layout.append {text more : List Char} {others : List Token} {mark : Symbol}
    (front : Layout text tokens) (last : tokens.getLast? = some (.symbol mark))
    (alone : mark ≠ .assign ∧ mark ≠ .bang) (back : Layout more others) :
    Layout (text ++ more) (tokens ++ others) := by
  induction front with
  | blanks => cases last
  | unterminated => cases last
  | @lexeme gap rest token tokens blank formed apart following inductionHypothesis =>
    rw [List.append_assoc, List.append_assoc, List.cons_append]
    cases tokens with
    | nil =>
      cases last
      have never : Apart (.symbol mark) (rest ++ more) := by
        intro c _
        cases mark <;> first | rfl | simp at alone
      cases following with
      | blanks blanks => exact .lexeme blank formed never (back.behind_blank blanks)
    | cons next tokens =>
      rw [List.getLast?_cons_cons] at last
      exact .lexeme blank formed (apart.append (ne_nil_of_layout_cons following) more)
        (inductionHypothesis last)

theorem ofSource_append_of_getLast? {first : String} {mark : Symbol}
    (last : (ofSource first).getLast? = some (.symbol mark))
    (alone : mark ≠ .assign ∧ mark ≠ .bang) (second : String) :
    ofSource (first ++ second) = ofSource first ++ ofSource second := by
  have joined := (layout_ofChars first.toList).append last alone (layout_ofChars second.toList)
  rw [ofSource, String.toList_append]
  exact joined.ofChars

end Monkey.Token
