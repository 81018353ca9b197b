import Monkey.Proofs.Token.Lexeme
import Monkey.Token.Reader

/-!
# Reading token by token

However a reader is asked, its answers are the tokens of the source in order, and the
end of the input behind them. It makes no difference in which way the characters were
used up: by blanks, by a string without its closing quote, or by an earlier call that
found nothing.
-/

namespace Monkey.Token

/-! ## One token -/

/-- The first token is taken and the others are left. -/
theorem pull_eq (source : List Char) :
    (pull source).1 = (ofChars source).head? ∧ ofChars (pull source).2 = (ofChars source).tail := by
  unfold pull
  cases found : next? source with
  | none =>
    rw [ofChars_of_next?_eq_none found]
    exact ⟨rfl, ofChars_nil⟩
  | some pair =>
    rw [ofChars_of_next?_eq_some found]
    exact ⟨rfl, rfl⟩

namespace Item

theorem kind_of_eq_iff {next : Option Token} : (of next).kind = .endOfInput ↔ next = none := by
  cases next with
  | none => simp [of]
  | some token => simp [of, kind_ne_endOfInput]

/-- The items of tokens and the end of the input, which goes on for ever. -/
theorem getD_append_endOfInput (tokens : List Token) (position : Nat) :
    (tokens.map ofToken ++ [endOfInput])[position]?.getD endOfInput = of tokens[position]? := by
  induction tokens generalizing position with
  | nil => cases position <;> rfl
  | cons token tokens inductionHypothesis =>
    cases position with
    | zero => rfl
    | succ position => exact inductionHypothesis position

end Item

namespace Reader

variable (reader : Reader)

/-- The tokens that are left. -/
def ahead : List Token :=
  ofChars reader.rest

/-- The next item is that of the first token that is left, and the others remain. -/
theorem nextToken_ahead :
    reader.nextToken.1 = .of reader.ahead.head? ∧ reader.nextToken.2.ahead = reader.ahead.tail := by
  rcases reader.nextToken_eq with ⟨item_eq, rest_eq⟩
  rcases pull_eq reader.rest with ⟨head_eq, tail_eq⟩
  constructor
  · rw [item_eq, head_eq, ahead]
  · rw [ahead, rest_eq, tail_eq, ahead]

/-- What a call has to answer if the item comes next. -/
def Call.answer : Call → Item → Option Item
  | .nextToken, item => some item
  | .next, item => if item.kind = .endOfInput then none else some item

/-- Every call answers by the first token that is left, and leaves the others. -/
theorem ask_ahead (call : Call) :
    (reader.ask call).1 = call.answer (.of reader.ahead.head?) ∧
      (reader.ask call).2.ahead = reader.ahead.tail := by
  rcases reader.nextToken_ahead with ⟨item_eq, ahead_eq⟩
  rw [← item_eq, ← ahead_eq]
  cases call <;> exact ⟨rfl, rfl⟩

/-! ## Many tokens -/

theorem perform_cons (call : Call) (calls : List Call) :
    reader.perform (call :: calls) =
      ((reader.ask call).1 :: ((reader.ask call).2.perform calls).1,
        ((reader.ask call).2.perform calls).2) := rfl

/-- Every call takes one token, as long as there are any. -/
theorem ahead_perform (calls : List Call) :
    (reader.perform calls).2.ahead = reader.ahead.drop calls.length := by
  induction calls generalizing reader with
  | nil => rfl
  | cons call calls inductionHypothesis =>
    rw [perform_cons, inductionHypothesis, (reader.ask_ahead call).2, List.drop_tail]
    rfl

/-- Every call answers by the token at its position. -/
theorem answers_perform (calls : List Call) :
    (reader.perform calls).1 =
      calls.mapIdx fun position call => call.answer (.of reader.ahead[position]?) := by
  induction calls generalizing reader with
  | nil => rfl
  | cons call calls inductionHypothesis =>
    rcases reader.ask_ahead call with ⟨answer_eq, ahead_eq⟩
    rw [perform_cons, List.mapIdx_cons, inductionHypothesis, answer_eq, ahead_eq,
      List.head?_eq_getElem?]
    simp only [List.getElem?_tail]

/-- Draining hands out all tokens that are left, and the end of the input. -/
theorem drain_eq : reader.drain = reader.ahead.map .ofToken ++ [.endOfInput] := by
  fun_induction drain reader with
  | case1 reader ends =>
    rw [reader.nextToken_ahead.1] at ends ⊢
    have none : reader.ahead.head? = none := Item.kind_of_eq_iff.mp ends
    rw [none, List.head?_eq_none_iff.mp none]
    rfl
  | case2 reader ends _ inductionHypothesis =>
    rw [inductionHypothesis, reader.nextToken_ahead.1, reader.nextToken_ahead.2]
    rw [reader.nextToken_ahead.1, Item.kind_of_eq_iff] at ends
    cases left : reader.ahead with
    | nil => simp [left] at ends
    | cons token tokens => rfl

theorem Call.answer_next_of (next : Option Token) :
    Call.next.answer (.of next) = next.map .ofToken := by
  cases next with
  | none => rfl
  | some token =>
    have more : (Item.of (some token)).kind ≠ .endOfInput := by simp [Item.kind_of_eq_iff]
    exact if_neg more

/-- Collecting hands out all tokens that are left, and leaves none. -/
theorem collect_eq :
    reader.collect.1 = reader.ahead.map .ofToken ∧ reader.collect.2.ahead = [] := by
  fun_induction collect reader with
  | case1 reader found =>
    rcases reader.ask_ahead .next with ⟨answer_eq, ahead_eq⟩
    rw [ask, Call.answer_next_of] at answer_eq
    rw [ask] at ahead_eq
    rw [found, eq_comm, Option.map_eq_none_iff, List.head?_eq_none_iff] at answer_eq
    rw [answer_eq] at ahead_eq ⊢
    exact ⟨rfl, ahead_eq⟩
  | case2 reader item found _ items last collected inductionHypothesis =>
    rcases reader.ask_ahead .next with ⟨answer_eq, ahead_eq⟩
    rw [ask, Call.answer_next_of, found] at answer_eq
    rw [ask] at ahead_eq
    rw [collected, ahead_eq] at inductionHypothesis
    cases left : reader.ahead with
    | nil => simp [left] at answer_eq
    | cons token tokens =>
      rw [left] at answer_eq inductionHypothesis
      cases answer_eq
      exact ⟨congrArg _ inductionHypothesis.1, inductionHypothesis.2⟩

/-! ## Calls in any order -/

/-- Pulling agrees with draining. Whatever calls are made, each answers by the item at its
position among all items of the source, or by the end of the input behind them. What is
collected after the calls are the items that they left, and nothing is left then. -/
theorem perform_ofSource (source : String) :
    (ofSource source).drain = (Token.ofSource source).map .ofToken ++ [.endOfInput] ∧
      ∀ calls : List Call,
        ((ofSource source).perform calls).1 = calls.mapIdx (fun position call =>
          call.answer ((ofSource source).drain[position]?.getD .endOfInput)) ∧
        ((ofSource source).perform calls).2.collect.1 =
          (ofSource source).drain.dropLast.drop calls.length ∧
        ∀ later : List Call, (((ofSource source).perform calls).2.collect.2.perform later).1 =
          later.map fun call => call.answer .endOfInput := by
  have tokens : (ofSource source).ahead = Token.ofSource source := rfl
  have drained := (ofSource source).drain_eq
  rw [tokens] at drained
  constructor
  · exact drained
  · intro calls
    rcases ((ofSource source).perform calls).2.collect_eq with ⟨collected, nothing⟩
    constructor
    · simp only [answers_perform, tokens, drained, Item.getD_append_endOfInput]
    constructor
    · rw [collected, ahead_perform, tokens, drained, List.dropLast_concat, List.map_drop]
    · intro later
      simp only [answers_perform, nothing, List.getElem?_nil]
      exact List.mapIdx_eq_iff.mpr fun _ => List.getElem?_map

end Reader

end Monkey.Token
