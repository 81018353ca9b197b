import Monkey.Proofs.Evaluation.Arithmetic
import Monkey.Proofs.Evaluation.Delivery

/-!
# Functions that take functions

Going through an array takes a function that calls itself with the rest of the array and
what it has so far. Here it is made anew by each call of the function around it, in whose
scope it finds itself and the function to apply, while its own parameters hide those of
the other. What it has in the end is a fold over the array, whatever the length of the
array.
-/

namespace Monkey

/-! ## The functions -/

/-- The source of a session that binds two functions which go through arrays: one puts the
answers of a function into a new array, the other has a function collect the elements. -/
def Session.higherOrder : String :=
  String.join
    ["let map = fn(arr, f) \x7b\n",
      "  let iter = fn(arr, acc) \x7b\n",
      "    if (len(arr) == 0) \x7b acc \x7d else ",
      "\x7b iter(rest(arr), push(acc, f(first(arr)))) \x7d\n",
      "  \x7d;\n",
      "  iter(arr, [])\n",
      "\x7d;\n",
      "\n",
      "let reduce = fn(arr, initial, f) \x7b\n",
      "  let iter = fn(arr, result) \x7b\n",
      "    if (len(arr) == 0) \x7b result \x7d else ",
      "\x7b iter(rest(arr), f(result, first(arr))) \x7d\n",
      "  \x7d;\n",
      "  iter(arr, initial)\n",
      "\x7d;\n"]

/-- The body of a function of an array and of what there is so far. It calls itself with the
rest of the array and with what one step makes of it. -/
def Block.iteration (accumulator : String) (step : Expr) : Block :=
  [.expr (.cond (.binary (.call (.ident "len") [.ident "arr"]) .equal (.int 0))
    [.expr (.ident accumulator)]
    (some [.expr (.call (.ident "iter") [.call (.ident "rest") [.ident "arr"], step])]))]

/-- The body of a function that goes through an array from a start. -/
def Block.folding (accumulator : String) (step start : Expr) : Block :=
  [.bind "iter" (.function ["arr", accumulator] (Block.iteration accumulator step)),
    .expr (.call (.ident "iter") [.ident "arr", start])]

/-- The step that puts an answer behind the others. -/
def Expr.mappingStep : Expr :=
  .call (.ident "push") [.ident "acc", .call (.ident "f") [.call (.ident "first") [.ident "arr"]]]

/-- The step that collects an element. -/
def Expr.reducingStep : Expr :=
  .call (.ident "f") [.ident "result", .call (.ident "first") [.ident "arr"]]

/-- Begins with an empty array. -/
def Block.mapping : Block := folding "acc" .mappingStep (.array [])

/-- Begins with what it is given for a start. -/
def Block.reducing : Block := folding "result" .reducingStep (.ident "initial")

/-- A function that squares its argument. -/
def Block.squaring : Block := [.expr (.binary (.ident "x") .multiply (.ident "x"))]

/-- A function that adds its arguments. -/
def Block.adding : Block := [.expr (.binary (.ident "acc") .add (.ident "x"))]

section Reading

open Token

/-- The tokens of the binding of a function that goes through an array. -/
def Token.folding (name : String) (parameters : List Token) (accumulator : String)
    (step start : List Token) : List Token :=
  [[.keyword .bind, .ident name, .symbol .assign, .keyword .function, .symbol .leftParen,
      .ident "arr", .symbol .comma], parameters, [.symbol .rightParen, .symbol .leftBrace,
      .keyword .bind, .ident "iter", .symbol .assign, .keyword .function, .symbol .leftParen,
      .ident "arr", .symbol .comma, .ident accumulator, .symbol .rightParen, .symbol .leftBrace,
      .keyword .cond, .symbol .leftParen, .ident "len", .symbol .leftParen, .ident "arr",
      .symbol .rightParen, .symbol .equal, .int "0", .symbol .rightParen,
      .symbol .leftBrace, .ident accumulator, .symbol .rightBrace, .keyword .otherwise,
      .symbol .leftBrace, .ident "iter", .symbol .leftParen, .ident "rest", .symbol .leftParen,
      .ident "arr", .symbol .rightParen, .symbol .comma], step, [.symbol .rightParen,
      .symbol .rightBrace, .symbol .rightBrace, .symbol .semicolon, .ident "iter",
      .symbol .leftParen, .ident "arr", .symbol .comma], start, [.symbol .rightParen,
      .symbol .rightBrace, .symbol .semicolon]].flatten

set_option maxRecDepth 2000 in
theorem Session.ofSource_higherOrder :
    Draft.ofSource higherOrder =
      ⟨[.bind "map" (.function ["arr", "f"] Block.mapping),
        .bind "reduce" (.function ["arr", "initial", "f"] Block.reducing)], []⟩ := by
  have tokens : Token.ofSource higherOrder =
      folding "map" [.ident "f"] "acc"
          [.ident "push", .symbol .leftParen, .ident "acc", .symbol .comma, .ident "f",
            .symbol .leftParen, .ident "first", .symbol .leftParen, .ident "arr",
            .symbol .rightParen, .symbol .rightParen, .symbol .rightParen]
          [.symbol .leftBracket, .symbol .rightBracket] ++
        folding "reduce" [.ident "initial", .symbol .comma, .ident "f"] "result"
          [.ident "f", .symbol .leftParen, .ident "result", .symbol .comma, .ident "first",
            .symbol .leftParen, .ident "arr", .symbol .rightParen, .symbol .rightParen]
          [.ident "initial"] := by
    -- The pieces are read as characters one by one.
    rw [Token.ofSource, higherOrder, String.toList_join]
    decide +kernel
  rw [Draft.ofSource, tokens]
  rfl

theorem Session.ofSource_mapSquaring :
    Draft.ofSource "map(numbers, fn(x) \x7b x * x \x7d)" =
      ⟨[.expr (.call (.ident "map") [.ident "numbers", .function ["x"] Block.squaring])], []⟩ := by
  have tokens : Token.ofSource "map(numbers, fn(x) \x7b x * x \x7d)" =
      [.ident "map", .symbol .leftParen, .ident "numbers", .symbol .comma, .keyword .function,
        .symbol .leftParen, .ident "x", .symbol .rightParen, .symbol .leftBrace, .ident "x",
        .symbol .asterisk, .ident "x", .symbol .rightBrace, .symbol .rightParen] := by
    decide +kernel
  rw [Draft.ofSource, tokens]
  rfl

theorem Session.ofSource_reduceAdding :
    Draft.ofSource "reduce(numbers, 0, fn(acc, x) \x7b acc + x \x7d)" =
      ⟨[.expr (.call (.ident "reduce")
        [.ident "numbers", .int 0, .function ["acc", "x"] Block.adding])], []⟩ := by
  have tokens : Token.ofSource "reduce(numbers, 0, fn(acc, x) \x7b acc + x \x7d)" =
      [.ident "reduce", .symbol .leftParen, .ident "numbers", .symbol .comma, .int "0",
        .symbol .comma, .keyword .function, .symbol .leftParen, .ident "acc", .symbol .comma,
        .ident "x", .symbol .rightParen, .symbol .leftBrace, .ident "acc", .symbol .plus,
        .ident "x", .symbol .rightBrace, .symbol .rightParen] := by
    decide +kernel
  rw [Draft.ofSource, tokens]
  rfl

end Reading

/-! ## Builtins on arrays -/

/-- The builtins that take arrays apart and put them together. -/
def Builtin.onArrays : List Builtin := [.len, .first, .rest, .push]

/-- In the scope no other object hides the builtins on arrays. -/
def State.Offers (state : State) (scope : ScopeId) : Prop :=
  ∀ primitive ∈ Builtin.onArrays, state.Means scope primitive.name (.builtin primitive)

namespace State.Offers

variable {state now : State} {scope outer : ScopeId} {pairs : List (String × Object)}

theorem undisturbed (offers : state.Offers scope) (undisturbed : state.Undisturbed now) :
    now.Offers scope :=
  fun primitive member => undisturbed.means (offers primitive member)

/-- A frame offers what the scope around it offers if no parameter hides it. -/
theorem frame (offers : state.Offers outer)
    (frame : state.Frame scope (Dictionary.ofList pairs) outer)
    (free : ∀ primitive ∈ Builtin.onArrays, primitive.name ∉ pairs.map Prod.fst) :
    state.Offers scope :=
  fun primitive member =>
    frame.means_outer (Dictionary.find?_ofList_of_notMem (free primitive member))
      (offers primitive member)

end State.Offers

/-- A well-formed state offers the builtins where no scope binds their names. -/
theorem State.WellFormed.offers {state : State} {scope : ScopeId} (wellFormed : state.WellFormed)
    (there : scope < state.scopes.size)
    (free : ∀ primitive ∈ Builtin.onArrays, state.find? scope primitive.name = none) :
    state.Offers scope := by
  intro primitive member
  have resolves := wellFormed.resolves there primitive.name
  rw [free primitive member] at resolves
  exact .builtin (Builtin.ofName?_eq_some_iff.mpr rfl) resolves

section Builtins

variable {scope : ScopeId} {state : State} {head : Object} {elements tail : List Object}

theorem Expr.delivers_isEmpty (depth : Nat) (offers : state.Offers scope)
    (array : state.Means scope "arr" (.array elements)) :
    ((Expr.binary (.call (.ident "len") [.ident "arr"]) .equal (.int 0)).eval
      (Object.apply depth) scope).Delivers state (· = .boolean elements.isEmpty) := by
  have length : ((Expr.call (.ident "len") [.ident "arr"]).eval (Object.apply depth)
      scope).Delivers state (· = .integer (Builtin.lengthValue elements.length)) :=
    Expr.delivers_builtin (offers .len (by decide)) (.cons (Expr.delivers_ident array) .nil)
      rfl rfl rfl
  refine Expr.delivers_binary length (Expr.delivers_int 0) ?_
  have empty : (Builtin.lengthValue elements.length == 0) = elements.isEmpty := by
    rw [Bool.eq_iff_iff, beq_iff_eq, Builtin.lengthValue_eq_zero_iff, List.length_eq_zero_iff,
      List.isEmpty_iff]
  exact congrArg (fun decided => Except.ok (Object.boolean decided)) empty

theorem Expr.delivers_first (depth : Nat) (offers : state.Offers scope)
    (array : state.Means scope "arr" (.array (head :: tail))) (sound : head.isError = false) :
    ((Expr.call (.ident "first") [.ident "arr"]).eval (Object.apply depth) scope).Delivers state
      (· = head) :=
  Expr.delivers_builtin (offers .first (by decide)) (.cons (Expr.delivers_ident array) .nil)
    rfl rfl sound

theorem Expr.delivers_rest (depth : Nat) (offers : state.Offers scope)
    (array : state.Means scope "arr" (.array (head :: tail))) :
    ((Expr.call (.ident "rest") [.ident "arr"]).eval (Object.apply depth) scope).Delivers state
      (· = .array tail) :=
  Expr.delivers_builtin (offers .rest (by decide)) (.cons (Expr.delivers_ident array) .nil)
    rfl rfl rfl

end Builtins

/-! ## Going through an array -/

/-- The array of some integers. -/
def Object.integers (numbers : List Int64) : Object :=
  .array (numbers.map .integer)

section Iteration

variable {β : Type} {accumulator : String} {step : Expr} {shown : β → Object}
  {next : β → Int64 → β} {identity : Nat} {home : ScopeId} {state : State}

/-- One step in the frame of a call delivers the next of the values that are shown as
objects. -/
def Expr.Steps (step : Expr) (accumulator : String) (shown : β → Object) (next : β → Int64 → β)
    (home : ScopeId) (state : State) : Prop :=
  ∀ depth now id number numbers value, state.Undisturbed now →
    now.Frame id (Dictionary.ofList
      [("arr", .integers (number :: numbers)), (accumulator, shown value)]) home →
    (step.eval (Object.apply (depth + 1)) id).Delivers now (· = shown (next value number))

/-- The function delivers the fold of the steps over the array, if calls may be nested once
more than the array has elements. -/
theorem Object.delivers_iteration (numbers : List Int64) (value : β) {depth : Nat}
    (enough : numbers.length < depth)
    (apart : "arr" ∉ [accumulator])
    (free : ∀ name ∈ "iter" :: Builtin.onArrays.map Builtin.name, name ∉ ["arr", accumulator])
    (offers : state.Offers home)
    (named : state.Means home "iter"
      (.function ⟨identity, ["arr", accumulator], Block.iteration accumulator step, home⟩))
    (steps : step.Steps accumulator shown next home state) :
    (Object.apply depth
      (.function ⟨identity, ["arr", accumulator], Block.iteration accumulator step, home⟩)
      [.integers numbers, shown value]).Delivers state
        (· = shown (numbers.foldl next value)) := by
  -- The induction is on the depth, since one level of calls is spent on each element.
  induction depth generalizing numbers value with
  | zero => exact absurd enough (Nat.not_lt_zero _)
  | succ depth inductionHypothesis =>
    refine Object.delivers_apply rfl named.lt fun now id undisturbed frame => .catchReturn ?_
    have array : now.Means id "arr" (.integers numbers) :=
      frame.means (Dictionary.find?_ofList_of_last apart [] _)
    have reached : now.Means id accumulator (shown value) :=
      frame.means (Dictionary.find?_ofList_of_last List.not_mem_nil [("arr", _)] _)
    have loop := frame.means_outer (Dictionary.find?_ofList_of_notMem (free "iter" (.head _)))
      (undisturbed.means named)
    have offered := (offers.undisturbed undisturbed).frame frame fun primitive member =>
      free primitive.name (.tail _ (List.mem_map_of_mem member))
    have decides := Expr.delivers_isEmpty depth offered array
    refine Block.delivers_singleton (Expr.delivers_cond decides ?_) _
    cases numbers with
    | nil => exact Block.delivers_singleton (Expr.delivers_ident reached) _
    | cons number numbers =>
      have fewer : numbers.length < depth := Nat.lt_of_succ_lt_succ enough
      have answers := inductionHypothesis numbers (next value number) fewer
      obtain ⟨depth, rfl⟩ := Nat.exists_eq_add_one_of_ne_zero (Nat.ne_zero_of_lt fewer)
      have stepped := steps depth now id number numbers value undisturbed frame
      exact Block.delivers_singleton (Expr.delivers_call_of_values (Expr.delivers_ident loop)
        (.cons (Expr.delivers_rest _ offered array) (.cons stepped .nil))
        (answers.later undisturbed)) _

/-- Behind the binding of that function, the fold begins at what the start delivers. -/
theorem Block.delivers_folding {start : Expr} {initial : β} (numbers : List Int64)
    (apart : "arr" ∉ [accumulator])
    (free : ∀ name ∈ "iter" :: Builtin.onArrays.map Builtin.name, name ∉ ["arr", accumulator])
    (offers : state.Offers home)
    (named : state.Means home "iter"
      (.function ⟨identity, ["arr", accumulator], Block.iteration accumulator step, home⟩))
    (array : state.Means home "arr" (.integers numbers))
    (begins : (start.eval (Object.apply (numbers.length + 1)) home).Delivers state
      (· = shown initial))
    (steps : step.Steps accumulator shown next home state) :
    ((Block.evalFrom (Object.apply (numbers.length + 1)) home .null
      [.expr (.call (.ident "iter") [.ident "arr", start])]).catchReturn).Delivers state
        (· = shown (numbers.foldl next initial)) := by
  have folded := Object.delivers_iteration numbers initial (Nat.lt_succ_self _) apart free offers
    named steps
  exact .catchReturn (Block.delivers_singleton (Expr.delivers_call_of_values
    (Expr.delivers_ident named) (.cons (Expr.delivers_ident array) (.cons begins .nil)) folded) _)

end Iteration

/-! ## The functions on arrays -/

section Functions

variable {state : State} {home : ScopeId} {function : Object}

section Mapping

variable {image : Int64 → Int64}

theorem Expr.steps_mapping (offers : state.Offers home) (named : state.Means home "f" function)
    (answers : ∀ depth number, (Object.apply (depth + 1) function [.integer number]).Delivers state
      (· = .integer (image number))) :
    Expr.mappingStep.Steps "acc" .integers (fun images number => images ++ [image number]) home
      state := by
  intro depth now id number numbers images undisturbed frame
  have free : ∀ primitive ∈ Builtin.onArrays, primitive.name ∉ ["arr", "acc"] := by decide
  have offered := (offers.undisturbed undisturbed).frame frame free
  have first := Expr.delivers_first (depth + 1) offered (frame.means rfl) rfl
  have answered := Expr.delivers_call_of_values
    (Expr.delivers_ident (frame.means_outer rfl (undisturbed.means named))) (.cons first .nil)
    ((answers depth number).later undisturbed)
  refine Expr.delivers_builtin (offered .push (by decide))
    (.cons (Expr.delivers_ident (frame.means rfl)) (.cons answered .nil)) rfl ?_ rfl
  rw [Object.integers, Object.integers, List.map_append]
  rfl

/-- A function on integers is applied to every element, in order. -/
theorem Object.delivers_mapping {identity : Nat} (numbers : List Int64)
    (there : home < state.scopes.size) (offers : state.Offers home)
    (answers : ∀ depth number, (Object.apply (depth + 1) function [.integer number]).Delivers state
      (· = .integer (image number))) :
    (Object.apply (numbers.length + 2)
      (.function ⟨identity, ["arr", "f"], Block.mapping, home⟩)
      [.integers numbers, function]).Delivers state (· = .integers (numbers.map image)) := by
  refine Object.delivers_apply_define rfl rfl there fun now id identity undisturbed frame => ?_
  have free : ∀ primitive ∈ Builtin.onArrays, primitive.name ∉ ["arr", "f", "iter"] := by decide
  have offered := (offers.undisturbed undisturbed).frame frame free
  have steps := Expr.steps_mapping offered (frame.means rfl)
    fun depth number => (answers depth number).later undisturbed
  have images : numbers.foldl (fun images number => images ++ [image number]) [] =
      numbers.map image := by
    rw [List.foldl_append_eq_append, List.nil_append, ← List.flatMap_def, List.map_eq_flatMap]
  rw [← images]
  exact Block.delivers_folding numbers (by decide) (by decide) offered (frame.means rfl)
    (frame.means rfl) (Expr.delivers_array .nil) steps

end Mapping

section Reducing

variable {combine : Int64 → Int64 → Int64}

theorem Expr.steps_reducing (offers : state.Offers home) (named : state.Means home "f" function)
    (answers : ∀ depth result number,
      (Object.apply (depth + 1) function [.integer result, .integer number]).Delivers state
        (· = .integer (combine result number))) :
    Expr.reducingStep.Steps "result" .integer combine home state := by
  intro depth now id number numbers result undisturbed frame
  have free : ∀ primitive ∈ Builtin.onArrays, primitive.name ∉ ["arr", "result"] := by decide
  have offered := (offers.undisturbed undisturbed).frame frame free
  have first := Expr.delivers_first (depth + 1) offered (frame.means rfl) rfl
  exact Expr.delivers_call_of_values
    (Expr.delivers_ident (frame.means_outer rfl (undisturbed.means named)))
    (.cons (Expr.delivers_ident (frame.means rfl)) (.cons first .nil))
    ((answers depth result number).later undisturbed)

/-- A function on integers combines the elements one after the other with the result. -/
theorem Object.delivers_reducing {identity : Nat} (numbers : List Int64) (initial : Int64)
    (there : home < state.scopes.size) (offers : state.Offers home)
    (answers : ∀ depth result number,
      (Object.apply (depth + 1) function [.integer result, .integer number]).Delivers state
        (· = .integer (combine result number))) :
    (Object.apply (numbers.length + 2)
      (.function ⟨identity, ["arr", "initial", "f"], Block.reducing, home⟩)
      [.integers numbers, .integer initial, function]).Delivers state
        (· = .integer (numbers.foldl combine initial)) := by
  refine Object.delivers_apply_define rfl rfl there fun now id identity undisturbed frame => ?_
  have free : ∀ primitive ∈ Builtin.onArrays,
      primitive.name ∉ ["arr", "initial", "f", "iter"] := by decide
  have offered := (offers.undisturbed undisturbed).frame frame free
  have steps := Expr.steps_reducing offered (frame.means rfl)
    fun depth result number => (answers depth result number).later undisturbed
  exact Block.delivers_folding numbers (by decide) (by decide) offered (frame.means rfl)
    (frame.means rfl) (Expr.delivers_ident (frame.means rfl)) steps

end Reducing

section Arguments

variable {identity : Nat}

theorem Object.delivers_squaring (there : home < state.scopes.size) (depth : Nat)
    (number : Int64) :
    (Object.apply (depth + 1) (.function ⟨identity, ["x"], Block.squaring, home⟩)
      [.integer number]).Delivers state (· = .integer (number * number)) := by
  refine Object.delivers_apply rfl there fun now id undisturbed frame => .catchReturn ?_
  have argument : now.Means id "x" (.integer number) := frame.means rfl
  exact Block.delivers_singleton (Expr.delivers_binary (Expr.delivers_ident argument)
    (Expr.delivers_ident argument) rfl) _

theorem Object.delivers_adding (there : home < state.scopes.size) (depth : Nat)
    (result number : Int64) :
    (Object.apply (depth + 1) (.function ⟨identity, ["acc", "x"], Block.adding, home⟩)
      [.integer result, .integer number]).Delivers state (· = .integer (result + number)) := by
  refine Object.delivers_apply rfl there fun now id undisturbed frame => .catchReturn ?_
  have left : now.Means id "acc" (.integer result) := frame.means rfl
  have right : now.Means id "x" (.integer number) := frame.means rfl
  exact Block.delivers_singleton (Expr.delivers_binary (Expr.delivers_ident left)
    (Expr.delivers_ident right) rfl) _

end Arguments

end Functions

/-! ## The session -/

theorem Object.clean_integers (numbers : List Int64) : (Object.integers numbers).Clean := by
  refine .array ?_
  simp only [List.forall_mem_map]
  exact fun number _ => .integer number

namespace Session

variable {scope : ScopeId} {state : State} {identity : Nat} {numbers : List Int64}

theorem finishes_mapSquaring (offers : state.Offers scope)
    (named : state.Means scope "map"
      (.function ⟨identity, ["arr", "f"], Block.mapping, scope⟩))
    (array : state.Means scope "numbers" (.integers numbers)) :
    ∃ after, (∀ depth, numbers.length + 2 ≤ depth →
      run depth scope "map(numbers, fn(x) \x7b x * x \x7d)" state =
        .finished (.integers (numbers.map fun number => number * number)) after) ∧
      state.Undisturbed after := by
  refine finishes_of_delivers ofSource_mapSquaring (Expr.delivers_call (Expr.delivers_ident named)
    (.cons (Expr.delivers_ident array) (.cons (Expr.delivers_function ["x"] _) .nil)) ?_)
    (Object.clean_integers _)
  rintro _ (_ | ⟨rfl, _ | ⟨⟨identity, rfl⟩, _ | _⟩⟩)
  exact Object.delivers_mapping numbers named.lt offers (Object.delivers_squaring named.lt)

theorem finishes_reduceAdding (offers : state.Offers scope)
    (named : state.Means scope "reduce"
      (.function ⟨identity, ["arr", "initial", "f"], Block.reducing, scope⟩))
    (array : state.Means scope "numbers" (.integers numbers)) :
    ∃ after, (∀ depth, numbers.length + 2 ≤ depth →
      run depth scope "reduce(numbers, 0, fn(acc, x) \x7b acc + x \x7d)" state =
        .finished (.integer (numbers.foldl (· + ·) 0)) after) ∧
      state.Undisturbed after := by
  refine finishes_of_delivers ofSource_reduceAdding (Expr.delivers_call (Expr.delivers_ident named)
    (.cons (Expr.delivers_ident array) (.cons (Expr.delivers_int 0)
      (.cons (Expr.delivers_function ["acc", "x"] _) .nil))) ?_) (.integer _)
  rintro _ (_ | ⟨rfl, _ | ⟨rfl, _ | ⟨⟨identity, rfl⟩, _ | _⟩⟩⟩)
  exact Object.delivers_reducing numbers 0 named.lt offers (Object.delivers_adding named.lt)

/-- A session that binds both functions by their source finishes. From then on, whatever is
bound beside them, as long as the builtins on arrays are not hidden: for an array of integers
of any length, the squares of all of them, in order, and their sum are computed, both reduced
to 64 bits. Neither writes anything or changes a scope, so the array is what it was. -/
theorem run_higherOrder {start : State} (there : scope < start.scopes.size) :
    ∃ defined, (∀ depth, run depth scope higherOrder start = .finished .null defined) ∧
      defined.output = start.output ∧
      ∀ state names numbers, defined.Isolated scope names state → "map" ∉ names →
        "reduce" ∉ names → state.WellFormed →
        (∀ primitive ∈ Builtin.onArrays, state.find? scope primitive.name = none) →
        state.find? scope "numbers" = some (.integers numbers) →
          (∃ squares after,
            (∀ depth, numbers.length + 2 ≤ depth →
              run depth scope "map(numbers, fn(x) \x7b x * x \x7d)" state =
                .finished (.integers squares) after) ∧
            List.Forall₂ (fun number square => Represents square (number.toInt * number.toInt))
              numbers squares ∧
            after.output = state.output ∧ state.Preserved after ∧
            after.find? scope "numbers" = some (.integers numbers)) ∧
          ∃ sum after,
            (∀ depth, numbers.length + 2 ≤ depth →
              run depth scope "reduce(numbers, 0, fn(acc, x) \x7b acc + x \x7d)" state =
                .finished (.integer sum) after) ∧
            Represents sum (numbers.map Int64.toInt).sum ∧
            after.output = state.output ∧ state.Preserved after ∧
            after.find? scope "numbers" = some (.integers numbers) := by
  have mapping := State.means_define "map" ["arr", "f"] Block.mapping there
  have grows := State.isolated_define "map" ["arr", "f"] Block.mapping start scope
  have reducing := State.means_define "reduce" ["arr", "initial", "f"] Block.reducing
    (Nat.lt_of_lt_of_le there grows.size)
  have apart := State.isolated_define "reduce" ["arr", "initial", "f"] Block.reducing
    (start.define scope "map" ["arr", "f"] Block.mapping) scope
  refine ⟨_, fun depth => run_of_value ofSource_higherOrder rfl .null, rfl, ?_⟩
  intro state names numbers isolated freeMap freeReduce wellFormed unhidden bound
  have mapNamed := (mapping.isolated apart (by decide)).isolated isolated freeMap
  have reduceNamed := reducing.isolated isolated freeReduce
  have offers := wellFormed.offers mapNamed.lt unhidden
  have resolves := wellFormed.resolves mapNamed.lt "numbers"
  rw [bound] at resolves
  constructor
  · obtain ⟨after, finishes, undisturbed⟩ :=
      finishes_mapSquaring offers mapNamed (.bound resolves)
    refine ⟨_, after, finishes, ?_, undisturbed.output, undisturbed.preserved, ?_⟩
    · rw [List.forall₂_map_right_iff, List.forall₂_same]
      exact fun number _ => .multiply (.self number) (.self number)
    · rw [undisturbed.find?_eq wellFormed mapNamed.lt, bound]
  · obtain ⟨after, finishes, undisturbed⟩ :=
      finishes_reduceAdding offers reduceNamed (.bound resolves)
    refine ⟨_, after, finishes, ?_, undisturbed.output, undisturbed.preserved, ?_⟩
    · rw [← Int.zero_add (List.sum _)]
      exact Represents.foldl_add (.self 0) numbers
    · rw [undisturbed.find?_eq wellFormed mapNamed.lt, bound]

/-- The functions are bound in a new scope, and then an array with the greatest integer. -/
def numbering : State :=
  (((State.empty.openScope none []).define 0 "map" ["arr", "f"] Block.mapping).define 0 "reduce"
    ["arr", "initial", "f"] Block.reducing).bind 0 "numbers" (.integers [Int64.maxValue, 3])

/-- The square of the greatest integer is one more than a multiple of `2 ^ 64`. -/
theorem run_higherOrder_of_overflow :
    0 < (State.empty.openScope none []).scopes.size ∧
      (∃ after, ∀ depth, 4 ≤ depth →
        run depth 0 "map(numbers, fn(x) \x7b x * x \x7d)" numbering =
          .finished (.integers [1, 9]) after) ∧
      ∃ after, ∀ depth, 4 ≤ depth →
        run depth 0 "reduce(numbers, 0, fn(acc, x) \x7b acc + x \x7d)" numbering =
          .finished (.integer (-9223372036854775806)) after := by
  have there : 0 < (State.empty.openScope none []).scopes.size := Nat.zero_lt_one
  obtain ⟨defined, finished, -, calls⟩ := run_higherOrder there
  have known : run 0 0 higherOrder (State.empty.openScope none []) = .finished .null _ :=
    run_of_value ofSource_higherOrder rfl .null
  cases (finished 0).symm.trans known
  have wellFormed : numbering.WellFormed := by
    have opened : (State.empty.openScope none []).WellFormed :=
      State.WellFormed.empty.openScope (by simp) (by simp)
    refine State.WellFormed.bind ((opened.define _ _ _ there).define _ _ _ there) _ _ (.array ?_)
    simp only [List.forall_mem_map]
    exact fun number _ => .integer number
  have unhidden : ∀ primitive ∈ Builtin.onArrays, numbering.find? 0 primitive.name = none := by
    simp only [Builtin.onArrays, List.forall_mem_cons]
    exact ⟨rfl, rfl, rfl, rfl, List.forall_mem_nil _⟩
  obtain ⟨⟨squares, after, squared, each, -⟩, sum, later, summed, represents, -⟩ :=
    calls numbering ["numbers"] [Int64.maxValue, 3] (.bind (.head _) _ _) (by decide) (by decide)
      wellFormed unhidden rfl
  obtain _ | ⟨first, _ | ⟨second, _ | _⟩⟩ := each
  cases Int64.toInt_inj.mp (first.unique (1 : Int64).toInt (by decide) (by decide) (by decide))
  cases Int64.toInt_inj.mp (second.unique (9 : Int64).toInt (by decide) (by decide) (by decide))
  cases Int64.toInt_inj.mp
    (represents.unique (-9223372036854775806 : Int64).toInt (by decide) (by decide) (by decide))
  exact ⟨there, ⟨after, squared⟩, later, summed⟩

end Session

end Monkey
