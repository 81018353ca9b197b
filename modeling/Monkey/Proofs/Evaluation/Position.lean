import Monkey.Evaluation

/-!
# Positions of evaluation

A position in a text is a context with a hole: a path of frames from the whole
text to the hole, none of which is the body of a function. A run reaches the
hole if everything in front of it ends with values. If the text in the hole then
ends with a signal, the whole text ends with that signal and in the same state,
whatever stands behind the hole.
-/

namespace Monkey

/-- The kinds of parts of a program that are evaluated in a scope. -/
inductive PartKind
  | expr | stmt | block

/-- The parts of a kind. -/
abbrev Part : PartKind → Type
  | .expr => Expr
  | .stmt => Stmt
  | .block => Block

/-- Evaluates a part of a program in a scope. -/
def Part.eval (call : Caller) (scope : ScopeId) : {kind : PartKind} → Part kind → Action Object
  | .expr, expression => Expr.eval call scope expression
  | .stmt, statement => Stmt.eval call scope statement
  | .block, statements => Block.eval call scope statements

/-! ## Texts that end with values -/

/-- The runs between two states, one for each of some texts, in order. -/
inductive InTurn {α : Type} (Step : α → State → State → Prop) : List α → State → State → Prop
  | nil (state : State) : InTurn Step [] state state
  | cons {first : α} {rest : List α} {before middle after : State} :
      Step first before middle → InTurn Step rest middle after →
        InTurn Step (first :: rest) before after

section Yields

variable (call : Caller) (scope : ScopeId)

/-- Evaluation of the expression ends with a value. -/
def Expr.Yields (expression : Expr) (before after : State) : Prop :=
  ∃ value, expression.eval call scope before = .value value after

/-- Evaluation of the expression ends with a value that can be the key of a
hash. -/
def Expr.YieldsKey (expression : Expr) (before after : State) : Prop :=
  ∃ value slot, expression.eval call scope before = .value value after ∧ value.hashKey = .ok slot

/-- Evaluation of a pair of a hash literal ends with a key and a value. -/
def Expr.YieldsPair (pair : Expr × Expr) (before after : State) : Prop :=
  ∃ middle, pair.1.YieldsKey call scope before middle ∧ pair.2.Yields call scope middle after

/-- Evaluation of the statement ends with a value. -/
def Stmt.Yields (statement : Stmt) (before after : State) : Prop :=
  ∃ value, statement.eval call scope before = .value value after

end Yields

/-! ## Frames -/

/-- A text with a hole for one of the texts that it is made of. -/
inductive Frame : (hole whole : PartKind) → Type
  | operand (op : UnaryOp) : Frame .expr .expr
  | left (op : BinaryOp) (second : Expr) : Frame .expr .expr
  | right (first : Expr) (op : BinaryOp) : Frame .expr .expr
  | condition (first : Block) (second : Option Block) : Frame .expr .expr
  | consequence (test : Expr) (second : Option Block) : Frame .block .expr
  | alternative (test : Expr) (first : Block) : Frame .block .expr
  | callee (arguments : List Expr) : Frame .expr .expr
  | argument (function : Expr) (front back : List Expr) : Frame .expr .expr
  | element (front back : List Expr) : Frame .expr .expr
  | indexed (place : Expr) : Frame .expr .expr
  | position (collection : Expr) : Frame .expr .expr
  | key (front : List (Expr × Expr)) (held : Expr) (back : List (Expr × Expr)) :
      Frame .expr .expr
  | value (front : List (Expr × Expr)) (slot : Expr) (back : List (Expr × Expr)) :
      Frame .expr .expr
  | bound (name : String) : Frame .expr .stmt
  | returned : Frame .expr .stmt
  | stated : Frame .expr .stmt
  | statement (front back : List Stmt) : Frame .stmt .block

namespace Frame

variable {hole whole : PartKind}

/-- Puts a text into the hole. -/
def plug : Frame hole whole → Part hole → Part whole
  | .operand op, text => Expr.unary op text
  | .left op second, text => Expr.binary text op second
  | .right first op, text => Expr.binary first op text
  | .condition first second, text => Expr.cond text first second
  | .consequence test second, text => Expr.cond test text second
  | .alternative test first, text => Expr.cond test first (some text)
  | .callee arguments, text => Expr.call text arguments
  | .argument function front back, text => Expr.call function (front ++ text :: back)
  | .element front back, text => Expr.array (front ++ text :: back)
  | .indexed place, text => Expr.index text place
  | .position collection, text => Expr.index collection text
  | .key front held back, text => Expr.hash (front ++ (text, held) :: back)
  | .value front slot back, text => Expr.hash (front ++ (slot, text) :: back)
  | .bound name, text => Stmt.bind name text
  | .returned, text => Stmt.return text
  | .stated, text => Stmt.expr text
  | .statement front back, text => front ++ text :: back

/-- Everything in front of the hole ends with values, between the two states. If
the hole is a branch of a condition, then that branch is chosen. -/
inductive Reaches (call : Caller) (scope : ScopeId) :
    {hole whole : PartKind} → Frame hole whole → State → State → Prop
  | operand {op} (state) : Reaches call scope (.operand op) state state
  | left {op second} (state) : Reaches call scope (.left op second) state state
  | right {first op before after} : first.Yields call scope before after →
      Reaches call scope (.right first op) before after
  | condition {first second} (state) : Reaches call scope (.condition first second) state state
  | consequence {test second before value after} :
      test.eval call scope before = .value value after → value.isTruthy = true →
        Reaches call scope (.consequence test second) before after
  | alternative {test first before value after} :
      test.eval call scope before = .value value after → value.isTruthy = false →
        Reaches call scope (.alternative test first) before after
  | callee {arguments} (state) : Reaches call scope (.callee arguments) state state
  | argument {function front back before middle after} :
      function.Yields call scope before middle →
        InTurn (Expr.Yields call scope) front middle after →
          Reaches call scope (.argument function front back) before after
  | element {front back before after} : InTurn (Expr.Yields call scope) front before after →
      Reaches call scope (.element front back) before after
  | indexed {place} (state) : Reaches call scope (.indexed place) state state
  | position {collection before after} : collection.Yields call scope before after →
      Reaches call scope (.position collection) before after
  | key {front held back before after} : InTurn (Expr.YieldsPair call scope) front before after →
      Reaches call scope (.key front held back) before after
  | value {front slot back before middle after} :
      InTurn (Expr.YieldsPair call scope) front before middle →
        slot.YieldsKey call scope middle after →
          Reaches call scope (.value front slot back) before after
  | bound {name} (state) : Reaches call scope (.bound name) state state
  | returned (state) : Reaches call scope .returned state state
  | stated (state) : Reaches call scope .stated state state
  | statement {front back before after} : InTurn (Stmt.Yields call scope) front before after →
      Reaches call scope (.statement front back) before after

/-- Two frames of one shape that may differ in what is evaluated or done behind
the hole. -/
inductive Alike : {hole whole : PartKind} → Frame hole whole → Frame hole whole → Prop
  | operand (op op') : Alike (.operand op) (.operand op')
  | left (op second op' second') : Alike (.left op second) (.left op' second')
  | right (first op op') : Alike (.right first op) (.right first op')
  | condition (first second first' second') :
      Alike (.condition first second) (.condition first' second')
  | consequence (test second second') : Alike (.consequence test second) (.consequence test second')
  | alternative (test first first') : Alike (.alternative test first) (.alternative test first')
  | callee (arguments arguments') : Alike (.callee arguments) (.callee arguments')
  | argument (function front back back') :
      Alike (.argument function front back) (.argument function front back')
  | element (front back back') : Alike (.element front back) (.element front back')
  | indexed (place place') : Alike (.indexed place) (.indexed place')
  | position (collection) : Alike (.position collection) (.position collection)
  | key (front held back held' back') : Alike (.key front held back) (.key front held' back')
  | value (front slot back back') : Alike (.value front slot back) (.value front slot back')
  | bound (name name') : Alike (.bound name) (.bound name')
  | returned : Alike .returned .returned
  | stated : Alike .stated .stated
  | statement (front back back') : Alike (.statement front back) (.statement front back')

variable {call : Caller} {scope : ScopeId} {frame other : Frame hole whole}
  {before reached after : State} {raised : Signal}

/-- What stands behind the hole does not matter for reaching it. -/
theorem Reaches.alike (reaches : frame.Reaches call scope before reached)
    (alike : frame.Alike other) : other.Reaches call scope before reached := by
  cases alike <;> cases reaches <;> constructor <;> assumption

end Frame

/-! ## Contexts -/

/-- A path of frames from a whole text to a hole. -/
inductive Context : (hole whole : PartKind) → Type
  | hole {kind : PartKind} : Context kind kind
  | inside {hole middle whole : PartKind} (frame : Frame middle whole)
      (inner : Context hole middle) : Context hole whole

namespace Context

variable {hole whole : PartKind}

/-- Puts a text into the hole. -/
def plug : {whole : PartKind} → Context hole whole → Part hole → Part whole
  | _, .hole, text => text
  | _, .inside frame inner, text => frame.plug (inner.plug text)

/-- Everything in front of the hole ends with values, between the two states. -/
inductive Reaches (call : Caller) (scope : ScopeId) :
    {hole whole : PartKind} → Context hole whole → State → State → Prop
  | hole {kind : PartKind} (state : State) :
      Reaches call scope (.hole : Context kind kind) state state
  | inside {hole middle whole : PartKind} {frame : Frame middle whole} {inner : Context hole middle}
      {before between after : State} : frame.Reaches call scope before between →
        inner.Reaches call scope between after →
          Reaches call scope (.inside frame inner) before after

/-- Two contexts have the same path and the same texts in front of the hole. -/
inductive Alike : {hole whole : PartKind} → Context hole whole → Context hole whole → Prop
  | hole {kind : PartKind} : Alike (.hole : Context kind kind) .hole
  | inside {hole middle whole : PartKind} {frame other : Frame middle whole}
      {inner behind : Context hole middle} : frame.Alike other → inner.Alike behind →
        Alike (.inside frame inner) (.inside other behind)

end Context

/-! ## Signals behind values -/

section Signals

variable {call : Caller} {scope : ScopeId} {before reached after : State} {raised : Signal}

/-- The first signal among some expressions ends the evaluation of all. -/
theorem Expr.evalList_of_signal {front : List Expr} {expression : Expr} (behind : List Expr)
    (yields : InTurn (Expr.Yields call scope) front before reached)
    (ends : expression.eval call scope reached = .signal raised after) :
    Expr.evalList call scope (front ++ expression :: behind) before = .signal raised after := by
  induction yields with
  | nil state => simp only [List.nil_append, Expr.evalList, Action.bind_apply, ends]
  | cons step _ inductionHypothesis =>
    rcases step with ⟨value, ran⟩
    simp only [List.cons_append, Expr.evalList, Action.bind_apply, ran, inductionHypothesis ends]

/-- Entries are made of the pairs in front of a signal, and then dropped with it. -/
theorem Expr.evalPairs_append_of_signal {front behind : List (Expr × Expr)}
    (entries : Dictionary HashKey (Object × Object))
    (yields : InTurn (Expr.YieldsPair call scope) front before reached)
    (ends : ∀ entries, Expr.evalPairs call scope entries behind reached = .signal raised after) :
    Expr.evalPairs call scope entries (front ++ behind) before = .signal raised after := by
  induction yields generalizing entries with
  | nil state => exact ends entries
  | @cons pair _ _ _ _ step _ inductionHypothesis =>
    rcases pair with ⟨key, held⟩
    rcases step with ⟨middle, ⟨slot, digest, ranKey, hashable⟩, value, ranValue⟩
    simp only [List.cons_append, Expr.evalPairs, Action.bind_apply, ranKey, hashable,
      Action.ofExcept, Action.done, ranValue, inductionHypothesis _ ends]

/-- The first signal among some statements ends the evaluation of all. -/
theorem Block.evalFrom_of_signal {front : List Stmt} {statement : Stmt} (behind : List Stmt)
    (last : Object) (yields : InTurn (Stmt.Yields call scope) front before reached)
    (ends : statement.eval call scope reached = .signal raised after) :
    Block.evalFrom call scope last (front ++ statement :: behind) before =
      .signal raised after := by
  induction yields generalizing last with
  | nil state => simp only [List.nil_append, Block.evalFrom, Action.bind_apply, ends]
  | cons step _ inductionHypothesis =>
    rcases step with ⟨value, ran⟩
    simp only [List.cons_append, Block.evalFrom, Action.bind_apply, ran,
      inductionHypothesis _ ends]

variable {hole whole : PartKind}

/-- A signal from the hole of a frame ends the evaluation of the whole text. -/
theorem Frame.Reaches.eval_plug {frame : Frame hole whole} {text : Part hole}
    (reaches : frame.Reaches call scope before reached)
    (ends : text.eval call scope reached = .signal raised after) :
    (frame.plug text).eval call scope before = .signal raised after := by
  cases reaches with
  | operand | left | callee | indexed =>
    have ends : Expr.eval call scope text before = .signal raised after := ends
    simp only [Frame.plug, Part.eval, Expr.eval, Action.bind_apply, ends]
  | @condition _ second =>
    have ends : Expr.eval call scope text before = .signal raised after := ends
    cases second <;> simp only [Frame.plug, Part.eval, Expr.eval, Action.bind_apply, ends]
  | right step | position step =>
    rcases step with ⟨value, ran⟩
    have ends : Expr.eval call scope text reached = .signal raised after := ends
    simp only [Frame.plug, Part.eval, Expr.eval, Action.bind_apply, ran, ends]
  | @consequence _ second _ _ _ ran chosen =>
    have ends : Block.evalFrom call scope .null text reached = .signal raised after := ends
    cases second <;>
      simp only [Frame.plug, Part.eval, Expr.eval, Action.bind_apply, ran, chosen, if_true, ends]
  | alternative ran chosen =>
    have ends : Block.evalFrom call scope .null text reached = .signal raised after := ends
    simp only [Frame.plug, Part.eval, Expr.eval, Action.bind_apply, ran, chosen, ends,
      Bool.false_eq_true, if_false]
  | argument step yields =>
    rcases step with ⟨function, ran⟩
    simp only [Frame.plug, Part.eval, Expr.eval, Action.bind_apply, ran,
      Expr.evalList_of_signal _ yields ends]
  | element yields =>
    simp only [Frame.plug, Part.eval, Expr.eval, Action.bind_apply,
      Expr.evalList_of_signal _ yields ends]
  | key yields =>
    have ends : Expr.eval call scope text reached = .signal raised after := ends
    simp only [Frame.plug, Part.eval, Expr.eval, Action.bind_apply]
    rw [Expr.evalPairs_append_of_signal [] yields fun entries => ?_]
    simp only [Expr.evalPairs, Action.bind_apply, ends]
  | value yields step =>
    rcases step with ⟨slot, digest, ran, hashable⟩
    have ends : Expr.eval call scope text reached = .signal raised after := ends
    simp only [Frame.plug, Part.eval, Expr.eval, Action.bind_apply]
    rw [Expr.evalPairs_append_of_signal [] yields fun entries => ?_]
    simp only [Expr.evalPairs, Action.bind_apply, ran, hashable, Action.ofExcept, Action.done, ends]
  | bound | returned | stated =>
    have ends : Expr.eval call scope text before = .signal raised after := ends
    simp only [Frame.plug, Part.eval, Stmt.eval, Action.bind_apply, ends]
  | statement yields => exact Block.evalFrom_of_signal _ _ yields ends

namespace Context

variable {context other : Context hole whole} {text : Part hole}

/-- What stands behind the hole does not matter for reaching it. -/
theorem Reaches.alike (reaches : context.Reaches call scope before reached)
    (alike : context.Alike other) : other.Reaches call scope before reached := by
  induction alike generalizing before with
  | hole => exact reaches
  | inside alike _ inductionHypothesis =>
    cases reaches with
    | inside outer inner => exact .inside (outer.alike alike) (inductionHypothesis inner)

/-- A signal from the hole of a context ends the evaluation of the whole text. -/
theorem Reaches.eval_plug (reaches : context.Reaches call scope before reached)
    (ends : text.eval call scope reached = .signal raised after) :
    (context.plug text).eval call scope before = .signal raised after := by
  induction reaches with
  | hole state => exact ends
  | inside outer _ inductionHypothesis => exact outer.eval_plug (inductionHypothesis ends)

/-- The first signal wins. If everything in front of a position in some statements
ends with values and the text there ends with a signal, then the statements end
with that signal and in that state, and so do all others that differ from them only
in what stands behind the position. -/
theorem ends_with_first_signal {hole : PartKind} (context : Context hole .block) (text : Part hole)
    (depth : Nat) (scope : ScopeId) {before reached after : State} {raised : Signal}
    (reaches : context.Reaches (Object.apply depth) scope before reached)
    (ends : text.eval (Object.apply depth) scope reached = .signal raised after) :
    Block.eval (Object.apply depth) scope (context.plug text) before = .signal raised after ∧
      ∀ other : Context hole .block, context.Alike other →
        Block.eval (Object.apply depth) scope (other.plug text) before = .signal raised after :=
  ⟨reaches.eval_plug ends, fun _ alike => (reaches.alike alike).eval_plug ends⟩

end Context

end Signals

/-- The position of a statement in a branch, in the operand of an element of an
array, which is a value in a hash that is bound. The pair in front of it writes,
and `behind` stands behind it in each of the texts around it. -/
def Context.inBoundHash (behind : Expr) : Context .stmt .block :=
  .inside (.statement [.bind "n" (.int 5)] [.expr behind]) <|
  .inside (.bound "t") <|
  .inside (.value [(.bool true, .call (.ident "puts") [.string "a"])] (.ident "n")
    [(behind, behind)]) <|
  .inside (.element [.ident "n"] [behind]) <|
  .inside (.operand .negate) <|
  .inside (.consequence (.binary (.ident "n") .less (.int 7)) (some [.expr behind])) <|
  .inside (.statement [] [.expr behind]) .hole

/-- A return in the bound hash wins over an unknown name behind it. -/
theorem Context.ends_with_first_signal_of_early_return :
    ∃ reached, reached.output = "a\n" ∧
      (inBoundHash (.int 1)).Reaches (Object.apply 1) 0 (State.empty.openScope none []) reached ∧
      Stmt.eval (Object.apply 1) 0 (.return (.binary (.ident "n") .add (.int 2))) reached =
        .signal (.return (.integer 7)) reached ∧
      Block.eval (Object.apply 1) 0
        ((inBoundHash (.int 1)).plug (.return (.binary (.ident "n") .add (.int 2))))
        (State.empty.openScope none []) = .signal (.return (.integer 7)) reached ∧
      Block.eval (Object.apply 1) 0
        ((inBoundHash (.ident "missing")).plug (.return (.binary (.ident "n") .add (.int 2))))
        (State.empty.openScope none []) = .signal (.return (.integer 7)) reached := by
  have reaches : (inBoundHash (.int 1)).Reaches (Object.apply 1) 0
      (State.empty.openScope none [])
      (((State.empty.openScope none []).bind 0 "n" (.integer 5)).write "a\n") := by
    refine .inside (.statement (.cons ⟨_, rfl⟩ (.nil _))) <| .inside (.bound _) <|
      .inside (.value (.cons ⟨_, ⟨_, _, rfl, rfl⟩, _, rfl⟩ (.nil _)) ⟨_, _, rfl, rfl⟩) <|
      .inside (.element (.cons ⟨_, rfl⟩ (.nil _))) <| .inside (.operand _) <|
      .inside (.consequence rfl rfl) <| .inside (.statement (.nil _)) (.hole _)
  have alike : (inBoundHash (.int 1)).Alike (inBoundHash (.ident "missing")) := by
    repeat constructor
  have ends : Stmt.eval (Object.apply 1) 0 (.return (.binary (.ident "n") .add (.int 2)))
      (((State.empty.openScope none []).bind 0 "n" (.integer 5)).write "a\n") =
        .signal (.return (.integer 7))
          (((State.empty.openScope none []).bind 0 "n" (.integer 5)).write "a\n") := rfl
  have first := ends_with_first_signal (inBoundHash (.int 1))
    (Stmt.return (.binary (.ident "n") .add (.int 2))) 1 0 reaches ends
  exact ⟨_, rfl, reaches, ends, first.1, first.2 _ alike⟩

end Monkey
