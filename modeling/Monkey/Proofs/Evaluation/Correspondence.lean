import Monkey.Evaluation
import Monkey.Proofs.Evaluation.Text
import Monkey.Proofs.Object.Alike

/-!
# Corresponding runs

Two runs of one text go step by step alike if they begin in states that
correspond: the names that the text may read have alike values in corresponding
scopes, and what the runs do to the states keeps them in correspondence. Both runs
then end, and in the same way, or neither of them does. This is the only induction
over evaluation that properties of two runs need.

More scopes correspond as more are opened, so that a correspondence is indexed by
the number of scopes in the first state.
-/

namespace Monkey

/-- Which closures, scopes and states correspond, for texts that read no other than
the given names. -/
structure Correspondence where
  Readable : String → Prop
  Closures : Nat → Closure → Closure → Prop
  Scopes : Nat → ScopeId → ScopeId → Prop
  States : State → State → Prop
  text : ∀ {size}, Object.KeepsText (Closures size)
  readable : ∀ {size closure other}, Closures size closure other →
    ∀ name ∈ Block.identifiers closure.body, Readable name
  captured : ∀ {size closure other}, Closures size closure other →
    Scopes size closure.scope other.scope
  closures_mono : ∀ {size larger closure other}, size ≤ larger → Closures size closure other →
    Closures larger closure other
  scopes_mono : ∀ {size larger scope other}, size ≤ larger → Scopes size scope other →
    Scopes larger scope other
  find : ∀ {state other scope twin} {name : String}, Readable name → States state other →
    Scopes state.scopes.size scope twin →
      Option.Rel (Object.Alike (Closures state.scopes.size)) (state.find? scope name)
        (other.find? twin name)
  bind : ∀ {state other scope twin value result} (name : String), States state other →
    Scopes state.scopes.size scope twin →
      Object.Alike (Closures state.scopes.size) value result →
        States (state.bind scope name value) (other.bind twin name result)
  write : ∀ {state other} (output : String), States state other →
    States (state.write output) (other.write output)
  count : ∀ {state other}, States state other → States state.countClosure other.countClosure
  made : ∀ {state other scope twin} (parameters : List String) {body : Block},
    (∀ name ∈ Block.identifiers body, Readable name) → States state other →
      Scopes state.scopes.size scope twin →
      Closures state.scopes.size ⟨state.closures, parameters, body, scope⟩
        ⟨other.closures, parameters, body, twin⟩
  openScope : ∀ {state other outer twin bindings others}, States state other →
    Scopes state.scopes.size outer twin →
      Dictionary.Alike (Object.Alike (Closures state.scopes.size)) bindings others →
        States (state.openScope (some outer) bindings) (other.openScope (some twin) others)
  opened : ∀ {state other}, States state other →
    Scopes (state.scopes.size + 1) state.scopes.size other.scopes.size

namespace Correspondence

variable (correspondence : Correspondence)

/-- All of the names may be read. -/
def Reads (names : List String) : Prop :=
  ∀ name ∈ names, correspondence.Readable name

/-- Objects that are alike but for closures, which correspond. -/
def Objects (size : Nat) : Object → Object → Prop :=
  Object.Alike (correspondence.Closures size)

/-- Lists of objects that correspond, one by one. -/
def Lists (size : Nat) : List Object → List Object → Prop :=
  List.Forall₂ (correspondence.Objects size)

/-- Hashes whose keys and values correspond. -/
def Entries (size : Nat) : Dictionary HashKey (Object × Object) →
    Dictionary HashKey (Object × Object) → Prop :=
  Dictionary.Alike (Object.PairAlike (correspondence.Closures size))

/-- Two runs end in the same way, with at least `size` scopes. -/
inductive Ends {α : Type} (size : Nat) (post : Nat → α → α → Prop) : Outcome α → Outcome α → Prop
  | value {result other : α} {after behind : State} : size ≤ after.scopes.size →
      correspondence.States after behind → post after.scopes.size result other →
        Ends size post (.value result after) (.value other behind)
  | error (cause : RuntimeError) {after behind : State} : size ≤ after.scopes.size →
      correspondence.States after behind →
        Ends size post (.signal (.error cause) after) (.signal (.error cause) behind)
  | return {result other : Object} {after behind : State} : size ≤ after.scopes.size →
      correspondence.States after behind →
        correspondence.Objects after.scopes.size result other →
          Ends size post (.signal (.return result) after) (.signal (.return other) behind)
  | exhausted : Ends size post .exhausted .exhausted

/-- Two actions run alike from corresponding states with at least `size` scopes. -/
def Holds {α : Type} (size : Nat) (post : Nat → α → α → Prop) (action other : Action α) : Prop :=
  ∀ state twin, size ≤ state.scopes.size → correspondence.States state twin →
    correspondence.Ends state.scopes.size post (action state) (other twin)

/-- Calls of corresponding objects with corresponding arguments run alike. -/
def Answers (call : Caller) : Prop :=
  ∀ {size function other arguments others}, correspondence.Objects size function other →
    correspondence.Lists size arguments others →
      correspondence.Holds size correspondence.Objects (call function arguments) (call other others)

variable {correspondence}

theorem Reads.first {names more : List String} (reads : correspondence.Reads (names ++ more)) :
    correspondence.Reads names :=
  fun name member => reads name (List.mem_append_left more member)

theorem Reads.second {names more : List String} (reads : correspondence.Reads (names ++ more)) :
    correspondence.Reads more :=
  fun name member => reads name (List.mem_append_right names member)

theorem Objects.mono {size larger : Nat} {object other : Object} (le : size ≤ larger)
    (objects : correspondence.Objects size object other) :
    correspondence.Objects larger object other :=
  Object.Alike.mono (fun _ _ => correspondence.closures_mono le) objects

theorem Lists.mono {size larger : Nat} {objects others : List Object} (le : size ≤ larger)
    (lists : correspondence.Lists size objects others) :
    correspondence.Lists larger objects others :=
  lists.imp fun _ _ => Objects.mono le

theorem Entries.mono {size larger : Nat} {entries others : Dictionary HashKey (Object × Object)}
    (le : size ≤ larger) (alike : correspondence.Entries size entries others) :
    correspondence.Entries larger entries others :=
  Dictionary.Alike.mono (fun _ _ pair => ⟨Objects.mono le pair.1, Objects.mono le pair.2⟩) alike

theorem Ends.mono {α : Type} {size larger : Nat} {post : Nat → α → α → Prop}
    {outcome other : Outcome α} (le : size ≤ larger)
    (ends : correspondence.Ends larger post outcome other) :
    correspondence.Ends size post outcome other := by
  cases ends with
  | value grown states related => exact .value (Nat.le_trans le grown) states related
  | error cause grown states => exact .error cause (Nat.le_trans le grown) states
  | «return» grown states related => exact .return (Nat.le_trans le grown) states related
  | exhausted => exact .exhausted

namespace Holds

variable {α β : Type} {size : Nat}

theorem value {post : Nat → α → α → Prop} {result other : α}
    (related : ∀ larger, size ≤ larger → post larger result other) :
    correspondence.Holds size post (pure result) (pure other) :=
  fun _ _ le states => .value (Nat.le_refl _) states (related _ le)

theorem error {post : Nat → α → α → Prop} (cause : RuntimeError) :
    correspondence.Holds size post (.raise (.error cause)) (.raise (.error cause)) :=
  fun _ _ _ states => .error cause (Nat.le_refl _) states

theorem ofExcept {post : Nat → α → α → Prop} {outcome other : Except RuntimeError α}
    (agrees : ∀ larger, size ≤ larger → Agrees (post larger) outcome other) :
    correspondence.Holds size post (.ofExcept outcome) (.ofExcept other) := by
  intro state twin le states
  have agrees := agrees _ le
  cases agrees with
  | ok related => exact .value (Nat.le_refl _) states related
  | error cause => exact .error cause (Nat.le_refl _) states

/-- One run behind another. -/
theorem bind {middle : Nat → α → α → Prop} {post : Nat → β → β → Prop} {action other : Action α}
    {next behind : α → Action β} (first : correspondence.Holds size middle action other)
    (second : ∀ larger result twin, size ≤ larger → middle larger result twin →
      correspondence.Holds larger post (next result) (behind twin)) :
    correspondence.Holds size post (action >>= next) (other >>= behind) := by
  intro state twin le states
  have ran := first state twin le states
  rw [Action.bind_apply, Action.bind_apply]
  generalize action state = outcome at ran ⊢
  generalize other twin = otherOutcome at ran ⊢
  cases ran with
  | @value result twinResult after _ grown states related =>
    have later := second _ result twinResult (Nat.le_trans le grown) related after _ (Nat.le_refl _)
      states
    exact later.mono grown
  | error cause grown states => exact .error cause grown states
  | «return» grown states related => exact .return grown states related
  | exhausted => exact .exhausted

variable {scope twin : ScopeId}

theorem identifier {name : String} (readable : correspondence.Readable name)
    (scopes : correspondence.Scopes size scope twin) :
    correspondence.Holds size correspondence.Objects (evalIdentifier scope name)
      (evalIdentifier twin name) := by
  intro state other le states
  have found := correspondence.find readable states (correspondence.scopes_mono le scopes)
  simp only [evalIdentifier]
  generalize state.find? scope name = value at found ⊢
  generalize other.find? twin name = result at found ⊢
  cases found with
  | some alike => exact .value (Nat.le_refl _) states alike
  | none =>
    cases Builtin.ofName? name with
    | some builtin => exact .value (Nat.le_refl _) states (.builtin builtin)
    | none => exact .error _ (Nat.le_refl _) states

theorem closure (parameters : List String) {body : Block}
    (reads : correspondence.Reads (Block.identifiers body))
    (scopes : correspondence.Scopes size scope twin) :
    correspondence.Holds size correspondence.Objects (makeClosure scope parameters body)
      (makeClosure twin parameters body) :=
  fun _ _ le states => .value (Nat.le_refl _) (correspondence.count states)
    (.function (correspondence.made parameters reads states
      (correspondence.scopes_mono le scopes)))

theorem assign {value result : Object} (name : String)
    (scopes : correspondence.Scopes size scope twin)
    (alike : correspondence.Objects size value result) :
    correspondence.Holds size (fun _ _ _ => True) (.modify (State.bind scope name value))
      (.modify (State.bind twin name result)) :=
  fun state _ le states => .value (by simp [State.bind])
    (correspondence.bind name states (correspondence.scopes_mono le scopes) (alike.mono le)) trivial

theorem leave {value result : Object} (alike : correspondence.Objects size value result) :
    correspondence.Holds size correspondence.Objects (.raise (.return value))
      (.raise (.return result)) :=
  fun _ _ le states => .return (Nat.le_refl _) states (alike.mono le)

theorem write (output : String) :
    correspondence.Holds size (fun _ _ _ => True) (.modify (State.write output))
      (.modify (State.write output)) :=
  fun _ _ _ states => .value (Nat.le_refl _) (correspondence.write output states) trivial

/-- The bodies of two calls run alike in scopes that were opened for them. -/
theorem call {outer outerTwin : ScopeId} {bindings others : Dictionary String Object}
    {action : ScopeId → Action Object} (scopes : correspondence.Scopes size outer outerTwin)
    (alike : Dictionary.Alike (correspondence.Objects size) bindings others)
    (holds : ∀ larger inner innerTwin, correspondence.Scopes larger inner innerTwin →
      correspondence.Holds larger correspondence.Objects (action inner) (action innerTwin)) :
    correspondence.Holds size correspondence.Objects
      (.inScope outer bindings fun inner => (action inner).catchReturn)
      (.inScope outerTwin others fun inner => (action inner).catchReturn) := by
  intro state other le states
  have opened := correspondence.openScope states (correspondence.scopes_mono le scopes)
    (alike.mono fun _ _ => Objects.mono le)
  have larger : (state.openScope (some outer) bindings).scopes.size = state.scopes.size + 1 := by
    simp [State.openScope]
  have ran := holds (state.scopes.size + 1) state.scopes.size other.scopes.size
    (correspondence.opened states) _ _ (Nat.le_of_eq larger.symm) opened
  have ran := ran.mono (Nat.le_of_lt (Nat.lt_of_lt_of_eq (Nat.lt_succ_self _) larger.symm))
  simp only [Action.inScope, Action.catchReturn]
  generalize action state.scopes.size (state.openScope (some outer) bindings) = outcome at ran ⊢
  generalize action other.scopes.size (other.openScope (some outerTwin) others) = twin at ran ⊢
  cases ran with
  | value grown states related => exact .value grown states related
  | error cause grown states => exact .error cause grown states
  | «return» grown states related => exact .value grown states related
  | exhausted => exact .exhausted

end Holds

section Evaluation

variable {call : Caller}

mutual

/-- An expression is evaluated alike in corresponding scopes. -/
theorem expr (answers : correspondence.Answers call) : ∀ (expression : Expr) {size : Nat}
    {scope twin : ScopeId}, correspondence.Reads expression.identifiers →
      correspondence.Scopes size scope twin →
        correspondence.Holds size correspondence.Objects (expression.eval call scope)
          (expression.eval call twin)
  | .ident _, _, _, _, reads, scopes => .identifier (reads _ (.head _)) scopes
  | .int _, _, _, _, _, _ => .value fun _ _ => .integer _
  | .bool _, _, _, _, _, _ => .value fun _ _ => .boolean _
  | .string _, _, _, _, _, _ => .value fun _ _ => .string _
  | .unary op operand, _, _, _, reads, scopes =>
      (expr answers operand reads scopes).bind fun _ _ _ _ alike =>
        .ofExcept fun _ le => (alike.mono le).unary op
  | .binary left op right, _, _, _, reads, scopes =>
      (expr answers left reads.first scopes).bind fun _ _ _ le first =>
        (expr answers right reads.second (correspondence.scopes_mono le scopes)).bind
          fun _ _ _ le second =>
            .ofExcept fun _ later =>
              (first.mono (Nat.le_trans le later)).binary op (second.mono later)
  | .cond condition consequence none, _, _, _, reads, scopes => by
      refine (expr answers condition reads.first scopes).bind fun _ value result le alike => ?_
      rw [alike.isTruthy_eq]
      split
      · exact block answers consequence reads.second .null (correspondence.scopes_mono le scopes)
      · exact .value fun _ _ => .null
  | .cond condition consequence (some alternative), _, _, _, reads, scopes => by
      refine (expr answers condition reads.first scopes).bind fun _ value result le alike => ?_
      have scopes := correspondence.scopes_mono le scopes
      rw [alike.isTruthy_eq]
      split
      · exact block answers consequence reads.second.first .null scopes
      · exact block answers alternative reads.second.second .null scopes
  | .function parameters _, _, _, _, reads, scopes => .closure parameters reads scopes
  | .call callee arguments, _, _, _, reads, scopes =>
      (expr answers callee reads.first scopes).bind fun _ _ _ le function =>
        (list answers arguments reads.second (correspondence.scopes_mono le scopes)).bind
          fun _ _ _ le values => answers (function.mono le) values
  | .array elements, _, _, _, reads, scopes =>
      (list answers elements reads scopes).bind fun _ _ _ _ values =>
        .value fun _ le => .array (values.mono le)
  | .index left position, _, _, _, reads, scopes =>
      (expr answers left reads.first scopes).bind fun _ _ _ le whole =>
        (expr answers position reads.second (correspondence.scopes_mono le scopes)).bind
          fun _ _ _ le place =>
            .ofExcept fun _ later =>
              (whole.mono (Nat.le_trans le later)).index (place.mono later)
  | .hash entries, _, _, _, reads, scopes =>
      (pairs answers entries .nil reads scopes).bind fun _ _ _ _ alike =>
        .value fun _ le => Object.alike_hash_iff.mpr (alike.mono le)

/-- Expressions are evaluated alike, one by one. -/
theorem list (answers : correspondence.Answers call) : ∀ (expressions : List Expr) {size : Nat}
    {scope twin : ScopeId}, correspondence.Reads (Expr.listIdentifiers expressions) →
      correspondence.Scopes size scope twin →
        correspondence.Holds size correspondence.Lists (Expr.evalList call scope expressions)
          (Expr.evalList call twin expressions)
  | [], _, _, _, _, _ => .value fun _ _ => .nil
  | expression :: rest, _, _, _, reads, scopes =>
      (expr answers expression reads.first scopes).bind fun _ _ _ le first =>
        (list answers rest reads.second (correspondence.scopes_mono le scopes)).bind
          fun _ _ _ le others =>
            .value fun _ later => .cons (first.mono (Nat.le_trans le later)) (others.mono later)

/-- The pairs of a hash literal are evaluated alike. -/
theorem pairs (answers : correspondence.Answers call) : ∀ (pairs : List (Expr × Expr))
    {size : Nat} {entries others : Dictionary HashKey (Object × Object)} {scope twin : ScopeId},
    correspondence.Entries size entries others →
      correspondence.Reads (Expr.pairIdentifiers pairs) → correspondence.Scopes size scope twin →
        correspondence.Holds size correspondence.Entries (Expr.evalPairs call scope entries pairs)
          (Expr.evalPairs call twin others pairs)
  | [], _, _, _, _, _, alike, _, _ => .value fun _ le => alike.mono le
  | (key, value) :: rest, _, _, _, _, _, alike, reads, scopes => by
      refine (expr answers key reads.first scopes).bind fun middle slot otherSlot le keys => ?_
      have scopes := correspondence.scopes_mono le scopes
      have hashed : correspondence.Holds middle (fun _ => (· = ·))
          (.ofExcept slot.hashKey) (.ofExcept otherSlot.hashKey) :=
        .ofExcept fun _ _ => keys.hashKey_eq ▸ .refl _
      refine hashed.bind fun _ digest _ later same => ?_
      subst same
      have scopes := correspondence.scopes_mono later scopes
      refine (expr answers value reads.second.first scopes).bind fun _ _ _ last values => ?_
      have keys := keys.mono (Nat.le_trans later last)
      have alike := alike.mono (Nat.le_trans le (Nat.le_trans later last))
      exact pairs answers rest (alike.insert digest ⟨keys, values⟩) reads.second.second
        (correspondence.scopes_mono last scopes)

/-- A statement is evaluated alike in corresponding scopes. -/
theorem stmt (answers : correspondence.Answers call) : ∀ (statement : Stmt) {size : Nat}
    {scope twin : ScopeId}, correspondence.Reads statement.identifiers →
      correspondence.Scopes size scope twin →
        correspondence.Holds size correspondence.Objects (statement.eval call scope)
          (statement.eval call twin)
  | .bind name value, _, _, _, reads, scopes =>
      (expr answers value reads scopes).bind fun _ _ _ le alike =>
        (Holds.assign name (correspondence.scopes_mono le scopes) alike).bind fun _ _ _ _ _ =>
          .value fun _ _ => .null
  | .return value, _, _, _, reads, scopes =>
      (expr answers value reads scopes).bind fun _ _ _ _ alike => .leave alike
  | .expr value, _, _, _, reads, scopes => expr answers value reads scopes

/-- Statements are evaluated alike in corresponding scopes. -/
theorem block (answers : correspondence.Answers call) : ∀ (statements : List Stmt) {size : Nat}
    {last other : Object} {scope twin : ScopeId},
    correspondence.Reads (Block.identifiers statements) →
      correspondence.Objects size last other → correspondence.Scopes size scope twin →
        correspondence.Holds size correspondence.Objects
          (Block.evalFrom call scope last statements) (Block.evalFrom call twin other statements)
  | [], _, _, _, _, _, _, alike, _ => .value fun _ le => alike.mono le
  | statement :: rest, _, _, _, _, _, reads, _, scopes =>
      (stmt answers statement reads.first scopes).bind fun _ _ _ le alike =>
        block answers rest reads.second alike (correspondence.scopes_mono le scopes)

end

end Evaluation

/-! ## Calls -/

/-- A builtin that is applied to corresponding arguments runs alike. -/
theorem builtin {size : Nat} {arguments others : List Object} (primitive : Builtin)
    (alike : correspondence.Lists size arguments others) :
    correspondence.Holds size correspondence.Objects (primitive.apply arguments)
      (primitive.apply others) := by
  unfold Builtin.apply
  rw [Builtin.written_eq correspondence.text primitive alike]
  refine (Holds.write _).bind fun larger _ _ le _ => ?_
  have called := Builtin.call_alike primitive (alike.mono le)
  generalize primitive.call arguments = result at called ⊢
  generalize primitive.call others = twin at called ⊢
  have alike := called
  cases called with
  | error cause => exact .error cause
  | _ => exact .value fun _ later => Objects.mono later alike

/-- Calls run alike if those of closures do. -/
theorem answers_of_closures {depth : Nat}
    (closures : ∀ {size closure other arguments others},
      correspondence.Closures size closure other →
      closure.parameters.length = arguments.length → correspondence.Lists size arguments others →
        correspondence.Holds size correspondence.Objects
          (Object.apply depth (.function closure) arguments)
          (Object.apply depth (.function other) others)) :
    correspondence.Answers (Object.apply depth) := by
  intro size function other arguments others alike lists
  cases alike with
  | @function closure twin related =>
    by_cases matching : closure.parameters.length = arguments.length
    · exact closures related matching lists
    · have count : arguments.length = others.length := lists.length_eq
      have same := (correspondence.text _ _ related).1
      unfold Object.apply
      rw [same, ← count, if_neg matching, if_neg matching]
      exact .error _
  | builtin primitive =>
    unfold Object.apply
    exact builtin primitive lists
  | _ =>
    unfold Object.apply
    exact .error _

/-- Calls run alike, however deep they are nested. -/
theorem answers_apply (correspondence : Correspondence) (depth : Nat) :
    correspondence.Answers (Object.apply depth) := by
  induction depth with
  | zero =>
    refine answers_of_closures fun {_ closure twin arguments others} related matching lists => ?_
    have count : arguments.length = others.length := lists.length_eq
    unfold Object.apply
    rw [(correspondence.text _ _ related).1, ← count, if_pos matching]
    exact fun _ _ _ _ => .exhausted
  | succ depth inductionHypothesis =>
    refine answers_of_closures fun {_ closure twin arguments others} related matching lists => ?_
    have count : arguments.length = others.length := lists.length_eq
    unfold Object.apply
    rw [(correspondence.text _ _ related).1, (correspondence.text _ _ related).2, ← count,
      if_pos matching, if_pos matching]
    refine .call (correspondence.captured related) (.ofList_zip lists closure.parameters) ?_
    -- The two bodies are the same, and the first of them reads no other names.
    exact fun _ _ _ scopes =>
      block inductionHypothesis closure.body (correspondence.readable related) .null scopes

/-- Blocks are evaluated alike, with all the calls in them. -/
theorem eval_block (correspondence : Correspondence) (depth : Nat) (block : Block) {size : Nat}
    {scope twin : ScopeId} (reads : correspondence.Reads (Block.identifiers block))
    (scopes : correspondence.Scopes size scope twin) :
    correspondence.Holds size correspondence.Objects (block.eval (Object.apply depth) scope)
      (block.eval (Object.apply depth) twin) :=
  Correspondence.block (correspondence.answers_apply depth) block reads .null scopes

/-- A program finishes in both states or in neither. If it does, then its values
correspond, and so do the states behind it. -/
theorem eval_program (correspondence : Correspondence) (depth : Nat) {program : Program}
    {scope twin : ScopeId} {state other : State}
    (reads : correspondence.Reads (Block.identifiers program))
    (scopes : correspondence.Scopes state.scopes.size scope twin)
    (states : correspondence.States state other) :
    Option.Rel (fun ended behind => correspondence.States ended.2 behind.2 ∧
        correspondence.Objects ended.2.scopes.size ended.1 behind.1)
      (program.eval depth scope state) (program.eval depth twin other) := by
  have ends := correspondence.eval_block depth program reads scopes state other (Nat.le_refl _)
    states
  unfold Program.eval
  generalize Block.eval (Object.apply depth) scope program state = outcome at ends ⊢
  generalize Block.eval (Object.apply depth) twin program other = otherOutcome at ends ⊢
  cases ends with
  | value _ states alike =>
    have whole := alike
    cases alike with
    | returnValue value => exact .some ⟨states, value⟩
    | _ => exact .some ⟨states, whole⟩
  | error cause _ states => exact .some ⟨states, .error cause⟩
  | «return» _ states alike => exact .some ⟨states, alike⟩
  | exhausted => exact .none

end Correspondence

end Monkey
