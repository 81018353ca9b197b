import Monkey.Proofs.Evaluation.Repetition

/-!
# Ownership

Evaluation in a well-formed state leaves a well-formed state behind, and what it ends
with belongs to that state: no closure ever refers to a scope that is not there. A
run in a well-formed state corresponds to itself under a shift by nothing, and a
correspondence keeps account of the scopes of all closures.
-/

namespace Monkey

/-- A state that corresponds to another is well-formed. -/
theorem State.Shifted.wellFormed {bound distance : Nat} {first second : String}
    {state other : State} (shifted : Shifted bound distance first second state other) :
    state.WellFormed where
  older there := by
    rcases shifted.scopes there with ⟨twin, -, related⟩
    exact related.older
  owned there binding member := by
    rcases shifted.scopes there with ⟨twin, -, related⟩
    rcases related.bindings.exists_of_mem member with ⟨result, alike⟩
    exact alike.everyClosure fun _ _ related => related.lt

/-- A program that finishes in a scope of a well-formed state leaves a well-formed state
behind, and its value belongs to that state. -/
theorem State.WellFormed.eval {depth : Nat} {scope : ScopeId} {program : Program}
    {state after : State} {value : Object} (wellFormed : state.WellFormed)
    (there : scope < state.scopes.size)
    (finished : program.eval depth scope state = some (value, after)) :
    after.WellFormed ∧ after.Owns value := by
  have shifted := wellFormed.shifted (Nat.le_refl _) fun _ _ => rfl
  have ends := (Correspondence.shifted _ _ _ _).eval_program depth
    (fun _ _ => trivial : (Correspondence.shifted _ _ _ _).Reads (Block.identifiers program))
    ⟨there, (shift_of_lt there).symm⟩ shifted
  rw [finished] at ends
  cases ends with
  | some related =>
    rcases related with ⟨states, alike⟩
    exact ⟨states.wellFormed, alike.everyClosure fun _ _ related => related.lt⟩

end Monkey
