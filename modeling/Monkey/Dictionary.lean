/-!
# Dictionaries

A dictionary holds at most one value for a key and remembers the order in
which its keys were first inserted. Inserting a key again replaces the value
and leaves the key at its place.
-/

namespace Monkey

/-- Keys with their values, in the order of first insertion. -/
abbrev Dictionary (κ α : Type) := List (κ × α)

namespace Dictionary

variable {κ α : Type} [DecidableEq κ]

/-- The value of a key. -/
def find? (key : κ) : Dictionary κ α → Option α
  | [] => none
  | (found, value) :: rest => if found = key then some value else find? key rest

/-- Gives a key its value. -/
def insert (key : κ) (value : α) : Dictionary κ α → Dictionary κ α
  | [] => [(key, value)]
  | (found, old) :: rest =>
      if found = key then (key, value) :: rest else (found, old) :: insert key value rest

/-- Inserts pairs one after the other into an empty dictionary. -/
def ofList (pairs : List (κ × α)) : Dictionary κ α :=
  pairs.foldl (fun dictionary pair => insert pair.1 pair.2 dictionary) []

/-- A key that was inserted has the value that was inserted with it. -/
@[simp]
theorem find?_insert_self (key : κ) (value : α) (dictionary : Dictionary κ α) :
    find? key (insert key value dictionary) = some value := by
  induction dictionary with
  | nil => simp [insert, find?]
  | cons entry rest inductionHypothesis =>
      by_cases same : entry.1 = key <;> simp [insert, find?, same, inductionHypothesis]

/-- Inserting a key leaves the values of all other keys alone. -/
theorem find?_insert_of_ne {key other : κ} (ne : key ≠ other) (value : α)
    (dictionary : Dictionary κ α) :
    find? other (insert key value dictionary) = find? other dictionary := by
  induction dictionary with
  | nil => simp [insert, find?, ne]
  | cons entry rest inductionHypothesis =>
      by_cases same : entry.1 = key
      · simp [insert, find?, same, ne]
      · simp [insert, find?, same, inductionHypothesis]

theorem mem_of_find?_eq_some {key : κ} {value : α} {dictionary : Dictionary κ α}
    (found : find? key dictionary = some value) : (key, value) ∈ dictionary := by
  induction dictionary with
  | nil => cases found
  | cons entry rest inductionHypothesis =>
    by_cases same : entry.1 = key
    · simp only [find?, same, if_true, Option.some.injEq] at found
      subst same found
      exact .head _
    · simp only [find?, same, if_false] at found
      exact .tail _ (inductionHypothesis found)

theorem eq_or_mem_of_mem_insert {key : κ} {value : α} {dictionary : Dictionary κ α} {entry : κ × α}
    (member : entry ∈ insert key value dictionary) : entry = (key, value) ∨ entry ∈ dictionary := by
  induction dictionary with
  | nil => exact .inl (List.mem_singleton.mp member)
  | cons first rest inductionHypothesis =>
    by_cases same : first.1 = key
    · simp only [insert, same, if_true, List.mem_cons] at member
      exact member.imp id (.tail _)
    · simp only [insert, same, if_false, List.mem_cons] at member
      rcases member with rfl | member
      · exact .inr (.head _)
      · exact (inductionHypothesis member).imp id (.tail _)

/-- What holds of all entries and of a new one holds of all entries behind the
insertion. -/
theorem forall_mem_insert {good : κ × α → Prop} {key : κ} {value : α} {dictionary : Dictionary κ α}
    (new : good (key, value)) (old : ∀ entry ∈ dictionary, good entry) :
    ∀ entry ∈ insert key value dictionary, good entry := by
  intro entry member
  rcases eq_or_mem_of_mem_insert member with rfl | member
  · exact new
  · exact old entry member

/-- A dictionary made of pairs has no other entries. -/
theorem mem_of_mem_ofList {pairs : List (κ × α)} {entry : κ × α}
    (member : entry ∈ ofList pairs) : entry ∈ pairs := by
  have inserted (pairs : List (κ × α)) (dictionary : Dictionary κ α) :
      entry ∈ pairs.foldl (fun dictionary pair => insert pair.1 pair.2 dictionary) dictionary →
        entry ∈ pairs ∨ entry ∈ dictionary := by
    induction pairs generalizing dictionary with
    | nil => exact .inr
    | cons pair rest inductionHypothesis =>
      intro member
      rcases inductionHypothesis _ member with member | member
      · exact .inl (.tail _ member)
      · rcases eq_or_mem_of_mem_insert member with rfl | member
        · exact .inl (.head _)
        · exact .inr member
  exact (inserted pairs [] member).resolve_right (List.not_mem_nil)

theorem find?_foldl_insert_of_notMem {key : κ} {pairs : List (κ × α)}
    (absent : key ∉ pairs.map Prod.fst) (dictionary : Dictionary κ α) :
    find? key (pairs.foldl (fun dictionary pair => insert pair.1 pair.2 dictionary) dictionary) =
      find? key dictionary := by
  induction pairs generalizing dictionary with
  | nil => rfl
  | cons pair rest inductionHypothesis =>
    rw [List.map_cons, List.mem_cons, not_or] at absent
    rw [List.foldl_cons, inductionHypothesis absent.2, find?_insert_of_ne (Ne.symm absent.1)]

/-- A key that is not among the pairs has no value. -/
theorem find?_ofList_of_notMem {key : κ} {pairs : List (κ × α)}
    (absent : key ∉ pairs.map Prod.fst) : find? key (ofList pairs) = none :=
  find?_foldl_insert_of_notMem absent []

/-- The last of the pairs with the same key counts. -/
theorem find?_ofList_of_last {key : κ} {back : List (κ × α)} (last : key ∉ back.map Prod.fst)
    (front : List (κ × α)) (value : α) :
    find? key (ofList (front ++ (key, value) :: back)) = some value := by
  rw [ofList, List.foldl_append, List.foldl_cons, find?_foldl_insert_of_notMem last,
    find?_insert_self]

/-- A pair behind the others is inserted last. -/
theorem ofList_append_singleton (pairs : List (κ × α)) (key : κ) (value : α) :
    ofList (pairs ++ [(key, value)]) = insert key value (ofList pairs) := by
  rw [ofList, List.foldl_append]
  rfl

/-- Inserting a key adds it behind the others unless it is already there. -/
theorem map_fst_insert (key : κ) (value : α) (dictionary : Dictionary κ α) :
    (insert key value dictionary).map Prod.fst =
      if key ∈ dictionary.map Prod.fst then dictionary.map Prod.fst
      else dictionary.map Prod.fst ++ [key] := by
  induction dictionary with
  | nil => simp [insert]
  | cons entry rest inductionHypothesis =>
      by_cases same : entry.1 = key
      · simp [insert, same]
      · have differs : key ≠ entry.1 := fun eq => same eq.symm
        simp only [insert, same, if_false, List.map_cons, inductionHypothesis, List.mem_cons,
          differs, false_or]
        split <;> rfl

/-- A key that is inserted keeps no other entry than the new one. -/
theorem nodup_insert (key : κ) (value : α) {dictionary : Dictionary κ α}
    (distinct : (dictionary.map Prod.fst).Nodup) :
    ((insert key value dictionary).map Prod.fst).Nodup := by
  rw [map_fst_insert]
  split
  · exact distinct
  · next absent =>
    refine List.nodup_append.mpr ⟨distinct, by simp, ?_⟩
    rintro found member other single rfl
    rw [List.mem_singleton.mp single] at member
    exact absent member

/-- Inserting a new key adds its entry behind the others. -/
theorem insert_of_notMem {key : κ} (value : α) {dictionary : Dictionary κ α}
    (absent : key ∉ dictionary.map Prod.fst) :
    insert key value dictionary = dictionary ++ [(key, value)] := by
  induction dictionary with
  | nil => rfl
  | cons entry rest inductionHypothesis =>
    rw [List.map_cons, List.mem_cons, not_or] at absent
    simp only [insert, Ne.symm absent.1, if_false, inductionHypothesis absent.2, List.cons_append]

/-- Every entry is found under its key if no other entry has that key. -/
theorem find?_of_mem {dictionary : Dictionary κ α} (distinct : (dictionary.map Prod.fst).Nodup)
    {entry : κ × α} (member : entry ∈ dictionary) : find? entry.1 dictionary = some entry.2 := by
  induction dictionary with
  | nil => cases member
  | cons first rest inductionHypothesis =>
    rw [List.map_cons, List.nodup_cons] at distinct
    rcases List.mem_cons.mp member with rfl | member
    · simp [find?]
    · have differs : first.1 ≠ entry.1 := by
        intro same
        exact distinct.1 (same ▸ List.mem_map_of_mem member)
      rw [find?, if_neg differs, inductionHypothesis distinct.2 member]

end Dictionary

end Monkey
