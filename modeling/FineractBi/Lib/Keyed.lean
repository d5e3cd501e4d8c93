import Mathlib.Data.List.Nodup

/-!
Lists of rows with distinct keys, searched by key: the reading of a relation
with a primary key.
-/
namespace Keyed
universe u v
variable {Row : Type u} {Key : Type v} [DecidableEq Key] {key : Row → Key} {rows : List Row}

/-- The search finds a row exactly when it has the key. -/
theorem find_iff (distinct : (rows.map key).Nodup) {k : Key} {row : Row} :
    rows.find? (fun r => key r = k) = some row ↔ row ∈ rows ∧ key row = k := by
  constructor
  · intro found
    exact ⟨List.mem_of_find?_eq_some found,by simpa using List.find?_some found⟩
  · rintro ⟨member,rfl⟩
    cases found : rows.find? (fun r => key r = key row) with
    | none => exact absurd (List.find?_eq_none.mp found row member) (by simp)
    | some other =>
      have same : key other = key row := by simpa using List.find?_some found
      rw [List.inj_on_of_nodup_map distinct (List.mem_of_find?_eq_some found) member same]

theorem find_none {k : Key} : rows.find? (fun r => key r = k) = none ↔ ∀ row ∈ rows, key row ≠ k := by
  simp [List.find?_eq_none]

/-- Searching among the rows that satisfy `p` is searching and testing. -/
theorem find_filter (distinct : (rows.map key).Nodup) (p : Row → Bool) (k : Key) :
    (rows.filter p).find? (fun r => key r = k) = (rows.find? (fun r => key r = k)).filter p := by
  have distinct' : ((rows.filter p).map key).Nodup := distinct.sublist (List.filter_sublist.map key)
  ext row
  rw [find_iff distinct',List.mem_filter,Option.filter_eq_some_iff,find_iff distinct]
  tauto

/-- Rows computed from their keys are found by computing them. -/
theorem find_filterMap {keys : List Key} {f : Key → Option Row} {k : Key}
    (keyed : ∀ k row, f k = some row → key row = k) :
    (keys.filterMap f).find? (fun r => key r = k) = if k ∈ keys then f k else none := by
  induction keys with
  | nil => rfl
  | cons k' rest ih =>
    rw [List.filterMap_cons]
    cases computed : f k' with
    | none =>
      simp only [ih,List.mem_cons]
      by_cases same : k = k'
      · subst same
        simp [computed]
      · simp [same]
    | some row =>
      have at_row := keyed k' row computed
      by_cases same : k' = k
      · subst same
        simp [at_row,computed]
      · simp [at_row,same,Ne.symm same,ih]

/-- A map filled row by row under distinct names answers with the row of the name. -/
theorem foldl_lookup {Value : Type u} (value : Row → Value) (distinct : (rows.map key).Nodup)
    (start : List (Key × Value)) (sought : Key) :
    (rows.foldl (fun map row => (key row,value row) :: map) start).lookup sought =
      ((rows.find? (fun r => key r = sought)).map value).or (start.lookup sought) := by
  induction rows generalizing start with
  | nil => rfl
  | cons row rest ih =>
    simp only [List.map_cons,List.nodup_cons] at distinct
    rw [List.foldl_cons,ih distinct.2,List.find?_cons]
    by_cases same : key row = sought
    · have absent : rest.find? (fun r => key r = sought) = none := by
        rw [find_none]
        intro r member found
        exact distinct.1 (List.mem_map.mpr ⟨r,member,found.trans same.symm⟩)
      simp [absent,same]
    · have other : (sought == key row) = false := by simpa using Ne.symm same
      simp [same,List.lookup_cons,other]

end Keyed
