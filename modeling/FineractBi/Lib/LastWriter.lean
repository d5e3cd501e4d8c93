import Mathlib.Data.List.Induction
import Mathlib.Data.List.Nodup

/-!
The last writer of a value that is written by one batch after the other: two
ways of finding a writer in each batch give the same last writer exactly when
they agree on the last batch in which either of them finds one.
-/
namespace LastWriter
universe u
variable {Event : Type u}

/-- The last event stays the last among those that satisfy a test it passes. -/
theorem getLast_filter {events : List Event} {p : Event → Bool} {e : Event} (last : events.getLast? = some e)
    (passes : p e = true) : (events.filter p).getLast? = some e := by
  obtain ⟨earlier,rfl⟩ := List.getLast?_eq_some_iff.mp last
  simp [List.filter_append,passes]

theorem getLast_filter_cons (p : Event → Bool) (e : Event) (events : List Event) :
    ((e :: events).filter p).getLast? = (events.filter p).getLast?.or (if p e then some e else none) := by
  rw [List.filter_cons]
  split
  · rw [List.getLast?_cons]
    cases (events.filter p).getLast? with
    | none => rfl
    | some last => rfl
  · rw [Option.or_none]

/-- The writer found in the last batch that has one. -/
def lastWriter (writer : List Event → Option Event) (batches : List (List Event)) : Option Event :=
  (batches.filterMap writer).getLast?

private theorem lastWriter_append (writer : List Event → Option Event) (batches : List (List Event)) (batch : List Event) :
    lastWriter writer (batches ++ [batch]) = (writer batch).or (lastWriter writer batches) := by
  cases found : writer batch with
  | none => simp [lastWriter,found]
  | some e => simp [lastWriter,found]

theorem lastWriter_cons (writer : List Event → Option Event) (batches : List (List Event)) (batch : List Event) :
    lastWriter writer (batch :: batches) = (lastWriter writer batches).or (writer batch) := by
  cases found : writer batch with
  | none => simp [lastWriter,found]
  | some e => simp [lastWriter,found,List.getLast?_cons,Option.or_some]

private theorem lastWriter_mem {writer : List Event → Option Event} {batches : List (List Event)} {e : Event}
    (member : ∀ batch e, writer batch = some e → e ∈ batch) (found : lastWriter writer batches = some e) :
    e ∈ batches.flatten := by
  obtain ⟨batch,inside,at_batch⟩ := List.mem_filterMap.mp (List.mem_of_getLast? found)
  exact List.mem_flatten.mpr ⟨batch,inside,member batch e at_batch⟩

variable {f g : List Event → Option Event}

/-- Events being distinct, the last writers agree exactly when the last batch
    with a writer agrees, or, without such a batch, the writers from before do. -/
theorem lastWriter_eq_iff (memberF : ∀ batch e, f batch = some e → e ∈ batch)
    (memberG : ∀ batch e, g batch = some e → e ∈ batch) {batches : List (List Event)} {x y : Option Event}
    (distinct : batches.flatten.Nodup) (outsideX : ∀ e, x = some e → e ∉ batches.flatten)
    (outsideY : ∀ e, y = some e → e ∉ batches.flatten) :
    (lastWriter f batches).or x = (lastWriter g batches).or y ↔
      match (batches.filter (fun batch => (f batch).isSome || (g batch).isSome)).getLast? with
      | some batch => f batch = g batch
      | none => x = y := by
  induction batches using List.reverseRecOn with
  | nil => simp [lastWriter]
  | append_singleton batches batch ih =>
    rw [List.flatten_append,List.nodup_append'] at distinct
    simp only [List.flatten_append,List.mem_append,not_or] at outsideX outsideY
    -- a writer of the last batch is none of the earlier ones
    have other : ∀ {h : List Event → Option Event} {z : Option Event},
        (∀ batch e, h batch = some e → e ∈ batch) →
        (∀ e, z = some e → e ∉ batches.flatten ∧ e ∉ [batch].flatten) → ∀ e ∈ batch, (lastWriter h batches).or z ≠ some e := by
      intro h z member outside e inside found
      cases earlier : lastWriter h batches with
      | none =>
        rw [earlier,Option.none_or] at found
        exact (outside e found).2 (by simpa using inside)
      | some e' =>
        rw [earlier,Option.some_or] at found
        obtain rfl := Option.some.inj found
        exact distinct.2.2 (lastWriter_mem member earlier) (by simpa using inside)
    rw [lastWriter_append,lastWriter_append,List.filter_append]
    cases atF : f batch with
    | none => cases atG : g batch with
      | none =>
        simpa [atF,atG] using ih distinct.1 (fun e h => (outsideX e h).1) (fun e h => (outsideY e h).1)
      | some e =>
        simpa [atF,atG] using other memberF outsideX e (memberG batch e atG)
    | some e => cases atG : g batch with
      | none =>
        simpa [atF,atG,eq_comm] using other memberG outsideY e (memberF batch e atF)
      | some e' => simp [atF,atG]

end LastWriter
