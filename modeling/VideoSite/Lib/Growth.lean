import Mathlib.Data.List.Basic

/-!
# Tables that only grow

A table `later` has grown out of a table `earlier` when every row is still at its
place, as far as `R` lets a row change.  New rows come after the old ones.

* `Grows.trans` composes two periods of growth, and `Grows.append` and `Grows.map` are
  the two ways a table changes: rows are added, or every row is rewritten in place.
* `Grows.exists_of_mem` finds a row again.
-/

namespace Effects

variable {α : Type} {R : α → α → Prop}

/-- Every row of `earlier` is at its place in `later`, changed within `R`. -/
def Grows (R : α → α → Prop) (earlier later : List α) : Prop :=
  ∀ (place : Nat) (row : α), earlier[place]? = some row →
    ∃ row', later[place]? = some row' ∧ R row row'

namespace Grows

variable {earlier later last : List α}

theorem refl (hR : ∀ a, R a a) (table : List α) : Grows R table table :=
  fun _ row hrow => ⟨row, hrow, hR row⟩

theorem trans (hR : ∀ {a b c}, R a b → R b c → R a c) (h : Grows R earlier later)
    (h' : Grows R later last) : Grows R earlier last := by
  intro place row hrow
  obtain ⟨row', hrow', hchange⟩ := h place row hrow
  obtain ⟨row'', hrow'', hchange'⟩ := h' place row' hrow'
  exact ⟨row'', hrow'', hR hchange hchange'⟩

/-- Rows are added. -/
theorem append (hR : ∀ a, R a a) (rows : List α) : Grows R earlier (earlier ++ rows) := by
  intro place row hrow
  have hplace : place < earlier.length := (List.getElem?_eq_some_iff.1 hrow).1
  refine ⟨row, ?_, hR row⟩
  rw [List.getElem?_append_left hplace, hrow]

/-- Every row is rewritten in place. -/
theorem map {f : α → α} (hf : ∀ a, R a (f a)) : Grows R earlier (earlier.map f) := by
  intro place row hrow
  refine ⟨f row, ?_, hf row⟩
  rw [List.getElem?_map, hrow]
  rfl

/-- What has become of a row. -/
theorem exists_of_mem (h : Grows R earlier later) {row : α} (hrow : row ∈ earlier) :
    ∃ row' ∈ later, R row row' := by
  obtain ⟨place, hplace⟩ := List.getElem?_of_mem hrow
  obtain ⟨row', hrow', hchange⟩ := h place row hplace
  exact ⟨row', List.mem_of_getElem? hrow', hchange⟩

end Grows

end Effects
