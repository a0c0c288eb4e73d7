import Mathlib

/-!
# Reading through layers

A stack of layers, top first. Each layer either holds a value or lets the one
below show through; the bottom of the stack shows a default. Taking a layer out
changes what shows exactly where the layers above it are all transparent and it
differs from what lies below.
-/

namespace Layers

variable {α β : Type}

/-- What shows through the layers `l`, where `f` tells what a layer holds. -/
def through (f : α → Option β) (z : β) (l : List α) : β := (l.findSome? f).getD z

variable {f : α → Option β} {z : β}

theorem through_cons_of_some {x : α} {l : List α} {b : β} (h : f x = some b) :
    through f z (x :: l) = b := by
  rw [through, List.findSome?_cons, h]; rfl

theorem through_cons_of_none {x : α} {l : List α} (h : f x = none) :
    through f z (x :: l) = through f z l := by
  rw [through, List.findSome?_cons, h]; rfl

/-- Transparent layers on top change nothing. -/
theorem through_append_of_none {u l : List α} (h : ∀ x ∈ u, f x = none) :
    through f z (u ++ l) = through f z l := by
  induction u with
  | nil => rfl
  | cons x u ih =>
    rw [List.cons_append, through_cons_of_none (h x List.mem_cons_self)]
    exact ih (fun y hy => h y (List.mem_cons_of_mem _ hy))

/-- A transparent bottom layer that would show the default anyway can be dropped. -/
theorem through_singleton {x : α} : through f z [x] = (f x).getD z := by
  cases h : f x with
  | none => rw [through_cons_of_none h]; rfl
  | some b => rw [through_cons_of_some h]; rfl

/-- What shows depends on the lower layers only where the upper ones are transparent. -/
theorem through_append_congr_iff {u l l' : List α} :
    through f z (u ++ l) = through f z (u ++ l')
      ↔ ((∀ x ∈ u, f x = none) → through f z l = through f z l') := by
  induction u with
  | nil => simp
  | cons x u ih =>
    cases h : f x with
    | some b =>
      rw [List.cons_append, List.cons_append, through_cons_of_some h, through_cons_of_some h]
      refine ⟨fun _ hall => ?_, fun _ => rfl⟩
      rw [hall x List.mem_cons_self] at h
      simp at h
    | none =>
      rw [List.cons_append, List.cons_append, through_cons_of_none h, through_cons_of_none h, ih]
      refine imp_congr_left ⟨fun hall y hy => ?_, fun hall y hy => ?_⟩
      · rcases List.mem_cons.mp hy with rfl | hy
        · exact h
        · exact hall y hy
      · exact hall y (List.mem_cons_of_mem _ hy)

end Layers
