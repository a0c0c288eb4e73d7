import Mathlib

/-!
# Slices

Two operations on buffers, and what they do one position at a time.

`copyAt` overwrites part of a list in place, clipped at the end of the
destination the way a copy into a sub-slice is. `span` reads a total function off
over an interval. Everything later that moves bytes is a chain of these two, so
the only facts needed are the pointwise ones: which positions a copy changes, and
what an interval holds at each of its positions.
-/

namespace Slice

variable {α : Type}

/-- Overwrite `dst` from `pos` on with `src`, as far as `dst` reaches. -/
def copyAt (dst : List α) (pos : Nat) (src : List α) : List α :=
  dst.take pos ++ src.take (dst.length - pos) ++ dst.drop (pos + src.length)

/-- The values of `f` on `[start, start + len)`. -/
def span (f : Nat → α) (start len : Nat) : List α :=
  (List.range' start len).map f

theorem length_copyAt {dst src : List α} {pos : Nat} (h : pos ≤ dst.length) :
    (copyAt dst pos src).length = dst.length := by
  simp only [copyAt, List.length_append, List.length_take, List.length_drop]
  omega

/-- **A copy changes exactly the positions it covers.** -/
theorem getElem?_copyAt {dst src : List α} {pos : Nat} (h : pos + src.length ≤ dst.length)
    (i : Nat) :
    (copyAt dst pos src)[i]? = if pos ≤ i ∧ i < pos + src.length then src[i - pos]? else dst[i]? := by
  have hpos : (dst.take pos).length = pos := by
    rw [List.length_take]; omega
  have hsrc : src.take (dst.length - pos) = src := List.take_of_length_le (by omega)
  rw [copyAt, hsrc]
  rcases Nat.lt_or_ge i pos with hi | hi
  · rw [if_neg (by omega), List.append_assoc, List.getElem?_append_left (by omega),
      List.getElem?_take_of_lt hi]
  · rcases Nat.lt_or_ge i (pos + src.length) with hi' | hi'
    · rw [if_pos ⟨hi, hi'⟩, List.getElem?_append_left (by rw [List.length_append]; omega),
        List.getElem?_append_right (by omega), hpos]
    · rw [if_neg (by omega), List.getElem?_append_right (by rw [List.length_append]; omega),
        List.length_append, hpos, List.getElem?_drop]
      congr 1
      omega

@[simp] theorem length_span (f : Nat → α) (start len : Nat) : (span f start len).length = len := by
  simp [span]

theorem getElem?_span (f : Nat → α) (start len i : Nat) :
    (span f start len)[i]? = if i < len then some (f (start + i)) else none := by
  rw [span, List.getElem?_map]
  split
  · rename_i hi
    rw [List.getElem?_range' hi]
    simp
  · rename_i hi
    rw [List.getElem?_eq_none (by simp; omega)]
    rfl

theorem ext_of_lt {l₁ l₂ : List α} {n : Nat} (h₁ : l₁.length = n) (h₂ : l₂.length = n)
    (h : ∀ i, i < n → l₁[i]? = l₂[i]?) : l₁ = l₂ := by
  refine List.ext_getElem? (fun i => ?_)
  rcases Nat.lt_or_ge i n with hi | hi
  · exact h i hi
  · rw [List.getElem?_eq_none (by omega), List.getElem?_eq_none (by omega)]

end Slice
