import Mathlib

/-!
# Bytes in transit

Numbers as bytes, and bytes as they come out of a reader.

`le` and `be` write the low bytes of a number, the least or the most significant first; what
is read back is the number reduced to the width. A `Source` is a reader by what it will
deliver: one piece for each call, cut where the caller's buffer ends, and then the end of the
stream. `readFull` calls it until the buffer is full. How the bytes are cut into pieces makes
no difference to it: it takes from the front of them all.
-/

namespace Bytes

/-! ## Numbers -/

/-- The `width` low bytes of `n`, the least significant first. -/
def le : (width : Nat) → (n : Nat) → List UInt8
  | 0, _ => []
  | width + 1, n => UInt8.ofNat n :: le width (n / 256)

/-- The number that bytes stand for, the least significant first. -/
def ofLe : List UInt8 → Nat
  | [] => 0
  | b :: bs => b.toNat + 256 * ofLe bs

@[simp] theorem length_le (width n : Nat) : (le width n).length = width := by
  induction width generalizing n with
  | zero => rfl
  | succ width ih => rw [le, List.length_cons, ih]

/-- **Reading back what was written**: the number, reduced to the width. -/
theorem ofLe_le (width n : Nat) : ofLe (le width n) = n % 256 ^ width := by
  induction width generalizing n with
  | zero => rw [Nat.pow_zero, Nat.mod_one]; rfl
  | succ width ih =>
    rw [le, ofLe, ih, Nat.pow_succ', Nat.mod_mul]
    rfl

/-- **Writing again what was read**: bytes are all there is to know of a number. -/
theorem le_ofLe (bs : List UInt8) : le bs.length (ofLe bs) = bs := by
  induction bs with
  | nil => rfl
  | cons b bs ih =>
    have hlow : UInt8.ofNat (b.toNat + 256 * ofLe bs) = b := by
      apply UInt8.toNat_inj.mp
      rw [UInt8.toNat_ofNat', Nat.add_mul_mod_self_left]
      exact Nat.mod_eq_of_lt b.toNat_lt
    have hhigh : (b.toNat + 256 * ofLe bs) / 256 = ofLe bs := by
      rw [Nat.add_mul_div_left _ _ (by decide), Nat.div_eq_of_lt b.toNat_lt, Nat.zero_add]
    rw [List.length_cons, le, ofLe, hlow, hhigh, ih]

/-- The `width` low bytes of `n`, the most significant first. -/
def be (width n : Nat) : List UInt8 := (le width n).reverse

/-- The number that bytes stand for, the most significant first. -/
def ofBe (bs : List UInt8) : Nat := ofLe bs.reverse

@[simp] theorem length_be (width n : Nat) : (be width n).length = width := by
  rw [be, List.length_reverse, length_le]

theorem ofBe_be (width n : Nat) : ofBe (be width n) = n % 256 ^ width := by
  rw [ofBe, be, List.reverse_reverse, ofLe_le]

theorem be_ofBe (bs : List UInt8) : be bs.length (ofBe bs) = bs := by
  have h := le_ofLe bs.reverse
  rw [List.length_reverse] at h
  rw [be, ofBe, h, List.reverse_reverse]

/-! ## Readers -/

/-- A reader: the pieces it delivers, one for each call, before the end of the stream. -/
abbrev Source := List (List UInt8)

/-- Fill a buffer of `n` bytes. Fewer come out only at the end of the stream. -/
def readFull : Nat → Source → List UInt8 × Source
  | 0, src => ([], src)
  | _ + 1, [] => ([], [])
  | n + 1, p :: src =>
    if p.length ≤ n + 1 then
      let rest := readFull (n + 1 - p.length) src
      (p ++ rest.1, rest.2)
    else (p.take (n + 1), p.drop (n + 1) :: src)

/--
**What fills the buffer is the front of the bytes**, however they are cut, and what is left is
the rest of them.
-/
theorem readFull_eq (n : Nat) (src : Source) :
    (readFull n src).1 = src.flatten.take n ∧ (readFull n src).2.flatten = src.flatten.drop n := by
  induction src generalizing n with
  | nil => cases n <;> simp [readFull]
  | cons p src ih =>
    cases n with
    | zero => simp [readFull]
    | succ n =>
      by_cases hp : p.length ≤ n + 1
      · simp only [readFull, if_pos hp, ih, List.flatten_cons, List.take_append, List.drop_append,
          List.take_of_length_le hp, List.drop_of_length_le hp, List.nil_append, and_self]
      · simp only [readFull, if_neg hp, List.flatten_cons]
        rw [List.take_append_of_le_length (by omega), List.drop_append_of_le_length (by omega)]
        exact ⟨rfl, rfl⟩

theorem readFull_fst (n : Nat) (src : Source) : (readFull n src).1 = src.flatten.take n :=
  (readFull_eq n src).1

theorem flatten_readFull (n : Nat) (src : Source) :
    (readFull n src).2.flatten = src.flatten.drop n :=
  (readFull_eq n src).2

/-- A buffer that is filled from bytes `l ++ r` by exactly `l`. -/
theorem readFull_append {src : Source} {l r : List UInt8} (h : src.flatten = l ++ r) :
    (readFull l.length src).1 = l ∧ (readFull l.length src).2.flatten = r := by
  rw [readFull_fst, flatten_readFull, h, List.take_left, List.drop_left]
  exact ⟨rfl, rfl⟩

end Bytes
