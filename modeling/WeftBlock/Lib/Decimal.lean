import Mathlib

/-!
# Decimal numbers as bytes

Numbers written out in ASCII digits, and read back. A number in a fixed-size block is
padded with zero bytes, which no digit or sign is, so trimming the block gives the
number's text again.
-/

namespace Decimal

/-- The digits of a number, most significant first. -/
def decimal (n : Nat) : List UInt8 := (Nat.toDigits 10 n).map (fun c => UInt8.ofNat c.toNat)

/-- One more digit at the end of a number. -/
def pushDigit (n : Nat) (b : UInt8) : Option Nat :=
  if 48 ≤ b ∧ b ≤ 57 then some (10 * n + (b.toNat - 48)) else none

/-- The number the digits make up. -/
def readDigits (s : List UInt8) : Option Nat := if s = [] then none else s.foldlM pushDigit 0

/-- `FormatInt` in base 10. -/
def formatInt (x : Int64) : List UInt8 :=
  if x.toInt < 0 then 45 :: decimal x.toInt.natAbs else decimal x.toInt.natAbs

/-- `ParseInt` in base 10 with 64 bits: an optional sign, digits, and a number in range. -/
def parseInt : List UInt8 → Option Int64
  | [] => none
  | b :: s =>
    match readDigits (if b = 45 ∨ b = 43 then s else b :: s) with
    | none => none
    | some n =>
      if b = 45 then (if n ≤ 2 ^ 63 then some (Int64.ofInt (-n)) else none)
      else (if n < 2 ^ 63 then some (Int64.ofInt n) else none)

/-- The text without zero bytes at either end. -/
def trimZeros (s : List UInt8) : List UInt8 :=
  ((s.dropWhile (· == 0)).reverse.dropWhile (· == 0)).reverse

/-! ## Digits -/

/-- The last digit comes off the end. -/
theorem decimal_eq (n : Nat) :
    decimal n = (if n < 10 then [] else decimal (n / 10)) ++ [UInt8.ofNat (48 + n % 10)] := by
  unfold decimal
  rw [Nat.toDigits_eq_if (by decide)]
  split
  · rename_i h
    rw [List.map_singleton, Nat.toNat_digitChar_of_lt_ten h, Nat.mod_eq_of_lt h]
    rfl
  · rw [List.map_append, List.map_singleton,
      Nat.toNat_digitChar_of_lt_ten (Nat.mod_lt _ (by decide))]

theorem decimal_ne_nil (n : Nat) : decimal n ≠ [] := by
  rw [decimal_eq]
  simp

theorem mem_decimal {n : Nat} {b : UInt8} (h : b ∈ decimal n) : 48 ≤ b ∧ b ≤ 57 := by
  induction n using Nat.strongRecOn with
  | ind n ih =>
    rw [decimal_eq, List.mem_append, List.mem_singleton] at h
    rcases h with h | rfl
    · split at h
      · simp at h
      · rename_i hn
        exact ih (n / 10) (by omega) h
    · have hmod : n % 10 < 10 := Nat.mod_lt _ (by decide)
      rw [UInt8.le_iff_toNat_le, UInt8.le_iff_toNat_le, UInt8.toNat_ofNat']
      constructor
      · show 48 ≤ _
        omega
      · show _ ≤ 57
        omega

theorem length_decimal_le {k : Nat} (hk : 1 ≤ k) : ∀ {n : Nat}, n < 10 ^ k →
    (decimal n).length ≤ k := by
  induction k, hk using Nat.le_induction with
  | base =>
    intro n h
    rw [decimal_eq, if_pos (by simpa using h)]
    exact Nat.le_refl 1
  | succ k hk ih =>
    intro n h
    rw [decimal_eq, List.length_append, List.length_singleton]
    split
    · exact Nat.succ_le_succ (Nat.zero_le k)
    · have := ih (show n / 10 < 10 ^ k by rw [Nat.pow_succ] at h; omega)
      omega

/-- **The digits of a number read back as the number.** -/
theorem foldlM_decimal (n : Nat) : (decimal n).foldlM pushDigit 0 = some n := by
  induction n using Nat.strongRecOn with
  | ind n ih =>
    have hpush : ∀ m, pushDigit m (UInt8.ofNat (48 + n % 10)) = some (10 * m + n % 10) := by
      intro m
      have hin : UInt8.ofNat (48 + n % 10) ∈ decimal (n % 10) := by
        rw [decimal_eq, Nat.mod_mod]
        simp
      have hnat : (UInt8.ofNat (48 + n % 10)).toNat = 48 + n % 10 := by
        rw [UInt8.toNat_ofNat']
        omega
      rw [pushDigit, if_pos (mem_decimal hin), hnat, Nat.add_sub_cancel_left]
    rw [decimal_eq, List.foldlM_append]
    by_cases h : n < 10
    · rw [if_pos h]
      show (pure 0 >>= fun m => [UInt8.ofNat (48 + n % 10)].foldlM pushDigit m) = some n
      rw [pure_bind, List.foldlM_cons, hpush]
      show some (10 * 0 + n % 10) = some n
      rw [Nat.mod_eq_of_lt h, Nat.mul_zero, Nat.zero_add]
    · rw [if_neg h, ih (n / 10) (by omega)]
      show [UInt8.ofNat (48 + n % 10)].foldlM pushDigit (n / 10) = some n
      rw [List.foldlM_cons, hpush]
      show some (10 * (n / 10) + n % 10) = some n
      rw [Nat.div_add_mod]

theorem readDigits_decimal (n : Nat) : readDigits (decimal n) = some n := by
  rw [readDigits, if_neg (decimal_ne_nil n), foldlM_decimal]

/-! ## Signed numbers -/

theorem formatInt_ne_nil (x : Int64) : formatInt x ≠ [] := by
  unfold formatInt
  split
  · simp
  · exact decimal_ne_nil _

theorem zero_not_mem_formatInt (x : Int64) : (0 : UInt8) ∉ formatInt x := by
  have hdec : (0 : UInt8) ∉ decimal x.toInt.natAbs := fun h => absurd (mem_decimal h).1 (by decide)
  unfold formatInt
  split
  · intro h
    rcases List.mem_cons.mp h with h | h
    · exact absurd h (by decide)
    · exact hdec h
  · exact hdec

/-- Twenty bytes are enough for 64 bits. -/
theorem length_formatInt_le (x : Int64) : (formatInt x).length ≤ 20 := by
  have hlo := Int64.le_toInt x
  have hhi := Int64.toInt_lt x
  have hdec : (decimal x.toInt.natAbs).length ≤ 19 := length_decimal_le (by decide) (by omega)
  unfold formatInt
  split
  · rw [List.length_cons]
    omega
  · omega

/-- **A number's text parses as the number.** -/
theorem parseInt_formatInt (x : Int64) : parseInt (formatInt x) = some x := by
  have hlo := Int64.le_toInt x
  have hhi := Int64.toInt_lt x
  unfold formatInt
  split
  · rename_i hneg
    rw [parseInt, if_pos (Or.inl rfl), readDigits_decimal]
    dsimp only
    rw [if_pos rfl, if_pos (by omega), show (-(x.toInt.natAbs : Int)) = x.toInt by omega,
      Int64.ofInt_toInt]
  · rename_i hpos
    cases hd : decimal x.toInt.natAbs with
    | nil => exact absurd hd (decimal_ne_nil _)
    | cons b s =>
      have hb : 48 ≤ b := (mem_decimal (by rw [hd]; exact List.mem_cons_self)).1
      have h45 : b ≠ 45 := by
        rintro rfl
        exact absurd hb (by decide)
      have h43 : b ≠ 43 := by
        rintro rfl
        exact absurd hb (by decide)
      rw [parseInt, if_neg (fun h => h.elim h45 h43), ← hd, readDigits_decimal]
      dsimp only
      rw [if_neg h45, if_pos (by omega), show (x.toInt.natAbs : Int) = x.toInt by omega,
        Int64.ofInt_toInt]

/-! ## Padding -/

theorem dropWhile_of_zero_not_mem {l : List UInt8} (h : (0 : UInt8) ∉ l) (m : List UInt8)
    (hne : l ≠ []) : (l ++ m).dropWhile (· == 0) = l ++ m := by
  cases l with
  | nil => exact absurd rfl hne
  | cons b l =>
    refine List.dropWhile_cons_of_neg (fun hb => h ?_)
    exact List.mem_cons.mpr (Or.inl (beq_iff_eq.mp hb).symm)

/-- **Trimming a padded text** gives the text. -/
theorem trimZeros_append {s : List UInt8} (hs : (0 : UInt8) ∉ s) (hne : s ≠ []) (k : Nat) :
    trimZeros (s ++ List.replicate k 0) = s := by
  have hzeros : (List.replicate k 0 ++ s.reverse).dropWhile (· == 0)
      = s.reverse.dropWhile (· == 0) := by
    refine List.dropWhile_append_of_pos (fun b hb => ?_)
    rw [List.eq_of_mem_replicate hb]
    rfl
  have hback := dropWhile_of_zero_not_mem (fun h => hs (List.mem_reverse.mp h)) []
    (fun h => hne (List.reverse_eq_nil_iff.mp h))
  rw [List.append_nil] at hback
  rw [trimZeros, dropWhile_of_zero_not_mem hs _ hne, List.reverse_append, List.reverse_replicate,
    hzeros, hback, List.reverse_reverse]

end Decimal
