import WeftBlock.Lib.Maps

/-!
# Tables of records

Records that are stored under a key of their own. A record is put as a whole, under its key, and
replaces the one that was there. The table is a list without two records of one key; the order in
which it is listed is nobody's promise.
-/

namespace Tables

open Maps

/-- A table of records. -/
structure Table (ρ : Type) (κ : Type) (key : ρ → κ) where
  rows : List ρ
  nodup : (rows.map key).Nodup

namespace Table

variable {ρ κ : Type} {key : ρ → κ}

/-- No record at all. -/
def empty : Table ρ κ key := ⟨[], List.nodup_nil⟩

/-- The records, in some order. -/
def list (t : Table ρ κ key) (order : MapOrder) : List ρ := order.enum t.rows

variable {t : Table ρ κ key} {r : ρ}

theorem mem_list {order : MapOrder} : r ∈ t.list order ↔ r ∈ t.rows :=
  (order.perm t.rows).mem_iff

theorem perm_list (t : Table ρ κ key) (order : MapOrder) : (t.list order).Perm t.rows :=
  order.perm t.rows

theorem eq_of_key {r r' : ρ} (h : r ∈ t.rows) (h' : r' ∈ t.rows) (hk : key r = key r') : r = r' :=
  List.inj_on_of_nodup_map t.nodup h h' hk

variable [DecidableEq κ]

/-- The record of a key. -/
def get (t : Table ρ κ key) (k : κ) : Option ρ := t.rows.find? (fun r => key r = k)

/-- Without the record of a key. -/
def delete (t : Table ρ κ key) (k : κ) : Table ρ κ key :=
  ⟨t.rows.filter (fun r => key r ≠ k), List.Sublist.nodup (List.filter_sublist.map key) t.nodup⟩

/-- With the record, in the place of one of its key. -/
def put (t : Table ρ κ key) (r : ρ) : Table ρ κ key where
  rows := r :: (t.delete (key r)).rows
  nodup := by
    rw [List.map_cons, List.nodup_cons]
    refine ⟨fun hmem => ?_, (t.delete (key r)).nodup⟩
    obtain ⟨r', hr', hk⟩ := List.mem_map.mp hmem
    exact absurd hk (by simpa using (List.mem_filter.mp hr').2)

theorem get_eq_some {k : κ} :
    t.get k = some r ↔ r ∈ t.rows ∧ key r = k := by
  constructor
  · intro h
    exact ⟨List.mem_of_find?_eq_some h, by simpa using List.find?_some h⟩
  · rintro ⟨hr, hk⟩
    cases h : t.get k with
    | none => exact absurd hk (by simpa using List.find?_eq_none.mp h r hr)
    | some r' =>
      have hk' : key r' = k := by simpa using List.find?_some h
      rw [eq_of_key (List.mem_of_find?_eq_some h) hr (hk'.trans hk.symm)]

@[simp] theorem mem_delete {k : κ} :
    r ∈ (t.delete k).rows ↔ r ∈ t.rows ∧ key r ≠ k := by
  simp [delete]

@[simp] theorem mem_put {r r' : ρ} :
    r' ∈ (t.put r).rows ↔ r' = r ∨ r' ∈ t.rows ∧ key r' ≠ key r := by
  simp [put]

theorem get_put (t : Table ρ κ key) (r : ρ) (k : κ) :
    (t.put r).get k = if k = key r then some r else t.get k := by
  by_cases hk : k = key r
  · rw [if_pos hk, get_eq_some]
    exact ⟨mem_put.mpr (Or.inl rfl), hk.symm⟩
  · rw [if_neg hk]
    refine Option.ext (fun r' => ?_)
    rw [get_eq_some, get_eq_some, mem_put]
    constructor
    · rintro ⟨rfl | ⟨hr', -⟩, hk'⟩
      · exact absurd hk'.symm hk
      · exact ⟨hr', hk'⟩
    · rintro ⟨hr', hk'⟩
      exact ⟨Or.inr ⟨hr', fun he => hk (hk'.symm.trans he)⟩, hk'⟩

theorem get_put_self {k : κ} (h : key r = k) :
    (t.put r).get k = some r := by
  rw [get_put, if_pos h.symm]

/-- Deleting a record takes nothing else. -/
theorem countP_delete_le (t : Table ρ κ key) (p : ρ → Bool) (k : κ) :
    (t.delete k).rows.countP p ≤ t.rows.countP p :=
  List.Sublist.countP_le List.filter_sublist

/-- A record that is put adds at most itself. -/
theorem countP_put_le (t : Table ρ κ key) (p : ρ → Bool) (r : ρ) :
    (t.put r).rows.countP p ≤ t.rows.countP p + if p r then 1 else 0 := by
  have := t.countP_delete_le p (key r)
  rw [put, List.countP_cons]
  omega

/-- A record of a new key among those of a kind. -/
theorem filter_put_perm {p : ρ → Bool} (hp : p r = true)
    (hnew : ∀ r' ∈ t.rows, p r' = true → key r' ≠ key r) :
    ((t.put r).rows.filter p).Perm (r :: t.rows.filter p) := by
  have hrest : (t.delete (key r)).rows.filter p = t.rows.filter p := by
    rw [delete, List.filter_filter]
    refine List.filter_congr (fun r' hr' => ?_)
    by_cases h : p r' = true
    · simp [h, hnew r' hr' h]
    · simp [h]
  rw [put, List.filter_cons_of_pos hp, hrest]

/-- Several new records, one after the other. -/
theorem filter_putAll_perm {p : ρ → Bool} {rs : List ρ} : ∀ {t : Table ρ κ key},
    (∀ r ∈ rs, p r = true) → (rs.map key).Nodup →
    (∀ r' ∈ t.rows, p r' = true → key r' ∉ rs.map key) →
    ((rs.foldl put t).rows.filter p).Perm (rs.reverse ++ t.rows.filter p) := by
  induction rs with
  | nil => exact fun _ _ _ => List.Perm.refl _
  | cons r rs ih =>
    intro t hp hnodup hnew
    rw [List.map_cons, List.nodup_cons] at hnodup
    have hpr := hp r List.mem_cons_self
    have hput := filter_put_perm (t := t) hpr
      (fun r' hr' hp' he => hnew r' hr' hp' (List.mem_map.mpr ⟨r, List.mem_cons_self, he.symm⟩))
    rw [List.foldl_cons, List.reverse_cons, List.append_assoc]
    refine (ih (fun x hx => hp x (List.mem_cons_of_mem _ hx)) hnodup.2 (fun r' hr' hp' => ?_)).trans
      (hput.append_left _)
    rcases mem_put.mp hr' with rfl | ⟨hr', -⟩
    · exact hnodup.1
    · exact fun hmem => hnew r' hr' hp' (List.mem_cons_of_mem _ hmem)

end Table

end Tables
