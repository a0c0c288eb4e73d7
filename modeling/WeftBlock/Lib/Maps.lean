import Mathlib

/-!
# Maps with an unspecified order of enumeration

A finite map that a program ranges over in an order nobody promises. The map
itself is an association list; the order is a parameter of whatever ranges over
it, an arbitrary rearrangement of the keys, so a statement that holds for every
`MapOrder` holds whatever the enumeration was.

The second half is about maps from positions: a map that numbers the elements of
a list is what a loop builds when it stores each element under the number of
elements it has met so far.
-/

namespace Maps

/-- The order in which maps are enumerated: some rearrangement of the keys of each. -/
structure MapOrder where
  enum : {κ : Type} → List κ → List κ
  perm : ∀ {κ : Type} (l : List κ), (enum l).Perm l

/-- Enumeration in the order of the association list. -/
def MapOrder.listed : MapOrder := ⟨fun l => l, fun l => List.Perm.refl l⟩

/-- Enumeration in the opposite order. -/
def MapOrder.reversed : MapOrder := ⟨List.reverse, List.reverse_perm⟩

variable {κ V : Type} [DecidableEq κ]

theorem lookup_insert_eq (m : AList (fun _ : κ => V)) (k x : κ) (v : V) :
    (m.insert k v).lookup x = if x = k then some v else m.lookup x := by
  by_cases hx : x = k
  · rw [if_pos hx, hx, AList.lookup_insert]
  · rw [if_neg hx, AList.lookup_insert_ne hx]

theorem lookup_erase_eq (m : AList (fun _ : κ => V)) (k x : κ) :
    (m.erase k).lookup x = if x = k then none else m.lookup x := by
  by_cases hx : x = k
  · rw [if_pos hx, hx, AList.lookup_erase]
  · rw [if_neg hx, AList.lookup_erase_ne hx]

theorem lookup_singleton_eq (k x : κ) (v : V) :
    (AList.singleton k v : AList (fun _ : κ => V)).lookup x = if x = k then some v else none := by
  rw [← AList.insert_empty, lookup_insert_eq, AList.lookup_empty]

/-- An entry that is made anew is the entry that is made. -/
theorem insert_erase (m : AList (fun _ : κ => V)) (k : κ) (v : V) :
    (m.erase k).insert k v = m.insert k v := by
  refine AList.ext ?_
  rw [AList.entries_insert, AList.entries_insert]
  refine congrArg (_ :: ·) (List.kerase_of_notMem_keys ?_)
  exact List.notMem_keys_kerase k m.nodupKeys

theorem erase_insert (m : AList (fun _ : κ => V)) (k : κ) (v : V) :
    (m.insert k v).erase k = m.erase k := by
  refine AList.ext ?_
  show List.kerase k (m.insert k v).entries = List.kerase k m.entries
  rw [AList.entries_insert]
  exact List.kerase_cons_eq rfl

variable {m : AList (fun _ : κ => V)} {α : Type}

theorem erase_of_lookup {k : κ} (h : m.lookup k = none) :
    m.erase k = m :=
  AList.ext (List.kerase_of_notMem_keys (AList.lookup_eq_none.mp h))

theorem mem_iff_lookup (m : AList (fun _ : κ => V)) (k : κ) :
    k ∈ m ↔ ∃ v, m.lookup k = some v := by
  rw [← AList.lookup_isSome, Option.isSome_iff_exists]

/-- What one `range` over the map goes through. -/
def entries (order : MapOrder) (m : AList (fun _ : κ => V)) : List (κ × V) :=
  (order.enum m.keys).filterMap (fun k => (m.lookup k).map (fun v => (k, v)))

@[simp] theorem mem_entries {order : MapOrder} {k : κ} {v : V} :
    (k, v) ∈ entries order m ↔ m.lookup k = some v := by
  rw [entries, List.mem_filterMap]
  constructor
  · intro hex
    obtain ⟨k', _, h⟩ := hex
    obtain ⟨v', hv, he⟩ := Option.map_eq_some_iff.mp h
    obtain ⟨rfl, rfl⟩ := Prod.mk.inj he
    exact hv
  · intro h
    have hk : k ∈ m.keys := AList.mem_keys.mpr ((mem_iff_lookup m k).mpr ⟨v, h⟩)
    exact ⟨k, (order.perm m.keys).mem_iff.mpr hk, by rw [h]; rfl⟩

theorem map_fst_entries (order : MapOrder) (m : AList (fun _ : κ => V)) :
    (entries order m).map Prod.fst = order.enum m.keys := by
  have hmem : ∀ k ∈ order.enum m.keys, ∃ v, m.lookup k = some v := fun k hk =>
    (mem_iff_lookup m k).mp (AList.mem_keys.mp ((order.perm m.keys).mem_iff.mp hk))
  rw [entries]
  generalize order.enum m.keys = l at hmem
  induction l with
  | nil => rfl
  | cons k l ih =>
    obtain ⟨v, hv⟩ := hmem k List.mem_cons_self
    rw [List.filterMap_cons_some (b := (k, v)) (by rw [hv]; rfl), List.map_cons,
      ih (fun x hx => hmem x (List.mem_cons_of_mem _ hx))]

theorem nodup_entries (order : MapOrder) (m : AList (fun _ : κ => V)) :
    ((entries order m).map Prod.fst).Nodup := by
  rw [map_fst_entries]
  exact (order.perm m.keys).nodup_iff.mpr m.nodupKeys

/-! ## Gathering -/

/-- What `f` has for the keys of a list, as a map. -/
def gather (f : κ → Option V) (l : List κ) : AList (fun _ : κ => V) :=
  l.foldr (fun a m => (f a).elim m (m.insert a)) ∅

theorem lookup_gather (f : κ → Option V) (l : List κ) (a : κ) :
    (gather f l).lookup a = if a ∈ l then f a else none := by
  induction l with
  | nil => exact AList.lookup_empty a
  | cons b l ih =>
    show ((f b).elim (gather f l) ((gather f l).insert b)).lookup a = _
    cases hf : f b with
    | none =>
      rw [Option.elim_none, ih]
      by_cases hab : a = b
      · simp [hab, hf]
      · simp [hab]
    | some v =>
      rw [Option.elim_some, lookup_insert_eq, ih]
      by_cases hab : a = b
      · simp [hab, hf]
      · simp [hab]

theorem keys_gather (f : κ → Option V) {l : List κ} (hl : l.Nodup) :
    (gather f l).keys = l.filter (fun a => (f a).isSome) := by
  induction l with
  | nil => rfl
  | cons b l ih =>
    obtain ⟨hb, hl⟩ := List.nodup_cons.mp hl
    show ((f b).elim (gather f l) ((gather f l).insert b)).keys = _
    cases hf : f b with
    | none => rw [Option.elim_none, ih hl, List.filter_cons_of_neg (by simp [hf])]
    | some v =>
      have hnew : b ∉ (gather f l).keys := by
        rw [ih hl]
        exact fun hin => hb (List.mem_filter.mp hin).1
      rw [Option.elim_some, AList.keys_insert, List.erase_of_not_mem hnew, ih hl,
        List.filter_cons_of_pos (by simp [hf])]

/-! ## Numbering a list -/

/-- `index` stores the elements of `l` under their positions, and nothing else. -/
def Numbers {α : Type} (index : AList (fun _ : Nat => α)) (l : List α) : Prop :=
  ∀ i, index.lookup i = l[i]?

theorem numbers_empty : Numbers (∅ : AList (fun _ : Nat => α)) [] := by
  intro i
  rw [AList.lookup_empty, List.getElem?_nil]

/-- Storing the next element under the number of elements so far goes on numbering. -/
theorem Numbers.push {index : AList (fun _ : Nat => α)} {l : List α} (h : Numbers index l) (a : α) :
    Numbers (index.insert l.length a) (l ++ [a]) := by
  intro i
  rw [lookup_insert_eq, h i]
  by_cases hi : i = l.length
  · rw [if_pos hi, hi, List.getElem?_concat_length]
  · rw [if_neg hi]
    rcases Nat.lt_or_gt_of_ne hi with hlt | hgt
    · rw [List.getElem?_append_left hlt]
    · rw [List.getElem?_eq_none (by omega), List.getElem?_eq_none (by simp; omega)]

/-- Two counts agree where the weaker test passes nothing more. -/
theorem countP_eq_iff {p q : α → Bool} {l : List α} (h : ∀ x ∈ l, p x = true → q x = true) :
    l.countP q = l.countP p ↔ ∀ x ∈ l, q x = true → p x = true := by
  induction l with
  | nil => simp
  | cons x l ih =>
    have hx := h x List.mem_cons_self
    have hle := List.countP_mono_left (fun y hy => h y (List.mem_cons_of_mem _ hy))
    rw [List.forall_mem_cons, ← ih (fun y hy => h y (List.mem_cons_of_mem _ hy)), List.countP_cons,
      List.countP_cons]
    by_cases hp : p x = true
    · simp [hp, hx hp]
    · by_cases hq : q x = true
      · simp [hp, hq]
        omega
      · simp [hp, hq]

end Maps
