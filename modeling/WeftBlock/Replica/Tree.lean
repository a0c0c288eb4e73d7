import WeftBlock.Replica.Create
import WeftBlock.Lib.Forest

/-!
# The tree of disks

The metadata files name each disk's parent, so they are a forest, and the operations
edit it: `createDisk` puts two leaves on and takes the old head off, a revert moves the
head, a removal drops a leaf or splices a disk out. `DiskTree` is what a directory has to
be for that to make sense, and `Children` what the children map has to hold.
-/

namespace WeftBlock

open Maps Forest

/-! ## Names -/

theorem nextFile_volumeHeadDiskName : ∀ n ≤ 10,
    nextFile (volumeHeadDiskName n) = some (volumeHeadDiskName (n % 10 + 1)) := by
  decide +kernel

theorem volumeHeadDiskName_next : ∀ n ≤ 10,
    volumeHeadDiskName (n % 10 + 1) ≠ volumeHeadDiskName n := by
  decide +kernel

theorem volumeHeadDiskName_ne_empty : ∀ n ≤ 10, volumeHeadDiskName n ≠ "" := by
  decide +kernel

theorem generateSnapshotDiskName_ne_empty (s : String) : generateSnapshotDiskName s ≠ "" := by
  intro h
  have := congrArg (fun t : String => t.toList.length) h
  simp [generateSnapshotDiskName, String.toList_append] at this

/-- The letter after the first dash tells the two kinds of names apart. -/
theorem generateSnapshotDiskName_ne_head (s : String) (n : Nat) :
    generateSnapshotDiskName s ≠ volumeHeadDiskName n := by
  intro h
  have := congrArg (fun t : String => t.toList[7]?) h
  simp [generateSnapshotDiskName, volumeHeadDiskName, String.toList_append] at this

theorem generateSnapshotDiskName_injective : Function.Injective generateSnapshotDiskName := by
  intro s t h
  have := congrArg String.toList h
  simp only [generateSnapshotDiskName, String.toList_append, List.append_assoc,
    List.append_cancel_left_eq, List.append_cancel_right_eq] at this
  exact String.toList_inj.mp this

/-- The names a replica gives to its disks. -/
def IsDiskName (x : String) : Prop :=
  (∃ n ≤ 10, x = volumeHeadDiskName n) ∨ ∃ s, x = generateSnapshotDiskName s

/-- A backing file that is none of the replica's own disks. -/
def BackingFile.Outside (f : BackingFile) : Prop := f.path ≠ "" ∧ ¬ IsDiskName f.path

/-! ## A directory's tree -/

/-- The disks of a directory: a forest, and one leaf of it is the head. -/
structure DiskTree (par : String → Option String) (head : String) : Prop where
  rooted : Rooted "" par
  head_named : ∃ n ≤ 10, head = volumeHeadDiskName n
  named : ∀ {x y}, par x = some y → x = head ∨ ∃ s, x = generateSnapshotDiskName s
  has_head : ∃ y, par head = some y
  leaf : ∀ x, par x ≠ some head

namespace DiskTree

variable {par : String → Option String} {head : String}

section

variable (h : DiskTree par head)
include h

theorem isDiskName {x y : String} (hx : par x = some y) : IsDiskName x := by
  rcases h.named hx with rfl | ⟨s, rfl⟩
  · exact Or.inl h.head_named
  · exact Or.inr ⟨s, rfl⟩

theorem exists_next : ∃ newHead, nextFile head = some newHead := by
  obtain ⟨n, hn, hhead⟩ := h.head_named
  rw [hhead]
  exact ⟨_, nextFile_volumeHeadDiskName n hn⟩

/-- The head that comes next has a new name. -/
theorem next_head {newHead : String} (hnext : nextFile head = some newHead) :
    (∃ n ≤ 10, newHead = volumeHeadDiskName n) ∧ newHead ≠ head ∧ par newHead = none
      ∧ newHead ≠ "" ∧ ∀ s, newHead ≠ generateSnapshotDiskName s := by
  obtain ⟨n, hn, hhead⟩ := h.head_named
  rw [hhead, nextFile_volumeHeadDiskName n hn] at hnext
  obtain rfl := Option.some.inj hnext
  have hsnap : ∀ s, volumeHeadDiskName (n % 10 + 1) ≠ generateSnapshotDiskName s := fun s =>
    (generateSnapshotDiskName_ne_head s _).symm
  have hne : volumeHeadDiskName (n % 10 + 1) ≠ head := by
    rw [hhead]
    exact volumeHeadDiskName_next n hn
  refine ⟨⟨_, by omega, rfl⟩, hne, ?_, volumeHeadDiskName_ne_empty _ (by omega), hsnap⟩
  cases hp : par (volumeHeadDiskName (n % 10 + 1)) with
  | none => rfl
  | some y =>
    rcases h.named hp with heq | ⟨s, heq⟩
    · exact absurd heq hne
    · exact absurd heq (hsnap s)

end

/-- A tree with one disk. -/
theorem single : DiskTree (insertLeaf (fun _ => none) (volumeHeadDiskName 0) "")
    (volumeHeadDiskName 0) where
  rooted := Rooted.insertLeaf ⟨rfl, fun hx => absurd hx (by simp)⟩ rfl
    (volumeHeadDiskName_ne_empty 0 (by omega)) ⟨[], .nil⟩
  head_named := ⟨0, by omega, rfl⟩
  named := by
    intro x y hx
    rcases insertLeaf_eq_some.mp hx with ⟨rfl, -⟩ | ⟨-, hx⟩
    · exact Or.inl rfl
    · simp at hx
  has_head := ⟨"", Function.update_self _ _ _⟩
  leaf := by
    intro x hx
    rcases insertLeaf_eq_some.mp hx with ⟨-, he⟩ | ⟨-, hx⟩
    · exact volumeHeadDiskName_ne_empty 0 (by omega) he.symm
    · simp at hx

section

variable (h : DiskTree par head)
include h

/-- A new snapshot, on anything but the head. -/
theorem addLeaf {s y : String}
    (hz : par (generateSnapshotDiskName s) = none)
    (hy : ∃ l, Path "" par y l) (hyh : y ≠ head) :
    DiskTree (insertLeaf par (generateSnapshotDiskName s) y) head where
  rooted := h.rooted.insertLeaf hz (generateSnapshotDiskName_ne_empty s) hy
  head_named := h.head_named
  named := by
    intro x w hx
    rcases insertLeaf_eq_some.mp hx with ⟨rfl, -⟩ | ⟨-, hx⟩
    · exact Or.inr ⟨s, rfl⟩
    · exact h.named hx
  has_head := by
    obtain ⟨w, hw⟩ := h.has_head
    exact ⟨w, by rw [insertLeaf, Function.update_of_ne (ne_of_node hw hz), hw]⟩
  leaf := by
    intro x hx
    rcases insertLeaf_eq_some.mp hx with ⟨-, he⟩ | ⟨-, hx⟩
    · exact hyh he
    · exact h.leaf x hx

/-- The head gives way to a new one, that stands on `y`. -/
theorem rehead {newHead y w : String}
    (hnext : nextFile head = some newHead) (hy : par y = some w) (hyh : y ≠ head) :
    DiskTree (dropLeaf (insertLeaf par newHead y) head) newHead := by
  obtain ⟨hnamed, hne, hnone, hempty, hsnap⟩ := h.next_head hnext
  refine ⟨(h.rooted.insertLeaf hnone hempty (h.rooted.path hy)).dropLeaf (fun x hx => ?_), hnamed,
    fun {x v} hx => ?_, ⟨y, ?_⟩, fun x hx => ?_⟩
  · rcases insertLeaf_eq_some.mp hx with ⟨-, he⟩ | ⟨-, hx⟩
    · exact hyh he
    · exact h.leaf x hx
  · obtain ⟨hxh, hx⟩ := dropLeaf_eq_some.mp hx
    rcases insertLeaf_eq_some.mp hx with ⟨rfl, -⟩ | ⟨-, hx⟩
    · exact Or.inl rfl
    · exact (h.named hx).elim (fun heq => absurd heq hxh) Or.inr
  · rw [dropLeaf, Function.update_of_ne hne, insertLeaf, Function.update_self]
  · rcases insertLeaf_eq_some.mp (dropLeaf_eq_some.mp hx).2 with ⟨-, rfl⟩ | ⟨-, hx⟩
    · exact absurd (hnone.symm.trans hy) (by simp)
    · exact h.rooted.parent_ne_of_none hnone hempty hx

/-- A snapshot without children goes. -/
theorem drop {z : String} (hleaf : ∀ x, par x ≠ some z) (hz : z ≠ head) :
    DiskTree (dropLeaf par z) head where
  rooted := h.rooted.dropLeaf hleaf
  head_named := h.head_named
  named hx := h.named (dropLeaf_eq_some.mp hx).2
  has_head := by
    obtain ⟨w, hw⟩ := h.has_head
    exact ⟨w, dropLeaf_eq_some.mpr ⟨hz.symm, hw⟩⟩
  leaf x hx := h.leaf x (dropLeaf_eq_some.mp hx).2

/-- A snapshot goes and hands its children to its parent. -/
theorem splice {z y : String} (hz : par z = some y) (hzh : z ≠ head) :
    DiskTree (splice par z) head := by
  refine ⟨h.rooted.splice hz, h.head_named, fun {x v} hx => ?_, ?_, fun x hx => ?_⟩
  · rcases (splice_eq_some.mp hx).2 with ⟨hp, -⟩ | ⟨-, hp⟩
    · exact h.named hp
    · exact h.named hp
  · obtain ⟨w, hw⟩ := h.has_head
    rw [Forest.splice, if_neg hzh.symm]
    split
    · exact ⟨y, hz⟩
    · exact ⟨w, hw⟩
  · rcases (splice_eq_some.mp hx).2 with ⟨-, hp⟩ | ⟨-, hp⟩
    · exact h.leaf z hp
    · exact h.leaf x hp

end

end DiskTree

/-! ## The children map -/

/-- The children map holds, for every name, the disks that have it as their parent. -/
structure Children (ch : AList (fun _ : String => Finset String)) (par : String → Option String) :
    Prop where
  mem : ∀ {q c}, q ≠ "" → (c ∈ (ch.lookup q).getD ∅ ↔ par c = some q)
  nonempty : ∀ {q s}, ch.lookup q = some s → s.Nonempty

section

variable {ch : AList (fun _ : String => Finset String)} {p x q c : String}

theorem mem_addChildDisk :
    c ∈ ((addChildDisk ch p x).lookup q).getD ∅ ↔ (q = p ∧ c = x) ∨ c ∈ (ch.lookup q).getD ∅ := by
  rw [addChildDisk, lookup_insert_eq]
  by_cases hq : q = p
  · subst hq
    simp
  · simp [hq]

theorem mem_rmChildDisk :
    c ∈ ((rmChildDisk ch p x).lookup q).getD ∅
      ↔ c ∈ (ch.lookup q).getD ∅ ∧ ¬ (q = p ∧ c = x) := by
  rw [rmChildDisk]
  cases hs : ch.lookup p with
  | none =>
    refine ⟨fun hc => ⟨hc, ?_⟩, fun hc => hc.1⟩
    rintro ⟨rfl, -⟩
    rw [hs] at hc
    simp at hc
  | some s =>
    dsimp only
    by_cases hx : x ∈ s
    · rw [if_pos hx]
      by_cases hcard : (s.erase x).card = 0
      · rw [if_pos hcard, lookup_erase_eq]
        by_cases hq : q = p
        · rw [if_pos hq, hq, hs]
          -- the removed child was the only one
          have honly : ∀ y ∈ s, y = x := by
            intro y hy
            by_contra hne
            exact absurd (Finset.mem_erase.mpr ⟨hne, hy⟩) (by rw [Finset.card_eq_zero.mp hcard]; simp)
          simpa using fun hc => honly c hc
        · simp [hq]
      · rw [if_neg hcard, lookup_insert_eq]
        by_cases hq : q = p
        · rw [if_pos hq, hq, hs]
          simp [and_comm]
        · simp [hq]
    · rw [if_neg hx]
      refine ⟨fun hc => ⟨hc, ?_⟩, fun hc => hc.1⟩
      rintro ⟨rfl, rfl⟩
      rw [hs] at hc
      exact hx hc

end

section

variable {ch : AList (fun _ : String => Finset String)} {p x : String}
  (h : ∀ {q s}, ch.lookup q = some s → s.Nonempty) {q : String} {s : Finset String}
include h

theorem nonempty_addChildDisk (hs : (addChildDisk ch p x).lookup q = some s) : s.Nonempty := by
  rw [addChildDisk, lookup_insert_eq] at hs
  split at hs
  · rw [← Option.some.inj hs]
    exact Finset.insert_nonempty _ _
  · exact h hs

theorem nonempty_rmChildDisk (hs : (rmChildDisk ch p x).lookup q = some s) : s.Nonempty := by
  rw [rmChildDisk] at hs
  split at hs
  · exact h hs
  · split at hs
    · split at hs
      · rw [lookup_erase_eq] at hs
        split at hs
        · simp at hs
        · exact h hs
      · rename_i hcard
        rw [lookup_insert_eq] at hs
        split at hs
        · rw [← Option.some.inj hs]
          exact Finset.card_ne_zero.mp hcard
        · exact h hs
    · exact h hs

end

namespace Children

variable {ch : AList (fun _ : String => Finset String)} {par : String → Option String}

section

variable (h : Children ch par)
include h

/-- A disk without children has no entry. -/
theorem lookup_eq_none_iff {q : String} (hq : q ≠ "") :
    ch.lookup q = none ↔ ∀ x, par x ≠ some q := by
  constructor
  · intro hn x hx
    have := (h.mem hq).mpr hx
    rw [hn] at this
    simp at this
  · intro hleaf
    cases hs : ch.lookup q with
    | none => rfl
    | some s =>
      obtain ⟨c, hc⟩ := h.nonempty hs
      exact absurd ((h.mem (c := c) hq).mp (by rw [hs]; exact hc)) (hleaf c)

/-- A new leaf on a named disk is entered there; one on top is entered under the empty name. -/
theorem addLeaf {z y : String} (hz : par z = none) :
    Children (addChildDisk ch y z) (insertLeaf par z y) where
  mem := by
    intro q c hq
    rw [mem_addChildDisk, h.mem hq, insertLeaf_eq_some]
    by_cases hc : c = z
    · rw [hc, hz]
      simp [eq_comm]
    · simp [hc]
  nonempty := nonempty_addChildDisk h.nonempty

theorem drop {z y : String} (hz : par z = some y) :
    Children (rmChildDisk ch y z) (dropLeaf par z) where
  mem := by
    intro q c hq
    rw [mem_rmChildDisk, h.mem hq, dropLeaf_eq_some]
    by_cases hc : c = z
    · rw [hc, hz]
      simp [eq_comm]
    · simp [hc]
  nonempty := nonempty_rmChildDisk h.nonempty

/-- A disk with one child goes, and the child is entered in its place. -/
theorem splice {z y child : String} (hz : par z = some y) (hzy : y ≠ z)
    (hchild : ∀ x, par x = some z ↔ x = child) :
    Children ((addChildDisk (rmChildDisk ch y z) y child).erase z) (splice par z) where
  mem := by
    intro q c hq
    rw [lookup_erase_eq, Forest.splice]
    by_cases hqz : q = z
    · -- the disk's own entry is gone, and nobody names it any more
      rw [if_pos hqz, hqz]
      split
      · simp
      · split
        · simp [hz, hzy]
        · rename_i hc
          simp [hc]
    · rw [if_neg hqz, mem_addChildDisk, mem_rmChildDisk, h.mem hq]
      by_cases hc : c = z
      · rw [if_pos hc, hc, hz]
        have hne : z ≠ child := fun heq => hzy (Option.some.inj (hz.symm.trans ((hchild z).mpr heq)))
        simp [hne, eq_comm]
      · rw [if_neg hc]
        by_cases hp : par c = some z
        · rw [if_pos hp, hp, hz, (hchild c).mp hp]
          simp [eq_comm, Ne.symm hqz]
        · rw [if_neg hp]
          have hne : c ≠ child := fun heq => hp ((hchild c).mpr heq)
          simp [hne, hc]
  nonempty := by
    intro q s hs
    rw [lookup_erase_eq] at hs
    split at hs
    · simp at hs
    · exact nonempty_addChildDisk (nonempty_rmChildDisk h.nonempty) hs

end

end Children

/-- **The children map that is read from the metadata is right.** -/
theorem children_readChildren (m : AList (fun _ : String => Disk)) :
    Children (readChildren m) (parents m) := by
  -- what the loop has entered, after any part of the files
  have hloop : ∀ l : List (Sigma (fun _ : String => Disk)), ∃ ch,
      l.foldl (fun children e => if e.2.parent = "" then children
        else addChildDisk children e.2.parent e.1) ∅ = ch
      ∧ (∀ q c, q ≠ "" → (c ∈ (ch.lookup q).getD ∅ ↔ ∃ d, ⟨c, d⟩ ∈ l ∧ d.parent = q))
      ∧ ∀ {q s}, ch.lookup q = some s → s.Nonempty := by
    intro l
    induction l using List.reverseRecOn with
    | nil => exact ⟨∅, rfl, by simp, by simp⟩
    | append_singleton l e ih =>
      obtain ⟨ch, hch, hmem, hne⟩ := ih
      obtain ⟨x, d⟩ := e
      have hlast : ∀ q c, (∃ d', ⟨c, d'⟩ ∈ l ++ [⟨x, d⟩] ∧ d'.parent = q)
          ↔ (q = d.parent ∧ c = x) ∨ ∃ d', ⟨c, d'⟩ ∈ l ∧ d'.parent = q := by
        intro q c
        simp only [List.mem_append, List.mem_singleton, Sigma.mk.injEq, heq_eq_eq]
        grind
      rw [List.foldl_append, hch, List.foldl_cons, List.foldl_nil]
      by_cases hd : d.parent = ""
      · refine ⟨ch, if_pos hd, fun q c hq => ?_, hne⟩
        rw [hmem q c hq, hlast, or_iff_right]
        rintro ⟨rfl, -⟩
        exact hq hd
      · refine ⟨_, if_neg hd, fun q c hq => ?_, nonempty_addChildDisk hne⟩
        rw [mem_addChildDisk, hmem q c hq, hlast]
  obtain ⟨ch, hch, hmem, hne⟩ := hloop m.entries
  rw [readChildren, hch]
  refine ⟨fun {q c} hq => ?_, hne⟩
  rw [hmem q c hq, parents_eq_some]
  exact exists_congr (fun d => and_congr_left (fun _ => (AList.mem_lookup_iff).symm))

end WeftBlock
