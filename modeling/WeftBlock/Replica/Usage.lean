import WeftBlock.Replica.Faithful

/-!
# What counts as a snapshot

`getSnapshotCountUsage` and `GetSnapshotSizeUsage` leave out the head, the removed disks and the disk
that has the name of `activeDiskData[0]`, which is meant to be the backing file. But
`insertBackingFile` puts an empty placeholder there and the backing file at index 1, so with a backing
file both count it as a snapshot.
-/

namespace WeftBlock.Replica

open Maps Forest

/-- `GetSnapshotSizeUsage`, given what `getDiskSize` answers. -/
def getSnapshotSizeUsage (getDiskSize : String → Int) (r : Replica) : Int :=
  ((r.activeDiskData.filter (fun x => !(r.removed x || x == r.activeDiskData.getD 0 ""
    || x == r.info.head))).map getDiskSize).sum

/-- The disk is the backing file. -/
def isBacking (r : Replica) (x : String) : Bool :=
  (r.info.backingFile.map BackingFile.path) == some x

/-- The disks that are neither removed nor the head nor the backing file. -/
def snapshotCount (r : Replica) : Nat :=
  r.diskData.entries.countP (fun e => !(e.2.removed || r.isBacking e.1 || e.1 == r.info.head))

/-- The disks of the live chain. -/
def liveChain (r : Replica) : List String := (chain r.diskData r.info.head).toOption.getD []

/-- The space that those of them take up which are in the live chain. -/
def snapshotSize (getDiskSize : String → Int) (r : Replica) : Int :=
  ((r.liveChain.filter (fun x => !(r.removed x || r.isBacking x || x == r.info.head))).map
    getDiskSize).sum

/-- Both usages are those of the snapshots. -/
structure CountsSnapshots (getDiskSize : String → Int) (r : Replica) : Prop where
  count : r.getSnapshotCountUsage = r.snapshotCount
  size : r.getSnapshotSizeUsage getDiskSize = r.snapshotSize getDiskSize

/-- No backing file gets counted: there is none, or its record was removed and it is empty. -/
def NothingBelow (getDiskSize : String → Int) (r : Replica) : Prop :=
  ∀ f, r.info.backingFile = some f → r.diskData.lookup f.path = none ∧ getDiskSize f.path = 0

section InOrder

variable {r : Replica}

section

variable (h : InOrder r)
include h

theorem InOrder.first_active : r.activeDiskData.getD 0 "" = "" := by
  obtain ⟨l, -, hactive⟩ := h.wired.live
  rw [hactive]
  rfl

theorem InOrder.not_isBacking {x y : String} (hx : parents r.dir.metas x = some y) :
    r.isBacking x = false := by
  rw [isBacking, beq_eq_false_iff_ne]
  exact fun heq => h.wired.not_mem_backing hx (by rw [heq]; simp)

/-- The record of the backing file, while there is one. -/
theorem InOrder.backing_record {f : BackingFile} (hf : r.info.backingFile = some f)
    {d : Disk} (hd : r.diskData.lookup f.path = some d) : d = backingDisk := by
  rcases h.wired.backed hd with hm | ⟨g, -, -, rfl⟩
  · exact absurd rfl (ne_of_node (parents_eq_some.mpr ⟨d, hm, rfl⟩)
      (h.wired.backing_not_disk hf))
  · rfl

theorem InOrder.backing_ne {f : BackingFile} (hf : r.info.backingFile = some f) :
    f.path ≠ "" ∧ f.path ≠ r.info.head ∧ r.removed f.path = false := by
  obtain ⟨y, hy⟩ := h.wired.tree.has_head
  refine ⟨(h.wired.outside hf).1, (ne_of_node hy (h.wired.backing_not_disk hf)).symm, ?_⟩
  rw [removed]
  cases hd : r.diskData.lookup f.path with
  | none => rfl
  | some d => rw [h.backing_record hf hd]; rfl

/-- The count is off by the record of the backing file. -/
theorem InOrder.count_iff : r.getSnapshotCountUsage = r.snapshotCount ↔
    ∀ f, r.info.backingFile = some f → r.diskData.lookup f.path = none := by
  rw [getSnapshotCountUsage, snapshotCount, h.first_active, countP_eq_iff]
  · constructor
    · intro hall f hf
      by_contra hsome
      obtain ⟨d, hd⟩ := Option.ne_none_iff_exists'.mp hsome
      obtain rfl := h.backing_record hf hd
      obtain ⟨h1, h2, -⟩ := h.backing_ne hf
      have := hall ⟨f.path, backingDisk⟩ (AList.mem_lookup_iff.mp hd) (by simp [backingDisk, h1, h2])
      simp [isBacking, hf] at this
    · intro hnone e he hq
      have hrec : r.diskData.lookup e.1 = some e.2 := AList.mem_lookup_iff.mpr he
      have hb : r.isBacking e.1 = false := by
        rw [isBacking, beq_eq_false_iff_ne]
        intro heq
        obtain ⟨f, hf, hpath⟩ := Option.map_eq_some_iff.mp heq
        rw [← hpath, hnone f hf] at hrec
        simp at hrec
      simp only [Bool.not_eq_true', Bool.or_eq_false_iff] at hq ⊢
      exact ⟨⟨hq.1.1, hb⟩, hq.2⟩
  · intro e he hp
    have hne := h.wired.records_ne_empty (AList.mem_lookup_iff.mpr he)
    simp only [Bool.not_eq_true', Bool.or_eq_false_iff] at hp ⊢
    exact ⟨⟨hp.1.1, by simpa using hne⟩, hp.2⟩

/-- The size is off by that of the backing file. -/
theorem InOrder.size_eq (getDiskSize : String → Int) :
    r.getSnapshotSizeUsage getDiskSize = ((r.info.backingFile.map BackingFile.path).toList.map
      getDiskSize).sum + r.snapshotSize getDiskSize := by
  obtain ⟨l, hl, hactive⟩ := h.wired.live
  have hlive : r.liveChain = l := by
    rw [liveChain, chain_of_isChain (h.wired.isChain hl)]
    rfl
  have hback : (r.info.backingFile.map BackingFile.path).toList.filter (fun x => !(r.removed x
      || x == "" || x == r.info.head)) = (r.info.backingFile.map BackingFile.path).toList := by
    refine List.filter_eq_self.mpr (fun x hx => ?_)
    obtain ⟨f, hf, rfl⟩ := Option.map_eq_some_iff.mp (Option.mem_toList.mp hx)
    obtain ⟨h1, h2, h3⟩ := h.backing_ne hf
    simp [h1, h2, h3]
  have hchain : l.filter (fun x => !(r.removed x || x == "" || x == r.info.head))
      = l.filter (fun x => !(r.removed x || r.isBacking x || x == r.info.head)) := by
    refine List.filter_congr (fun x hx => ?_)
    obtain ⟨y, hy⟩ := hl.mem_node hx
    rw [h.not_isBacking hy, beq_eq_false_iff_ne.mpr (h.wired.tree.rooted.ne_root hy)]
  rw [getSnapshotSizeUsage, snapshotSize, h.first_active, hlive, hactive, List.cons_append,
    List.filter_cons_of_neg (by simp), List.filter_append, hback, List.filter_reverse, hchain,
    List.map_append, List.sum_append, List.map_reverse, List.sum_reverse]

theorem InOrder.countsSnapshots_iff (getDiskSize : String → Int) :
    CountsSnapshots getDiskSize r ↔ r.NothingBelow getDiskSize := by
  have hsize : r.getSnapshotSizeUsage getDiskSize = r.snapshotSize getDiskSize ↔
      ∀ f, r.info.backingFile = some f → getDiskSize f.path = 0 := by
    rw [h.size_eq, add_eq_right]
    cases r.info.backingFile <;> simp
  exact ⟨fun hc f hf => ⟨h.count_iff.mp hc.count f hf, hsize.mp hc.size f hf⟩,
    fun hn => ⟨h.count_iff.mpr (fun f hf => (hn f hf).1), hsize.mpr (fun f hf => (hn f hf).2)⟩⟩

end

end InOrder

end WeftBlock.Replica
