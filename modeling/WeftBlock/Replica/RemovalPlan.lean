import WeftBlock.Replica.Snapshots

/-!
# A plan to remove a disk stays valid

`PrepareRemoveDisk` marks a disk as removed and answers what has to be done to take it
out; the calls that do it come later, with others in between. No call makes a plan
wrong: a disk that is marked stays marked as long as it is there, no branch is added
under it, and the head is never one. All of it can be read off the metadata files
(`Keeps`), since the records and the children map of a replica in order are theirs.
-/

namespace WeftBlock.Replica

open Maps Forest

/-- The disks that are entered as the children of a disk. -/
def childrenOf (r : Replica) (x : String) : Finset String := (r.diskChildrenMap.lookup x).getD ∅

/-- From `r` to `r'` a plan for the disk `x` stays valid. -/
structure KeepsPlan (x : String) (r r' : Replica) : Prop where
  removed : r'.removed x = true
  count : r'.childCount x ≤ r.childCount x
  /-- A disk that becomes a child replaces one that is no longer a child. -/
  replaced : ∀ c ∈ r'.childrenOf x, c ∉ r.childrenOf x → ∃ c₀ ∈ r.childrenOf x, c₀ ∉ r'.childrenOf x

/-- The metadata file of the disk says that it is removed. -/
def flagged (m : AList (fun _ : String => Disk)) (x : String) : Bool :=
  ((m.lookup x).map Disk.removed).getD false

variable {m : AList (fun _ : String => Disk)} {x : String}

theorem flagged_eq_true :
    flagged m x = true ↔ ∃ d, m.lookup x = some d ∧ d.removed = true := by
  rw [flagged]
  cases m.lookup x <;> simp

/-- From the metadata files `m` to `m'`, with the new head, plans stay valid. -/
structure Keeps (m m' : AList (fun _ : String => Disk)) (head : String) : Prop where
  live : flagged m' head = false
  removed : ∀ {x}, flagged m x = true → (m'.lookup x).isSome → flagged m' x = true
  children : ∀ {x}, flagged m x = true → Regrafts (parents m) (parents m') x

variable {b : Option BackingFile} {r r' : Replica} {name : String} {disk : Disk}

section InOrder

theorem InOrder.removed_eq (h : InOrder r) (x : String) : r.removed x = flagged r.dir.metas x := by
  rw [removed, flagged]
  cases hm : r.dir.metas.lookup x with
  | some d => rw [h.wired.records hm]
  | none =>
    cases hd : r.diskData.lookup x with
    | none => rfl
    | some d =>
      rcases h.wired.backed hd with hm' | ⟨f, -, -, rfl⟩
      · simp [hm'] at hm
      · rfl

/-- A disk of the directory that still has a record still has a metadata file. -/
theorem InOrder.metas_isSome (h : InOrder r) (hx : IsDiskName x)
    (hsome : (r.diskData.lookup x).isSome) : (r.dir.metas.lookup x).isSome := by
  obtain ⟨d, hd⟩ := Option.isSome_iff_exists.mp hsome
  rcases h.wired.backed hd with hm | ⟨f, hf, rfl, -⟩
  · rw [hm]
    rfl
  · exact absurd hx (h.wired.outside hf).2

theorem InOrder.mem_childrenOf (h : InOrder r) (hx : x ≠ "") (y : String) :
    y ∈ r.childrenOf x ↔ parents r.dir.metas y = some x :=
  h.wired.children.mem hx

theorem Keeps.keepsPlan (h : InOrder r) (h' : InOrder r')
    (hk : Keeps r.dir.metas r'.dir.metas r'.info.head) (hx : r.removed x = true)
    (hsome : (r'.diskData.lookup x).isSome) : KeepsPlan x r r' := by
  rw [h.removed_eq] at hx
  obtain ⟨d, hd, -⟩ := flagged_eq_true.mp hx
  have hnode := parents_eq_some.mpr ⟨d, hd, rfl⟩
  have hne := h.wired.tree.rooted.ne_root hnode
  obtain ⟨hcard, hrep⟩ := (hk.children hx).children (h.mem_childrenOf hne) (h'.mem_childrenOf hne)
  refine ⟨?_, hcard, hrep⟩
  rw [h'.removed_eq]
  exact hk.removed hx (h'.metas_isSome (h.wired.tree.isDiskName hnode) hsome)

end InOrder

/-! ## What each call does to the metadata files -/

/-- Nothing is taken out or added, and some disk other than the head may get marked. -/
theorem Keeps.of_marks {m m' : AList (fun _ : String => Disk)} {head : String}
    (hlive : flagged m' head = false) (hflag : ∀ {x}, flagged m x = true → flagged m' x = true)
    (hpar : parents m' = parents m) : Keeps m m' head :=
  ⟨hlive, fun hx _ => hflag hx, fun _ => Or.inl (fun y hy => by rwa [hpar] at hy)⟩

theorem Keeps.refl {head : String} (hlive : flagged m head = false) : Keeps m m head :=
  .of_marks hlive id rfl

theorem flagged_marked (r : Replica) (name : String) (disk : Disk) (x : String) :
    flagged (r.marked name disk).dir.metas x = (decide (x = name) || flagged r.dir.metas x) := by
  rw [flagged, flagged, marked, lookup_insert_eq]
  by_cases hx : x = name
  · simp [hx]
  · simp [hx]

theorem Grown.keeps {s newHead created : String} {size : Nat} {snap : Disk} (hw : Wired b r)
    (hg : Grown r r' (generateSnapshotDiskName s) newHead created size snap)
    (hlive : flagged r.dir.metas r.info.head = false) :
    Keeps r.dir.metas r'.dir.metas newHead := by
  obtain ⟨hne, hns, hsh, hnone, hunused, hhead⟩ := hg.names hw
  have hnode : ∀ {x}, flagged r.dir.metas x = true →
      x ≠ r.info.head ∧ x ≠ generateSnapshotDiskName s ∧ x ≠ newHead := by
    intro x hx
    obtain ⟨d, hd, -⟩ := flagged_eq_true.mp hx
    have hp := parents_eq_some.mpr ⟨d, hd, rfl⟩
    refine ⟨?_, ne_of_node hp hunused, ne_of_node hp hnone⟩
    rintro rfl
    simp [hlive] at hx
  refine ⟨?_, fun {x} hx _ => ?_, fun {x} hx => ?_⟩
  · rw [flagged, hg.metas, if_neg hne, if_neg hns, if_pos rfl]
    rfl
  · obtain ⟨h1, h2, h3⟩ := hnode hx
    rwa [flagged, hg.metas, if_neg h1, if_neg h2, if_neg h3]
  · obtain ⟨-, hsx, -⟩ := hnode hx
    have hcases : ∀ y, parents r'.dir.metas y = some x →
        (y = generateSnapshotDiskName s ∧ snap.parent = x) ∨ parents r.dir.metas y = some x := by
      intro y hy
      rw [hg.parents_eq hw] at hy
      simp only [dropLeaf, insertLeaf, Function.update_apply] at hy
      split_ifs at hy with h1 h2 h3
      · exact absurd (Option.some.inj hy).symm hsx
      · exact Or.inl ⟨h3, Option.some.inj hy⟩
      · exact Or.inr hy
    by_cases hx' : snap.parent = x
    · -- the old head leaves and the snapshot made of it comes
      refine Or.inr ⟨_, r.info.head, by rw [hhead, hx'], ?_, fun y hy => (hcases y hy).imp_left And.left⟩
      rw [hg.parents_eq hw, dropLeaf, Function.update_self]
      simp
    · exact Or.inl (fun y hy => (hcases y hy).resolve_left (fun h => hx' h.2))

theorem Unlinked.keeps (hu : Unlinked r r' name disk) (hne : name ≠ r.info.head)
    (hlive : flagged r.dir.metas r.info.head = false) :
    Keeps r.dir.metas r'.dir.metas r'.info.head := by
  refine ⟨?_, fun {x} hx hsome => ?_, fun {x} _ => by rw [hu.parents_eq]; exact .dropLeaf _ _ _⟩
  · rwa [hu.info, flagged, hu.metas, if_neg hne.symm]
  · rw [hu.metas] at hsome
    split at hsome
    · simp at hsome
    · rename_i hxn
      rwa [flagged, hu.metas, if_neg hxn]

theorem Spliced.keeps {child : String} {childDisk : Disk} (hw : Wired b r)
    (ha : At r name child disk childDisk) (hs : Spliced r r' name child disk childDisk)
    (hlive : flagged r.dir.metas r.info.head = false) :
    Keeps r.dir.metas r'.dir.metas r'.info.head := by
  obtain ⟨-, -, hcm, -, honly, -⟩ := ha.facts hw
  have hhead : r'.info.head = r.info.head := by
    rw [hs.info]
    split <;> rfl
  have hflag : ∀ {x}, x ≠ name → flagged r'.dir.metas x = flagged r.dir.metas x := by
    intro x hx
    rw [flagged, flagged, hs.metas, if_neg hx]
    split
    · rename_i hxc
      rw [hxc, hcm]
      rfl
    · rfl
  refine ⟨?_, fun {x} hx hsome => ?_, fun {x} _ => ?_⟩
  · rw [hhead, hflag ha.ne_head.symm]
    exact hlive
  · rw [hs.metas] at hsome
    split at hsome
    · simp at hsome
    · rename_i hxn
      rwa [hflag hxn]
  · rw [hs.parents_eq hw ha]
    exact .splice (fun y hy => (honly y).mp hy) x

theorem revert_keeps (h : InOrder r) (hlive : flagged r.dir.metas r.info.head = false)
    {snapshotMaxCount : Int} {sectorSize : Nat} {created : String}
    (hok : r.revert snapshotMaxCount sectorSize name created = .ok r') :
    Keeps r.dir.metas r'.dir.metas r'.info.head := by
  obtain ⟨newHead, disk, hnext, hd, hrem, hne, -⟩ := revert_ok h hok
  obtain ⟨newHead', v, hrev⟩ := revert_reverted h hok
  obtain rfl := Option.some.inj (hnext.symm.trans hrev.next)
  obtain ⟨-, hnh, hnone, -⟩ := h.wired.tree.next_head hnext
  obtain ⟨hpar, -⟩ := openable_revertedDir h created hnext hd hne
  have hmetas : ∀ x, r'.dir.metas.lookup x = if x = r.info.head then none
      else if x = newHead then some ⟨name, false, false, created, none⟩ else r.dir.metas.lookup x := by
    intro x
    rw [hrev.metas, revertedDir, lookup_erase_eq, lookup_insert_eq]
  refine ⟨?_, fun {x} hx hsome => ?_, fun {x} hx => Or.inl (fun y hy => ?_)⟩
  · rw [hrev.head, flagged, hmetas, if_neg hnh, if_pos rfl]
    rfl
  · obtain ⟨d, hdx, -⟩ := flagged_eq_true.mp hx
    have h1 : x ≠ r.info.head := by
      rintro rfl
      simp [hlive] at hx
    have h2 := ne_of_node (parents_eq_some.mpr ⟨d, hdx, rfl⟩) hnone
    rwa [flagged, hmetas, if_neg h1, if_neg h2]
  · -- the new head is on a disk that is not removed
    rw [hrev.metas, hpar] at hy
    simp only [dropLeaf, insertLeaf, Function.update_apply] at hy
    split_ifs at hy
    · obtain rfl := Option.some.inj hy
      rw [flagged, hd] at hx
      exact absurd (hrem.symm.trans hx) (by simp)
    · exact hy

/-! ## Every call, and every run -/

/-- The head is not marked as removed. -/
def HeadLive (r : Replica) : Prop := r.removed r.info.head = false

/-- The calls that come between making a plan and carrying it out. -/
def Op.ChangesTree : Op → Prop
  | .snapshot _ _ _ _ _ | .expand _ _ _ | .revert _ _ _ _ | .markDiskAsRemoved _
  | .removeDiffDisk _ | .replaceDisk _ _ => True
  | _ => False

section

variable {env : Env} (h : InOrder r) (hlive : HeadLive r) {op : Op} (hop : op.ChangesTree)
  (hstep : step env r op = some r')
include h hlive hop hstep

theorem step_keeps :
    Keeps r.dir.metas r'.dir.metas r'.info.head := by
  rw [HeadLive, h.removed_eq] at hlive
  cases op with
  | snapshot snapshotMaxCount name userCreated created labels =>
    obtain ⟨v, hok⟩ := succeeded_eq_some hstep
    obtain ⟨newHead, snap, hg⟩ := createDisk_ok h.wired hok
    have hk := hg.keeps h.wired hlive
    rwa [show newHead = r'.info.head by rw [hg.info]] at hk
  | expand snapshotMaxCount size created =>
    obtain ⟨v, hok⟩ := succeeded_eq_some hstep
    rcases (expand_cases h.wired hok).2 with ⟨rfl, -⟩ | ⟨-, r1, newHead, snap, hg, rfl⟩
    · exact .refl hlive
    · have hk := hg.keeps h.wired hlive
      rw [show newHead = (r1.expanded size).info.head by rw [expanded, hg.info]] at hk
      exact hk
  | revert snapshotMaxCount sectorSize name created =>
    exact revert_keeps h hlive (toOption_eq_some hstep)
  | markDiskAsRemoved name =>
    obtain ⟨v, hok⟩ := succeeded_eq_some hstep
    rcases markAsRemoved_cases h hok with rfl | ⟨x, disk, hne, hd, rfl⟩
    · exact .refl hlive
    · have hflag := flagged_marked r x disk
      refine .of_marks ?_ (fun {y} hy => by rw [hflag, hy, Bool.or_true]) (parents_marked hd)
      exact (hflag r.info.head).trans (by rw [hlive, Bool.or_false, decide_eq_false hne.symm])
  | removeDiffDisk name =>
    obtain ⟨v, hok⟩ := succeeded_eq_some hstep
    obtain ⟨disk, hd, hne, ⟨hc, hu⟩ | ⟨child, childDisk, ha, hs⟩⟩ :=
      removeDiffDisk_cases h.wired env.picks hok
    · exact hu.keeps hne hlive
    · exact hs.keeps h.wired ha hlive
  | replaceDisk target source =>
    obtain ⟨honly, hstep⟩ := Option.ite_none_right_eq_some.mp hstep
    obtain ⟨v, hok⟩ := succeeded_eq_some hstep
    obtain ⟨i, disk, targetDisk, r2, -, ha, -, hs, rfl⟩ :=
      replaceDisk_cases h.wired env.picks honly (h.wired.ne_head_of_children honly) hok
    obtain ⟨hdir, hinfo, -⟩ := refreshed_fields r2 target i
    rw [hdir, hinfo]
    exact hs.keeps (r := r.hardlinked target i) (h.wired.hardlinked target i)
      ⟨ha.record, ha.only, ha.childRecord, ha.ne_head⟩ hlive
  | new | unmapAt | readAt | writeAt | preload => exact hop.elim

theorem step_headLive : InOrder r' ∧ HeadLive r' := by
  have hout : op.Outside := by
    cases op with
    | new a => exact hop.elim
    | _ => trivial
  have h' := step_inOrder h hout hstep
  refine ⟨h', ?_⟩
  rw [HeadLive, h'.removed_eq]
  exact (step_keeps h hlive hop hstep).live

end

end WeftBlock.Replica
