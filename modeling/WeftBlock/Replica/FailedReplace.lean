import WeftBlock.Replica.Ops

/-!
# A replace that is refused

`ReplaceDisk` links the source's file to the target's name first and asks afterwards whether the
source can be taken out of the tree. A source with several children is refused there, but then the
target's old file is already gone.
-/

namespace WeftBlock

open Maps Forest

/-- The file a disk's name stands for. -/
def Dir.file? (dir : Dir) (x : String) : Option File := (dir.imgs.lookup x).map dir.data

namespace Replica

/-- The target, what is seen through the head and the snapshots, and the records are as before. -/
structure Untouched (r r' : Replica) (target : String) : Prop where
  file : r'.dir.file? target = r.dir.file? target
  head : r'.view = r.view
  snapshots : ∀ x l, chain r.diskData x = .ok l → chain r'.diskData x = .ok l ∧
    ∀ p, r'.dir.showing r'.info.backingFile l p = r.dir.showing r.info.backingFile l p
  records : r'.diskData = r.diskData ∧ r'.dir.metas = r.dir.metas

/-- A failed attempt leaves the target alone: it is not linked, or the link changes nothing, or
removing the source is not refused. -/
def SafeReplace (r : Replica) (target source : String) : Prop :=
  target = r.info.head ∨ r.dir.imgs.lookup source = none ∨ r.childCount source ≤ 1 ∨
    r.dir.file? target = r.dir.file? source

/-- Linking a name to a file with the same content changes nothing that is read. -/
theorem untouched_hardlinked_iff {r : Replica} {target : String} {i : Ino} :
    Untouched r (r.hardlinked target i) target ↔ r.dir.file? target = some (r.dir.data i) := by
  have hfile : (r.hardlinked target i).dir.file? target = some (r.dir.data i) := by
    rw [Dir.file?, hardlinked, lookup_insert_eq, if_pos rfl]
    rfl
  refine ⟨fun h => h.file.symm.trans hfile, fun h => ⟨hfile.trans h.symm, rfl,
    fun x l hl => ⟨hl, fun p => ?_⟩, rfl, rfl⟩⟩
  have hino : ∀ x, r.dir.data ((r.hardlinked target i).dir.ino x) = r.dir.data (r.dir.ino x) := by
    intro x
    rw [Dir.ino, hardlinked, lookup_insert_eq]
    split
    · rename_i hx
      obtain ⟨j, hj, hdata⟩ := Option.map_eq_some_iff.mp h
      rw [Dir.ino, hx, hj]
      exact hdata.symm
    · rfl
  have hstack : (r.hardlinked target i).dir.stack r.info.backingFile l
      = r.dir.stack r.info.backingFile l :=
    congrArg (· ++ _) (List.map_congr_left (fun x _ => hino x))
  rw [Dir.showing, Dir.showing]
  exact congrArg _ hstack

/-- **The only refusal of `removeDiskNode`** in a replica in order is because of several children. -/
theorem Wired.removeDiskNode_cases {b : Option BackingFile} {r : Replica} (h : Wired b r)
    {pick : Finset String → String} (hpick : Picks pick) {x : String} {d : Disk} (hd : r.diskData.lookup x = some d) :
    (1 < r.childCount x ∧
        r.removeDiskNode pick x false = (r, .error (.manyChildren x (r.childCount x)))) ∨
      (r.childCount x ≤ 1 ∧ ∃ r', r.removeDiskNode pick x false = (r', .ok ())) := by
  have hrec : r.NodeRecorded pick x := by
    refine ⟨recorded d hd, fun s hc => ?_⟩
    have hpar : parents r.dir.metas (pick s) = some x :=
      (h.children.mem (h.records_ne_empty hd)).mp (by rw [hc]; exact hpick s (h.children.nonempty hc))
    obtain ⟨cd, hcd, -⟩ := parents_eq_some.mp hpar
    obtain ⟨y, hy⟩ := h.tree.has_head
    obtain ⟨headDisk, hhead, -⟩ := parents_eq_some.mp hy
    exact ⟨recorded cd (h.records hcd), fun _ _ =>
      ⟨(h.ne_head_of_children hc).symm, recorded headDisk (h.records hhead)⟩⟩
  have hends := removeDiskNode_ends pick r x false
  generalize r.removeDiskNode pick x false = res at hends
  cases hends with
  | many hmany _ => exact Or.inl ⟨hmany, rfl⟩
  | missing _ hno => exact absurd hrec hno
  | removed hfew _ _ _ => exact Or.inr ⟨Nat.le_of_not_lt (fun hm => hfew ⟨hm, rfl⟩), _, rfl⟩

/-- **A failed `ReplaceDisk` keeps its target** exactly where the link does no harm. -/
theorem replaceDisk_failed_iff (pick : Finset String → String) (hpick : Picks pick) (r : Replica)
    (h : InOrder r) (target source : String) :
    (∀ r' e, r.replaceDisk pick target source = (r', .error e) → (∀ x, e ≠ .replica (.noFile x)) →
      Untouched r r' target) ↔ r.SafeReplace target source := by
  unfold replaceDisk replaceDiskOn SafeReplace
  by_cases hhead : target = r.info.head
  · rw [if_pos hhead]
    refine iff_of_true (fun r' e hr _ => ?_) (Or.inl hhead)
    obtain rfl := (Prod.mk.inj hr).1
    exact ⟨rfl, rfl, fun x l hl => ⟨hl, fun p => rfl⟩, rfl, rfl⟩
  rw [if_neg hhead, or_iff_right hhead]
  unfold Dir.hardlinkDisk
  cases hi : r.dir.imgs.lookup source with
  | none =>
    refine iff_of_true (fun r' e hr hne => ?_) (Or.inl rfl)
    exact absurd (Except.error.inj (Prod.mk.inj hr).2).symm (hne source)
  | some i =>
    rw [or_iff_right (by simp)]
    dsimp only
    by_cases heq : target = source
    · -- the link fails, because the source went with the target
      rw [if_pos heq]
      refine iff_of_true (fun r' e hr hne => ?_) (Or.inr (by rw [heq]))
      exact absurd (Except.error.inj (Prod.mk.inj hr).2).symm (hne source)
    rw [if_neg heq]
    have hsome := h.opened.images source
    rw [hi] at hsome
    obtain ⟨d, hd⟩ := Option.isSome_iff_exists.mp hsome.symm
    rcases (h.wired.hardlinked target i).removeDiskNode_cases hpick (h.wired.records hd) with
      ⟨hmany, hnode⟩ | ⟨hone, r1, hnode⟩
    · have hmany' : ¬ r.childCount source ≤ 1 := Nat.not_le.mpr hmany
      have hfile : r.dir.file? source = some (r.dir.data i) := by rw [Dir.file?, hi]; rfl
      rw [hardlinked] at hnode
      dsimp only at hnode ⊢
      rw [hnode, or_iff_right hmany', hfile, ← untouched_hardlinked_iff]
      constructor
      · exact fun hall => hall _ _ rfl (fun x => by simp)
      · intro hu r' e hr _
        exact (Prod.mk.inj hr).1 ▸ hu
    · refine iff_of_true (fun r' e hr hne => ?_) (Or.inl hone)
      rw [hardlinked] at hnode
      dsimp only at hnode hr
      rw [hnode] at hr
      dsimp only at hr
      split at hr
      · simp at hr
      · unfold Dir.openFile at hr
        split at hr
        · rename_i e' hopen
          split at hopen
          · obtain rfl := Except.error.inj hopen
            exact absurd (Except.error.inj (Prod.mk.inj hr).2).symm (hne _)
          · simp at hopen
        · simp at hr

/-- The head is refused before anything is done. -/
theorem replaceDisk_failed_head : ∃ r, InOrder r ∧ ∀ r' e,
    r.replaceDisk Env.least.pick r.info.head "volume-snap-a.img" = (r', .error e) →
    (∀ x, e ≠ .replica (.noFile x)) → Untouched r r' r.info.head := by
  obtain ⟨r, hr⟩ := Option.isSome_iff_exists.mp (by decide +kernel :
    (construct (Dir.recovered (fun _ => File.empty 0) 8192) overBase).toOption.isSome = true)
  have h := new_inOrder (a := overBase) overBase_outside (toOption_eq_some hr)
  exact ⟨r, h, (replaceDisk_failed_iff Env.least.pick Env.least.picks r h _ _).mpr (Or.inl rfl)⟩

/-- Snapshots `a` and `b` with different bytes, and a head on `a` again. -/
def branching : List Op :=
  [.writeAt [1] 0, .snapshot 250 "a" true "t" none, .writeAt [2] 0, .snapshot 250 "b" true "t" none,
    .revert 250 512 "volume-snap-a.img" "t"]

/-- **`a` has two children**, so it can not take the place of `b`, but `b` holds its bytes then. -/
theorem replaceDisk_loses_target : ¬ ∀ (r : Replica), InOrder r → ∀ target source r' e,
    r.replaceDisk Env.least.pick target source = (r', .error e) → (∀ x, e ≠ .replica (.noFile x)) →
    Untouched r r' target := by
  intro hall
  have hrun : ((construct (Dir.recovered (fun _ => File.empty 0) 8192) overBase).toOption.bind
      (fun r => Runs.run (step .least) r branching)).any (fun r =>
        decide ((r.replaceDisk Env.least.pick "volume-snap-b.img" "volume-snap-a.img").2
            = .error (.replica (.manyChildren "volume-snap-a.img" 2)))
          && decide (((r.replaceDisk Env.least.pick "volume-snap-b.img"
            "volume-snap-a.img").1.dir.file? "volume-snap-b.img").map (fun f => f.cell 0) ≠
            (r.dir.file? "volume-snap-b.img").map (fun f => f.cell 0))) = true := by
    decide +kernel
  obtain ⟨r, hr, hres⟩ := (Option.any_eq_true _ _).mp hrun
  obtain ⟨r₀, hr₀, hr⟩ := Option.bind_eq_some_iff.mp hr
  obtain ⟨herr, hcell⟩ := (Bool.and_eq_true_iff).mp hres
  have h : InOrder r := run_inOrder (new_inOrder overBase_outside (toOption_eq_some hr₀))
    (fun op hop => by
      simp only [branching, List.mem_cons, List.not_mem_nil, or_false] at hop
      rcases hop with rfl | rfl | rfl | rfl | rfl <;> trivial) hr
  have hu := hall r h "volume-snap-b.img" "volume-snap-a.img" _ _
    (Prod.ext rfl (of_decide_eq_true herr)) (fun x => by simp)
  exact of_decide_eq_true hcell (congrArg (Option.map (fun f : File => f.cell 0)) hu.file)

end Replica

end WeftBlock
