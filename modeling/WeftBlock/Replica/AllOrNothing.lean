import WeftBlock.Replica.FileSteps
import WeftBlock.Replica.Sound

/-!
# A disk is created, or nothing is

When one of the file operations of a snapshot or an expansion fails, the rollbacks take
back what was done. They touch the new names only, so every disk that was known keeps its
files (`SameBut`), and the records that were entered are deleted again.

Two things are not taken back. The truncation of the new head ends in a panic, on the way
of which the old head is removed. And the record of the old head has served as the record
of the snapshot: when the snapshot's metadata can not be written, it keeps the fields that
were set.
-/

namespace WeftBlock

open Maps Steps Steps.Prog

namespace FileSteps

/-! ## The calls -/

/-- A call that creates a disk. -/
inductive Creation
  | snapshot (name : String) (userCreated : Bool) (created : String)
      (labels : Option (List (String × String)))
  | expand (size : Nat) (created : String)

namespace Creation

/-- `Snapshot` and `Expand`, file by file. -/
def run (snapshotMaxCount : Int) : Creation → Fs Unit
  | .snapshot name userCreated created labels => do
      let r ← get
      FileSteps.createDisk snapshotMaxCount name userCreated created labels r.info.size
  | .expand size created => FileSteps.expand snapshotMaxCount size created

/-- The snapshot the head is turned into. -/
def name : Creation → String
  | .snapshot name _ _ _ => name
  | .expand size _ => generateExpansionSnapshotName size

def userCreated : Creation → Bool
  | .snapshot _ userCreated _ _ => userCreated
  | .expand _ _ => false

def created : Creation → String
  | .snapshot _ _ created _ => created
  | .expand _ created => created

def labels : Creation → Option (List (String × String))
  | .snapshot _ _ _ labels => labels
  | .expand size _ => some (generateExpansionSnapshotLabels size)

/-- The size of the new head. -/
def size (r : Replica) : Creation → Nat
  | .snapshot _ _ _ _ => r.info.size
  | .expand size _ => size

/-- The call gets as far as the files. -/
def Admitted (snapshotMaxCount : Int) (r : Replica) (c : Creation) : Prop :=
  FileSteps.Admitted snapshotMaxCount r c.name
    ∧ ∀ size created, c = .expand size created → size % volumeSectorSize = 0 ∧ r.info.size < size

/-- The record that the head's record `disk` becomes. -/
def record (c : Creation) (disk : Disk) : Disk := snapOf disk c.userCreated c.created c.labels

section Run

variable {snapshotMaxCount : Int} {r : Replica} {c : Creation} {plan : Plan}

/-- After the checks of its own, `Expand` is `createDisk` and the new size. -/
theorem run_expand {size : Nat} {created : String}
    (hadm : (Creation.expand size created).Admitted snapshotMaxCount r) (plan : Plan) :
    (Creation.expand size created).run snapshotMaxCount r plan
      = Prog.bind (FileSteps.createDisk snapshotMaxCount (generateExpansionSnapshotName size) false
          created (some (generateExpansionSnapshotLabels size)) size)
        (fun _ => modify fun r => { r with volume := r.volume.expand size }) r plan := by
  obtain ⟨hmod, hlt⟩ := hadm.2 size created rfl
  unfold run FileSteps.expand
  refine (get_bind _).trans ?_
  rw [if_neg (by rw [hmod]; simp), if_neg (by omega), if_neg (by omega)]
  rfl

/-- A call ends as its `createDisk` does, unless that succeeds. -/
theorem run_createDisk (hadm : c.Admitted snapshotMaxCount r) {d : Done Replica OpErr Unit}
    (h : FileSteps.createDisk snapshotMaxCount c.name c.userCreated c.created c.labels (c.size r) r
      plan = d) (hd : ∀ a, d.exit ≠ .ok a) : c.run snapshotMaxCount r plan = d := by
  cases c with
  | snapshot name userCreated created labels => exact h
  | expand size created =>
    obtain ⟨x, s, plan'⟩ := d
    refine (run_expand hadm plan).trans ?_
    cases x with
    | ok a => exact absurd rfl (hd a)
    | error e => exact bind_error h
    | panicked => exact bind_panicked h
    | stopped => exact bind_stopped h

end Run

end Creation

/-! ## What the files of the known disks keep -/

/-- Apart from the two new names and the new file, the directory is that of `r`. -/
structure SameBut (r : Replica) (newSnap newHead : String) (dir : Dir) : Prop where
  imgs : ∀ x, x ≠ newSnap → x ≠ newHead → dir.imgs.lookup x = r.dir.imgs.lookup x
  metas : ∀ x, x ≠ newSnap → x ≠ newHead → dir.metas.lookup x = r.dir.metas.lookup x
  data : ∀ i, i ≠ r.freshIno → dir.data i = r.dir.data i

namespace SameBut

variable {r : Replica} {newSnap newHead : String} {dir : Dir}

theorem refl : SameBut r newSnap newHead r.dir :=
    ⟨fun _ _ _ => rfl, fun _ _ _ => rfl, fun _ _ => rfl⟩

section

variable (h : SameBut r newSnap newHead dir)
include h

theorem create :
    SameBut r newSnap newHead (dir.create newHead r.freshIno) where
  imgs x hs hh := (AList.lookup_insert_ne hh).trans (h.imgs x hs hh)
  metas := h.metas
  data i hi := (Function.update_of_ne hi _ _).trans (h.data i hi)

theorem truncate (size : Nat) :
    SameBut r newSnap newHead (dir.truncate r.freshIno size) where
  imgs := h.imgs
  metas := h.metas
  data i hi := (Function.update_of_ne hi _ _).trans (h.data i hi)

theorem renameVolumeMeta (info : Info) :
    SameBut r newSnap newHead (dir.renameVolumeMeta info) := ⟨h.imgs, h.metas, h.data⟩

end

-- the operations on one of the two names
variable {name : String} (hname : name = newSnap ∨ name = newHead)

include hname

theorem ne_name {x : String} (hs : x ≠ newSnap) (hh : x ≠ newHead) : x ≠ name := by
  rcases hname with rfl | rfl
  · exact hs
  · exact hh

section

variable (h : SameBut r newSnap newHead dir)
include h

theorem rename (disk : Disk) :
    SameBut r newSnap newHead (dir.rename name disk) where
  imgs := h.imgs
  metas x hs hh := (AList.lookup_insert_ne (ne_name hname hs hh)).trans (h.metas x hs hh)
  data := h.data

theorem remove :
    SameBut r newSnap newHead (dir.remove name) where
  imgs x hs hh := (AList.lookup_erase_ne (ne_name hname hs hh)).trans (h.imgs x hs hh)
  metas := h.metas
  data := h.data

theorem removeMeta :
    SameBut r newSnap newHead (dir.removeMeta name) where
  imgs := h.imgs
  metas x hs hh := (AList.lookup_erase_ne (ne_name hname hs hh)).trans (h.metas x hs hh)
  data := h.data

theorem rmDisk :
    SameBut r newSnap newHead (dir.rmDisk name) := by
  unfold Dir.rmDisk
  split
  · exact h
  · exact (h.remove hname).removeMeta hname

theorem link (oldName : String) :
    SameBut r newSnap newHead (dir.link oldName name) where
  imgs x hs hh := by
    unfold Dir.link
    cases dir.imgs.lookup oldName with
    | none => exact h.imgs x hs hh
    | some i => exact (AList.lookup_insert_ne (ne_name hname hs hh)).trans (h.imgs x hs hh)
  metas := h.metas
  data := h.data

theorem linkMeta (oldName : String) :
    SameBut r newSnap newHead (dir.linkMeta oldName name) where
  imgs := h.imgs
  metas x hs hh := by
    unfold Dir.linkMeta
    cases dir.metas.lookup oldName with
    | none => exact h.metas x hs hh
    | some d => exact (AList.lookup_insert_ne (ne_name hname hs hh)).trans (h.metas x hs hh)
  data := h.data

end

end SameBut

section Dirs

variable (r : Replica) (newSnap newHead created : String) (size : Nat)

theorem sameBut_headImage : SameBut r newSnap newHead (headImage r newHead size) :=
  (SameBut.refl.create).truncate size

theorem sameBut_headDir (parent : String) :
    SameBut r newSnap newHead (headDir r newHead parent created size) :=
  (sameBut_headImage r newSnap newHead size).rename (.inr rfl) _

variable {r newSnap newHead}

section

variable {dir : Dir} (h : SameBut r newSnap newHead dir) (oldName : String) (k : Nat)
include h

theorem SameBut.linkUpTo : SameBut r newSnap newHead (linkUpTo oldName newSnap k dir) := by
  have h1 := h.removeMeta (.inl rfl)
  have h3 := h1.remove (.inl rfl)
  rcases k with _ | _ | _ | _ | k
  · exact h
  · exact h1
  · exact h1
  · exact h3
  · exact h3.link (.inl rfl) oldName

theorem SameBut.linkBut : SameBut r newSnap newHead (linkBut oldName newSnap k dir) := by
  unfold FileSteps.linkBut
  split
  · exact h.linkUpTo oldName k
  · exact (h.linkUpTo oldName k).rmDisk (.inl rfl)

end

variable (r newSnap newHead)

theorem sameBut_linkedDir : SameBut r newSnap newHead (linkedDir r newSnap newHead created size) :=
  ((sameBut_headDir r newSnap newHead created size newSnap).linkUpTo _ 4).linkMeta (.inl rfl) _

end Dirs

/-! ## What is left of a failed call -/

/--
**Nothing has changed.** The records with all their fields, the children, the live chain,
the open files and the metadata in memory are the same, and so are the files of every
known disk.
-/
structure Unchanged (r r' : Replica) : Prop where
  records : ∀ x, r'.diskData.lookup x = r.diskData.lookup x
  children : ∀ q, r'.diskChildrenMap.lookup q = r.diskChildrenMap.lookup q
  active : r'.activeDiskData = r.activeDiskData
  volume : r'.volume = r.volume
  info : r'.info = r.info
  readOnly : r'.readOnly = r.readOnly
  unmapMark : r'.unmapMarkDiskChainRemoved = r.unmapMarkDiskChainRemoved
  imgs : ∀ {x}, (r.diskData.lookup x).isSome → r'.dir.imgs.lookup x = r.dir.imgs.lookup x
  metas : ∀ {x}, (r.diskData.lookup x).isSome → r'.dir.metas.lookup x = r.dir.metas.lookup x
  data : ∀ {x i}, (r.diskData.lookup x).isSome → r.dir.imgs.lookup x = some i →
    r'.dir.data i = r.dir.data i

section Failed

variable {r : Replica} {newSnap newHead : String} {i : Ino} {disk : Disk}
  (h : r.Ready newSnap newHead i disk)

include h

/-- The new head is not a known disk. -/
theorem newHead_unknown (hr : r.InOrder) : r.diskData.lookup newHead = none := by
  obtain ⟨⟨n, hn, hname⟩, -, hnone, -, -⟩ := hr.wired.tree.next_head h.next
  cases hd : r.diskData.lookup newHead with
  | none => rfl
  | some d =>
    rcases hr.wired.backed hd with hm | ⟨f, hf, hpath, -⟩
    · rw [parents_eq_none.mp hnone] at hm
      simp at hm
    · refine absurd (Or.inl ⟨n, hn, ?_⟩) (hr.wired.outside hf).2
      rw [← hpath, hname]

theorem unchanged_onDir (hr : r.InOrder) {dir : Dir} (hdir : SameBut r newSnap newHead dir) :
    Unchanged r (onDir (fun _ => dir) r) := by
  have hnames : ∀ {x}, (r.diskData.lookup x).isSome → x ≠ newSnap ∧ x ≠ newHead := by
    intro x hx
    constructor
    · rintro rfl
      rw [h.unused] at hx
      simp at hx
    · rintro rfl
      rw [newHead_unknown h hr] at hx
      simp at hx
  refine ⟨fun _ => rfl, fun _ => rfl, rfl, rfl, rfl, rfl, rfl, fun {x} hx => ?_, fun {x} hx => ?_,
    fun {x j} hx hj => ?_⟩
  · exact hdir.imgs x (hnames hx).1 (hnames hx).2
  · exact hdir.metas x (hnames hx).1 (hnames hx).2
  · refine hdir.data j (Nat.ne_of_lt (Replica.lt_freshIno ?_))
    exact .inl ⟨x, hj⟩

theorem withdrawn_head (created : String) (size : Nat) (snap : Disk) :
    (withdrawn r newSnap newHead created size snap).diskData.lookup r.info.head = some snap := by
  show (((((r.diskData.insert newHead _).insert newSnap snap).insert r.info.head snap).erase
    newHead).erase newSnap).lookup r.info.head = some snap
  rw [AList.lookup_erase_ne h.snap_ne_head.symm, AList.lookup_erase_ne h.newHead_ne_head.symm,
    AList.lookup_insert]

section

variable (hr : r.InOrder) (created : String) (size : Nat)
include hr created size

/-- The other records, and the children, are what they were. -/
theorem withdrawn_records (snap : Disk) {x : String} (hx : x ≠ r.info.head) :
    (withdrawn r newSnap newHead created size snap).diskData.lookup x = r.diskData.lookup x := by
  show (((((r.diskData.insert newHead _).insert newSnap snap).insert r.info.head snap).erase
    newHead).erase newSnap).lookup x = r.diskData.lookup x
  rw [lookup_erase_eq, lookup_erase_eq, AList.lookup_insert_ne hx, lookup_insert_eq, lookup_insert_eq]
  by_cases hs : x = newSnap
  · rw [if_pos hs, hs, h.unused]
  · rw [if_neg hs, if_neg hs]
    by_cases hh : x = newHead
    · rw [if_pos hh, hh, newHead_unknown h hr]
    · rw [if_neg hh, if_neg hh]

theorem withdrawn_children (snap : Disk)
    (q : String) : (withdrawn r newSnap newHead created size snap).diskChildrenMap.lookup q
      = r.diskChildrenMap.lookup q := by
  have hleaf : r.diskChildrenMap.lookup newSnap = none :=
    (hr.wired.children.lookup_eq_none_iff h.snap_ne).mpr (fun x =>
      hr.wired.tree.rooted.parent_ne_of_none (hr.wired.metas_none h.unused) h.snap_ne)
  show ((addChildDisk r.diskChildrenMap newSnap newHead).erase newSnap).lookup q = _
  rw [lookup_erase_eq]
  split
  · rename_i hq
    rw [hq, hleaf]
  · rename_i hq
    exact AList.lookup_insert_ne hq

theorem unchanged_withdrawn :
    Unchanged r (withdrawn r newSnap newHead created size disk) := by
  have hdir : SameBut r newSnap newHead (withdrawn r newSnap newHead created size disk).dir :=
    ((((sameBut_linkedDir r newSnap newHead created size).renameVolumeMeta _).rmDisk
      (.inr rfl)).rmDisk (.inl rfl)).renameVolumeMeta _
  have hsame := unchanged_onDir h hr hdir
  refine ⟨fun x => ?_, withdrawn_children h hr created size disk, rfl, rfl, rfl, rfl, rfl, hsame.imgs,
    hsame.metas, hsame.data⟩
  by_cases hx : x = r.info.head
  · rw [hx, withdrawn_head h, h.memory]
  · exact withdrawn_records h hr created size disk hx

end

end Failed

/-! ## The failing operation -/

/-- The call returns an error and nothing has changed. -/
def TakenBack (r : Replica) (d : Done Replica OpErr Unit) : Prop :=
  (∃ e, d.exit = .error e) ∧ Unchanged r d.state

section Files

variable {r : Replica} {newSnap newHead : String} {i : Ino} {disk : Disk}
  (h : r.Ready newSnap newHead i disk) (userCreated : Bool) (created : String)
  (labels : Option (List (String × String))) (size : Nat)

include h

/-- Up to the snapshot's metadata a failure is an error, and only the new names are touched. -/
theorem growDisk_fails {k : Nat} (h1 : k ≠ 1) (h13 : k < 13) :
    ∃ e dir, SameBut r newSnap newHead dir
      ∧ growDisk r.info.head newSnap userCreated created labels size r (some (k, .fails))
        = ⟨.error e, onDir (fun _ => dir) r, none⟩ := by
  have hhead := sameBut_headDir r newSnap newHead created size newSnap
  have hlinked := sameBut_linkedDir r newSnap newHead created size
  rcases Nat.lt_or_ge k 2 with h2 | h2
  · obtain rfl : k = 0 := by omega
    exact ⟨_, r.dir, .refl, growDisk_create_fails h userCreated created labels size⟩
  rcases Nat.lt_or_ge k 5 with h5 | h5
  · obtain ⟨j, rfl⟩ := Nat.exists_eq_add_of_le h2
    exact ⟨_, _, (sameBut_headImage r newSnap newHead size).rmDisk (.inr rfl),
      growDisk_meta_fails h userCreated created labels size (by omega)⟩
  rcases Nat.lt_or_ge k 10 with h10 | h10
  · obtain ⟨j, rfl⟩ := Nat.exists_eq_add_of_le h5
    exact ⟨_, _, (hhead.linkBut _ j).rmDisk (.inr rfl),
      growDisk_link_fails h userCreated created labels size (by omega)⟩
  · obtain ⟨j, rfl⟩ := Nat.exists_eq_add_of_le h10
    exact ⟨_, _, (hlinked.rmDisk (.inr rfl)).rmDisk (.inl rfl),
      growDisk_volumeMeta_fails h userCreated created labels size (by omega)⟩

end Files

section Call

variable {r : Replica} (hr : r.InOrder) {snapshotMaxCount : Int} {c : Creation}
  (hadm : c.Admitted snapshotMaxCount r) {newHead : String} {i : Ino} {disk : Disk}
  (h : r.Ready (generateSnapshotDiskName c.name) newHead i disk)

include hr hadm

theorem run_of_growDisk {plan plan' : Plan} {e : OpErr} {s : Replica}
    (hgrow : growDisk r.info.head (generateSnapshotDiskName c.name) c.userCreated c.created c.labels
      (c.size r) r plan = ⟨.error e, s, plan'⟩) :
    c.run snapshotMaxCount r plan = ⟨.error e, s, plan'⟩ :=
  Creation.run_createDisk hadm ((createDisk_eq hr _ _ _ _ hadm.1 plan).trans
    (unlessError_error hgrow)) (fun _ => by simp)

include h

/-- **A truncation that fails is a panic, and the old head is gone.** -/
theorem run_truncate_fails : c.run snapshotMaxCount r (some (1, .fails))
    = ⟨.panicked, onDir (fun dir => (dir.create newHead r.freshIno).rmDisk r.info.head) r, none⟩ := by
  have hgrow := growDisk_truncate_fails h c.userCreated c.created c.labels (c.size r)
  refine Creation.run_createDisk hadm ?_ (fun _ => by simp)
  refine (createDisk_eq hr _ _ _ _ hadm.1 _).trans ((unlessError_panicked hgrow).trans ?_)
  exact (bind_ok ((bind_ok (rmDisk_clean _ _)).trans rfl)).trans rfl

end Call

/-- **Which failures are taken back.** -/
theorem takenBack_iff {r : Replica} (hr : r.InOrder) {snapshotMaxCount : Int}
    {c : Creation} (hadm : c.Admitted snapshotMaxCount r) {k : Nat} (hk : k < 16) :
    TakenBack r (c.run snapshotMaxCount r (some (k, .fails)))
      ↔ k ≠ 1 ∧ (13 ≤ k → ∀ disk, r.diskData.lookup r.info.head = some disk → c.record disk = disk) := by
  obtain ⟨newHead, i, disk, h⟩ := Replica.ready_of_inOrder hr hadm.1.2
  by_cases h1 : k = 1
  · refine iff_of_false (fun hback => ?_) (fun hc => hc.1 h1)
    obtain ⟨⟨e, he⟩, -⟩ := hback
    rw [h1, run_truncate_fails hr hadm h] at he
    simp at he
  rcases Nat.lt_or_ge k 13 with h13 | h13
  · refine iff_of_true ?_ ⟨h1, fun hge => absurd hge (by omega)⟩
    obtain ⟨e, dir, hdir, hgrow⟩ :=
      growDisk_fails h c.userCreated c.created c.labels (c.size r) h1 h13
    rw [run_of_growDisk hr hadm hgrow]
    exact ⟨⟨e, rfl⟩, unchanged_onDir h hr hdir⟩
  · -- everything is taken back but the fields of the shared record
    obtain ⟨j, rfl⟩ := Nat.exists_eq_add_of_le h13
    have hj : j < 3 := by omega
    rw [run_of_growDisk hr hadm
      (growDisk_snapMeta_fails h c.userCreated c.created c.labels (c.size r) hj)]
    constructor
    · intro hback
      refine ⟨h1, fun _ d hd => ?_⟩
      have hrec := hback.2.records r.info.head
      rw [withdrawn_head h, hd] at hrec
      rw [h.memory] at hd
      rw [← Option.some.inj hd] at hrec ⊢
      exact Option.some.inj hrec
    · intro hc
      have hsame : snapOf disk c.userCreated c.created c.labels = disk := hc.2 h13 disk h.memory
      rw [hsame]
      exact ⟨⟨_, rfl⟩, unchanged_withdrawn h hr c.created (c.size r)⟩

/-- The next snapshot of a stack is admitted. -/
theorem admitted_of_stacked {k : Nat} {r : Replica} (h : r.Stacked k) (hk : k < 250)
    (userCreated : Bool) (created : String) :
    (Creation.snapshot (Replica.nth k) userCreated created none).Admitted 250 r := by
  have husage := h.usage_le
  refine ⟨⟨by omega, h.unused⟩, fun size created hc => absurd hc (by simp)⟩

end FileSteps

end WeftBlock
