import WeftBlock.Replica.AllOrNothing

/-!
# A revert that fails

`revertDisk` of `pkg/replica/replica.go`, file by file, and `Server.Revert` of
`pkg/replica/server.go`, which serves what it returns unless there is an error.

Up to the new head's metadata a failure is reported and leaves everything as it was. From
then on it is not. When `volume.meta` can not be written, the error is overwritten by that
of writing the old one again: the server is told of a success, and serves nothing. And
after that the new head stays behind, so that the replica that is still served can not
create another one: it takes neither a snapshot nor a revert any more.
-/

namespace WeftBlock

open Maps Forest Steps Steps.Prog

namespace FileSteps

/-- `Reload`: files are read and opened, then `volume.meta` is written. -/
def reload (snapshotMaxCount : Int) (sectorSize : Nat) : Fs Replica := do
  file "" id
  let r ← get
  match r.reload snapshotMaxCount sectorSize with
  | .error e => throw e
  | .ok r' => do
      encodeToFile "" (·.renameVolumeMeta r'.dir.volumeMeta)
      pure r'

/-- The end of `revertDisk`, once the old head is no longer in `volume.meta`. -/
def leaveHead (snapshotMaxCount : Int) (sectorSize : Nat) (oldHead : String) :
    Fs (Option Replica) := do
  let e ← rmDisk oldHead
  match e with
  | some e => throw e
  | none => do
      let r' ← reload snapshotMaxCount sectorSize
      pure (some r')

/-- `revertDisk` from the writing of `volume.meta` on; nil is `none`. -/
def switchHead (snapshotMaxCount : Int) (sectorSize : Nat) (oldInfo info : Info) :
    Fs (Option Replica) := do
  let e ← attempt (encodeToFile "" (·.renameVolumeMeta info))
  if e.isSome then do
    -- the error is overwritten here, so what is returned is nil with no error
    encodeToFile "" (·.renameVolumeMeta oldInfo)
    pure none
  else leaveHead snapshotMaxCount sectorSize oldInfo.head

/-- `revertDisk`. -/
def revertDisk (snapshotMaxCount : Int) (sectorSize : Nat) (parentDiskFileName created : String) :
    Fs (Option Replica) := do
  let r ← get
  if (r.dir.imgs.lookup parentDiskFileName).isNone
      ∧ (r.info.backingFile.map BackingFile.path) ≠ some parentDiskFileName then
    throw (.replica (.noFile parentDiskFileName))
  else
    match r.diskData.lookup parentDiskFileName with
    | none => throw (.revertUnknown parentDiskFileName)
    | some diskInfo =>
      if diskInfo.removed then throw (.revertRemoved parentDiskFileName)
      else do
        let h ← createNewHead r.info.head parentDiskFileName created r.info.size
        switchHead snapshotMaxCount sectorSize r.info
          { r.info with head := h.name, dirty := true, parent := h.disk.parent }

/-- `Server.Revert` of an open server: how it ends, and what is served then. -/
def serverRevert (snapshotMaxCount : Int) (sectorSize : Nat) (name created : String) (r : Replica)
    (plan : Plan) : Exit OpErr Unit × Option Replica :=
  match revertDisk snapshotMaxCount sectorSize name created r plan with
  | ⟨.ok r', _, _⟩ => (.ok (), r')
  | ⟨.error e, s, _⟩ => (.error e, some s)
  | ⟨.panicked, s, _⟩ => (.panicked, some s)
  | ⟨.stopped, s, _⟩ => (.stopped, some s)

/-! ## The checks -/

/-- The checks of `revertDisk` let the name pass. -/
def Passes (r : Replica) (name : String) : Prop :=
  ((r.dir.imgs.lookup name).isSome ∨ r.info.backingFile.map BackingFile.path = some name)
    ∧ ∃ disk, r.diskData.lookup name = some disk ∧ disk.removed = false

variable {r : Replica} {k : Nat} {newHead : String} {dir : Dir}

theorem Passes.there {name : String} (h : Passes r name) :
    ¬ ((r.dir.imgs.lookup name).isNone ∧ r.info.backingFile.map BackingFile.path ≠ some name) := by
  rintro ⟨hnone, hback⟩
  rcases h.1 with hsome | hback'
  · rw [Option.isNone_iff_eq_none.mp hnone] at hsome
    simp at hsome
  · exact hback hback'

section Specs

variable {r : Replica} {snapshotMaxCount : Int} {sectorSize : Nat} {name created : String}

theorem revertDisk_eq (hpass : Passes r name) (plan : Plan) :
    revertDisk snapshotMaxCount sectorSize name created r plan
      = (Prog.bind (createNewHead r.info.head name created r.info.size) fun h =>
          switchHead snapshotMaxCount sectorSize r.info
            { r.info with head := h.name, dirty := true, parent := h.disk.parent }) r plan := by
  have hthere := hpass.there
  obtain ⟨-, disk, hd, hrem⟩ := hpass
  unfold revertDisk
  refine (get_bind _).trans ?_
  rw [if_neg hthere, hd]
  dsimp only
  rw [if_neg (by rw [hrem]; simp)]
  rfl

theorem revertDisk_refused (hpass : ¬ Passes r name) (plan : Plan) :
    ∃ e, revertDisk snapshotMaxCount sectorSize name created r plan = ⟨.error e, r, plan⟩ := by
  unfold revertDisk
  by_cases hthere : (r.dir.imgs.lookup name).isNone
      ∧ r.info.backingFile.map BackingFile.path ≠ some name
  · refine ⟨.replica (.noFile name), (get_bind _).trans ?_⟩
    rw [if_pos hthere]
    rfl
  · cases hd : r.diskData.lookup name with
    | none =>
      refine ⟨.revertUnknown name, (get_bind _).trans ?_⟩
      rw [if_neg hthere, hd]
      rfl
    | some disk =>
      have hrem : disk.removed = true := by
        by_contra hrem
        refine hpass ⟨?_, disk, hd, by simpa using hrem⟩
        rw [Option.isSome_iff_ne_none]
        by_contra hnone
        rw [not_or, not_not] at hnone
        exact hthere ⟨by rw [hnone.1]; rfl, hnone.2⟩
      refine ⟨.revertRemoved name, (get_bind _).trans ?_⟩
      rw [if_neg hthere, hd]
      dsimp only
      rw [if_pos hrem]
      rfl

end Specs

/-- The removal of a disk leaves the others, whatever fails. -/
theorem rmDiskBut_imgs (name : String) (k : Nat) (dir : Dir) {x : String} (hx : x ≠ name) :
    (rmDiskBut name k dir).imgs.lookup x = dir.imgs.lookup x := by
  rcases k with _ | _ | k
  · rfl
  · exact AList.lookup_erase_ne hx
  · exact AList.lookup_erase_ne hx

theorem rmDiskBut_data (name : String) (k : Nat) (dir : Dir) :
    (rmDiskBut name k dir).data = dir.data := by
  rcases k with _ | _ | k <;> rfl

theorem rmDisk_imgs (name : String) (dir : Dir) {x : String} (hx : x ≠ name) :
    (dir.rmDisk name).imgs.lookup x = dir.imgs.lookup x := by
  unfold Dir.rmDisk
  split
  · rfl
  · exact AList.lookup_erase_ne hx

theorem rmDisk_data (name : String) (dir : Dir) : (dir.rmDisk name).data = dir.data := by
  unfold Dir.rmDisk
  split <;> rfl

section

variable (snapshotMaxCount : Int) (sectorSize : Nat)

theorem reload_clean (s : Replica) :
    ∃ s', reload snapshotMaxCount sectorSize s none
      = ⟨.of (s.reload snapshotMaxCount sectorSize), s', none⟩ := by
  have hpast := (atomic_file "" id).past s none
  unfold reload
  cases hr : s.reload snapshotMaxCount sectorSize with
  | error e =>
    refine ⟨s, (bind_ok hpast).trans ((get_bind _).trans ?_)⟩
    rw [show onDir id s = s from rfl, hr]
    rfl
  | ok r' =>
    refine ⟨onDir (·.renameVolumeMeta r'.dir.volumeMeta) s,
      (bind_ok hpast).trans ((get_bind _).trans ?_)⟩
    rw [show onDir id s = s from rfl, hr]
    exact (bind_ok ((atomic_encodeToFile _ _).past _ none)).trans rfl

theorem leaveHead_clean (oldHead : String)
    (s : Replica) :
    ∃ s', leaveHead snapshotMaxCount sectorSize oldHead s none
      = ⟨.of (((onDir (·.rmDisk oldHead) s).reload snapshotMaxCount sectorSize).map some), s',
        none⟩ := by
  obtain ⟨s', hs'⟩ := reload_clean snapshotMaxCount sectorSize (onDir (·.rmDisk oldHead) s)
  refine ⟨s', (bind_ok (rmDisk_clean oldHead s)).trans ?_⟩
  cases hr : (onDir (·.rmDisk oldHead) s).reload snapshotMaxCount sectorSize with
  | error e =>
    rw [hr] at hs'
    exact bind_error hs'
  | ok r' =>
    rw [hr] at hs'
    exact (bind_ok hs').trans rfl

/-- Every failure after `volume.meta` is an error, and no image but the old head's is gone. -/
theorem leaveHead_fails {oldHead : String} (hname : oldHead ≠ "") (s : Replica) (hk : k < 7) :
    ∃ e dir plan', leaveHead snapshotMaxCount sectorSize oldHead s (some (k, .fails))
        = ⟨.error e, onDir (fun _ => dir) s, plan'⟩
      ∧ dir.data = s.dir.data ∧ ∀ x, x ≠ oldHead → dir.imgs.lookup x = s.dir.imgs.lookup x := by
  unfold leaveHead
  rcases Nat.lt_or_ge k 3 with h3 | h3
  · refine ⟨_, _, none, (bind_ok (rmDisk_fails hname s h3)).trans rfl, rmDiskBut_data oldHead k s.dir,
      fun x hx => rmDiskBut_imgs oldHead k s.dir hx⟩
  obtain ⟨k, rfl⟩ := Nat.exists_eq_add_of_le h3
  -- the old head is gone; what is left is `Reload`
  have hreload : ∃ e plan', reload snapshotMaxCount sectorSize (onDir (·.rmDisk oldHead) s)
      (some (k, .fails)) = ⟨.error e, onDir (·.rmDisk oldHead) s, plan'⟩ := by
    unfold reload
    rcases k with _ | k
    · exact ⟨_, none, bind_error ((atomic_file _ _).before _ .fails Nat.zero_lt_one)⟩
    have hpast := (atomic_file "" id).past (onDir (·.rmDisk oldHead) s) (some (k, .fails))
    rw [later, Option.map_some, Nat.add_comm 1 k] at hpast
    have hk' : k < 3 := by omega
    cases hr : Replica.reload snapshotMaxCount sectorSize (onDir (·.rmDisk oldHead) s) with
    | error e =>
      refine ⟨e, some (k, .fails), (bind_ok hpast).trans ((get_bind _).trans ?_)⟩
      rw [show onDir id (onDir (·.rmDisk oldHead) s) = onDir (·.rmDisk oldHead) s from rfl, hr]
      rfl
    | ok r' =>
      refine ⟨.io "", none, (bind_ok hpast).trans ((get_bind _).trans ?_)⟩
      rw [show onDir id (onDir (·.rmDisk oldHead) s) = onDir (·.rmDisk oldHead) s from rfl, hr]
      exact bind_error ((atomic_encodeToFile _ _).before _ .fails hk')
  obtain ⟨e, plan', hr⟩ := hreload
  refine ⟨e, s.dir.rmDisk oldHead, plan', ?_, rmDisk_data oldHead s.dir,
    fun x hx => rmDisk_imgs oldHead s.dir hx⟩
  exact (bind_ok (rmDisk_past hname s (some (k, .fails)))).trans (bind_error hr)

end

/-! ## The failing operation -/

/-- What `volume.meta` says after a revert. -/
def revertedInfo (r : Replica) (newHead name : String) : Info :=
  { r.info with head := newHead, dirty := true, parent := name }

/-- The directory with a new head on the snapshot, in front of the old one's removal. -/
def switchedDir (r : Replica) (newHead name created : String) : Dir :=
  (headDir r newHead name created r.info.size).renameVolumeMeta (revertedInfo r newHead name)

section Fails

variable {r : Replica} {newHead name : String} (hnext : nextFile r.info.head = some newHead)
  (hfree : r.dir.imgs.lookup newHead = none) (hpass : Passes r name) (snapshotMaxCount : Int)
  (sectorSize : Nat) (created : String)

include hnext hfree hpass

theorem revertDisk_create_fails :
    revertDisk snapshotMaxCount sectorSize name created r (some (0, .fails))
      = ⟨.error (.io newHead), r, none⟩ :=
  (revertDisk_eq hpass _).trans
    (bind_error (createNewHead_create_fails hnext hfree name created r.info.size))

theorem revertDisk_truncate_fails :
    revertDisk snapshotMaxCount sectorSize name created r (some (1, .fails))
      = ⟨.panicked, onDir (·.create newHead r.freshIno) r, none⟩ :=
  (revertDisk_eq hpass _).trans
    (bind_panicked (createNewHead_truncate_fails hnext hfree name created r.info.size))

theorem revertDisk_meta_fails (hk : k < 3) :
    revertDisk snapshotMaxCount sectorSize name created r (some (2 + k, .fails))
      = ⟨.error (.io newHead), onDir (fun _ => (headImage r newHead r.info.size).rmDisk newHead) r,
        none⟩ :=
  (revertDisk_eq hpass _).trans
    (bind_error (createNewHead_meta_fails hnext hfree name created r.info.size hk))

/-- The mishap comes after the new head, -/
theorem revertDisk_headed (plan : Plan) :
    revertDisk snapshotMaxCount sectorSize name created r (later 5 plan)
      = switchHead snapshotMaxCount sectorSize r.info (revertedInfo r newHead name)
        (onDir (fun _ => headDir r newHead name created r.info.size) r) plan :=
  (revertDisk_eq hpass _).trans
    (bind_ok (createNewHead_past hnext hfree name created r.info.size plan))

/-- after `volume.meta`. -/
theorem revertDisk_switched (plan : Plan) :
    revertDisk snapshotMaxCount sectorSize name created r (later 8 plan)
      = leaveHead snapshotMaxCount sectorSize r.info.head
        (onDir (fun _ => switchedDir r newHead name created) r) plan := by
  rw [← later_later 5 3, revertDisk_headed hnext hfree hpass]
  unfold switchHead
  exact (bind_ok ((atomic_encodeToFile _ _).attempt_past _ plan)).trans rfl

/-- **A failure to write `volume.meta` is not reported**, and nil is returned. -/
theorem revertDisk_volumeMeta_fails (hk : k < 3) :
    revertDisk snapshotMaxCount sectorSize name created r (some (5 + k, .fails))
      = ⟨.ok none, onDir (fun _ => (headDir r newHead name created r.info.size).renameVolumeMeta
        r.info) r, none⟩ := by
  refine (revertDisk_headed hnext hfree hpass snapshotMaxCount sectorSize created
    (some (k, .fails))).trans ?_
  unfold switchHead
  refine (bind_ok ((atomic_encodeToFile _ _).attempt_fails _ hk)).trans ?_
  rw [if_pos (show (some (OpErr.io "")).isSome = true from rfl)]
  exact (bind_ok ((atomic_encodeToFile _ _).past _ none)).trans rfl

/-- What the operations after that can leave of the directory: the new head is in it. -/
structure LeftBehind (r : Replica) (newHead : String) (dir : Dir) : Prop where
  image : dir.imgs.lookup newHead = some r.freshIno
  data : ∀ i, i ≠ r.freshIno → dir.data i = r.dir.data i

/-- **A failure after `volume.meta`** is an error, and the new head stays. -/
theorem revertDisk_late_fails (hr : r.InOrder) (h8 : 8 ≤ k) (h15 : k < 15) :
    ∃ e dir plan', revertDisk snapshotMaxCount sectorSize name created r (some (k, .fails))
        = ⟨.error e, onDir (fun _ => dir) r, plan'⟩ ∧ LeftBehind r newHead dir := by
  obtain ⟨k, rfl⟩ := Nat.exists_eq_add_of_le h8
  obtain ⟨-, hne, -, -, -⟩ := hr.wired.tree.next_head hnext
  obtain ⟨e, dir, plan', hleave, hdata, himgs⟩ := leaveHead_fails snapshotMaxCount sectorSize
    hr.wired.head_ne_empty (onDir (fun _ => switchedDir r newHead name created) r)
    (show k < 7 by omega)
  refine ⟨e, dir, plan', ?_, (himgs newHead hne).trans (AList.lookup_insert _), fun i hi => ?_⟩
  · exact (revertDisk_switched hnext hfree hpass snapshotMaxCount sectorSize created
      (some (k, .fails))).trans hleave
  · rw [hdata]
    exact (Function.update_of_ne hi _ _).trans (Function.update_of_ne hi _ _)

end Fails

/-! ## What a replica accepts -/

section Clean

variable {r : Replica} (hr : r.InOrder) {newHead name : String}
  (hnext : nextFile r.info.head = some newHead) (hpass : Passes r name) (snapshotMaxCount : Int)
  (sectorSize : Nat) (created : String)

include hr hnext

omit hnext in
/-- Without the old head it is the directory that a revert opens. -/
theorem rmDisk_switchedDir :
    (switchedDir r newHead name created).rmDisk r.info.head = r.revertedDir newHead name created := by
  rw [Dir.rmDisk, if_neg hr.wired.head_ne_empty]
  simp only [switchedDir, headDir, headImage, Dir.create, Dir.truncate, Dir.rename,
    Dir.renameVolumeMeta, revertedInfo, Replica.revertedDir, Function.update_idem]

include hpass

/-- After the checks a revert is `Reload` on another directory. -/
theorem revert_of_passes : r.revert snapshotMaxCount sectorSize name created
    = Replica.reload snapshotMaxCount sectorSize
      { r with dir := r.revertedDir newHead name created } := by
  have hthere := hpass.there
  obtain ⟨-, disk, hd, hrem⟩ := hpass
  have hfree : ¬ (r.dir.imgs.lookup newHead).isSome = true := by
    rw [hr.newHead_free hnext]
    simp
  unfold Replica.revert Replica.createNewHead
  rw [if_neg hthere, hd]
  dsimp only
  rw [if_neg (by rw [hrem]; simp), hnext]
  dsimp only
  rw [if_neg hfree]
  dsimp only
  rw [Dir.rmDisk, if_neg hr.wired.head_ne_empty]
  rfl

/-- **Without a mishap the program is the revert** that the other modules are about. -/
theorem revertDisk_clean : (revertDisk snapshotMaxCount sectorSize name created r none).exit
    = .of ((r.revert snapshotMaxCount sectorSize name created).map some) := by
  have hswitched := revertDisk_switched hnext (hr.newHead_free hnext) hpass snapshotMaxCount
    sectorSize created none
  have hstate : onDir (·.rmDisk r.info.head) (onDir (fun _ => switchedDir r newHead name created) r)
      = { r with dir := r.revertedDir newHead name created } := by
    rw [← rmDisk_switchedDir hr]
    rfl
  obtain ⟨s', hleave⟩ := leaveHead_clean snapshotMaxCount sectorSize r.info.head
    (onDir (fun _ => switchedDir r newHead name created) r)
  rw [revert_of_passes hr hnext hpass, ← hstate]
  exact congrArg Done.exit (hswitched.trans hleave)

end Clean

/-- A revert to the disk succeeds when nothing fails. -/
def Revertible (sectorSize : Nat) (r : Replica) (name : String) : Prop :=
  (∃ disk, r.dir.metas.lookup name = some disk ∧ disk.removed = false) ∧ name ≠ r.info.head
    ∧ r.info.size % sectorSize = 0
    ∧ ∃ v, Path "" (parents r.dir.metas) name v ∧ v.length < maximumTotalSnapshotCount

section Accepts

variable {r : Replica} (hr : r.InOrder) {snapshotMaxCount : Int} {sectorSize : Nat}
  {name created : String}

include hr

/-- `Reload` on the directory of a revert. -/
theorem reload_revertedDir (hnext : nextFile r.info.head = some newHead) {disk : Disk}
    (hd : r.dir.metas.lookup name = some disk) (hne : name ≠ r.info.head) {v : List String}
    (hv : Path "" (parents r.dir.metas) name v) :
    (∃ r', Replica.reload snapshotMaxCount sectorSize
        { r with dir := r.revertedDir newHead name created } = .ok r')
      ↔ r.info.size % sectorSize = 0 ∧ v.length < maximumTotalSnapshotCount := by
  obtain ⟨-, hopen⟩ := Replica.openable_revertedDir hr created hnext hd hne
  obtain ⟨hpath, hp⟩ := Replica.path_revertedDir hr created hnext hd hne hv
  unfold Replica.reload
  rw [Replica.construct_eq hopen rfl hpath hp, List.length_cons]
  by_cases hmod : r.info.size % sectorSize = 0
  · rw [if_neg (not_not.mpr hmod)]
    by_cases hlong : maximumTotalSnapshotCount < v.length + 1
    · rw [if_pos hlong]
      refine iff_of_false (fun hex => ?_) (fun hc => absurd hc.2 (by omega))
      obtain ⟨r', hr'⟩ := hex
      simp at hr'
    · rw [if_neg hlong]
      exact iff_of_true ⟨_, rfl⟩ ⟨hmod, by omega⟩
  · rw [if_pos hmod]
    refine iff_of_false (fun hex => ?_) (fun hc => hmod hc.1)
    obtain ⟨r', hr'⟩ := hex
    simp at hr'

theorem revert_iff :
    (∃ r', r.revert snapshotMaxCount sectorSize name created = .ok r')
      ↔ Revertible sectorSize r name := by
  constructor
  · intro hex
    obtain ⟨r', hok⟩ := hex
    obtain ⟨newHead, disk, hnext, hd, hrem, hne, hreload⟩ := Replica.revert_ok hr hok
    obtain ⟨v, hv⟩ := hr.wired.tree.rooted.path (parents_eq_some.mpr ⟨disk, hd, rfl⟩)
    obtain ⟨hmod, hlen⟩ := (reload_revertedDir hr hnext hd hne hv).mp ⟨r', hreload⟩
    exact ⟨⟨disk, hd, hrem⟩, hne, hmod, v, hv, hlen⟩
  · intro hrev
    obtain ⟨⟨disk, hd, hrem⟩, hne, hmod, v, hv, hlen⟩ := hrev
    obtain ⟨newHead, hnext⟩ := hr.wired.tree.exists_next
    have himg : (r.dir.imgs.lookup name).isSome = true := by
      rw [hr.opened.images, hd]
      rfl
    rw [revert_of_passes hr hnext ⟨.inl himg, disk, hr.wired.records hd, hrem⟩]
    exact (reload_revertedDir hr hnext hd hne hv).mpr ⟨hmod, hlen⟩

theorem createDisk_iff {userCreated : Bool} {labels : Option (List (String × String))}
    {size : Nat} :
    (∃ r', r.createDisk snapshotMaxCount name userCreated created labels size = (r', .ok ()))
      ↔ Admitted snapshotMaxCount r name := by
  refine ⟨fun hex => ?_, fun hadm => Replica.createDisk_succeeds hr hadm.1 hadm.2 _ _ _ _⟩
  obtain ⟨r', hok⟩ := hex
  by_contra hadm
  obtain ⟨e, he⟩ := createDisk_refused hr userCreated created labels size hadm none
  rw [createDisk_clean hr, hok] at he
  exact absurd (congrArg Done.exit he) (by simp [ended])

end Accepts

/-! ## A head that is left behind -/

/-- The name of the next head is taken. -/
def Blocked (r : Replica) : Prop :=
  ∃ newHead, nextFile r.info.head = some newHead ∧ (r.dir.imgs.lookup newHead).isSome

theorem LeftBehind.blocked (h : LeftBehind r newHead dir)
    (hnext : nextFile r.info.head = some newHead) :
    Blocked (onDir (fun _ => dir) r) := by
  refine ⟨newHead, hnext, ?_⟩
  rw [show (onDir (fun _ => dir) r).dir.imgs.lookup newHead = some r.freshIno from h.image]
  rfl

section Blocked

variable {r : Replica} (h : Blocked r) (snapshotMaxCount : Int) (sectorSize : Nat)

include h

theorem createNewHead_blocked (parent created : String) (size : Nat) :
    ∃ e, r.createNewHead r.info.head parent created size = .error e := by
  obtain ⟨newHead, hnext, himg⟩ := h
  refine ⟨.headExists newHead, ?_⟩
  unfold Replica.createNewHead
  rw [hnext]
  exact if_pos himg

/-- **Such a replica takes no snapshot and no revert.** -/
theorem snapshot_blocked (name : String) (userCreated : Bool) (created : String)
    (labels : Option (List (String × String))) (r' : Replica) :
    r.snapshot snapshotMaxCount name userCreated created labels ≠ (r', .ok ()) := by
  intro hok
  unfold Replica.snapshot Replica.createDisk at hok
  split at hok
  · simp at hok
  split at hok
  · simp at hok
  dsimp only at hok
  generalize (if r.info.head = "" then "" else generateSnapshotDiskName name) = newSnap at hok
  split at hok
  · simp at hok
  obtain ⟨e, he⟩ := createNewHead_blocked h newSnap created r.info.size
  rw [he] at hok
  simp at hok

theorem revert_blocked (name created : String) (r' : Replica) :
    r.revert snapshotMaxCount sectorSize name created ≠ .ok r' := by
  intro hok
  unfold Replica.revert at hok
  split at hok
  · simp at hok
  split at hok
  · simp at hok
  split at hok
  · simp at hok
  obtain ⟨e, he⟩ := createNewHead_blocked h name created r.info.size
  rw [he] at hok
  simp at hok

end Blocked

/-! ## Reported and harmless -/

/-- What a replica accepts when nothing fails, the other accepts as well. -/
structure Accepts (snapshotMaxCount : Int) (sectorSize : Nat) (r r' : Replica) : Prop where
  snapshot : ∀ name userCreated created labels,
    (∃ r₁, r.snapshot snapshotMaxCount name userCreated created labels = (r₁, .ok ())) →
    ∃ r₂, r'.snapshot snapshotMaxCount name userCreated created labels = (r₂, .ok ())
  revert : ∀ name created, (∃ r₁, r.revert snapshotMaxCount sectorSize name created = .ok r₁) →
    ∃ r₂, r'.revert snapshotMaxCount sectorSize name created = .ok r₂

/-- There is a snapshot or a revert that the replica accepts. -/
def AcceptsAny (snapshotMaxCount : Int) (sectorSize : Nat) (r : Replica) : Prop :=
  (∃ name userCreated created labels r',
      r.snapshot snapshotMaxCount name userCreated created labels = (r', .ok ()))
    ∨ ∃ name created r', r.revert snapshotMaxCount sectorSize name created = .ok r'

/--
**Reported and harmless.** After nil a replica is served whose head sits on the named
snapshot; after an error the replica is still served, reads the same and accepts what it
accepted. A panic is neither.
-/
def Harmless (snapshotMaxCount : Int) (sectorSize : Nat) (r : Replica) (name : String) :
    Exit OpErr Unit × Option Replica → Prop
  | (.ok _, served) => ∃ r', served = some r'
      ∧ (r'.diskData.lookup r'.info.head).map Disk.parent = some name
  | (.error _, served) => ∃ r', served = some r' ∧ r'.view = r.view
      ∧ Accepts snapshotMaxCount sectorSize r r'
  | (.panicked, _) => False
  | (.stopped, _) => False

/-- Data under an inode that is not open is not read. -/
theorem view_onDir (hdata : ∀ i, i ≠ r.freshIno → dir.data i = r.dir.data i) :
    (onDir (fun _ => dir) r).view = r.view := by
  have hfiles : r.volume.files.map dir.data = r.volume.files.map r.dir.data := by
    refine List.map_congr_left (fun i hi => hdata i ?_)
    exact fun heq => Replica.freshIno_not_open r (heq ▸ hi)
  show (⟨_, r.volume.files.map dir.data, _, _⟩ : DiffDisk) = ⟨_, r.volume.files.map r.dir.data, _, _⟩
  rw [hfiles]
  rfl

/-- A replica whose directory has the same entries accepts the same. -/
theorem accepts_of_data (hr : r.InOrder) (himgs : dir.imgs = r.dir.imgs)
    (hmetas : dir.metas = r.dir.metas) (hvol : dir.volumeMeta = r.dir.volumeMeta)
    (snapshotMaxCount : Int) (sectorSize : Nat) :
    Accepts snapshotMaxCount sectorSize r (onDir (fun _ => dir) r) := by
  obtain ⟨data, imgs, metas, vol⟩ := dir
  obtain rfl : imgs = r.dir.imgs := himgs
  obtain rfl : metas = r.dir.metas := hmetas
  obtain rfl : vol = r.dir.volumeMeta := hvol
  have hr' : (onDir (fun _ => ⟨data, r.dir.imgs, r.dir.metas, r.dir.volumeMeta⟩) r).InOrder :=
    ⟨⟨hr.wired.writable, hr.wired.tree, hr.wired.records, hr.wired.backed, hr.wired.outside,
      hr.wired.children, hr.wired.live, hr.wired.volumeMeta⟩, ⟨hr.opened.images, hr.opened.files⟩,
      hr.parent⟩
  constructor
  · intro name userCreated created labels hex
    exact (createDisk_iff hr').mpr ((createDisk_iff hr).mp hex)
  · intro name created hex
    exact (revert_iff hr').mpr ((revert_iff hr).mp hex)

section Server

variable {r : Replica} {snapshotMaxCount : Int} {sectorSize : Nat} {name created : String} {plan : Plan}

theorem serverRevert_error {e : OpErr} {s : Replica} {plan' : Plan}
    (h : revertDisk snapshotMaxCount sectorSize name created r plan = ⟨.error e, s, plan'⟩) :
    serverRevert snapshotMaxCount sectorSize name created r plan = (.error e, some s) := by
  rw [serverRevert, h]

/-- What the rollback of `createNewHead` leaves is the directory as it was. -/
theorem rmDisk_headImage (hr : r.InOrder) (hnext : nextFile r.info.head = some newHead) (size : Nat)
    :
    ((headImage r newHead size).rmDisk newHead).imgs = r.dir.imgs
      ∧ ((headImage r newHead size).rmDisk newHead).metas = r.dir.metas
      ∧ ((headImage r newHead size).rmDisk newHead).volumeMeta = r.dir.volumeMeta := by
  obtain ⟨-, -, hnone, hempty, -⟩ := hr.wired.tree.next_head hnext
  have hmeta : r.dir.metas.lookup newHead = none := parents_eq_none.mp hnone
  have himg := hr.newHead_free hnext
  rw [Dir.rmDisk, if_neg hempty]
  refine ⟨?_, ?_, rfl⟩
  · show (r.dir.imgs.insert newHead r.freshIno).erase newHead = r.dir.imgs
    rw [erase_insert, erase_of_lookup himg]
  · exact erase_of_lookup hmeta

end Server

/-- **Which failures of a revert are harmless.** -/
theorem serverRevert_harmless_iff (hr : r.InOrder) (snapshotMaxCount : Int) (sectorSize : Nat)
    (name created : String) (hk : k < 15) :
    Harmless snapshotMaxCount sectorSize r name
        (serverRevert snapshotMaxCount sectorSize name created r (some (k, .fails)))
      ↔ ¬ Passes r name ∨ k = 0 ∨ (2 ≤ k ∧ k < 5)
        ∨ (8 ≤ k ∧ ¬ AcceptsAny snapshotMaxCount sectorSize r) := by
  by_cases hpass : Passes r name
  swap
  · refine iff_of_true ?_ (.inl hpass)
    obtain ⟨e, he⟩ := @revertDisk_refused r snapshotMaxCount sectorSize name created hpass
      (some (k, .fails))
    rw [serverRevert_error he]
    exact ⟨r, rfl, rfl, fun _ _ _ _ hex => hex, fun _ _ hex => hex⟩
  obtain ⟨newHead, hnext⟩ := hr.wired.tree.exists_next
  have hfree := hr.newHead_free hnext
  -- one group of operations after the other
  rcases Nat.lt_or_ge k 1 with h1 | h1
  · obtain rfl : k = 0 := by omega
    refine iff_of_true ?_ (.inr (.inl rfl))
    rw [serverRevert_error (revertDisk_create_fails hnext hfree hpass snapshotMaxCount sectorSize
      created)]
    exact ⟨r, rfl, rfl, fun _ _ _ _ hex => hex, fun _ _ hex => hex⟩
  rcases Nat.lt_or_ge k 2 with h2 | h2
  · obtain rfl : k = 1 := by omega
    refine iff_of_false (fun hharm => ?_) (fun hc => ?_)
    · rw [serverRevert, revertDisk_truncate_fails hnext hfree hpass snapshotMaxCount sectorSize
        created] at hharm
      exact hharm
    · rcases hc with hc | hc | hc | hc
      · exact hc hpass
      all_goals omega
  rcases Nat.lt_or_ge k 5 with h5 | h5
  · refine iff_of_true ?_ (.inr (.inr (.inl ⟨h2, h5⟩)))
    obtain ⟨j, rfl⟩ := Nat.exists_eq_add_of_le h2
    rw [serverRevert_error (revertDisk_meta_fails hnext hfree hpass snapshotMaxCount sectorSize created
      (show j < 3 by omega))]
    obtain ⟨himgs, hmetas, hvol⟩ := rmDisk_headImage hr hnext r.info.size
    have hdata := ((sameBut_headImage r newHead newHead r.info.size).rmDisk (.inr rfl)).data
    exact ⟨_, rfl, view_onDir hdata, accepts_of_data hr himgs hmetas hvol _ _⟩
  rcases Nat.lt_or_ge k 8 with h8 | h8
  · refine iff_of_false (fun hharm => ?_) (fun hc => ?_)
    · obtain ⟨j, rfl⟩ := Nat.exists_eq_add_of_le h5
      rw [serverRevert, revertDisk_volumeMeta_fails hnext hfree hpass snapshotMaxCount sectorSize
        created (show j < 3 by omega)] at hharm
      obtain ⟨r', hr', -⟩ := hharm
      simp at hr'
    · rcases hc with hc | hc | hc | hc
      · exact hc hpass
      all_goals omega
  · obtain ⟨e, dir, plan', he, hleft⟩ := revertDisk_late_fails hnext hfree hpass snapshotMaxCount
      sectorSize created hr h8 hk
    rw [serverRevert_error he]
    have hblocked := hleft.blocked hnext
    constructor
    · intro hharm
      obtain ⟨r', hr', -, hacc⟩ := hharm
      obtain rfl := Option.some.inj hr'
      refine .inr (.inr (.inr ⟨h8, fun hany => ?_⟩))
      rcases hany with ⟨nm, uc, cr, lb, r₁, h₁⟩ | ⟨nm, cr, r₁, h₁⟩
      · obtain ⟨r₂, h₂⟩ := hacc.snapshot nm uc cr lb ⟨r₁, h₁⟩
        exact snapshot_blocked hblocked snapshotMaxCount nm uc cr lb r₂ h₂
      · obtain ⟨r₂, h₂⟩ := hacc.revert nm cr ⟨r₁, h₁⟩
        exact revert_blocked hblocked snapshotMaxCount sectorSize nm cr r₂ h₂
    · intro hc
      have hnot : ¬ AcceptsAny snapshotMaxCount sectorSize r := by
        rcases hc with hc | hc | hc | hc
        · exact absurd hpass hc
        · omega
        · omega
        · exact hc.2
      refine ⟨_, rfl, view_onDir hleft.data, fun nm uc cr lb hex => ?_, fun nm cr hex => ?_⟩
      · obtain ⟨r₁, h₁⟩ := hex
        exact absurd (.inl ⟨nm, uc, cr, lb, r₁, h₁⟩) hnot
      · obtain ⟨r₁, h₁⟩ := hex
        exact absurd (.inr ⟨nm, cr, r₁, h₁⟩) hnot

/--
**A failed revert is reported and harmless**, for the operations on the new head but for its
truncation (0, and 2 to 4). It is not for the writing of `volume.meta` (5 to 7), nor for
what comes after it (8 to 14), unless nothing would have been accepted before either.
-/
theorem run_serverRevert_harmless_iff (env : Replica.Env) (data : Ino → File) (a : OpenArgs)
    (ha : a.Outside) {r₀ r : Replica}
    (hnew : Replica.construct (Dir.recovered data a.size) a = .ok r₀) (ops : List Replica.Op)
    (hops : ∀ op ∈ ops, op.Outside) (hrun : Runs.run (Replica.step env) r₀ ops = some r)
    (snapshotMaxCount : Int) (sectorSize : Nat) (name created : String) (k : Nat) (hk : k < 15) :
    Harmless snapshotMaxCount sectorSize r name
        (serverRevert snapshotMaxCount sectorSize name created r (some (k, .fails)))
      ↔ ¬ Passes r name ∨ k = 0 ∨ (2 ≤ k ∧ k < 5)
        ∨ (8 ≤ k ∧ ¬ AcceptsAny snapshotMaxCount sectorSize r) :=
  serverRevert_harmless_iff (Replica.run_inOrder (Replica.new_inOrder ha hnew) hops hrun)
    snapshotMaxCount sectorSize name created hk

/-- The metadata of the new head can not be written: the revert to a snapshot is harmless. -/
theorem run_serverRevert_harmless_iff_meta : ∃ r₀ r,
    Replica.construct (Dir.recovered (fun _ => File.empty 0) 4096) Replica.oneSector = .ok r₀
      ∧ Runs.run (Replica.step .least) r₀ (Replica.snapshots 2) = some r
      ∧ Harmless 250 512 r (generateSnapshotDiskName (Replica.nth 0))
        (serverRevert 250 512 (generateSnapshotDiskName (Replica.nth 0)) "t" r (some (3, .fails))) := by
  obtain ⟨r₀, r, hnew, hrun, h⟩ := Replica.exists_snapshots (show 2 ≤ 250 by decide)
  exact ⟨r₀, r, hnew, hrun, (run_serverRevert_harmless_iff .least _ Replica.oneSector
    Replica.oneSector_outside hnew _ Replica.snapshots_outside hrun 250 512 _ "t" 3 (by decide)).mpr
    (.inr (.inr (.inl ⟨by decide, by decide⟩)))⟩

/--
A revert to the only snapshot of a volume. If `volume.meta` can not be written, the server
returns nil and serves nothing. If the removal of the old head fails, there is an error,
and the next snapshot fails although it would have succeeded before.
-/
theorem revert_not_harmless : ∃ r₀ r,
    Replica.construct (Dir.recovered (fun _ => File.empty 0) 4096) Replica.oneSector = .ok r₀
      ∧ Runs.run (Replica.step .least) r₀ (Replica.snapshots 1) = some r
      ∧ serverRevert 250 512 "volume-snap-.img" "t" r (some (5, .fails)) = (.ok (), none)
      ∧ (∃ r', r.snapshot 250 "s" true "t" none = (r', .ok ()))
      ∧ ∃ e s, serverRevert 250 512 "volume-snap-.img" "t" r (some (8, .fails)) = (.error e, some s)
        ∧ ∀ r', s.snapshot 250 "s" true "t" none ≠ (r', .ok ()) := by
  have hone : ((Replica.construct (Dir.recovered (fun _ => File.empty 0) 4096)
      Replica.oneSector).toOption.bind (fun r => Runs.run (Replica.step .least) r
        (Replica.snapshots 1))).any (fun r => (r.dir.imgs.lookup "volume-snap-.img").isSome
        && decide (r.diskData.lookup "volume-snap-.img" = some ⟨"", false, true, "t", none⟩)) = true := by
    decide +kernel
  obtain ⟨r, hr, hsnap⟩ := (Option.any_eq_true _ _).mp hone
  obtain ⟨r₀, hr₀, hrun⟩ := Option.bind_eq_some_iff.mp hr
  have hnew := Replica.toOption_eq_some hr₀
  obtain ⟨r1, hrun1, hstack⟩ := Replica.stacked_snapshots (Replica.stacked_oneSector hnew) 1 (by decide)
  obtain rfl : r1 = r := Option.some.inj (hrun1.symm.trans hrun)
  rw [Bool.and_eq_true] at hsnap
  have hpass : Passes r1 "volume-snap-.img" := ⟨.inl hsnap.1, _, of_decide_eq_true hsnap.2, rfl⟩
  have hadm : Admitted 250 r1 "s" := (admitted_of_stacked hstack (by decide) true "t").1
  obtain ⟨newHead, i, disk, hready⟩ := Replica.ready_of_inOrder hstack.inOrder hadm.2
  obtain ⟨e, dir, plan', he, hleft⟩ := revertDisk_late_fails hready.next hready.free hpass 250 512 "t"
    hstack.inOrder (Nat.le_refl 8) (by decide)
  have hblocked := hleft.blocked hready.next
  refine ⟨r₀, r1, hnew, hrun, ?_, (createDisk_iff hstack.inOrder).mpr hadm, e, _,
    serverRevert_error he, snapshot_blocked hblocked 250 "s" true "t" none⟩
  rw [serverRevert, revertDisk_volumeMeta_fails hready.next hready.free hpass 250 512 "t"
    (show 0 < 3 by decide)]

end FileSteps

end WeftBlock
