import WeftBlock.Sync.FileSync

/-!
# The progress of a rebuild

While `fileSyncRemote` of `pkg/sync/rpc/server.go` has files sent, each file that is not
empty has a tracker. What the receiver reports goes on to the status of the rebuild, and
the tracker remembers how much that was. When an attempt fails that is not the last one,
the tracker takes its part back and is replaced, but the receiver of that attempt may go on
reporting to it.

A tracker keeps its lock until the status is changed, so each of its calls is one step. The
counters are 64-bit integers.
-/

namespace WeftBlock.Sync.Progress

/-- `RebuildStatus`, as far as it is about the progress. -/
structure RebuildStatus where
  progress : Int
  processedSize : Int
  totalSize : Int

/-- `SyncFileInfo` with the size. -/
structure SizedFile extends SyncFileInfo where
  actualSize : Int

/-- `perFileProgressOps`. -/
structure PerFileProgressOps where
  contributed : Int
  detached : Bool

namespace PerFileProgressOps

/-- `UpdateSyncFileProgress`: the tracker, and by how much the status is changed. -/
def updateSyncFileProgress (p : PerFileProgressOps) (size : Int) : PerFileProgressOps × Option Int :=
  if p.detached then (p, none)
  else ({ p with contributed := (p.contributed + size).bmod (2 ^ 64) }, some size)

/-- `detach`. -/
def detach (p : PerFileProgressOps) : PerFileProgressOps × Option Int :=
  if 0 < p.contributed then (⟨0, true⟩, some (-p.contributed)) else ({ p with detached := true }, none)

end PerFileProgressOps

/-- A file with its entry of `fileProgressTrackers`. -/
structure TrackedFile where
  file : SizedFile
  tracker : PerFileProgressOps
  /-- The trackers it had before. -/
  replaced : List PerFileProgressOps

/-- What happens to a file. -/
inductive Move
  /-- A receiver reports. -/
  | update (size : Nat)
  /-- The receiver of an attempt that failed reports to a tracker that has been replaced. -/
  | late (k : Nat) (size : Nat)
  /-- An attempt fails that is not the last one. -/
  | fail

/-- What is reported to the tracker in use. -/
def Move.reported : Move → Int
  | .update size => size
  | .late _ _ | .fail => 0

/-- The file after the move, and by how much the status is changed. -/
def TrackedFile.next (t : TrackedFile) : Move → Option (TrackedFile × Option Int)
  | .update size =>
    let (p, change) := t.tracker.updateSyncFileProgress size
    some ({ t with tracker := p }, change)
  | .late k size => t.replaced[k]?.map (fun p =>
    let (p, change) := p.updateSyncFileProgress size
    ({ t with replaced := t.replaced.set k p }, change))
  | .fail =>
    let (p, change) := t.tracker.detach
    some ({ t with tracker := ⟨0, false⟩, replaced := p :: t.replaced }, change)

/-- A rebuild. -/
structure Rebuild where
  status : RebuildStatus
  files : List TrackedFile

section

-- how much is done, in percent: a division of floating point numbers
variable (percent : Int → Int → Int)

/-- `UpdateSyncFileProgress` of the status. -/
def RebuildStatus.updateSyncFileProgress (st : RebuildStatus) (size : Int) : RebuildStatus :=
  let processedSize := (st.processedSize + size).bmod (2 ^ 64)
  { st with processedSize := processedSize, progress := percent processedSize st.totalSize }

/-- The total size in `PrepareRebuild`; it is all the same when a sum wraps around. -/
def totalSize (list : List SizedFile) : Int :=
  (1 + (list.map SizedFile.actualSize).sum).bmod (2 ^ 64)

/-- `PrepareRebuild`, and the trackers `fileSyncRemote` begins with: one for each name. -/
def prepareRebuild (list : List SizedFile) : Rebuild where
  status := ⟨percent 1 (totalSize list), 1, totalSize list⟩
  files := ((list.filter (0 < ·.actualSize)).pwFilter (fun a b => a.toFileName ≠ b.toFileName)).map
    (⟨·, ⟨0, false⟩, []⟩)

/-- One move of one file. -/
def step (r : Rebuild) (e : Nat × Move) : Option Rebuild :=
  match r.files[e.1]? with
  | none => none
  | some t => (t.next e.2).map (fun x =>
      ⟨x.2.elim r.status (r.status.updateSyncFileProgress percent), r.files.set e.1 x.1⟩)

end

/-- The trackers that are not detached. -/
def Rebuild.attached (r : Rebuild) : List PerFileProgressOps :=
  (r.files.flatMap (fun t => t.tracker :: t.replaced)).filter (!·.detached)

/-- What is reported still fits into the processed size. -/
def Fits (r : Rebuild) (e : Nat × Move) : Prop := r.status.processedSize + e.2.reported < 2 ^ 63

instance (r : Rebuild) (e : Nat × Move) : Decidable (Fits r e) := inferInstanceAs (Decidable (_ < _))

/-! ## What a step keeps -/

/-- The tracker of a file is the only one that is not detached. -/
structure TrackedFile.Sound (t : TrackedFile) : Prop where
  attached : t.tracker.detached = false
  nonneg : 0 ≤ t.tracker.contributed
  replaced : ∀ p ∈ t.replaced, p.detached = true

/-- The status has what the trackers have contributed. -/
structure Accounted (list : List SizedFile) (r : Rebuild) : Prop where
  sound : ∀ t ∈ r.files, t.Sound
  processed : r.status.processedSize = 1 + (r.files.map (·.tracker.contributed)).sum
  total : r.status.totalSize = totalSize list
  files : (r.files.map TrackedFile.file).Sublist list

theorem attached_eq {r : Rebuild} (h : ∀ t ∈ r.files, t.Sound) :
    r.attached = r.files.map TrackedFile.tracker := by
  rw [Rebuild.attached, List.filter_flatMap, List.map_eq_flatMap]
  refine List.flatMap_congr (fun t ht => ?_)
  rw [List.filter_cons_of_pos (by simp [(h t ht).attached]), List.filter_eq_nil_iff.mpr]
  exact fun p hp => by simp [(h t ht).replaced p hp]

theorem bmod_of_fits {x : Int} (h0 : 0 ≤ x) (h : x < 2 ^ 63) : x.bmod (2 ^ 64) = x :=
  Int.bmod_eq_of_le_mul_two (by omega) (by omega)

variable {percent : Int → Int → Int} {list : List SizedFile} {r r' : Rebuild}

/-- **The status is changed by as much as the tracker of the file.** -/
theorem TrackedFile.Sound.next {t t' : TrackedFile} {m : Move} {change : Option Int} (h : t.Sound)
    (hfits : t.tracker.contributed + m.reported < 2 ^ 63) (hnext : t.next m = some (t', change)) :
    t'.Sound ∧ t'.file = t.file ∧ t'.tracker.contributed = t.tracker.contributed + change.getD 0
      ∧ change.getD 0 ≤ m.reported := by
  obtain ⟨hatt, h0, hrep⟩ := h
  cases m with
  | update size =>
    have h0' : 0 ≤ t.tracker.contributed + size := by omega
    rw [TrackedFile.next, PerFileProgressOps.updateSyncFileProgress, if_neg (by simp [hatt]),
      bmod_of_fits h0' hfits] at hnext
    obtain ⟨rfl, rfl⟩ := Prod.mk.inj (Option.some.inj hnext)
    exact ⟨⟨hatt, h0', hrep⟩, rfl, rfl, le_refl _⟩
  | late k size =>
    obtain ⟨p, hp, heq⟩ := Option.map_eq_some_iff.mp hnext
    -- a tracker that is detached stays as it is
    have hd := hrep p (List.mem_of_getElem? hp)
    rw [PerFileProgressOps.updateSyncFileProgress, if_pos hd] at heq
    obtain ⟨rfl, rfl⟩ := Prod.mk.inj heq
    refine ⟨⟨hatt, h0, fun q hq => ?_⟩, rfl, (add_zero _).symm, le_refl _⟩
    rcases List.mem_or_eq_of_mem_set hq with hq | rfl
    · exact hrep q hq
    · exact hd
  | fail =>
    rw [TrackedFile.next, PerFileProgressOps.detach] at hnext
    by_cases hpos : 0 < t.tracker.contributed
    · rw [if_pos hpos] at hnext
      obtain ⟨rfl, rfl⟩ := Prod.mk.inj (Option.some.inj hnext)
      exact ⟨⟨rfl, le_refl _, List.forall_mem_cons.mpr ⟨rfl, hrep⟩⟩, rfl, (add_neg_cancel _).symm,
        Int.neg_nonpos_of_nonneg h0⟩
    · rw [if_neg hpos] at hnext
      obtain ⟨rfl, rfl⟩ := Prod.mk.inj (Option.some.inj hnext)
      have hzero : t.tracker.contributed = 0 := by omega
      exact ⟨⟨rfl, le_refl _, List.forall_mem_cons.mpr ⟨rfl, hrep⟩⟩, rfl, by rw [hzero]; rfl, le_refl _⟩

theorem sum_nonneg {α : Type} {f : α → Int} {l : List α} (h : ∀ a ∈ l, 0 ≤ f a) :
    0 ≤ (l.map f).sum := List.sum_nonneg (List.forall_mem_map.mpr h)

theorem Accounted.step {e : Nat × Move} (h : Accounted list r) (hfits : Fits r e)
    (hstep : step percent r e = some r') : Accounted list r' := by
  obtain ⟨hsound, hprocessed, htotal, hfiles⟩ := h
  unfold Progress.step at hstep
  split at hstep
  · simp at hstep
  rename_i t ht
  obtain ⟨⟨t', change⟩, hnext, rfl⟩ := Option.map_eq_some_iff.mp hstep
  obtain ⟨hi, rfl⟩ := List.getElem?_eq_some_iff.mp ht
  have hmem := List.mem_of_getElem? ht
  rw [Fits] at hfits
  -- no tracker has contributed more than all of them together
  have hone := List.single_le_sum (List.forall_mem_map.mpr (fun t ht => (hsound t ht).nonneg)) _
    (List.mem_map_of_mem hmem)
  obtain ⟨hsound', hfile, hchange, hle⟩ := (hsound _ hmem).next (by omega) hnext
  have hall : ∀ s ∈ r.files.set e.1 t', s.Sound := by
    intro s hs
    rcases List.mem_or_eq_of_mem_set hs with hs | rfl
    · exact hsound s hs
    · exact hsound'
  have hsum : 1 + ((r.files.set e.1 t').map (·.tracker.contributed)).sum
      = r.status.processedSize + change.getD 0 := by
    rw [List.map_set, List.sum_set', dif_pos (by simpa using hi), List.getElem_map, hchange]
    omega
  have h0 := sum_nonneg (fun s hs => (hall s hs).nonneg)
  refine ⟨hall, ?_, ?_, ?_⟩
  · rw [hsum]
    cases change with
    | none => exact (add_zero _).symm
    | some d =>
      rw [Option.getD_some] at hsum hle
      exact bmod_of_fits (by omega) (by omega)
  · rw [← htotal]
    cases change <;> rfl
  · dsimp only
    rw [List.map_set, hfile, ← List.map_set, List.set_getElem_self]
    exact hfiles

/--
**The progress is conserved.** The processed size is 1 and what the attached trackers have
contributed. It is not more than the total size if none of them reports more than its file has.
-/
theorem run_conserved (percent : Int → Int → Int) (list : List SizedFile) {moves : List (Nat × Move)}
    {r : Rebuild} (hfits : Runs.Steady (step percent) Fits (prepareRebuild percent list) moves)
    (hrun : Runs.run (step percent) (prepareRebuild percent list) moves = some r) :
    r.status.processedSize = 1 + (r.attached.map PerFileProgressOps.contributed).sum
      ∧ ((∀ f ∈ list, 0 ≤ f.actualSize) → 1 + (list.map SizedFile.actualSize).sum < 2 ^ 63 →
        (∀ t ∈ r.files, ∀ p ∈ t.tracker :: t.replaced, p.detached = false →
          p.contributed ≤ t.file.actualSize) →
        r.status.processedSize ≤ r.status.totalSize) := by
  have hinit : Accounted list (prepareRebuild percent list) := by
    refine ⟨List.forall_mem_map.mpr (fun f _ => ⟨rfl, le_refl _, by simp⟩), ?_, rfl, ?_⟩
    · simp [prepareRebuild, Function.comp_def]
    · rw [prepareRebuild, List.map_map]
      exact (List.map_id _).symm ▸ (List.pwFilter_sublist _).trans List.filter_sublist
  obtain ⟨hsound, hprocessed, htotal, hfiles⟩ :=
    Runs.run_steady (fun s e s' hs hok => hs.step hok) hinit hfits hrun
  refine ⟨by rw [attached_eq hsound, List.map_map]; exact hprocessed, fun h0 hlt hsizes => ?_⟩
  have hcont : (r.files.map (·.tracker.contributed)).sum ≤ (r.files.map (·.file.actualSize)).sum :=
    List.sum_le_sum (fun t ht => hsizes t ht _ List.mem_cons_self (hsound t ht).attached)
  have hsub := (hfiles.map SizedFile.actualSize).sum_le_sum (List.forall_mem_map.mpr h0)
  rw [List.map_map] at hsub
  have hpos := sum_nonneg h0
  rw [htotal, totalSize, bmod_of_fits (by omega) hlt, hprocessed]
  exact Int.add_le_add_left (hcont.trans hsub) 1

/-- Two files, of which the second one needs a second attempt. -/
def twoFiles : List SizedFile := [⟨⟨"a", "a"⟩, 400⟩, ⟨⟨"b", "b"⟩, 600⟩]

def retried : List (Nat × Move) :=
  [(0, .update 400), (1, .update 300), (1, .fail), (1, .late 0 200), (1, .update 600)]

theorem run_conserved_retried : ∃ r, Runs.run (step fun _ _ => 0)
      (prepareRebuild (fun _ _ => 0) twoFiles) retried = some r
    ∧ r.status.processedSize = 1001 ∧ r.status.processedSize ≤ r.status.totalSize := by
  have h := @run_conserved (fun _ _ => 0) twoFiles retried _ (by decide) rfl
  exact ⟨_, rfl, h.1, h.2 (by decide) (by decide) (by decide)⟩

/-- A report of as much as a counter holds makes the processed size negative. -/
theorem report_overflows : ∃ r, Runs.run (step fun _ _ => 0)
      (prepareRebuild (fun _ _ => 0) twoFiles) [(0, .update (2 ^ 63 - 1))] = some r
    ∧ r.status.processedSize ≠ 1 + (r.attached.map PerFileProgressOps.contributed).sum :=
  ⟨_, rfl, by decide⟩

end WeftBlock.Sync.Progress
