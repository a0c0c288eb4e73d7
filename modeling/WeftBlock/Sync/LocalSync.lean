import WeftBlock.Sync.FileSync
import Mathlib.Logic.Function.Basic

/-!
# Syncing files on one host

`fileSyncLocal` of `pkg/sync/rpc/server.go`. The deferred clean-up looks at the function's own
`err`, which a failed copy sets. **The size check declares another `err`**: when it fails, the
clean-up finds the `nil` that the copy before has left, and removes nothing.
-/

namespace WeftBlock.Sync

/-- `LocalSync`. -/
structure LocalSyncRequest where
  sourcePath : String
  targetPath : String
  syncFileInfoList : List SyncFileInfo

/-- The sizes of the files of the host, by their paths. -/
abbrev HostFiles := String → Option Nat

/-- How `sparse.SyncLocalFile` ends: with a target of some size, or with an error and what is
left of the target. -/
inductive Copy
  | copied (size : Nat)
  | failed (err : String) (left : Option Nat)

inductive LocalSyncErr
  | copy (err : String)
  /-- "failed to check file size for file %v" -/
  | fileSize (sourcePath : String)
deriving DecidableEq

section

variable (join : String → String → String) (req : LocalSyncRequest)

/-- `filepath.Join("/host", …)`, with what `join` makes of a directory and a name. -/
def LocalSyncRequest.source (info : SyncFileInfo) : String := join req.sourcePath info.fromFileName
def LocalSyncRequest.target (info : SyncFileInfo) : String := join req.targetPath info.toFileName

/-- What the loop leaves: the files, `targetPaths`, the outer `err`, and what is returned. -/
structure LocalSyncEnd where
  files : HostFiles
  targetPaths : List String
  err : Option LocalSyncErr
  returned : Option LocalSyncErr

/-- The loop of `fileSyncLocal`; `copy i` is how the `i`-th copy ends. -/
def copyLoop (copy : Nat → Copy) (files : HostFiles) (targetPaths : List String) :
    List SyncFileInfo → LocalSyncEnd
  | [] => ⟨files, targetPaths, none, none⟩
  | info :: infos =>
      let targetPaths' := targetPaths ++ [req.target join info]
      match copy targetPaths.length with
      | .failed err left =>
          ⟨Function.update files (req.target join info) left, targetPaths', some (.copy err),
            some (.copy err)⟩
      | .copied size =>
          let files' := Function.update files (req.target join info) (some size)
          if files' (req.source join info) = some size then copyLoop copy files' targetPaths' infos
          else ⟨files', targetPaths', none, some (.fileSize (req.source join info))⟩

/-- `fileSyncLocal`: the loop and the deferred clean-up. -/
def fileSyncLocal (copy : Nat → Copy) (files : HostFiles) : LocalSyncEnd :=
  let e := copyLoop join req copy files [] req.syncFileInfoList
  match e.err with
  | none => e
  | some _ => { e with files := fun p => if p ∈ e.targetPaths then none else e.files p }

/-- Every target has the size of its source. -/
def LocalSyncRequest.Synced (files : HostFiles) : Prop :=
  ∀ info ∈ req.syncFileInfoList, ∃ size, files (req.target join info) = some size
    ∧ files (req.source join info) = some size

/-- What a local sync is to leave: nothing that it has touched, or every target. -/
def LocalSyncEnd.Tidy (e : LocalSyncEnd) : Prop :=
  (e.returned ≠ none → ∀ p ∈ e.targetPaths, e.files p = none)
    ∧ (e.returned = none → req.Synced join e.files)

/-- No copy that goes through has another size than its source has then; and if all of them go
through, the later ones have not undone the earlier ones. -/
def SizesMatch (copy : Nat → Copy) (files : HostFiles) (n : Nat) : List SyncFileInfo → Prop
  | [] => req.Synced join files
  | info :: infos => ∀ size, copy n = .copied size →
      Function.update files (req.target join info) (some size) (req.source join info) = some size
        ∧ SizesMatch copy (Function.update files (req.target join info) (some size)) (n + 1) infos

/-- How the loop ends: a failed copy, a size that differs, or after the last file. -/
theorem copyLoop_cases (copy : Nat → Copy) (infos : List SyncFileInfo) :
    ∀ (files : HostFiles) (targetPaths : List String),
      let e := copyLoop join req copy files targetPaths infos
      let sizes := SizesMatch join req copy files targetPaths.length infos
      (e.err ≠ none ∧ e.returned ≠ none ∧ sizes)
        ∨ (e.err = none ∧ e.returned ≠ none ∧ (∃ p ∈ e.targetPaths, e.files p ≠ none) ∧ ¬ sizes)
        ∨ (e.err = none ∧ e.returned = none ∧ (req.Synced join e.files ↔ sizes)) := by
  induction infos with
  | nil => exact fun files targetPaths => .inr (.inr ⟨rfl, rfl, Iff.rfl⟩)
  | cons info infos ih =>
    intro files targetPaths
    dsimp only
    rw [copyLoop, SizesMatch]
    cases hc : copy targetPaths.length with
    | failed err left =>
      refine .inl ⟨by simp, by simp, fun size hsize => ?_⟩
      simp at hsize
    | copied size =>
      simp only [Copy.copied.injEq, forall_eq']
      split
      case isTrue hsame =>
        have h := ih (Function.update files (req.target join info) (some size))
          (targetPaths ++ [req.target join info])
        rw [List.length_append, List.length_singleton] at h
        simpa only [hsame, true_and] using h
      case isFalse hdiff =>
        -- the target is there, and the outer `err` is the `nil` of its copy
        refine .inr (.inl ⟨rfl, by simp, ⟨req.target join info, by simp, by simp⟩, ?_⟩)
        exact fun h => hdiff h.1

end

end WeftBlock.Sync
