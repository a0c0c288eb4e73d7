import WeftBlock.Lib.Maps

/-!
# Backups on a target

`CreateBackup`, `ListBackups` and `DeleteBackup` of `cmd/weft-block/driver.go` over a target that
stores objects by their URLs. A backup is two objects: the body, under a URL that ends in `.bin`,
and a sidecar that describes it, under the same URL with `.json` in its place.

The URL of a backup without its ending is its key. A target pushes and deletes single objects as
a whole. What the engine and the target answer is given; a sidecar that is read is the one that
was written.
-/

namespace WeftBlock

open Maps

namespace Backup

/-! ## URLs -/

/-- `strings.TrimSuffix` -/
def trimSuffix (s ending : String) : String :=
  if ending.toList <:+ s.toList then
    String.ofList (s.toList.take (s.toList.length - ending.toList.length))
  else s

/-- `strings.HasSuffix` -/
def hasSuffix (s ending : String) : Bool := decide (ending.toList <:+ s.toList)

theorem hasSuffix_append (k ending : String) : hasSuffix (k ++ ending) ending = true := by
  rw [hasSuffix, decide_eq_true_eq, String.toList_append]
  exact List.suffix_append _ _

theorem trimSuffix_append (k ending : String) : trimSuffix (k ++ ending) ending = k := by
  have hsuf : ending.toList <:+ (k ++ ending).toList := by
    rw [String.toList_append]
    exact List.suffix_append _ _
  rw [trimSuffix, if_pos hsuf, String.toList_append, List.length_append, Nat.add_sub_cancel,
    List.take_left, String.ofList_toList]

theorem eq_trimSuffix_append {s ending : String} (h : hasSuffix s ending = true) :
    s = trimSuffix s ending ++ ending := by
  obtain ⟨l, hl⟩ := of_decide_eq_true h
  have hs : s = String.ofList l ++ ending := by
    apply String.toList_inj.mp
    rw [String.toList_append, String.toList_ofList, hl]
  rw [hs, trimSuffix_append]

theorem append_inj_left {k k' ending : String} (h : k ++ ending = k' ++ ending) : k = k' := by
  rw [← trimSuffix_append k ending, h, trimSuffix_append]

theorem bin_ne_json (k k' : String) : k ++ ".bin" ≠ k' ++ ".json" := by
  intro h
  -- they differ in the last letter but one
  have h' := congrArg (fun s => s.toList.reverse[1]?) h
  simp only [String.toList_append, List.reverse_append] at h'
  rw [List.getElem?_append_left (by decide), List.getElem?_append_left (by decide)] at h'
  exact absurd h' (by decide)

theorem bin_ne_empty (k : String) : k ++ ".bin" ≠ "" := by
  intro h
  have := congrArg (fun s => s.toList.length) h
  simp at this

/-! ## Objects -/

/-- `backupRange` -/
structure Range where
  offset : Nat
  size : Nat
deriving DecidableEq

/-- `backupMeta`, without what only the operator reads. -/
structure BackupMeta (κ : Type) where
  snapshotName : String
  sizeBytes : Nat
  plaintextBytes : Nat
  sha256 : String
  parentURL : String
  encryption : Option κ
  ranges : List Range

inductive Object (κ : Type)
  | body (bytes : List UInt8)
  | sidecar (m : BackupMeta κ)

/-- A target: its objects by their URLs. -/
abbrev Target (κ : Type) := AList (fun _ : String => Object κ)

variable {κ : Type}

/-- `readBackupMetaSibling`: the sidecar beside a body. -/
def readBackupMetaSibling (t : Target κ) (binURL : String) : Option (BackupMeta κ) :=
  match t.lookup (trimSuffix binURL ".bin" ++ ".json") with
  | some (.sidecar m) => some m
  | _ => none

theorem readBackupMetaSibling_bin {t : Target κ} {k : String} {m : BackupMeta κ} :
    readBackupMetaSibling t (k ++ ".bin") = some m
      ↔ t.lookup (k ++ ".json") = some (.sidecar m) := by
  unfold readBackupMetaSibling
  rw [trimSuffix_append]
  cases t.lookup (k ++ ".json") with
  | none => simp
  | some o =>
    cases o with
    | body bytes => simp
    | sidecar m' => simp

/-- `ListBackups`: the URLs of the backups, and their sidecars. -/
def listBackups (t : Target κ) : List (String × BackupMeta κ) :=
  (entries .listed t).filterMap (fun e =>
    match hasSuffix e.1 ".json", e.2 with
    | true, .sidecar m => some (trimSuffix e.1 ".json" ++ ".bin", m)
    | _, _ => none)

/-! ## Creating a backup -/

/-- `drivers.BackupSpec`; the key stands for the target, the volume and the snapshot. -/
structure BackupSpec (κ : Type) where
  key : String
  snapshotName : String
  parentURL : String
  /-- What the sidecar will say about the encryption. -/
  encryption : Option κ

def BackupSpec.binURL (spec : BackupSpec κ) : String := spec.key ++ ".bin"

def BackupSpec.metaURL (spec : BackupSpec κ) : String := spec.key ++ ".json"

/-- What `CompareSnapshots` returns. -/
inductive Compare
  | ranges (l : List Range)
  | unimplemented
  | failed

/-- What comes of a stream. -/
structure Upload where
  /-- The bytes that went through the pipe, encrypted if they are to be. -/
  body : List UInt8
  /-- The bytes the engine has streamed. -/
  total : Nat
  failed : Bool

/-- What the engine and the target answer. -/
structure CreateAnswers where
  /-- There are a target and an engine, and the passphrase if one is needed. -/
  ready : Bool
  /-- Compared with the snapshot of this name. -/
  compare : String → Compare
  /-- `StreamSnapshotRanges` for some ranges, `StreamSnapshotBytes` for none. -/
  stream : Option (List Range) → Upload
  push : Bool
  pushMeta : Bool

inductive BackupErr
  | emptySnapshotName
  | notReady
  | readParentMeta
  | compareSnapshots
  | streamSnapshot
  | upload
  | writeMeta
deriving DecidableEq

/-- The ranges of an incremental backup, or none for a full one. -/
def dispatch (t : Target κ) (spec : BackupSpec κ) (a : CreateAnswers) :
    Except BackupErr (Option (List Range)) :=
  if spec.parentURL = "" then .ok none
  else
    match readBackupMetaSibling t spec.parentURL with
    | none => .error .readParentMeta
    | some parentMeta =>
      match a.compare parentMeta.snapshotName with
      | .ranges l => .ok (some l)
      | .unimplemented => .ok none
      | .failed => .error .compareSnapshots

/-- The sidecar. -/
def backupMeta (sha256 : List UInt8 → String) (spec : BackupSpec κ) (ranges : Option (List Range))
    (up : Upload) : BackupMeta κ where
  snapshotName := spec.snapshotName
  sizeBytes := up.body.length
  plaintextBytes := if spec.encryption.isSome || ranges.isSome then up.total else 0
  sha256 := sha256 up.body
  parentURL := spec.parentURL
  encryption := spec.encryption
  ranges := ranges.getD []

/-- `CreateBackup` -/
def createBackup (sha256 : List UInt8 → String) (t : Target κ) (spec : BackupSpec κ)
    (a : CreateAnswers) : Target κ × Except BackupErr String :=
  if spec.snapshotName = "" then (t, .error .emptySnapshotName)
  else if a.ready = false then (t, .error .notReady)
  else
    match dispatch t spec a with
    | .error e => (t, .error e)
    | .ok ranges =>
      let up := a.stream ranges
      let pushed := if a.push then t.insert spec.binURL (.body up.body) else t
      if up.failed then (pushed.erase spec.binURL, .error .streamSnapshot)
      else if a.push = false then (pushed.erase spec.binURL, .error .upload)
      else if a.pushMeta = false then (pushed.erase spec.binURL, .error .writeMeta)
      else
        (pushed.insert spec.metaURL (.sidecar (backupMeta sha256 spec ranges up)),
          .ok spec.binURL)

/-! ## Deleting a backup -/

/-- `DeleteBackup`, of a target that deletes what it is asked to. -/
def deleteBackup (t : Target κ) (backupURL : String) : Target κ :=
  if backupURL = "" then t
  else (t.erase backupURL).erase (trimSuffix backupURL ".bin" ++ ".json")

/-! ## What is there after a backup -/

/-- The two objects of a backup. -/
def store (t : Target κ) (k : String) (bytes : List UInt8) (m : BackupMeta κ) : Target κ :=
  (t.insert (k ++ ".bin") (.body bytes)).insert (k ++ ".json") (.sidecar m)

section

variable (t : Target κ) (k k' : String) (bytes : List UInt8) (m : BackupMeta κ)

theorem lookup_store_json :
    (store t k bytes m).lookup (k' ++ ".json")
      = if k' = k then some (.sidecar m) else t.lookup (k' ++ ".json") := by
  have hbody : (t.insert (k ++ ".bin") (.body bytes)).lookup (k' ++ ".json")
      = t.lookup (k' ++ ".json") := by
    rw [lookup_insert_eq, if_neg (fun he => bin_ne_json k k' he.symm)]
  rw [store, lookup_insert_eq, hbody]
  by_cases hk : k' = k
  · rw [if_pos hk, if_pos (by rw [hk])]
  · rw [if_neg hk, if_neg (fun he => hk (append_inj_left he))]

theorem lookup_store_bin :
    (store t k bytes m).lookup (k' ++ ".bin")
      = if k' = k then some (.body bytes) else t.lookup (k' ++ ".bin") := by
  rw [store, lookup_insert_eq, if_neg (bin_ne_json k' k), lookup_insert_eq]
  by_cases hk : k' = k
  · rw [if_pos hk, if_pos (by rw [hk])]
  · rw [if_neg hk, if_neg (fun he => hk (append_inj_left he))]

end

end Backup

end WeftBlock
