import WeftBlock.Backup.Driver
import WeftBlock.Lib.Runs

/-!
# Listed backups are there

What `ListBackups` reports is read off the sidecars alone. Here it is asked when each backup that
is reported has its body, with the size and the hash that the sidecar gives, and so have its
parent and the parent of that. It does not always: a backup that fails deletes the body under its
URL, which may be that of an older backup of the same name whose sidecar stays; and a backup can
be deleted that others build on.
-/

namespace WeftBlock

open Maps

variable {sha256 : List UInt8 → String}

namespace Backup

variable {κ : Type}

/-! ## The property -/

/-- The backup has its body, with the size and the hash recorded in its sidecar. -/
def Intact (sha256 : List UInt8 → String) (t : Target κ) (url : String) : Prop :=
  ∃ m bytes, readBackupMetaSibling t url = some m ∧ t.lookup url = some (.body bytes)
    ∧ bytes.length = m.sizeBytes ∧ sha256 bytes = m.sha256

/-- From a backup to its parent, and on. -/
inductive Reaches (t : Target κ) : String → String → Prop
  | self (url : String) : Reaches t url url
  | parent {url url' : String} {m : BackupMeta κ} (hm : readBackupMetaSibling t url = some m)
      (hp : m.parentURL ≠ "") (h : Reaches t m.parentURL url') : Reaches t url url'

/-- **Listed backups are restorable**, with all they build on. -/
def Restorable (sha256 : List UInt8 → String) (t : Target κ) : Prop :=
  ∀ b ∈ listBackups t, ∀ url, Reaches t b.1 url → Intact sha256 t url

/-! ## Runs -/

inductive Event (κ : Type)
  | createBackup (spec : BackupSpec κ) (answers : CreateAnswers)
  | deleteBackup (backupURL : String)

/-- The parent of a backup is one that is listed. -/
def ListedParent (t : Target κ) (spec : BackupSpec κ) : Prop :=
  spec.parentURL = "" ∨ spec.parentURL ∈ (listBackups t).map (fun b => b.1)

instance (t : Target κ) (spec : BackupSpec κ) : Decidable (ListedParent t spec) := by
  unfold ListedParent
  infer_instance

/-- One call. -/
def call (sha256 : List UInt8 → String) (t : Target κ) : Event κ → Option (Target κ)
  | .createBackup spec answers =>
    if ListedParent t spec then some (createBackup sha256 t spec answers).1 else none
  | .deleteBackup backupURL => some (deleteBackup t backupURL)

/-! ## The condition -/

/-- The call comes to where it deletes the body again. -/
def RollsBack (t : Target κ) (spec : BackupSpec κ) (a : CreateAnswers) : Prop :=
  spec.snapshotName ≠ "" ∧ a.ready = true ∧ ∃ ranges, dispatch t spec a = .ok ranges
    ∧ ((a.stream ranges).failed = true ∨ a.push = false ∨ a.pushMeta = false)

/-- The objects that `DeleteBackup` deletes. -/
def Deletes (backupURL url : String) : Prop :=
  backupURL ≠ "" ∧ (url = backupURL ∨ url = trimSuffix backupURL ".bin" ++ ".json")

/--
**What must not be done**: to let a backup fail under the name of one that is there, and to
delete one that another is built on.
-/
def Harmless (t : Target κ) : Event κ → Prop
  | .createBackup spec a =>
    ListedParent t spec → RollsBack t spec a → readBackupMetaSibling t spec.binURL = none
  | .deleteBackup backupURL =>
    ∀ k m, t.lookup (k ++ ".json") = some (.sidecar m) → ¬ Deletes backupURL (k ++ ".json") →
      ∀ k', m.parentURL = k' ++ ".bin" → ¬ Deletes backupURL (k' ++ ".json")

/-! ## Sidecar by sidecar -/

variable {t : Target κ} {m : BackupMeta κ}

theorem mem_listBackups {url : String} :
    (url, m) ∈ listBackups t ↔
      ∃ k, url = k ++ ".bin" ∧ t.lookup (k ++ ".json") = some (.sidecar m) := by
  unfold listBackups
  rw [List.mem_filterMap]
  constructor
  · intro hex
    obtain ⟨⟨u, o⟩, hin, hsome⟩ := hex
    have hl := mem_entries.mp hin
    cases hsuf : hasSuffix u ".json" with
    | false => rw [hsuf] at hsome; exact absurd hsome (by simp)
    | true =>
      rw [hsuf] at hsome
      cases o with
      | body bytes => simp at hsome
      | sidecar m' =>
        obtain ⟨rfl, rfl⟩ := Prod.mk.inj (Option.some.inj hsome)
        refine ⟨trimSuffix u ".json", rfl, ?_⟩
        rw [← eq_trimSuffix_append hsuf]
        exact hl
  · intro hex
    obtain ⟨k, rfl, hl⟩ := hex
    refine ⟨(k ++ ".json", .sidecar m), mem_entries.mpr hl, ?_⟩
    rw [hasSuffix_append, trimSuffix_append]

/-- The parent that is recorded is none, or a body. -/
def Base (t : Target κ) : Prop :=
  ∀ k m, t.lookup (k ++ ".json") = some (.sidecar m) →
    m.parentURL = "" ∨ ∃ k', m.parentURL = k' ++ ".bin"

/-- Every sidecar has its body and the sidecar of its parent. -/
structure Closed (sha256 : List UInt8 → String) (t : Target κ) : Prop where
  body : ∀ k m, t.lookup (k ++ ".json") = some (.sidecar m) →
    ∃ bytes, t.lookup (k ++ ".bin") = some (.body bytes) ∧ bytes.length = m.sizeBytes
      ∧ sha256 bytes = m.sha256
  parent : ∀ k m, t.lookup (k ++ ".json") = some (.sidecar m) → ∀ k', m.parentURL = k' ++ ".bin" →
    ∃ m', t.lookup (k' ++ ".json") = some (.sidecar m')

theorem restorable_iff (hb : Base t) :
    Restorable sha256 t ↔ Closed sha256 t := by
  constructor
  · intro h
    refine ⟨fun k m hm => ?_, fun k m hm k' hp => ?_⟩
    · have hin : (k ++ ".bin", m) ∈ listBackups t := mem_listBackups.mpr ⟨k, rfl, hm⟩
      obtain ⟨m', bytes, hm', hrest⟩ := h _ hin _ (.self _)
      rw [readBackupMetaSibling_bin, hm] at hm'
      obtain rfl : m = m' := by simpa using hm'
      exact ⟨bytes, hrest⟩
    · have hin : (k ++ ".bin", m) ∈ listBackups t := mem_listBackups.mpr ⟨k, rfl, hm⟩
      have hne : m.parentURL ≠ "" := hp ▸ bin_ne_empty k'
      obtain ⟨m', bytes, hm', -⟩ :=
        h _ hin _ (.parent (readBackupMetaSibling_bin.mpr hm) hne (.self _))
      rw [hp, readBackupMetaSibling_bin] at hm'
      exact ⟨m', hm'⟩
  · intro h
    -- along the parents one always comes to a body that has a sidecar
    have hall : ∀ url url', Reaches t url url' →
        (∃ k m, url = k ++ ".bin" ∧ t.lookup (k ++ ".json") = some (.sidecar m)) →
        Intact sha256 t url' := by
      intro url url' hr
      induction hr with
      | self url =>
        intro hex
        obtain ⟨k, m, rfl, hm⟩ := hex
        obtain ⟨bytes, hrest⟩ := h.body k m hm
        exact ⟨m, bytes, readBackupMetaSibling_bin.mpr hm, hrest⟩
      | parent hm hp hr ih =>
        intro hex
        obtain ⟨k, m', rfl, hm'⟩ := hex
        rw [readBackupMetaSibling_bin, hm'] at hm
        obtain rfl : m' = _ := by simpa using hm
        rcases hb k m' hm' with hnone | ⟨k', hk'⟩
        · exact absurd hnone hp
        · obtain ⟨m'', hm''⟩ := h.parent k m' hm' k' hk'
          exact ih ⟨k', m'', hk', hm''⟩
    intro b hin url hr
    obtain ⟨k, hurl, hm⟩ := mem_listBackups.mp (show (b.1, b.2) ∈ listBackups t from hin)
    exact hall b.1 url hr ⟨k, b.2, hurl, hm⟩

/-! ## One call -/

variable {spec : BackupSpec κ}

variable {a : CreateAnswers} {bytes : List UInt8}

/-- What a backup does that fails when it has been pushed, or not. -/
theorem createBackup_rollsBack (sha256 : List UInt8 → String) (h : RollsBack t spec a) :
    (createBackup sha256 t spec a).1 = t.erase spec.binURL := by
  obtain ⟨hname, hready, ranges, hd, hfail⟩ := h
  have herase : ∀ o : Object κ,
      (if a.push = true then t.insert spec.binURL o else t).erase spec.binURL
        = t.erase spec.binURL := by
    intro o
    by_cases hp : a.push = true
    · rw [if_pos hp]
      exact erase_insert t spec.binURL o
    · rw [if_neg hp]
  unfold createBackup
  rw [if_neg hname, if_neg (by simp [hready]), hd]
  dsimp only
  by_cases hf : (a.stream ranges).failed = true
  · rw [if_pos hf]
    exact herase _
  rw [if_neg hf]
  by_cases hp : a.push = false
  · rw [if_pos hp]
    exact herase _
  rw [if_neg hp]
  by_cases hm : a.pushMeta = false
  · rw [if_pos hm]
    exact herase _
  · exact absurd hfail (by simp [hf, hp, hm])

/-- What a backup does that does not. -/
theorem createBackup_not_rollsBack (sha256 : List UInt8 → String) (h : ¬ RollsBack t spec a) :
    (createBackup sha256 t spec a).1 = t
    ∨ ∃ ranges, (createBackup sha256 t spec a).1 = store t spec.key (a.stream ranges).body
      (backupMeta sha256 spec ranges (a.stream ranges)) := by
  unfold createBackup
  by_cases hname : spec.snapshotName = ""
  · rw [if_pos hname]
    exact Or.inl rfl
  rw [if_neg hname]
  by_cases hready : a.ready = false
  · rw [if_pos hready]
    exact Or.inl rfl
  rw [if_neg hready]
  cases hd : dispatch t spec a with
  | error e => exact Or.inl rfl
  | ok ranges =>
    have hno : ¬ ((a.stream ranges).failed = true ∨ a.push = false ∨ a.pushMeta = false) :=
      fun hfail => h ⟨hname, by simpa using hready, ranges, hd, hfail⟩
    obtain ⟨hf, hp, hm⟩ :
        (a.stream ranges).failed = false ∧ a.push = true ∧ a.pushMeta = true := by
      simpa [not_or] using hno
    refine Or.inr ⟨ranges, ?_⟩
    simp [hf, hp, hm, store, BackupSpec.binURL, BackupSpec.metaURL]

theorem lookup_json_erase_bin (t : Target κ) (k k' : String) :
    (t.erase (k ++ ".bin")).lookup (k' ++ ".json") = t.lookup (k' ++ ".json") := by
  rw [lookup_erase_eq, if_neg (fun h => bin_ne_json k k' h.symm)]

theorem closed_erase_bin_iff (h : Closed sha256 t) (k : String) :
    Closed sha256 (t.erase (k ++ ".bin")) ↔ ∀ m, t.lookup (k ++ ".json") ≠ some (.sidecar m) := by
  constructor
  · intro h' m hm
    obtain ⟨bytes, hbin, -⟩ := h'.body k m (by rw [lookup_json_erase_bin]; exact hm)
    rw [lookup_erase_eq, if_pos rfl] at hbin
    simp at hbin
  · intro hno
    refine ⟨fun k₁ m hm => ?_, fun k₁ m hm k₂ hp => ?_⟩
    · rw [lookup_json_erase_bin] at hm
      obtain ⟨bytes, hbin, hrest⟩ := h.body k₁ m hm
      refine ⟨bytes, ?_, hrest⟩
      have hne : k₁ ++ ".bin" ≠ k ++ ".bin" := fun he => hno m (append_inj_left he ▸ hm)
      rw [lookup_erase_eq, if_neg hne]
      exact hbin
    · rw [lookup_json_erase_bin] at hm
      obtain ⟨m', hm'⟩ := h.parent k₁ m hm k₂ hp
      exact ⟨m', by rw [lookup_json_erase_bin]; exact hm'⟩

/-- A backup that is created, over an older one perhaps. -/
theorem closed_store (h : Closed sha256 t) (k : String) (hsize : bytes.length = m.sizeBytes)
    (hsha : sha256 bytes = m.sha256)
    (hparent : ∀ k', m.parentURL = k' ++ ".bin" →
      ∃ m', t.lookup (k' ++ ".json") = some (.sidecar m')) :
    Closed sha256 (store t k bytes m) := by
  -- the sidecars that were there are there, one of them replaced
  have hthere : ∀ k', (∃ m', t.lookup (k' ++ ".json") = some (.sidecar m')) →
      ∃ m', (store t k bytes m).lookup (k' ++ ".json") = some (.sidecar m') := by
    intro k' hex
    rw [lookup_store_json]
    by_cases hk : k' = k
    · exact ⟨m, if_pos hk⟩
    · rw [if_neg hk]
      exact hex
  refine ⟨fun k₁ m₁ hm₁ => ?_, fun k₁ m₁ hm₁ k₂ hp => hthere k₂ ?_⟩
  · rw [lookup_store_json] at hm₁
    rw [lookup_store_bin]
    by_cases hk : k₁ = k
    · rw [if_pos hk] at hm₁ ⊢
      obtain rfl : m = m₁ := by simpa using hm₁
      exact ⟨bytes, rfl, hsize, hsha⟩
    · rw [if_neg hk] at hm₁ ⊢
      exact h.body k₁ m₁ hm₁
  · rw [lookup_store_json] at hm₁
    by_cases hk : k₁ = k
    · rw [if_pos hk] at hm₁
      obtain rfl : m = m₁ := by simpa using hm₁
      exact hparent k₂ hp
    · rw [if_neg hk] at hm₁
      exact h.parent k₁ m₁ hm₁ k₂ hp

theorem lookup_deleteBackup (t : Target κ) (backupURL url : String) :
    (¬ Deletes backupURL url → (deleteBackup t backupURL).lookup url = t.lookup url)
    ∧ (Deletes backupURL url → (deleteBackup t backupURL).lookup url = none) := by
  unfold deleteBackup Deletes
  by_cases hempty : backupURL = ""
  · rw [if_pos hempty]
    exact ⟨fun _ => rfl, fun h => absurd hempty h.1⟩
  rw [if_neg hempty, lookup_erase_eq, lookup_erase_eq]
  constructor
  · intro hno
    rw [if_neg (fun he => hno ⟨hempty, Or.inr he⟩), if_neg (fun he => hno ⟨hempty, Or.inl he⟩)]
  · intro hyes
    by_cases hj : url = trimSuffix backupURL ".bin" ++ ".json"
    · rw [if_pos hj]
    · rw [if_neg hj, if_pos (hyes.2.resolve_right hj)]

theorem deletes_json_of_bin {backupURL k : String} (h : Deletes backupURL (k ++ ".bin")) :
    Deletes backupURL (k ++ ".json") := by
  obtain ⟨hne, rfl | hj⟩ := h
  · exact ⟨hne, Or.inr (by rw [trimSuffix_append])⟩
  · exact absurd hj (bin_ne_json _ _)

theorem closed_delete_iff (h : Closed sha256 t) (backupURL : String) :
    Closed sha256 (deleteBackup t backupURL) ↔ Harmless t (.deleteBackup backupURL) := by
  have hkeep : ∀ k m, (deleteBackup t backupURL).lookup (k ++ ".json") = some (.sidecar m)
      ↔ t.lookup (k ++ ".json") = some (.sidecar m) ∧ ¬ Deletes backupURL (k ++ ".json") := by
    intro k m
    by_cases hd : Deletes backupURL (k ++ ".json")
    · rw [(lookup_deleteBackup t backupURL _).2 hd]
      simp [hd]
    · rw [(lookup_deleteBackup t backupURL _).1 hd]
      simp [hd]
  constructor
  · intro h' k m hm hd k' hp hd'
    obtain ⟨m', hm'⟩ := h'.parent k m ((hkeep k m).mpr ⟨hm, hd⟩) k' hp
    exact ((hkeep k' m').mp hm').2 hd'
  · intro hno
    refine ⟨fun k m hm => ?_, fun k m hm k' hp => ?_⟩
    · obtain ⟨hm, hd⟩ := (hkeep k m).mp hm
      rw [(lookup_deleteBackup t backupURL _).1 (fun hb => hd (deletes_json_of_bin hb))]
      exact h.body k m hm
    · obtain ⟨hm, hd⟩ := (hkeep k m).mp hm
      obtain ⟨m', hm'⟩ := h.parent k m hm k' hp
      exact ⟨m', (hkeep k' m').mpr ⟨hm', hno k m hm hd k' hp⟩⟩

/-! ## The records keep their form -/

theorem base_of_keep {t t' : Target κ} (h : Base t)
    (hkeep : ∀ k m, t'.lookup (k ++ ".json") = some (.sidecar m) →
      t.lookup (k ++ ".json") = some (.sidecar m)) : Base t' :=
  fun k m hm => h k m (hkeep k m hm)

theorem ListedParent.base (h : ListedParent t spec) :
    spec.parentURL = "" ∨ ∃ k, spec.parentURL = k ++ ".bin" := by
  rcases h with hnone | hin
  · exact Or.inl hnone
  · obtain ⟨⟨url, m⟩, hb, hurl⟩ := List.mem_map.mp hin
    obtain ⟨k, hk, -⟩ := mem_listBackups.mp hb
    exact Or.inr ⟨k, hurl ▸ hk⟩

theorem ListedParent.sidecar (h : ListedParent t spec)
    {k : String} (hk : spec.parentURL = k ++ ".bin") :
    ∃ m, t.lookup (k ++ ".json") = some (.sidecar m) := by
  rcases h with hnone | hin
  · exact absurd (hk ▸ hnone) (bin_ne_empty k)
  · obtain ⟨⟨url, m⟩, hb, hurl⟩ := List.mem_map.mp hin
    obtain ⟨k', hk', hm⟩ := mem_listBackups.mp hb
    have he : k' ++ ".bin" = k ++ ".bin" := by rw [← hk', ← hk]; exact hurl
    exact ⟨m, append_inj_left he ▸ hm⟩

theorem base_store (h : Base t) {k : String}
    (hm : m.parentURL = "" ∨ ∃ k', m.parentURL = k' ++ ".bin") :
    Base (store t k bytes m) := by
  intro k₁ m₁ hm₁
  rw [lookup_store_json] at hm₁
  by_cases hk : k₁ = k
  · rw [if_pos hk] at hm₁
    obtain rfl : m = m₁ := by simpa using hm₁
    exact hm
  · rw [if_neg hk] at hm₁
    exact h k₁ m₁ hm₁

/-- **One backup**: the target stays closed unless the body of an older one is rolled back. -/
theorem createBackup_closed_iff (hb : Base t) (h : Closed sha256 t) (hlisted : ListedParent t spec)
    (a : CreateAnswers) :
    Base (createBackup sha256 t spec a).1
    ∧ (Harmless t (.createBackup spec a) ↔ Closed sha256 (createBackup sha256 t spec a).1) := by
  by_cases hroll : RollsBack t spec a
  · rw [createBackup_rollsBack sha256 hroll]
    refine ⟨base_of_keep hb fun k m hm => ?_, ?_⟩
    · rw [BackupSpec.binURL, lookup_json_erase_bin] at hm
      exact hm
    · rw [BackupSpec.binURL, closed_erase_bin_iff h]
      constructor
      · intro hno m hm
        have hnone := hno hlisted hroll
        rw [BackupSpec.binURL, readBackupMetaSibling_bin.mpr hm] at hnone
        simp at hnone
      · intro hno _ _
        cases hread : readBackupMetaSibling t spec.binURL with
        | none => rfl
        | some m => exact absurd (readBackupMetaSibling_bin.mp hread) (hno m)
  · have hok : Harmless t (.createBackup spec a) := fun _ hyes => absurd hyes hroll
    rcases createBackup_not_rollsBack sha256 hroll with hsame | ⟨ranges, hstored⟩
    · rw [hsame]
      exact ⟨hb, fun _ => h, fun _ => hok⟩
    · rw [hstored]
      exact ⟨base_store hb hlisted.base,
        fun _ => closed_store h spec.key rfl rfl (fun _ hk => hlisted.sidecar hk), fun _ => hok⟩

theorem base_deleteBackup (hb : Base t) (backupURL : String) :
    Base (deleteBackup t backupURL) := by
  refine base_of_keep hb fun k m hm => ?_
  by_cases hd : Deletes backupURL (k ++ ".json")
  · rw [(lookup_deleteBackup t backupURL _).2 hd] at hm
    simp at hm
  · rw [(lookup_deleteBackup t backupURL _).1 hd] at hm
    exact hm

/-- **One call**, and what is needed of it. -/
theorem call_restorable_iff (hb : Base t) (h : Restorable sha256 t) (e : Event κ) :
    (call sha256 t e = none ∧ Harmless t e)
    ∨ ∃ t', call sha256 t e = some t' ∧ Base t' ∧ (Harmless t e ↔ Restorable sha256 t') := by
  have hclosed := (restorable_iff hb).mp h
  cases e with
  | createBackup spec a =>
    by_cases hlisted : ListedParent t spec
    · obtain ⟨hb', hiff⟩ := createBackup_closed_iff hb hclosed hlisted a
      exact Or.inr ⟨_, if_pos hlisted, hb', hiff.trans (restorable_iff hb').symm⟩
    · exact Or.inl ⟨if_neg hlisted, fun hyes => absurd hyes hlisted⟩
  | deleteBackup backupURL =>
    have hb' := base_deleteBackup hb backupURL
    exact Or.inr ⟨_, rfl, hb',
      (closed_delete_iff hclosed backupURL).symm.trans (restorable_iff hb').symm⟩

/-! ## Whole runs -/

/--
**When listed backups are restorable**: after every call of a run on an empty target, just if no
backup fails under the name of one that is there and none is deleted that another builds on.
-/
theorem run_restorable_iff (sha256 : List UInt8 → String) (events : List (Event κ)) :
    Runs.Steady (call sha256) Harmless ∅ events
      ↔ ∀ k t, Runs.run (call sha256) ∅ (events.take k) = some t → Restorable sha256 t := by
  have hb : Base (∅ : Target κ) := fun k m hm => absurd hm (by simp)
  refine Runs.steady_iff Base (fun t e hb h => call_restorable_iff hb h e) hb ?_
  exact (restorable_iff hb).mpr
    ⟨fun k m hm => absurd hm (by simp), fun k m hm => absurd hm (by simp)⟩

section NotRestorable

/-- A snapshot of one byte, and whether its upload goes well. -/
def oneByte (push : Bool) : CreateAnswers where
  ready := true
  compare := fun _ => .ranges [⟨0, 1⟩]
  stream := fun _ => ⟨[0], 1, false⟩
  push := push
  pushMeta := true

/-- A backup of the snapshot, not encrypted. -/
def plainSpec (name parentURL : String) : BackupSpec Unit where
  key := name
  snapshotName := name
  parentURL := parentURL
  encryption := none

/-- A backup, and another of the same snapshot whose upload fails. -/
def repeated : List (Event Unit) :=
  [.createBackup (plainSpec "s" "") (oneByte true),
    .createBackup (plainSpec "s" "") (oneByte false)]

/-- A backup and one that builds on it, and the first is deleted. -/
def orphaned : List (Event Unit) :=
  [.createBackup (plainSpec "s" "") (oneByte true),
    .createBackup (plainSpec "t" "s.bin") (oneByte true),
    .deleteBackup "s.bin"]

/-- What is listed then, and whether the first body is there. -/
def outcome (events : List (Event Unit)) : Option (List (String × String) × Bool) :=
  (Runs.run (call (fun _ => "hash")) ∅ events).map fun t =>
    ((listBackups t).map (fun b => (b.1, b.2.parentURL)), (t.lookup "s.bin").isSome)

theorem not_restorable_of_outcome {events : List (Event Unit)} {url parentURL : String}
    (h : outcome events = some ([(url, parentURL)], false))
    (hs : url = "s.bin" ∨ parentURL = "s.bin") :
    ∃ t, Runs.run (call (fun _ => "hash")) ∅ events = some t
      ∧ ¬ Restorable (fun _ => "hash") t := by
  obtain ⟨t, hrun, ht⟩ := Option.map_eq_some_iff.mp h
  obtain ⟨hlist, hgone⟩ := Prod.mk.inj ht
  refine ⟨t, hrun, fun hall => ?_⟩
  obtain ⟨b, hb, hurl⟩ : ∃ b ∈ listBackups t, (b.1, b.2.parentURL) = (url, parentURL) :=
    List.mem_map.mp (hlist ▸ List.mem_singleton_self _)
  obtain ⟨rfl, rfl⟩ := Prod.mk.inj hurl
  have hreach : Reaches t b.1 "s.bin" := by
    rcases hs with hself | hparent
    · exact hself ▸ .self b.1
    · obtain ⟨k, hk, hm⟩ := mem_listBackups.mp (show (b.1, b.2) ∈ listBackups t from hb)
      refine .parent (hk ▸ readBackupMetaSibling_bin.mpr hm) ?_ (hparent ▸ .self _)
      rw [hparent]
      exact bin_ne_empty "s"
  obtain ⟨m, bytes, -, hbody, -⟩ := hall b hb _ hreach
  rw [hbody] at hgone
  simp at hgone

/-- A body is deleted whose sidecar stays; a parent is deleted. -/
theorem runs_not_restorable :
    (∃ t, Runs.run (call (fun _ => "hash")) ∅ repeated = some t
      ∧ ¬ Restorable (fun _ => "hash") t)
    ∧ ∃ t, Runs.run (call (fun _ => "hash")) ∅ orphaned = some t
      ∧ ¬ Restorable (fun _ => "hash") t := by
  have hrepeated : outcome repeated = some ([("s.bin", "")], false) := by decide +kernel
  have horphaned : outcome orphaned = some ([("t.bin", "s.bin")], false) := by decide +kernel
  exact ⟨not_restorable_of_outcome hrepeated (Or.inl rfl),
    not_restorable_of_outcome horphaned (Or.inr rfl)⟩

end NotRestorable

end Backup

end WeftBlock
