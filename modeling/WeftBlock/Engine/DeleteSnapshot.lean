import WeftBlock.Replica.RemoveDisk
import WeftBlock.Controller.Types

/-!
# Deleting a snapshot through the engine

`DeleteSnapshot` of `pkg/reconcile/inproc_engine.go` means to *mark* the snapshot
as removed on every healthy replica and to leave the folding to the purge that
follows. The flag it passes is the `force` argument of `RemoveDisk`, so the mark
phase removes the disk outright, with whatever data it held.
-/

namespace WeftBlock

/-- One replica as the engine sees it; the server has no replica when it is closed. -/
structure EngineReplica where
  address : String
  mode : Mode
  server : Option Replica

/-- What `DeleteSnapshot` can return as an error. -/
inductive EngineErr
  /-- `engine has no healthy replicas`. -/
  | noHealthyReplicas
  /-- `mark snapshot %s removed on %s: %w`. -/
  | mark (name address : String) (e : ReplicaErr)
deriving DecidableEq

/-- `RemoveDiffDisk` of the replica server: a closed one answers without doing anything. -/
def Server.removeDiffDisk (pick : Finset String → String) (server : Option Replica)
    (name : String) (force : Bool) : Option Replica × Except ReplicaErr Unit :=
  match server with
  | none => (none, .ok ())
  | some r => ((r.removeDiffDisk pick name force).1, (r.removeDiffDisk pick name force).2)

/--
The mark phase over the replicas that are not in error. `pick` is the order each
replica's children map is ranged over in.
-/
def markLoop (pick : String → Finset String → String) (name : String) :
    List EngineReplica → List EngineReplica × Except EngineErr Unit
  | [] => ([], .ok ())
  | e :: rest =>
    if e.mode = .ERR then
      (e :: (markLoop pick name rest).1, (markLoop pick name rest).2)
    else
      match Server.removeDiffDisk (pick e.address) e.server name true with
      | (server, .error err) =>
        ({ e with server := server } :: rest, .error (.mark name e.address err))
      | (server, .ok ()) =>
        ({ e with server := server } :: (markLoop pick name rest).1,
          (markLoop pick name rest).2)

/-- `DeleteSnapshot`, up to starting the purge in the background. -/
def deleteSnapshot (pick : String → Finset String → String) (replicas : List EngineReplica)
    (name : String) : List EngineReplica × Except EngineErr Unit :=
  if ∀ e ∈ replicas, e.mode = .ERR then
    (replicas, .error .noHealthyReplicas)
  else
    markLoop pick name replicas

/-! ## What the mark phase does -/

/-- One replica after the mark phase. -/
def EngineReplica.marked (pick : String → Finset String → String) (name : String)
    (e : EngineReplica) : EngineReplica :=
  if e.mode = .ERR then e
  else
    { e with
      server := e.server.map (fun r => (r.removeDiffDisk (pick e.address) name true).1) }

/-- Every healthy replica that is open has the snapshot. -/
def Snapshotted (name : String) (replicas : List EngineReplica) : Prop :=
  ∀ e ∈ replicas, e.mode ≠ .ERR → ∀ r, e.server = some r → r.Linked ∧ r.IsSnapshot name

section

variable {pick : String → Finset String → String} (hpick : ∀ a, Replica.Picks (pick a))
  {name : String}
include hpick

theorem markLoop_eq :
    ∀ replicas : List EngineReplica, Snapshotted name replicas →
      markLoop pick name replicas = (replicas.map (EngineReplica.marked pick name), .ok ())
  | [], _ => rfl
  | e :: rest, h => by
    have ih := markLoop_eq rest (fun x hx => h x (List.mem_cons_of_mem _ hx))
    rw [markLoop, ih, List.map_cons, EngineReplica.marked]
    by_cases hm : e.mode = .ERR
    · rw [if_pos hm, if_pos hm]
    · rw [if_neg hm, if_neg hm]
      cases hs : e.server with
      | none => rfl
      | some r =>
        obtain ⟨hl, hn⟩ := h e List.mem_cons_self hm r hs
        have hok := Replica.removeDiffDisk_ok hl hn (hpick e.address)
        rw [Server.removeDiffDisk, hok]
        rfl

theorem deleteSnapshot_eq {replicas : List EngineReplica}
    (h : Snapshotted name replicas) (hsome : ∃ e ∈ replicas, e.mode ≠ .ERR) :
    deleteSnapshot pick replicas name
      = (replicas.map (EngineReplica.marked pick name), .ok ()) := by
  rw [deleteSnapshot, if_neg ?_, markLoop_eq hpick replicas h]
  intro hall
  obtain ⟨e, he, hm⟩ := hsome
  exact hm (hall e he)

end

/-- The record of a disk that is not marked as removed. -/
def liveDisk (parent : String) : Disk := ⟨parent, false, true, "", none⟩

/-- One sector of sevens in the snapshot `s`, with an empty head above it. -/
def sevens : Replica where
  dir := {
    data := fun i => if i = 1 then File.filled 4096 7 else File.empty 4096
    imgs := [⟨"s", 1⟩, ⟨"head", 2⟩].toAList
    metas := [⟨"s", liveDisk ""⟩, ⟨"head", liveDisk "s"⟩].toAList
    volumeMeta := ⟨4096, "head", true, "s", none⟩ }
  volume := ⟨[0], [0, 1, 2], 4096, 4096⟩
  info := ⟨4096, "head", true, "s", none⟩
  diskData := [⟨"s", liveDisk ""⟩, ⟨"head", liveDisk "s"⟩].toAList
  diskChildrenMap := [⟨"s", {"head"}⟩].toAList
  activeDiskData := ["", "s", "head"]
  readOnly := false
  unmapMarkDiskChainRemoved := false

theorem sevens_lookup (name : String) : sevens.dir.metas.lookup name
    = if name = "s" then some (liveDisk "")
      else if name = "head" then some (liveDisk "s") else none := by
  show (AList.lookup name ((∅ : AList (fun _ : String => Disk)).insert "head" _ |>.insert "s" _)) = _
  rw [Maps.lookup_insert_eq, Maps.lookup_insert_eq]
  rfl

theorem sevens_children (name : String) : sevens.diskChildrenMap.lookup name
    = if name = "s" then some {"head"} else none := by
  show (AList.lookup name
    ((∅ : AList (fun _ : String => Finset String)).insert "s" {"head"})) = _
  rw [Maps.lookup_insert_eq]
  rfl

theorem sevens_cases {name : String} {disk : Disk} (h : sevens.dir.metas.lookup name = some disk) :
    name = "s" ∧ disk = liveDisk "" ∨ name = "head" ∧ disk = liveDisk "s" := by
  rw [sevens_lookup] at h
  split at h
  · rename_i hn; exact Or.inl ⟨hn, (Option.some.inj h).symm⟩
  · split at h
    · rename_i hn; exact Or.inr ⟨hn, (Option.some.inj h).symm⟩
    · simp at h

theorem sevens_chain_s : IsChain (sevens.dir.metas.lookup ·) "s" ["s"] :=
  .cons (by decide) (sevens_lookup "s") .nil

theorem sevens_chain_head : IsChain (sevens.dir.metas.lookup ·) "head" ["head", "s"] :=
  .cons (by decide) (sevens_lookup "head") sevens_chain_s

theorem sevens_wf : sevens.view.Wf := by
  refine ⟨by decide, by decide, by decide, rfl, fun s => ?_⟩
  match s with
  | 0 => decide
  | _ + 1 => exact Nat.zero_lt_succ _

theorem sevens_linked : sevens.Linked where
  writable := rfl
  no_empty := sevens_lookup ""
  metas := fun h => h
  records := fun h _ => h
  images := fun h => by
    rcases sevens_cases h with ⟨rfl, -⟩ | ⟨rfl, -⟩
    · exact ⟨1, by decide⟩
    · exact ⟨2, by decide⟩
  chains := fun h => by
    rcases sevens_cases h with ⟨rfl, -⟩ | ⟨rfl, -⟩
    · exact ⟨_, sevens_chain_s, by decide⟩
    · exact ⟨_, sevens_chain_head, by decide⟩
  children := fun {name c} hne => by
    rw [sevens_children]
    constructor
    · intro hc
      split at hc
      · rename_i hn
        rw [show c = "head" by simpa using hc, hn]
        exact ⟨_, sevens_lookup "head", rfl⟩
      · simp at hc
    · intro hex
      obtain ⟨disk, hd, hp⟩ := hex
      rcases sevens_cases hd with ⟨-, rfl⟩ | ⟨rfl, rfl⟩
      · exact absurd hp.symm hne
      · rw [if_pos (show name = "s" from hp.symm)]; simp
  children_nonempty := fun {name s} h => by
    rw [sevens_children] at h
    split at h
    · rw [← Option.some.inj h]; simp
    · simp at h
  head := ⟨_, sevens_lookup "head"⟩
  head_leaf := fun h => by
    rcases sevens_cases h with ⟨-, rfl⟩ | ⟨-, rfl⟩ <;> decide
  backing := fun h => absurd h (by simp [sevens])
  live := ⟨_, sevens_chain_head, rfl, rfl⟩
  view := sevens_wf
  sectorSize := rfl
  size := rfl
  size_pos := by decide

theorem sevens_snapshotted : Snapshotted "s" [⟨"a", .RW, some sevens⟩] := by
  intro e he _ r hr
  rw [List.mem_singleton] at he
  subst he
  cases Option.some.inj hr
  exact ⟨sevens_linked, by decide, _, sevens_lookup "s"⟩

end WeftBlock
