import WeftBlock.Replica.Faithful
import WeftBlock.Replica.Snapshots

/-!
# How long the live chain gets

`createDisk` asks how many snapshots there are that are not marked as removed, `openLiveChain` how many
disks the live chain has. The first is no bound for the second: the head is not counted, and neither is
what was marked as removed but is still in the chain. So the chain stays within the limit exactly as long
as every new disk finds room in it.
-/

namespace WeftBlock.Replica

open Maps Forest

/-- The live chain has room for one more disk. -/
def HasRoom (r : Replica) : Prop :=
  ∃ l, chain r.diskData r.info.head = .ok l ∧ l.length < maximumTotalSnapshotCount

/-- A call that puts a disk on the chain finds room there. -/
def Op.Fits (r : Replica) : Op → Prop
  | .snapshot .. => r.HasRoom
  | .expand _ size _ => size = r.info.size ∨ r.HasRoom
  | _ => True

/-- The calls that move disks between the chain and the count, with one limit for the count. -/
def Op.Counts (max : Int) : Op → Prop
  | .snapshot snapshotMaxCount .. => snapshotMaxCount = max
  | .expand snapshotMaxCount .. => snapshotMaxCount = max
  | .revert snapshotMaxCount .. => snapshotMaxCount = max
  | .markDiskAsRemoved _ => True
  | _ => False

/-- The chain can be opened again, and every file index fits a byte. -/
structure WithinLimits (r : Replica) : Prop where
  chain : r.ChainShort
  reopens : ∀ a : OpenArgs, a.size % a.sectorSize = 0 → a.isExpandingEncryptedDevRequired = false →
    ∃ r', construct r.dir a = .ok r'
  indexes : r.volume.files.length ≤ 256

/-- Without a backing file there are as many files as disks in the chain, and the nil one. -/
theorem InOrder.withinLimits {r : Replica} (h : InOrder r) (hb : r.info.backingFile = none)
    (hshort : r.ChainShort) : WithinLimits r := by
  obtain ⟨l, hl, hactive⟩ := h.wired.live
  have hle := (h.chainShort_iff hl).mp hshort
  refine ⟨hshort, fun a hmod hexp => ?_, ?_⟩
  · obtain ⟨p, hp⟩ := h.wired.tree.has_head
    rw [← h.wired.volumeMeta.1] at hl hp
    refine ⟨(openedOn r.dir a l).finished p, ?_⟩
    rw [construct_eq h.openable hexp hl hp, if_neg (by omega), if_neg (by omega)]
  · rw [h.represents.length, hactive, hb]
    simp only [maximumTotalSnapshotCount] at hle
    simp
    omega

/-- A new disk makes the chain one longer. -/
theorem Grown.chainShort_iff {r r' : Replica} {s newHead created : String} {size : Nat}
    {snap : Disk}
    (h : InOrder r) (hg : Grown r r' (generateSnapshotDiskName s) newHead created size snap) :
    r'.ChainShort ↔ r.HasRoom := by
  obtain ⟨p, v, hp, hl, hv, -⟩ := h.wired.exists_chain
  obtain ⟨-, -, -, -, -, hhead⟩ := hg.names h.wired
  obtain rfl := Option.some.inj (hp.symm.trans hhead)
  have hpath := hg.path h.wired hv
  have hnew : r'.info.head = newHead := by rw [hg.info]
  rw [← hnew] at hpath
  rw [(hg.inOrder h.wired h.opened).chainShort_iff hpath]
  have hchain := chain_of_isChain (h.wired.isChain hl)
  constructor
  · intro hle
    exact ⟨_, hchain, hle⟩
  · rintro ⟨l', hl', hlt⟩
    obtain rfl := Except.ok.inj (hchain.symm.trans hl')
    exact hlt

/-- A revert that succeeds has opened its chain. -/
theorem revert_chainShort {r r' : Replica} (h : InOrder r) {snapshotMaxCount : Int}
    {sectorSize : Nat}
    {name created : String} (hok : r.revert snapshotMaxCount sectorSize name created = .ok r') :
    r'.ChainShort ∧ r'.info.backingFile = r.info.backingFile := by
  obtain ⟨newHead, v, hr⟩ := revert_reverted h hok
  obtain ⟨disk, hd⟩ := hr.record
  have hpath := (path_revertedDir h created hr.next hd hr.ne_head hr.path).1
  rw [← hr.metas, ← hr.head] at hpath
  have hle := hr.short
  rw [← hr.head] at hle
  exact ⟨((revert_inOrder h hok).chainShort_iff hpath).mpr hle, hr.backing⟩

theorem markAsRemoved_chainShort {r r' : Replica} (h : InOrder r) {name : String}
    (hok : r.markAsRemoved name = (r', .ok ())) :
    (r'.ChainShort ↔ r.ChainShort) ∧ r'.info.backingFile = r.info.backingFile := by
  obtain ⟨l, hl, -⟩ := h.wired.live
  rcases markAsRemoved_cases h hok with rfl | ⟨x, disk, -, hd, rfl⟩
  · exact ⟨Iff.rfl, rfl⟩
  · rw [h.chainShort_iff hl, (h.marked hd).chainShort_iff (by rw [parents_marked hd]; exact hl)]
    exact ⟨Iff.rfl, rfl⟩

/-- **One accepted call** keeps within the limits exactly when it fits. -/
theorem step_fits_iff {env : Env} {max : Int} {r r' : Replica} (h : InOrder r)
    (hshort : r.ChainShort) {op : Op} (hop : op.Counts max) (hstep : step env r op = some r') :
    InOrder r' ∧ r'.info.backingFile = r.info.backingFile ∧ (op.Fits r ↔ r'.ChainShort) := by
  cases op with
  | snapshot snapshotMaxCount name userCreated created labels =>
    obtain ⟨v, hok⟩ := succeeded_eq_some hstep
    obtain ⟨newHead, snap, hg⟩ := createDisk_ok h.wired hok
    exact ⟨hg.inOrder h.wired h.opened, by rw [hg.info], (hg.chainShort_iff h).symm⟩
  | expand snapshotMaxCount size created =>
    obtain ⟨v, hok⟩ := succeeded_eq_some hstep
    refine ⟨expand_inOrder h hok, ?_⟩
    rcases (expand_cases h.wired hok).2 with ⟨rfl, hsize⟩ | ⟨hlt, r1, newHead, snap, hg, rfl⟩
    · exact ⟨rfl, iff_of_true (Or.inl hsize.symm) hshort⟩
    · have hback : (r1.expanded size).info.backingFile = r.info.backingFile := by
        rw [show (r1.expanded size).info = r1.info from rfl, hg.info]
      exact ⟨hback, (or_iff_right (by omega)).trans (hg.chainShort_iff h).symm⟩
  | revert snapshotMaxCount sectorSize name created =>
    have hok := toOption_eq_some hstep
    obtain ⟨hs, hback⟩ := revert_chainShort h hok
    exact ⟨revert_inOrder h hok, hback, iff_of_true trivial hs⟩
  | markDiskAsRemoved name =>
    obtain ⟨v, hok⟩ := succeeded_eq_some hstep
    obtain ⟨hiff, hback⟩ := markAsRemoved_chainShort h hok
    exact ⟨markAsRemoved_inOrder h hok, hback, iff_of_true trivial (hiff.mpr hshort)⟩
  | _ => exact absurd hop id

theorem Stacked.chain {k : Nat} {r : Replica} (h : Stacked k r) :
    ∃ l, chain r.diskData r.info.head = .ok l ∧ l.length = k + 1 := by
  obtain ⟨l, hl, hlen⟩ := h.length
  exact ⟨l, chain_of_isChain (h.inOrder.wired.isChain hl), hlen⟩

theorem Stacked.chainShort_iff {k : Nat} {r : Replica} (h : Stacked k r) :
    r.ChainShort ↔ k < maximumTotalSnapshotCount := by
  obtain ⟨l, hl, hlen⟩ := h.length
  rw [h.inOrder.chainShort_iff hl, hlen]
  exact Iff.rfl

theorem snapshots_counts {k : Nat} : ∀ op ∈ snapshots k, op.Counts 250 := by
  intro op hop
  obtain ⟨i, -, rfl⟩ := List.mem_map.mp hop
  rfl

end WeftBlock.Replica
