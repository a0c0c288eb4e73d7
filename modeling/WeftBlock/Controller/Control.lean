import WeftBlock.Controller.Replicator
import WeftBlock.Replica.Replica

/-!
# The controller

The state of `pkg/controller/control.go` and the operations that change which
replicas there are and what mode they are in: adding and removing a replica,
setting its mode, and the handling of a failed I/O call. Each operation runs under
the controller's lock and is a function of the state, of the order its maps are
enumerated in, and of whatever the backends answered to the calls it made.

A result `none` is a panic: a method called on a nil backend or a slice out of
range.
-/

namespace WeftBlock

open DataConn Maps

/-- `Controller`, without the parts that no operation on the replicas looks at. -/
structure Controller (β : Type) where
  size : Int
  sectorSize : Int
  replicas : List Controller.Replica
  backend : Replicator β
  isUpgrade : Bool
  isExpanding : Bool
  revisionCounterDisabled : Bool
  salvageRequested : Bool
  unmapMarkSnapChainRemoved : Bool
  snapshotMaxCount : Int
  snapshotMaxSize : Int

namespace Controller

variable {β : Type}

/-- The errors of the control operations. -/
inductive CtlErr
  /-- `can only have one WO replica at a time`. -/
  | oneWOReplica
  /-- `cannot add WO replica during expansion`. -/
  | addDuringExpansion
  /-- An error of a backend, passed on. -/
  | backend (e : Err)
  /-- A `*BackendError`, passed on. -/
  | backends (e : BackendError)
  /-- `failed to get the size before adding a replica`. -/
  | sizeBeforeAdding (e : Err)
  /-- `cannot get an valid result for snapshot usage`. -/
  | noSnapshotUsage
  /-- `snapshot count usage %d is equal or larger than snapshotMaxCount %d`. -/
  | snapshotCount (usage max : Int)
  /-- `snapshot count total is already too big: %v`. -/
  | snapshotTotal (total : Int)
  /-- `cannot get valid result for head file size`. -/
  | noHeadFileSize
  /-- `snapshot free space %d is not enough for head file %d`. -/
  | snapshotSpace (remain headFileSize : Int)
  /-- `cannot remove last replica if volume is up`. -/
  | lastReplica
  /-- `cannot set to mode %s`. -/
  | cannotSetMode (mode : Mode)
  /-- `cannot find backend %v`. -/
  | noSuchBackend (address : String)
  /-- `cannot find replica %v`. -/
  | noSuchReplica (address : String)
  /-- `cannot find any healthy replica`. -/
  | noHealthyReplica
  /-- `invalid mode %v for replica %v to check`. -/
  | invalidMode (mode : Mode) (address : String)
  /-- `replica %v's disk number is not equal to that of RW replica %v`. -/
  | diskNumber (address rwAddress : String)
  /-- `replica %v's chain not equal to RW replica %v's chain`. -/
  | diskChain (address rwAddress : String)
  /-- `failed to get revision counter of RW Replica %v: counter %v`. -/
  | getRevisionCounter (address : String) (counter : Int) (e : CtlErr)
  /-- `failed to set revision counter for %v`. -/
  | setRevisionCounter (address : String) (e : CtlErr)
  /-- `invalid ReplicaAddress: duplicate replica addresses %s`. -/
  | duplicateAddress (address : String)
  /-- `no available backend due to service unavailable`. -/
  | serviceUnavailable (addresses : List String)
  /-- `no available backend due to replica error`. -/
  | noAvailableBackend (addresses : List String)
  /-- `failed to correct Unmatched flag UnmapMarkSnapChainRemoved for all replicas, …`. -/
  | unmapMarkAllFailed (expected : Bool)
  /-- `cannot find any replica for salvage`. -/
  | nothingToSalvage
  /-- `BUG: Should find one candidate for salvage`. -/
  | noSalvageCandidate

/-- `reset`. -/
def reset (c : Controller β) : Controller β := { c with replicas := [], backend := .zero }

/-- `hasWOReplica`. -/
def hasWOReplica (c : Controller β) : Bool := c.replicas.any (fun r => r.mode = .WO)

/-- `hasReplica`. -/
def hasReplica (c : Controller β) (address : String) : Bool :=
  c.replicas.any (fun r => r.address = address)

/-- `canAdd`. -/
def canAdd (c : Controller β) (address : String) : Bool × Option CtlErr :=
  if c.hasReplica address then (false, none)
  else if c.hasWOReplica then (false, some .oneWOReplica)
  else if c.isExpanding then (false, some .addDuringExpansion)
  else (true, none)

/-! ## Snapshots taken on the way -/

/-- What the backends that are not in error answer, those that fail left out. -/
def collect {γ : Type} (ask : String → Except Err γ) :
    List (String × BackendWrapper β) → Option (List γ)
  | [] => some []
  | (address, b) :: rest =>
    if b.mode = .ERR then collect ask rest
    else if b.backend = none then none
    else
      match ask address with
      | .error _ => collect ask rest
      | .ok answer => (collect ask rest).map (fun answers => answer :: answers)

/-- The answers a snapshot asks for, by address. -/
structure SnapshotAnswers where
  /-- `GetSnapshotCountAndSizeUsage`: count, total count and size. -/
  usage : String → Except Err (Int × Int × Int)
  headFileSize : String → Except Err Int
  snapshot : String → Option Err

/-- `canDoSnapshot`. -/
def canDoSnapshot (order : MapOrder) (c : Controller β) (answers : SnapshotAnswers) :
    Option (Option CtlErr) :=
  match collect answers.usage (entries order c.backend.backends) with
  | none => none
  | some [] => some (some .noSnapshotUsage)
  | some us =>
    let countUsage := (us.map (fun u => u.1)).foldl max 0
    let countTotal := (us.map (fun u => u.2.1)).foldl max 0
    let sizeUsage := (us.map (fun u => u.2.2)).foldl max 0
    if c.snapshotMaxCount ≤ countUsage then
      some (some (.snapshotCount countUsage c.snapshotMaxCount))
    else if (maximumTotalSnapshotCount : Int) ≤ countTotal then
      some (some (.snapshotTotal countTotal))
    else if c.snapshotMaxSize = 0 then some none
    else
      match collect answers.headFileSize (entries order c.backend.backends) with
      | none => none
      | some [] => some (some .noHeadFileSize)
      | some hs =>
        let headFileSize := hs.foldl max 0
        let remainSize := c.snapshotMaxSize - sizeUsage
        if remainSize < headFileSize then some (some (.snapshotSpace remainSize headFileSize))
        else some none

/-- `replicator.Snapshot`: the errors of the backends that are not in error. -/
def snapshotErrors (snapshot : String → Option Err) :
    List (String × BackendWrapper β) → Option (AList (fun _ : String => Err))
  | [] => some ∅
  | (address, b) :: rest =>
    if b.mode = .ERR then snapshotErrors snapshot rest
    else if b.backend = none then none
    else
      match snapshot address with
      | none => snapshotErrors snapshot rest
      | some e => (snapshotErrors snapshot rest).map (fun errors => errors.insert address e)

/-! ## Adding a replica -/

/-- The snapshot `addReplicaNoLock` takes of the present replicas and of the new one. -/
def snapshotForAdd (order : MapOrder) (c : Controller β) (newBackend : Option β)
    (address : String) (answers : SnapshotAnswers) : Option (Option CtlErr) :=
  match (if c.backend.backends.keys.length ≠ 0 then c.canDoSnapshot order answers else some none) with
  | none => none
  | some (some e) => some (some e)
  | some none =>
    match snapshotErrors answers.snapshot (entries order c.backend.backends) with
    | none => none
    | some errors =>
      if errors.keys.length ≠ 0 then some (some (.backends ⟨errors, ∅⟩))
      else if newBackend = none then none
      else some ((answers.snapshot address).map .backend)

/-- `addReplicaNoLock`; closing the new backend after an error leaves no trace here. -/
def addReplicaNoLock (order : MapOrder) (c : Controller β) (newBackend : Option β)
    (address : String) (snapshot : Bool) (mode : Mode) (answers : SnapshotAnswers) :
    Option (Controller β × Option CtlErr) :=
  match c.canAdd address with
  | (false, err) => some (c, err)
  | (true, _) =>
    match (if snapshot ∧ mode ≠ .ERR then c.snapshotForAdd order newBackend address answers
      else some none) with
    | none => none
    | some (some e) => some (c, some e)
    | some none =>
      some ({ c with
        replicas := c.replicas ++ [⟨address, mode⟩]
        backend := c.backend.addBackend order address newBackend mode }, none)

/-- What the factory and the new backend answer to `AddReplica`, and the present ones. -/
structure AddAnswers (β : Type) where
  create : Except Err β
  size : Except Err Int
  snapshots : SnapshotAnswers

/-- `AddReplica`. -/
def addReplica (order : MapOrder) (c : Controller β) (address : String)
    (snapshotRequired : Bool) (mode : Mode) (answers : AddAnswers β) :
    Option (Controller β × Option CtlErr) :=
  match c.canAdd address with
  | (false, err) => some (c, err)
  | (true, _) =>
    match answers.create, answers.size with
    | .error e, _ => some (c, some (.backend e))
    | .ok _, .error e => some (c, some (.sizeBeforeAdding e))
    | .ok newBackend, .ok replicaSize =>
      let c := if c.size = 0 ∧ c.replicas.length = 0 then { c with size := replicaSize } else c
      c.addReplicaNoLock order (some newBackend) address snapshotRequired mode
        answers.snapshots

/-! ## Removing a replica -/

/--
The loop of `RemoveReplica`. It ranges over the slice it splices: the positions
are those of the slice as it was, the elements are read from the array `arr` that
the splicing shifts, and `c.replicas` is the first `len` elements of it.
-/
def removeLoop (order : MapOrder) (address : String) (frontendUp : Bool) :
    List Nat → List Replica → Nat → Replicator β →
      Option (List Replica × Replicator β × Option CtlErr)
  | [], arr, len, backend => some (arr.take len, backend, none)
  | i :: is, arr, len, backend =>
    match arr[i]? with
    | none => none
    | some r =>
      if r.address = address then
        if len = 1 ∧ frontendUp then some (arr.take len, backend, some .lastReplica)
        else if len < i + 1 then none
        else
          removeLoop order address frontendUp is
            (arr.take i ++ (arr.take len).drop (i + 1) ++ arr.drop (len - 1)) (len - 1)
            (backend.removeBackend order r.address)
      else removeLoop order address frontendUp is arr len backend

/-- `RemoveReplica`; `frontendUp` tells whether there is a frontend and it is up. -/
def removeReplica (order : MapOrder) (c : Controller β) (address : String) (frontendUp : Bool) :
    Option (Controller β × Option CtlErr) :=
  if c.hasReplica address then
    match removeLoop order address frontendUp (List.range c.replicas.length) c.replicas
      c.replicas.length c.backend with
    | none => none
    | some (replicas, backend, err) => some ({ c with replicas := replicas, backend := backend }, err)
  else some (c, none)

/-! ## Setting a mode -/

/-- The loop of `setReplicaModeNoLock` over the replicas. -/
def setModeLoop (order : MapOrder) (address : String) (mode : Mode) :
    List Replica → Replicator β → Option (List Replica × Replicator β)
  | [], backend => some ([], backend)
  | r :: rest, backend =>
    if r.address = address ∧ r.mode ≠ .ERR then
      match backend.setMode order address mode with
      | none => none
      | some backend =>
        match setModeLoop order address mode rest backend with
        | none => none
        | some (rest, backend) => some ({ r with mode := mode } :: rest, backend)
    else
      match setModeLoop order address mode rest backend with
      | none => none
      | some (rest, backend) => some (r :: rest, backend)

/-- `setReplicaModeNoLock`. -/
def setReplicaModeNoLock (order : MapOrder) (c : Controller β) (address : String) (mode : Mode) :
    Option (Controller β) :=
  match setModeLoop order address mode c.replicas c.backend with
  | none => none
  | some (replicas, backend) => some { c with replicas := replicas, backend := backend }

/-- `SetReplicaMode`. -/
def setReplicaMode (order : MapOrder) (c : Controller β) (address : String) (mode : Mode) :
    Option (Controller β × Option CtlErr) :=
  match mode with
  | .WO => some (c, some (.cannotSetMode mode))
  | _ => (c.setReplicaModeNoLock order address mode).map (fun c => (c, none))

/-- A loop that sets one address after the other to ERR. -/
def setErr (order : MapOrder) : List String → Controller β → Option (Controller β)
  | [], c => some c
  | address :: rest, c =>
    match c.setReplicaModeNoLock order address .ERR with
    | none => none
    | some c => setErr order rest c

/-! ## Handling an I/O error -/

/--
`categorizeOutOfSpaceReplicas`: the number of RW replicas, the written bytes of
those that are out of space, and the WO replicas that are.
-/
def categorizeOutOfSpaceReplicas (written : AList (fun _ : String => Nat)) :
    List Replica → Nat × AList (fun _ : String => Nat) × List String
  | [] => (0, ∅, [])
  | r :: rest =>
    let (count, rw, wo) := categorizeOutOfSpaceReplicas written rest
    match r.mode, written.lookup r.address with
    | .RW, some wbn => (count + 1, rw.insert r.address wbn, wo)
    | .RW, none => (count + 1, rw, wo)
    | .WO, some _ => (count, rw, r.address :: wo)
    | _, _ => (count, rw, wo)

/-- The replicas by the number of bytes they have written. -/
def writtenBytesReplicasMap (order : MapOrder) (written : AList (fun _ : String => Nat)) :
    AList (fun _ : Nat => Finset String) :=
  (entries order written).foldl
    (fun groups e => groups.insert e.2 (insert e.1 ((groups.lookup e.2).getD ∅))) ∅

/-- One group of the search for the largest: its size, and the written bytes of all that have it. -/
def maxReplicasNum (best : Nat × List Nat) (e : Nat × Finset String) : Nat × List Nat :=
  if best.1 < e.2.card then (e.2.card, [e.1])
  else if e.2.card = best.1 then (best.1, best.2 ++ [e.1])
  else best

/-- The largest number of a list, `none` for the `-1` the search starts from. -/
def maxWrittenBytes (l : List Nat) : Option Nat :=
  l.foldl (fun best wb =>
    match best with
    | none => some wb
    | some m => if m < wb then some wb else some m) none

/-- `getRetainedReplicasMap`. -/
def getRetainedReplicasMap (order : MapOrder) (written : AList (fun _ : String => Nat)) :
    Finset String :=
  let groups := writtenBytesReplicasMap order written
  match maxWrittenBytes ((entries order groups).foldl maxReplicasNum (0, [])).2 with
  | none => ∅
  | some wb => (groups.lookup wb).getD ∅

/-- `listReplicasToErrOnEnospc`. -/
def listReplicasToErrOnEnospc (order : MapOrder) (written : AList (fun _ : String => Nat)) :
    List String :=
  ((entries order written).map (fun e => e.1)).filter
    (fun address => address ∉ getRetainedReplicasMap order written)

/-- `handleDiskNoSpaceErrorForReplicas`. -/
def handleDiskNoSpaceErrorForReplicas (order : MapOrder) (c : Controller β)
    (noSpace : AList (fun _ : String => Nat)) : Option (Controller β × Bool) :=
  if noSpace.keys.length = 0 then some (c, false)
  else
    let (rwReplicaCount, rwOnEnospc, woList) := categorizeOutOfSpaceReplicas noSpace c.replicas
    match setErr order woList c with
    | none => none
    | some c =>
      if rwOnEnospc.keys.length = rwReplicaCount then
        if rwReplicaCount ≠ 1 then
          (setErr order (listReplicasToErrOnEnospc order rwOnEnospc) c).map (fun c => (c, true))
        else some (c, true)
      else
        (setErr order ((entries order rwOnEnospc).map (fun e => e.1)) c).map
          (fun c => (c, false))

/--
The loop of `handleErrorNoLock` over the errors: the addresses at which a snapshot
exists already, and the written bytes of those that are out of space.
-/
def errorLoop (order : MapOrder) (writtenBytes : AList (fun _ : String => Nat)) :
    List (String × Err) → Controller β → Finset String → AList (fun _ : String => Nat) →
      Option (Controller β × Finset String × AList (fun _ : String => Nat))
  | [], c, existing, noSpace => some (c, existing, noSpace)
  | (address, e) :: rest, c, existing, noSpace =>
    if isSnapshotDiskExist e then
      errorLoop order writtenBytes rest c (insert address existing) noSpace
    else if isNoSpace e then
      errorLoop order writtenBytes rest c existing
        (noSpace.insert address ((writtenBytes.lookup address).getD 0))
    else
      match c.setReplicaModeNoLock order address .ERR with
      | none => none
      | some c => errorLoop order writtenBytes rest c existing noSpace

/-- `handleErrorNoLock`. -/
def handleErrorNoLock (order : MapOrder) (c : Controller β) (err : Option IOErr) :
    Option (Controller β × Option IOErr) :=
  match err with
  | some (.backend bErr) =>
    if 0 < bErr.errors.keys.length then
      match errorLoop order bErr.writtenBytes (entries order bErr.errors) c ∅ ∅ with
      | none => none
      | some (c, existing, noSpace) =>
        match c.handleDiskNoSpaceErrorForReplicas order noSpace with
        | none => none
        | some (c, true) => some (c, some .noSpaceLeftOnDevice)
        | some (c, false) =>
          if existing = ∅ ∧ ∃ r ∈ c.replicas, r.mode = .RW then some (c, none)
          else some (c, err)
    else some (c, err)
  | _ => some (c, err)

/-! ## The data path -/

/-- The request reaches past the end of the volume; the sum is taken in 64 bits. -/
def beyond (c : Controller β) (length : Nat) (off : Int) : Prop :=
  off < 0 ∨ c.size < (off + length).bmod (2 ^ 64)

instance (c : Controller β) (length : Nat) (off : Int) : Decidable (c.beyond length off) :=
  inferInstanceAs (Decidable (_ ∨ _))

/-- What `ReadAt` does while it holds the lock: the buffer, the count and the error. -/
def readLocked (c : Controller β) (read : β → Replicator.ReadAnswer) (buf : List UInt8)
    (off : Int) : Option (Controller β × List UInt8 × Nat × Option IOErr) :=
  if c.beyond buf.length off then
    some (c, buf, 0, some (.beyondVolume buf.length off c.size))
  else
    match c.backend.readAt read buf with
    | none => none
    | some (backend, buf, n, err) => some ({ c with backend := backend }, buf, n, err)

/-- The end of a call on the data path: an error is handled under the lock once more. -/
def finish (order : MapOrder) (c : Controller β) (n : Nat) (err : Option IOErr) :
    Option (Controller β × Nat × Option IOErr) :=
  match err with
  | none => some (c, n, none)
  | some e => (c.handleErrorNoLock order (some e)).map (fun (c, err) => (c, n, err))

/-- Where the sectors begin that a write of `length` bytes at `off` touches. -/
def readOffsetStart (off : Nat) : Nat := off / volumeSectorSize * volumeSectorSize

/-- Where they end. -/
def readOffsetEnd (off length : Nat) : Nat :=
  if (off + length) % volumeSectorSize = 0 then off + length
  else ((off + length) / volumeSectorSize + 1) * volumeSectorSize

/-- The write needs no sectors read first. -/
def wholeSectors (off length : Nat) : Prop :=
  length = 0 ∨ off % volumeSectorSize = 0 ∧ length % volumeSectorSize = 0

instance (off length : Nat) : Decidable (wholeSectors off length) :=
  inferInstanceAs (Decidable (_ ∨ _))

/-- `writeInNormalMode`. -/
def writeInNormalMode (c : Controller β) (write : β → List UInt8 → Nat → Nat × Option Err)
    (b : List UInt8) (off : Nat) : Option (Controller β × Nat × Option IOErr) :=
  (c.backend.writeAt (fun w => write w b off) b.length).map (fun (n, err) => (c, n, err))

/-- `writeInWOMode`: a replica that is being rebuilt is only written whole sectors. -/
def writeInWOMode (c : Controller β) (read : β → Nat → Replicator.ReadAnswer)
    (write : β → List UInt8 → Nat → Nat × Option Err) (b : List UInt8) (off : Nat) :
    Option (Controller β × Nat × Option IOErr) :=
  if wholeSectors off b.length then c.writeInNormalMode write b off
  else
    let start := readOffsetStart off
    let readBuf := List.replicate (readOffsetEnd off b.length - start) 0
    match c.backend.readAt (fun r => read r start) readBuf with
    | none => none
    | some (backend, _, _, some err) => some ({ c with backend := backend }, 0, some (.retrieve err))
    | some (backend, readBuf, _, none) =>
      let startCut := off % volumeSectorSize
      let readBuf := Slice.copyAt readBuf startCut b
      match backend.writeAt (fun w => write w readBuf start) readBuf.length with
      | none => none
      | some (_, none) => some ({ c with backend := backend }, b.length, none)
      | some (n, some err) =>
        some ({ c with backend := backend },
          if n < startCut then 0 else if n - startCut < b.length then n - startCut else b.length,
          some err)

/-- `WriteAt`. -/
def writeAt (order : MapOrder) (c : Controller β)
    (read : β → Nat → Replicator.ReadAnswer)
    (write : β → List UInt8 → Nat → Nat × Option Err) (b : List UInt8) (off : Int) :
    Option (Controller β × Nat × Option IOErr) :=
  if c.beyond b.length off then some (c, 0, some (.beyondVolume b.length off c.size))
  else
    match (if c.hasWOReplica then c.writeInWOMode read write b off.toNat
      else c.writeInNormalMode write b off.toNat) with
    | none => none
    | some (c, n, err) => c.finish order n err

/-- `UnmapAt`. -/
def unmapAt (order : MapOrder) (c : Controller β) (unmap : β → Nat × Option Err)
    (length : UInt32) (off : Int) : Option (Controller β × Nat × Option IOErr) :=
  if c.beyond length.toNat off then some (c, 0, some (.beyondVolume length.toNat off c.size))
  else if c.hasWOReplica then some (c, 0, none)
  else if c.isExpanding then some (c, 0, some (.unmapWhileExpanding length.toNat off))
  else
    match c.backend.unmapAt order unmap with
    | none => none
    | some (n, err) => c.finish order n err

/-- `NewController`, in the part that matters here: no replicas and an empty replicator. -/
structure Fresh (c : Controller β) : Prop where
  replicas : c.replicas = []
  backend : c.backend = .zero

end Controller

end WeftBlock
