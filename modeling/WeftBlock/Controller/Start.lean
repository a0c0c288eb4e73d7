import WeftBlock.Controller.Control

/-!
# Starting a volume and verifying a rebuild

The two operations that decide which replicas are good. `Start` opens a backend
for every address, keeps those that agree on sizes and state, and then demotes
replicas by a series of checks; `VerifyRebuildReplica` promotes the one that has
been rebuilt. Whatever the backends answer is in the `Answers` of the call.
-/

namespace WeftBlock

open DataConn Maps

namespace Controller

variable {β : Type}

/-! ## Loops over the replicas -/

/--
A loop over the positions of `c.replicas` whose body may change the controller. The
entry is read when its turn comes, and an error leaves the loop.
-/
def eachReplica {α : Type}
    (body : Controller β → α → Replica → Option (Controller β × α × Option CtlErr)) :
    List Nat → Controller β → α → Option (Controller β × α × Option CtlErr)
  | [], c, acc => some (c, acc, none)
  | i :: is, c, acc =>
    match c.replicas[i]? with
    | none => none
    | some r =>
      match body c acc r with
      | none => none
      | some (c, acc, some e) => some (c, acc, some e)
      | some (c, acc, none) => eachReplica body is c acc

/-- A call of a method of the backend at an address, which must have one. -/
def ask {γ : Type} (c : Controller β) (address : String) (answer : Except Err γ) :
    Option (Except CtlErr γ) :=
  match c.backend.backends.lookup address with
  | none => some (.error (.noSuchBackend address))
  | some b =>
    if b.backend = none then none
    else
      match answer with
      | .error e => some (.error (.backend e))
      | .ok x => some (.ok x)

/-- The same through the map alone, where an address without an entry is a nil backend. -/
def askDirect {γ : Type} (c : Controller β) (address : String) (answer : Except Err γ) :
    Option (Except CtlErr γ) :=
  if address ∈ c.backend.backends then c.ask address answer else none

/-! ## Start -/

/-- What the backends answer to `Start`, by address, and what the frontend answers. -/
structure StartAnswers (β : Type) where
  create : String → Except Err β
  size : String → Except Err Int
  /-- The size once more, when the volume size has been settled. -/
  sizeAgain : String → Except Err Int
  sectorSize : String → Except Err Int
  getState : String → Except Err String
  getUnmapMarkSnapChainRemoved : String → Except Err Bool
  setUnmapMarkSnapChainRemoved : String → Except Err Unit
  isRevisionCounterDisabled : String → Except Err Bool
  getLastModifyTime : String → Except Err Int
  getHeadFileSize : String → Except Err Int
  getRevisionCounter : String → Except Err Int
  startFrontend : Option CtlErr

/-- `isReplicaInInvalidState`. -/
def isReplicaInInvalidState (state : String) : Bool := state ≠ "open" && state ≠ "dirty"

/-- `checkDuplicateAddress`. -/
def checkDuplicateAddress : List String → Finset String → Option CtlErr
  | [], _ => none
  | address :: rest, seen =>
    if address ∈ seen then some (.duplicateAddress address)
    else checkDuplicateAddress rest (insert address seen)

/-- `determineCorrectVolumeSize`. -/
def determineCorrectVolumeSize (volumeSize volumeCurrentSize : Int) (backendSizes : Finset Int) :
    Int :=
  if volumeCurrentSize = 0 then volumeSize
  else if backendSizes = {volumeSize} then volumeSize
  else volumeCurrentSize

/-- What the first loop of `Start` collects. -/
structure Opened (β : Type) where
  availableBackends : AList (fun _ : String => β)
  backendSizes : Finset Int
  /-- Some backend was unavailable. -/
  unavailable : Bool
  /-- The sector size of the first backend that answered everything. -/
  sectorSize : Option Int

/-- An error text says that the service is not there. -/
def isUnavailable (e : Err) : Bool := contains e.text (text "rpc error: code = Unavailable")

/-- One address of the first loop of `Start`; resetting a rebuild flag leaves no trace here. -/
def openBackend (answers : StartAnswers β) (o : Opened β) (address : String) : Opened β :=
  match answers.create address with
  | .error e => { o with unavailable := o.unavailable || isUnavailable e }
  | .ok newBackend =>
    match answers.size address with
    | .error e => { o with unavailable := o.unavailable || isUnavailable e }
    | .ok newSize =>
      match answers.sectorSize address with
      | .error e => { o with unavailable := o.unavailable || isUnavailable e }
      | .ok newSectorSize =>
        match answers.getState address with
        | .error e => { o with unavailable := o.unavailable || isUnavailable e }
        | .ok state =>
          if isReplicaInInvalidState state then o
          else
            let sectorSize := o.sectorSize.getD newSectorSize
            if sectorSize ≠ newSectorSize then { o with sectorSize := some sectorSize }
            else
              { o with
                sectorSize := some sectorSize
                availableBackends := o.availableBackends.insert address newBackend
                backendSizes := insert newSize o.backendSizes }

/-- The second loop of `Start`: backends of another size are dropped. -/
def dropOtherSizes (answers : StartAnswers β) (size : Int) :
    List (String × β) → AList (fun _ : String => β) → AList (fun _ : String => β)
  | [], available => available
  | (address, _) :: rest, available =>
    match answers.sizeAgain address with
    | .error _ => dropOtherSizes answers size rest (available.erase address)
    | .ok s =>
      dropOtherSizes answers size rest (if size ≠ s then available.erase address else available)

/-- The third loop of `Start`: every address becomes a replica, with a backend or in error. -/
def addOpened (order : MapOrder) (available : AList (fun _ : String => β)) :
    List String → Controller β → Option (Controller β × Option CtlErr)
  | [], c => some (c, none)
  | address :: rest, c =>
    let noAnswers : SnapshotAnswers := ⟨fun _ => .error .eof, fun _ => .error .eof, fun _ => none⟩
    match (match available.lookup address with
      | some newBackend => c.addReplicaNoLock order (some newBackend) address false .RW noAnswers
      | none => c.addReplicaNoLock order none address false .ERR noAnswers) with
    | none => none
    | some (c, some e) => some (c, some e)
    | some (c, none) => addOpened order available rest c

/-- One replica of `checkUnmapMarkSnapChainRemoved`; the flag tells whether all have failed. -/
def checkUnmapMark (order : MapOrder) (answers : StartAnswers β) (expected : Bool)
    (c : Controller β) (allFailed : Bool) (r : Replica) :
    Option (Controller β × Bool × Option CtlErr) :=
  if r.mode = .ERR then some (c, allFailed, none)
  else
    match c.ask r.address (answers.getUnmapMarkSnapChainRemoved r.address) with
    | none => none
    | some (.error e) => some (c, allFailed, some e)
    | some (.ok enabled) =>
      if enabled ≠ expected then
        match c.ask r.address (answers.setUnmapMarkSnapChainRemoved r.address) with
        | none => none
        | some (.error _) =>
          (c.setReplicaModeNoLock order r.address .ERR).map (fun c => (c, allFailed, none))
        | some (.ok ()) => some (c, false, none)
      else some (c, false, none)

/-- `checkUnmapMarkSnapChainRemoved`. -/
def checkUnmapMarkSnapChainRemoved (order : MapOrder) (answers : StartAnswers β)
    (c : Controller β) : Option (Controller β × Option CtlErr) :=
  match eachReplica (checkUnmapMark order answers c.unmapMarkSnapChainRemoved)
    (List.range c.replicas.length) c true with
  | none => none
  | some (c, _, some e) => some (c, some e)
  | some (c, true, none) => some (c, some (.unmapMarkAllFailed c.unmapMarkSnapChainRemoved))
  | some (c, false, none) => some (c, none)

/-- One replica of `checkReplicaRevCounterSettingMatch`. -/
def checkRevCounterSetting (order : MapOrder) (answers : StartAnswers β) (c : Controller β)
    (_ : Unit) (r : Replica) : Option (Controller β × Unit × Option CtlErr) :=
  if r.mode = .ERR then some (c, (), none)
  else
    match c.askDirect r.address (answers.isRevisionCounterDisabled r.address) with
    | none => none
    | some (.error e) => some (c, (), some e)
    | some (.ok revCounterDisabled) =>
      if c.revisionCounterDisabled ≠ revCounterDisabled then
        (c.setReplicaModeNoLock order r.address .ERR).map (fun c => (c, (), none))
      else some (c, (), none)

/-- `checkReplicaRevCounterSettingMatch`. -/
def checkReplicaRevCounterSettingMatch (order : MapOrder) (answers : StartAnswers β)
    (c : Controller β) : Option (Controller β × Option CtlErr) :=
  (eachReplica (checkRevCounterSetting order answers) (List.range c.replicas.length) c ()).map
    (fun (c, _, err) => (c, err))

/-- `types.ReplicaSalvageInfo`. -/
structure ReplicaSalvageInfo where
  address : String
  lastModifyTime : Int
  headFileSize : Int

/-- `lastModifyCheckPeriod`, five seconds in nanoseconds. -/
def lastModifyCheckPeriod : Int := 5000000000

/-- The candidates for the salvage: the replicas that are not in error. -/
def salvageCandidates (answers : StartAnswers β) (c : Controller β) :
    List Replica → Option (Except CtlErr (List ReplicaSalvageInfo))
  | [] => some (.ok [])
  | r :: rest =>
    if r.mode = .ERR then salvageCandidates answers c rest
    else
      match c.askDirect r.address (answers.getLastModifyTime r.address) with
      | none => none
      | some (.error e) => some (.error e)
      | some (.ok lastModifyTime) =>
        match c.askDirect r.address (answers.getHeadFileSize r.address) with
        | none => none
        | some (.error e) => some (.error e)
        | some (.ok headFileSize) =>
          (salvageCandidates answers c rest).map (fun found =>
            found.map (fun infos => ⟨r.address, lastModifyTime, headFileSize⟩ :: infos))

/-- The latest of the modification times, `none` for the zero time the search starts from. -/
def lastModifyTime (infos : List ReplicaSalvageInfo) : Option Int :=
  infos.foldl (fun last info =>
    match last with
    | none => some info.lastModifyTime
    | some t => if t < info.lastModifyTime then some info.lastModifyTime else some t) none

/-- One candidate of the search for the best. -/
def betterCandidate (last : Int) (best : Option ReplicaSalvageInfo) (info : ReplicaSalvageInfo) :
    Option ReplicaSalvageInfo :=
  if last < info.lastModifyTime + lastModifyCheckPeriod then
    match best with
    | none => some info
    | some b =>
      if b.headFileSize < info.headFileSize
          ∨ info.headFileSize = b.headFileSize ∧ b.lastModifyTime < info.lastModifyTime
      then some info else some b
  else best

/-- One replica of the last loop of the salvage: the best stays, the others go to ERR. -/
def salvageReplica (order : MapOrder) (best : String) (c : Controller β) (_ : Unit)
    (r : Replica) : Option (Controller β × Unit × Option CtlErr) :=
  (c.setReplicaModeNoLock order r.address (if r.address ≠ best then .ERR else .RW)).map
    (fun c => (c, (), none))

/-- `salvageRevisionCounterDisabledReplicas`. -/
def salvageRevisionCounterDisabledReplicas (order : MapOrder) (answers : StartAnswers β)
    (c : Controller β) : Option (Controller β × Option CtlErr) :=
  match salvageCandidates answers c c.replicas with
  | none => none
  | some (.error e) => some (c, some e)
  | some (.ok infos) =>
    match lastModifyTime infos with
    | none => some (c, some .nothingToSalvage)
    | some last =>
      match infos.foldl (betterCandidate last) none with
      | none => some (c, some .noSalvageCandidate)
      | some best =>
        (eachReplica (salvageReplica order best.address) (List.range c.replicas.length)
          c ()).map (fun (c, _, err) => (c, err))

/-- The largest revision counter of the replicas that are not in error, and all of them. -/
def revisionCounters (answers : StartAnswers β) (c : Controller β) :
    List Replica → Int → AList (fun _ : String => Int) →
      Option (Except CtlErr (Int × AList (fun _ : String => Int)))
  | [], expectedRevision, counters => some (.ok (expectedRevision, counters))
  | r :: rest, expectedRevision, counters =>
    if r.mode = .ERR then revisionCounters answers c rest expectedRevision counters
    else
      match c.ask r.address (answers.getRevisionCounter r.address) with
      | none => none
      | some (.error e) => some (.error e)
      | some (.ok counter) =>
        revisionCounters answers c rest (max expectedRevision counter)
          (counters.insert r.address counter)

/-- `checkReplicasRevisionCounter`. -/
def checkReplicasRevisionCounter (order : MapOrder) (answers : StartAnswers β)
    (c : Controller β) : Option (Controller β × Option CtlErr) :=
  match revisionCounters answers c c.replicas 0 ∅ with
  | none => none
  | some (.error e) => some (c, some e)
  | some (.ok (expectedRevision, counters)) =>
    (setErr order (((entries order counters).filter (fun e => e.2 ≠ expectedRevision)).map
      (fun e => e.1)) c).map (fun c => (c, none))

/-- The checks of `Start` on the replicas it has added, one after the other. -/
def checkReplicas (order : MapOrder) (answers : StartAnswers β) (c : Controller β) :
    Option (Controller β × Option CtlErr) :=
  match c.checkUnmapMarkSnapChainRemoved order answers with
  | none => none
  | some (c, some e) => some (c, some e)
  | some (c, none) =>
    if c.isUpgrade then some (c, none)
    else
      match c.checkReplicaRevCounterSettingMatch order answers with
      | none => none
      | some (c, some e) => some (c, some e)
      | some (c, none) =>
        if c.revisionCounterDisabled then
          if c.salvageRequested then c.salvageRevisionCounterDisabledReplicas order answers
          else some (c, none)
        else c.checkReplicasRevisionCounter order answers

/-- `Start`. -/
def start (order : MapOrder) (c : Controller β) (volumeSize volumeCurrentSize : Int)
    (addresses : List String) (answers : StartAnswers β) :
    Option (Controller β × Option CtlErr) :=
  if addresses.length = 0 then some (c, none)
  else
    match checkDuplicateAddress addresses ∅ with
    | some e => some (c, some e)
    | none =>
      if 0 < c.replicas.length then some (c, none)
      else
        let o := addresses.foldl (openBackend answers) ⟨∅, ∅, false, none⟩
        let size := determineCorrectVolumeSize volumeSize volumeCurrentSize o.backendSizes
        let available := dropOtherSizes answers size (entries order o.availableBackends)
          o.availableBackends
        let c := { c.reset with size := size, sectorSize := o.sectorSize.getD c.sectorSize }
        match addOpened order available addresses c with
        | none => none
        | some (c, some e) => some (c, some e)
        | some (c, none) =>
          if available.keys.length = 0 then
            some (c, some (if o.unavailable then .serviceUnavailable addresses
              else .noAvailableBackend addresses))
          else
            match c.checkReplicas order answers with
            | none => none
            | some (c, some e) => some (c, some e)
            | some (c, none) => some (c, answers.startFrontend)

/-! ## VerifyRebuildReplica -/

/-- What the replicas answer to `VerifyRebuildReplica`: the disks of the two, and the counters. -/
structure VerifyAnswers where
  fromDisks : Except Err (Finset String)
  toDisks : Except Err (Finset String)
  getRevisionCounter : Except Err Int
  /-- By the counter that is to be set. -/
  setRevisionCounter : Int → Except Err Unit

/-- `getCurrentAndRWReplica`: the replica, and the last other one that is RW. -/
def getCurrentAndRWReplica (c : Controller β) (address : String) :
    Except CtlErr (Replica × Replica) :=
  match c.replicas.reverse.find? (fun r => r.address = address),
    c.replicas.reverse.find? (fun r => r.address ≠ address ∧ r.mode = .RW) with
  | none, _ => .error (.noSuchReplica address)
  | some _, none => .error .noHealthyReplica
  | some current, some rwReplica => .ok (current, rwReplica)

/-- The body of `VerifyRebuildReplica`, up to its deferred function. -/
def verifyBody (order : MapOrder) (c : Controller β) (address : String)
    (answers : VerifyAnswers) : Option (Controller β × Option CtlErr) :=
  match c.getCurrentAndRWReplica address with
  | .error e => some (c, some e)
  | .ok (replica, rwReplica) =>
    if replica.mode = .RW then some (c, none)
    else if replica.mode ≠ .WO then some (c, some (.invalidMode replica.mode address))
    else
      match answers.fromDisks, answers.toDisks with
      | .error e, _ => some (c, some (.backend e))
      | .ok _, .error e => some (c, some (.backend e))
      | .ok fromDisks, .ok toDisks =>
        if fromDisks.card ≠ toDisks.card then
          some (c, some (.diskNumber address rwReplica.address))
        else if ¬ fromDisks ⊆ toDisks then
          some (c, some (.diskChain address rwReplica.address))
        else if c.revisionCounterDisabled then
          (c.setReplicaModeNoLock order address .RW).map (fun c => (c, none))
        else
          match c.ask rwReplica.address answers.getRevisionCounter with
          | none => none
          | some (.error e) =>
            some (c, some (.getRevisionCounter rwReplica.address
              (if rwReplica.address ∈ c.backend.backends then 0 else -1) e))
          | some (.ok counter) =>
            -- wrapping a nil error gives nil: the replica silently stays WO
            if counter = -1 then some (c, none)
            else
              match c.ask address (answers.setRevisionCounter counter) with
              | none => none
              | some (.error e) => some (c, some (.setRevisionCounter address e))
              | some (.ok ()) =>
                (c.setReplicaModeNoLock order address .RW).map (fun c => (c, none))

/-- `VerifyRebuildReplica`: after an error the replica is set to ERR. -/
def verifyRebuildReplica (order : MapOrder) (c : Controller β) (address : String)
    (answers : VerifyAnswers) : Option (Controller β × Option CtlErr) :=
  match c.verifyBody order address answers with
  | none => none
  | some (c, none) => some (c, none)
  | some (c, some e) => (c.setReplicaModeNoLock order address .ERR).map (fun c => (c, some e))

end Controller

end WeftBlock
