import WeftBlock.DataConn.Operation
import WeftBlock.Lib.Maps

/-!
# Replica modes and backend errors

The values the controller and its replicator hand each other: the mode of a
replica, the errors of a fan-out call and how their texts are told apart.
-/

namespace WeftBlock

open DataConn

/-- `types.Mode` of a replica: write only while it is rebuilt, read and write, or in error. -/
inductive Mode
  | WO
  | RW
  | ERR
deriving DecidableEq, Repr

namespace Controller

/-- `types.Replica`: one replica as the controller lists it. -/
structure Replica where
  address : String
  mode : Mode
deriving DecidableEq, Repr

/-- The error of a fan-out call, one slot for each backend it was sent to. -/
inductive FanErr
  /-- `*MultiWriterError`. -/
  | multiWriter (errors : List (Option Err)) (writtenBytes : List Nat)
  /-- `*MultiUnmapperError`. -/
  | multiUnmapper (errors : List (Option Err))

/-- `strings.Join(errors, "; ")`. -/
def joinTexts : List (List UInt8) → List UInt8
  | [] => []
  | [t] => t
  | t :: u :: ts => t ++ text "; " ++ joinTexts (u :: ts)

/-- The texts of the slots that hold an error, joined, or `Unknown` when there are none. -/
def slotsText (errors : List (Option Err)) : List UInt8 :=
  match (errors.filterMap id).map Err.text with
  | [] => text "Unknown"
  | ts => joinTexts ts

/-- `Error()` of either fan-out error. -/
def FanErr.text : FanErr → List UInt8
  | .multiWriter errors _ => slotsText errors
  | .multiUnmapper errors => slotsText errors

/-- `BackendError`: what went wrong at each address, and how much was written there before. -/
structure BackendError where
  errors : AList (fun _ : String => Err)
  writtenBytes : AList (fun _ : String => Nat)

/-- The errors of the data path. -/
inductive IOErr
  /-- `*BackendError`. -/
  | backend (e : BackendError)
  /-- `ErrNoBackend`. -/
  | noBackend
  /-- `types.ErrNoSpaceLeftOnDevice`. -/
  | noSpaceLeftOnDevice
  /-- `EOF: … of %v bytes at offset %v is beyond volume size %v`. -/
  | beyondVolume (length : Nat) (off size : Int)
  /-- `cannot unmap %v bytes at offset %v while expansion in is progress`. -/
  | unmapWhileExpanding (length : Nat) (off : Int)
  /-- `failed to retrieve aligned sectors from RW replicas`, around another error. -/
  | retrieve (e : IOErr)

/-- `strings.Contains`. -/
def contains (t part : List UInt8) : Bool := t.tails.any (fun s => part.isPrefixOf s)

/--
`isSnapshotDiskExist`: the text matches `snapshot (.*) is already existing`, where
the dot matches anything but a newline.
-/
def isSnapshotDiskExist (e : Err) : Bool :=
  e.text.tails.any (fun s => (text "snapshot ").isPrefixOf s
    && contains ((s.drop (text "snapshot ").length).takeWhile (fun x => x != 10))
      (text " is already existing"))

/-- The text contains `types.ErrorStringNoSpaceLeftOnDevice`. -/
def isNoSpace (e : Err) : Bool := contains e.text (text "no space left on device")

end Controller

end WeftBlock
