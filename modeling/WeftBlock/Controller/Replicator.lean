import WeftBlock.Controller.Types

/-!
# The replicator

`pkg/controller/replicator.go`: the map of backends by address, and the lists the
data path fans out to, which are rebuilt from the map after every change. A list
position is turned back into an address by an index map that the same rebuild
fills, so everything that names a replica after a failed call depends on the two
having been built together. `Built` says that they were, and every rebuild
establishes it whatever order the map was enumerated in.

A backend is any value `β`; the nil backend of a replica that could not be opened
is `none`. Calling a method of it is a panic, and so is the whole call: `none`.
-/

namespace WeftBlock

open DataConn Maps

/-- `backendWrapper`. -/
structure BackendWrapper (β : Type) where
  backend : Option β
  mode : Mode

/-- `replicator`, with the writers and unmappers that its fan-outs hold. -/
structure Replicator (β : Type) where
  backendsAvailable : Bool
  backends : AList (fun _ : String => BackendWrapper β)
  writerIndex : AList (fun _ : Nat => String)
  readerIndex : AList (fun _ : Nat => String)
  unmapperIndex : AList (fun _ : Nat => String)
  readers : List (Option β)
  writers : List (Option β)
  unmappers : List (Option β)
  next : Nat

namespace Replicator

variable {β : Type}

/-- `&replicator{}`. -/
def zero : Replicator β where
  backendsAvailable := false
  backends := ∅
  writerIndex := ∅
  readerIndex := ∅
  unmapperIndex := ∅
  readers := []
  writers := []
  unmappers := []
  next := 0

/-- `reset(false)`. -/
def reset (r : Replicator β) : Replicator β :=
  { r with
    backendsAvailable := false
    writers := []
    unmappers := []
    writerIndex := ∅
    readerIndex := ∅
    unmapperIndex := ∅ }

/-- One backend of the loop in `buildReaderWriterUnmappers`. -/
def enlist (r : Replicator β) (address : String) (b : BackendWrapper β) : Replicator β :=
  let r :=
    if b.mode ≠ .ERR then
      { r with
        writerIndex := r.writerIndex.insert r.writers.length address
        writers := r.writers ++ [b.backend]
        unmapperIndex := r.unmapperIndex.insert r.unmappers.length address
        unmappers := r.unmappers ++ [b.backend] }
    else r
  if b.mode = .RW then
    { r with
      readerIndex := r.readerIndex.insert r.readers.length address
      readers := r.readers ++ [b.backend] }
  else r

/-- `buildReaderWriterUnmappers`; the backends are met in the order of `order`. -/
def buildReaderWriterUnmappers (order : MapOrder) (r : Replicator β) : Replicator β :=
  let built := (entries order r.backends).foldl (fun r e => r.enlist e.1 e.2)
    { r.reset with readers := [] }
  if 0 < built.readers.length then { built with backendsAvailable := true } else built

/-- `AddBackend`. -/
def addBackend (order : MapOrder) (r : Replicator β) (address : String) (backend : Option β)
    (mode : Mode) : Replicator β :=
  if address ∈ r.backends then r
  else buildReaderWriterUnmappers order
    { r with backends := r.backends.insert address ⟨backend, mode⟩ }

/-- `RemoveBackend`; stopping the monitor and closing the connection leave no trace here. -/
def removeBackend (order : MapOrder) (r : Replicator β) (address : String) : Replicator β :=
  if address ∈ r.backends then
    buildReaderWriterUnmappers order { r with backends := r.backends.erase address }
  else r

/-- `SetMode`: going to ERR stops the monitor of the backend, which must not be nil. -/
def setMode (order : MapOrder) (r : Replicator β) (address : String) (mode : Mode) :
    Option (Replicator β) :=
  match r.backends.lookup address with
  | none => some r
  | some b =>
    if mode = .ERR ∧ b.backend = none then none
    else some (buildReaderWriterUnmappers order
      { r with backends := r.backends.insert address { b with mode := mode } })

/-! ## The data path -/

/-- What a backend does with a read: what it makes of the buffer, the count, the error. -/
structure ReadAnswer where
  fill : List UInt8 → List UInt8
  n : Nat
  err : Option Err

/-- The address an index map gives, the empty one for a position it does not have. -/
def addressOf (index : AList (fun _ : Nat => String)) (i : Nat) : String :=
  (index.lookup i).getD ""

/-- The loop of `ReadAt`: `k` more readers, the next of them at `index`. -/
def readLoop (r : Replicator β) (read : β → ReadAnswer) :
    Nat → Nat → List UInt8 → Nat → AList (fun _ : String => Err) →
      Option (List UInt8 × Nat × AList (fun _ : String => Err))
  | 0, _, buf, n, errors => some (buf, n, errors)
  | k + 1, index, buf, _, errors =>
    match r.readers[index]? with
    | some (some b) =>
      match (read b).err with
      | none => some ((read b).fill buf, (read b).n, errors)
      | some e =>
        readLoop r read k ((index + 1) % r.readers.length) ((read b).fill buf) (read b).n
          (errors.insert (addressOf r.readerIndex index) e)
    | _ => none

/-- `ReadAt`: the replicator with its `next` moved on, the buffer, the count, the error. -/
def readAt (r : Replicator β) (read : β → ReadAnswer) (buf : List UInt8) :
    Option (Replicator β × List UInt8 × Nat × Option Controller.IOErr) :=
  if r.backendsAvailable = false then some (r, buf, 0, some .noBackend)
  else
    let next := (r.next + 1) % r.readers.length
    match readLoop r read r.readers.length next buf 0 ∅ with
    | none => none
    | some (buf, n, errors) =>
      some ({ r with next := next }, buf, n,
        if errors.keys.length ≠ 0 then some (.backend ⟨errors, ∅⟩) else none)

/-- The answers of all backends of a fan-out, unless one of them is nil. -/
def callAll {γ : Type} (call : β → γ) (backends : List (Option β)) : Option (List γ) :=
  backends.mapM (fun b => b.map call)

/-- `MultiWriterAt.WriteAt` of a buffer of `length` bytes. -/
def multiWriteAt (writers : List (Option β)) (write : β → Nat × Option Err) (length : Nat) :
    Option (Nat × Option Controller.FanErr) :=
  match callAll write writers with
  | none => none
  | some answers =>
    let errs := answers.map (fun a => a.2)
    -- the count is kept for the failed writers only
    let wbs := answers.map (fun a => if a.2 = none then 0 else a.1)
    some (if none ∈ errs then length else 0,
      if ∀ e ∈ errs, e = none then none else some (.multiWriter errs wbs))

/-- `MultiUnmapperAt.UnmapAt`; the size is the first that is not zero, in the order of arrival. -/
def multiUnmapAt (order : MapOrder) (unmappers : List (Option β))
    (unmap : β → Nat × Option Err) : Option (Nat × Option Controller.FanErr) :=
  match callAll unmap unmappers with
  | none => none
  | some answers =>
    let errs := answers.map (fun a => a.2)
    some (((order.enum (answers.map (fun a => a.1))).find? (fun n => n != 0)).getD 0,
      if ∀ e ∈ errs, e = none then none else some (.multiUnmapper errs))

/--
The error of each slot that holds one goes to the address of that slot, with the
bytes written there.
-/
def blame (index : AList (fun _ : Nat => String)) :
    Nat → List (Option Err × Nat) → Controller.BackendError → Controller.BackendError
  | _, [], acc => acc
  | i, (none, _) :: slots, acc => blame index (i + 1) slots acc
  | i, (some e, wb) :: slots, acc =>
    blame index (i + 1) slots
      ⟨acc.errors.insert (addressOf index i) e, acc.writtenBytes.insert (addressOf index i) wb⟩

/-- `WriteAt`. -/
def writeAt (r : Replicator β) (write : β → Nat × Option Err) (length : Nat) :
    Option (Nat × Option Controller.IOErr) :=
  if r.backendsAvailable = false then some (0, some .noBackend)
  else
    match multiWriteAt r.writers write length with
    | none => none
    | some (n, none) => some (n, none)
    | some (n, some (.multiWriter errs wbs)) =>
      some (n, some (.backend (blame r.writerIndex 0 (errs.zip wbs) ⟨∅, ∅⟩)))
    | some (n, some err) =>
      some (n, some (.backend
        ⟨AList.singleton (addressOf r.writerIndex 0) (.other err.text), ∅⟩))

/-- `UnmapAt`, which like `WriteAt` looks for a `*MultiWriterError`. -/
def unmapAt (order : MapOrder) (r : Replicator β) (unmap : β → Nat × Option Err) :
    Option (Nat × Option Controller.IOErr) :=
  if r.backendsAvailable = false then some (0, some .noBackend)
  else
    match multiUnmapAt order r.unmappers unmap with
    | none => none
    | some (n, none) => some (n, none)
    | some (n, some (.multiWriter errs wbs)) =>
      some (n, some (.backend ⟨(blame r.unmapperIndex 0 (errs.zip wbs) ⟨∅, ∅⟩).errors, ∅⟩))
    | some (n, some err) =>
      some (n, some (.backend
        ⟨AList.singleton (addressOf r.unmapperIndex 0) (.other err.text), ∅⟩))

/-! ## What a rebuild establishes -/

/-- `index` and `handles` list the backends of `es` that `keep` keeps, in that order. -/
structure Enlists (keep : Mode → Bool) (es : List (String × BackendWrapper β))
    (index : AList (fun _ : Nat => String)) (handles : List (Option β)) : Prop where
  numbers : Numbers index ((es.filter (fun e => keep e.2.mode)).map (fun e => e.1))
  handles_eq : handles = (es.filter (fun e => keep e.2.mode)).map (fun e => e.2.backend)

variable {keep : Mode → Bool} {es : List (String × BackendWrapper β)}
  {index : AList (fun _ : Nat => String)} {handles : List (Option β)}

theorem enlists_nil : Enlists keep ([] : List (String × BackendWrapper β)) ∅ [] :=
  ⟨numbers_empty, rfl⟩

section

variable (h : Enlists keep es index handles) (a : String) {b : BackendWrapper β}
include h

theorem Enlists.push (hb : keep b.mode = true) :
    Enlists keep (es ++ [(a, b)]) (index.insert handles.length a) (handles ++ [b.backend]) := by
  have hf : (es ++ [(a, b)]).filter (fun e => keep e.2.mode)
      = es.filter (fun e => keep e.2.mode) ++ [(a, b)] := by
    simp [List.filter_append, hb]
  have hlen : handles.length = ((es.filter (fun e => keep e.2.mode)).map (fun e => e.1)).length := by
    rw [h.handles_eq, List.length_map, List.length_map]
  refine ⟨?_, ?_⟩
  · rw [hf, hlen, List.map_append]
    exact h.numbers.push a
  · rw [hf, List.map_append, h.handles_eq]
    rfl

theorem Enlists.skip (hb : keep b.mode = false) : Enlists keep (es ++ [(a, b)]) index handles := by
  have hf : (es ++ [(a, b)]).filter (fun e => keep e.2.mode)
      = es.filter (fun e => keep e.2.mode) := by
    simp [List.filter_append, hb]
  exact ⟨hf ▸ h.numbers, hf ▸ h.handles_eq⟩

end

/-- The modes that are read from. -/
def readable (m : Mode) : Bool := m = .RW

/-- The modes that are written to and unmapped. -/
def writable (m : Mode) : Bool := m ≠ .ERR

/-- The three lists and their index maps list the backends of `es`. -/
structure Lists (r : Replicator β) (es : List (String × BackendWrapper β)) : Prop where
  readers : Enlists readable es r.readerIndex r.readers
  writers : Enlists writable es r.writerIndex r.writers
  unmappers : Enlists writable es r.unmapperIndex r.unmappers

theorem Lists.enlist {r : Replicator β} (h : Lists r es) (a : String) (b : BackendWrapper β) :
    Lists (r.enlist a b) (es ++ [(a, b)]) := by
  unfold Replicator.enlist
  cases hb : b.mode with
  | RW =>
    exact ⟨h.readers.push a (by rw [hb]; rfl), h.writers.push a (by rw [hb]; rfl),
      h.unmappers.push a (by rw [hb]; rfl)⟩
  | WO =>
    exact ⟨h.readers.skip a (by rw [hb]; rfl), h.writers.push a (by rw [hb]; rfl),
      h.unmappers.push a (by rw [hb]; rfl)⟩
  | ERR =>
    exact ⟨h.readers.skip a (by rw [hb]; rfl), h.writers.skip a (by rw [hb]; rfl),
      h.unmappers.skip a (by rw [hb]; rfl)⟩

theorem Lists.foldl {r : Replicator β} (h : Lists r es) (more : List (String × BackendWrapper β)) :
    Lists (more.foldl (fun r e => r.enlist e.1 e.2) r) (es ++ more) := by
  induction more generalizing r es with
  | nil => rw [List.append_nil]; exact h
  | cons e more ih =>
    rw [List.foldl_cons, List.append_cons]
    exact ih (h.enlist e.1 e.2)

theorem backends_enlist (r : Replicator β) (a : String) (b : BackendWrapper β) :
    (r.enlist a b).backends = r.backends
      ∧ (r.enlist a b).backendsAvailable = r.backendsAvailable := by
  unfold enlist
  cases hb : b.mode <;> exact ⟨rfl, rfl⟩

theorem backends_foldl (more : List (String × BackendWrapper β)) (r : Replicator β) :
    (more.foldl (fun r e => r.enlist e.1 e.2) r).backends = r.backends
      ∧ (more.foldl (fun r e => r.enlist e.1 e.2) r).backendsAvailable = r.backendsAvailable := by
  induction more generalizing r with
  | nil => exact ⟨rfl, rfl⟩
  | cons e more ih =>
    obtain ⟨h1, h2⟩ := backends_enlist r e.1 e.2
    rw [List.foldl_cons]
    exact ⟨(ih _).1.trans h1, (ih _).2.trans h2⟩

/-- The lists are those of an enumeration `es` of the backend map. -/
structure Built (r : Replicator β) (es : List (String × BackendWrapper β)) : Prop where
  nodup : (es.map (fun e => e.1)).Nodup
  mem_iff : ∀ a b, (a, b) ∈ es ↔ r.backends.lookup a = some b
  lists : Lists r es
  available : r.backendsAvailable = true ↔ 0 < r.readers.length

theorem built_zero : Built (zero : Replicator β) [] where
  nodup := List.nodup_nil
  mem_iff a b := by simp [zero]
  lists := ⟨enlists_nil, enlists_nil, enlists_nil⟩
  available := by simp [zero]

@[simp] theorem backends_build (order : MapOrder) (r : Replicator β) :
    (r.buildReaderWriterUnmappers order).backends = r.backends := by
  unfold buildReaderWriterUnmappers
  dsimp only
  split <;> exact (backends_foldl _ _).1

/-- **Every rebuild leaves lists and index maps that belong to the backend map.** -/
theorem built_build (order : MapOrder) (r : Replicator β) :
    Built (r.buildReaderWriterUnmappers order) (entries order r.backends) := by
  have h0 : Lists { r.reset with readers := [] } ([] : List (String × BackendWrapper β)) :=
    ⟨enlists_nil, enlists_nil, enlists_nil⟩
  have hl := h0.foldl (entries order r.backends)
  obtain ⟨hb, ha⟩ := backends_foldl (entries order r.backends) { r.reset with readers := [] }
  rw [List.nil_append] at hl
  refine ⟨nodup_entries order _, fun a b => ?_, ?_, ?_⟩
  · rw [backends_build]
    exact mem_entries
  · unfold buildReaderWriterUnmappers
    dsimp only
    split
    · exact ⟨hl.readers, hl.writers, hl.unmappers⟩
    · exact hl
  · unfold buildReaderWriterUnmappers
    dsimp only
    split
    · rename_i h
      exact ⟨fun _ => h, fun _ => rfl⟩
    · rename_i h
      rw [ha]
      exact ⟨fun hh => absurd hh Bool.false_ne_true, fun hh => absurd hh h⟩

end Replicator

end WeftBlock
