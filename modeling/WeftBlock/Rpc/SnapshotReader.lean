import WeftBlock.Replica.Compare
import WeftBlock.Replica.Faithful

/-!
# Streaming a snapshot

`snapshotReaderServer` of `pkg/replica/rpc/weftsnap_server.go`. `Read` opens the snapshot
read-only and sends the requested ranges in chunks, all of them read into one buffer;
`Compare` reports the blocks in which a snapshot differs from its parent. The transport,
its errors and the cancelling of a stream are left out.

Which chunks are sent, and with which bytes, is told by `pieces` and `send`: a read inside
the volume always returns as many bytes as it was asked for, and leaves in the buffer what
`leaves` says.
-/

namespace WeftBlock

open Slice

/-- What the server's calls return as an error. -/
inductive SnapErr
  /-- `snapshot_name is required`. -/
  | nameRequired
  /-- `volume mismatch: this replica serves %q, got request for %q`. -/
  | volumeMismatch (own got : String)
  /-- `replica server has no open replica`. -/
  | noReplica
  /-- `replica server has no state dir set`. -/
  | noDir
  /-- `open snapshot %s in %s: %w`. -/
  | openSnapshot (name : String) (e : ReplicaErr)
  /-- `invalid range offset=%d size=%d (snapshot size=%d)`. -/
  | invalidRange (offset size : Int) (snapshotSize : Nat)
  /-- `read snapshot at offset %d: %w`. -/
  | readAt (offset : Nat) (e : DiskErr)
  /-- The chunk was cut to a length it does not have, a runtime panic. -/
  | sliceBounds (n : Int)
  /-- `compare snapshots %s vs %s: %v`. -/
  | compareSnapshots (name parent : String) (e : CompareErr)
deriving DecidableEq

/-- `ReadChunk`. -/
structure Chunk where
  offset : Nat
  data : List UInt8
  last : Bool
deriving DecidableEq

/-- `ReadRequest`. -/
structure ReadRequest where
  volumeName : String
  snapshotName : String
  chunkSize : Int
  /-- Offset and size. -/
  ranges : List (Int × Int)

/-- `CompareRequest`. -/
structure CompareRequest where
  volumeName : String
  snapshotName : String
  parentSnapshotName : String
  blockSize : Int

/-- `snapshotDiskName`. -/
def snapshotDiskName (snapName : String) : String := "volume-snap-" ++ snapName ++ ".img"

/-- The disk of the parent, if one is named. -/
def CompareRequest.parentDisk (req : CompareRequest) : String :=
  if req.parentSnapshotName = "" then "" else snapshotDiskName req.parentSnapshotName

/-- `snapshotReaderServer`, with what the replica server answers. -/
structure SnapshotReader where
  volumeName : String
  replica : Option Replica
  stateDir : String

/-- `defaultChunkSize` and `defaultCompareBlockSize`. -/
def defaultChunkSize : Nat := 4 * 1024 * 1024

/-- The loop over one range, from `off` on, with the open volume and the buffer. -/
def streamRange (chunkSize : Nat) (lastRange : Bool) (stop off : Nat) (d : DiffDisk)
    (buf : List UInt8) : List Chunk × Except SnapErr (DiffDisk × List UInt8) :=
  if off < stop then
    let b := if stop - off < chunkSize then buf.take (stop - off) else buf
    let out := d.readAt b off
    match out.err with
    | some e => ([], .error (.readAt off e))
    | none =>
      let buf' := copyAt buf 0 out.buf
      if out.n = 0 then ([], .ok (out.disk, buf'))
      else if out.n < 0 ∨ b.length < out.n then ([], .error (.sliceBounds out.n))
      else
        let n := out.n.toNat
        let (chunks, res) := streamRange chunkSize lastRange stop (off + n) out.disk buf'
        (⟨off, out.buf.take n, lastRange && decide (stop ≤ off + n)⟩ :: chunks, res)
  else ([], .ok (d, buf))
termination_by stop - off
decreasing_by
  show stop - (off + out.n.toNat) < stop - off
  omega

/-- The loop over the ranges; the last one carries the `Last` flag. -/
def streamRanges (chunkSize : Nat) : List (Nat × Nat) → DiffDisk → List UInt8 →
    List Chunk × Except SnapErr Unit
  | [], _, _ => ([], .ok ())
  | (offset, size) :: rest, d, buf =>
    match streamRange chunkSize rest.isEmpty (offset + size) offset d buf with
    | (chunks, .error e) => (chunks, .error e)
    | (chunks, .ok (d', buf')) =>
      let (chunks', res) := streamRanges chunkSize rest d' buf'
      (chunks ++ chunks', res)

/-- The check of the requested ranges. -/
def checkRanges (size : Nat) : List (Int × Int) → Except SnapErr (List (Nat × Nat))
  | [] => .ok []
  | (offset, len) :: rest =>
    if offset < 0 ∨ len ≤ 0 ∨ (size : Int) < offset + len then
      .error (.invalidRange offset len size)
    else (checkRanges size rest).map ((offset.toNat, len.toNat) :: ·)

namespace SnapshotReader

/-- What `Read` and `Compare` check before they open the snapshot. -/
def checked (s : SnapshotReader) (volumeName snapshotName : String) : Except SnapErr Dir :=
  if snapshotName = "" then .error .nameRequired
  else
    let volumeName := if volumeName = "" then s.volumeName else volumeName
    if volumeName ≠ s.volumeName then .error (.volumeMismatch s.volumeName volumeName)
    else
      match s.replica with
      | none => .error .noReplica
      | some r => if s.stateDir = "" then .error .noDir else .ok r.dir

/-- `Read`: the chunks that were sent, and what was returned. -/
def read (s : SnapshotReader) (req : ReadRequest) : List Chunk × Except SnapErr Unit :=
  match s.checked req.volumeName req.snapshotName with
  | .error e => ([], .error e)
  | .ok dir =>
    let chunkSize := if req.chunkSize ≤ 0 then defaultChunkSize else req.chunkSize.toNat
    let snapDisk := snapshotDiskName req.snapshotName
    match newReadOnly dir snapDisk none with
    | .error e => ([], .error (.openSnapshot snapDisk e))
    | .ok ro =>
      let size := ro.info.size
      match (if req.ranges = [] then .ok [(0, size)] else checkRanges size req.ranges) with
      | .error e => ([], .error e)
      | .ok ranges => streamRanges chunkSize ranges ro.view (List.replicate chunkSize 0)

/-- `Compare`: the block size and the ranges. -/
def compare (s : SnapshotReader) (req : CompareRequest) :
    Except SnapErr (Int × List SnapshotRange) :=
  match s.checked req.volumeName req.snapshotName with
  | .error e => .error e
  | .ok dir =>
    let blockSize := if req.blockSize ≤ 0 then (defaultChunkSize : Int) else req.blockSize
    let snapDisk := snapshotDiskName req.snapshotName
    let parentDisk := req.parentDisk
    match newReadOnly dir snapDisk none with
    | .error e => .error (.openSnapshot snapDisk e)
    | .ok ro =>
      match (ro.compareSnapshot snapDisk parentDisk blockSize).2 with
      | .error e => .error (.compareSnapshots snapDisk parentDisk e)
      | .ok ranges => .ok (blockSize, ranges)

end SnapshotReader

/-! ## What is sent -/

/-- A chunk before it is read. -/
structure Piece where
  offset : Nat
  len : Nat
  last : Bool
deriving DecidableEq

/-- The chunks that a range is cut into. -/
def pieces (chunkSize : Nat) (lastRange : Bool) (stop off : Nat) : List Piece :=
  if off < stop ∧ 0 < chunkSize then
    let len := min chunkSize (stop - off)
    ⟨off, len, lastRange && decide (stop ≤ off + len)⟩
      :: pieces chunkSize lastRange stop (off + len)
  else []
termination_by stop - off
decreasing_by omega

/-- The chunks of all ranges. -/
def allPieces (chunkSize : Nat) : List (Nat × Nat) → List Piece
  | [] => []
  | (offset, size) :: rest =>
    pieces chunkSize rest.isEmpty (offset + size) offset ++ allPieces chunkSize rest

/-- The chunk that is sent for a piece when the buffer holds `buf`. -/
def Piece.fill (d : DiffDisk) (p : Piece) (buf : List UInt8) : Chunk :=
  ⟨p.offset, span (d.leaves (buf.take p.len) p.offset) 0 p.len, p.last⟩

/-- The chunks that are sent, and the buffer afterwards. -/
def send (d : DiffDisk) : List Piece → List UInt8 → List Chunk × List UInt8
  | [], buf => ([], buf)
  | p :: ps, buf =>
    let (chunks, buf') := send d ps (copyAt buf 0 (p.fill d buf).data)
    (p.fill d buf :: chunks, buf')

theorem DiffDisk.Caches.leaves {d d' : DiffDisk} (h : DiffDisk.Caches d d') (buf : List UInt8)
    (offset j : Nat) : d'.leaves buf offset j = d.leaves buf offset j := by
  have hcov := h.covered (offset + j)
  have hsplit := h.split offset buf.length
  have hplace : d'.InPlace offset buf.length j ↔ d.InPlace offset buf.length j := by
    rw [DiffDisk.InPlace, DiffDisk.InPlace, h.startOffset, h.startCut, h.endOffset]
  rw [DiffDisk.leaves, DiffDisk.leaves, DiffDisk.stale, DiffDisk.stale, h.content, h.content,
    h.startOffset, h.endOffset]
  exact if_congr hcov rfl (if_congr (and_congr_left' hsplit) rfl (if_congr hplace rfl rfl))

theorem send_append (d : DiffDisk) : ∀ (ps qs : List Piece) (buf : List UInt8),
    send d (ps ++ qs) buf
      = ((send d ps buf).1 ++ (send d qs (send d ps buf).2).1, (send d qs (send d ps buf).2).2)
  | [], _, _ => rfl
  | p :: ps, qs, buf => by
    rw [List.cons_append, send, send_append d ps qs, send]
    rfl

theorem length_send {d : DiffDisk} : ∀ {ps : List Piece} {buf : List UInt8},
    (send d ps buf).2.length = buf.length
  | [], _ => rfl
  | p :: ps, buf => by
    show (send d ps _).2.length = _
    rw [length_send, length_copyAt (Nat.zero_le _)]

section Stream

variable {d : DiffDisk} {chunkSize : Nat}

theorem Piece.length_fill (d : DiffDisk) (p : Piece) (buf : List UInt8) :
    (p.fill d buf).data.length = p.len := length_span _ _ _

/-- One chunk: the read returns what was asked for. -/
theorem readAt_piece {d' : DiffDisk} (h' : d'.Wf) (hc : DiffDisk.Caches d d') (p : Piece)
    (buf : List UInt8) (hlen : p.len ≤ buf.length) (hvol : p.offset + p.len ≤ d.size) :
    ∃ d'', d'.readAt (buf.take p.len) p.offset = ⟨d'', (p.fill d buf).data, p.len, none⟩
      ∧ d''.Wf ∧ DiffDisk.Caches d d'' := by
  have hbl : (buf.take p.len).length = p.len := by
    rw [List.length_take]
    omega
  obtain ⟨d'', out, hr, hw, hc', hl, hget⟩ := DiffDisk.readAt_spec h' p.offset (buf.take p.len)
    (by rw [hbl, hc.size]; exact hvol)
  rw [hbl] at hr hl hget
  refine ⟨d'', ?_, hw, hc.trans hc'⟩
  rw [hr]
  congr 1
  refine ext_of_lt hl (p.length_fill d buf) (fun j hj => ?_)
  rw [hget j hj, Piece.fill, getElem?_span, if_pos hj, hc.leaves, Nat.zero_add]

/-- One round of the loop over a range. -/
theorem streamRange_step (hchunk : 0 < chunkSize) {stop off : Nat} (hlt : off < stop)
    (lastRange : Bool) {d' d'' : DiffDisk} {buf data : List UInt8} (hbuf : buf.length = chunkSize)
    (hdata : data.length = min chunkSize (stop - off))
    (hr : d'.readAt (buf.take (min chunkSize (stop - off))) off
      = ⟨d'', data, (min chunkSize (stop - off) : Nat), none⟩) :
    streamRange chunkSize lastRange stop off d' buf
      = let rest := streamRange chunkSize lastRange stop (off + min chunkSize (stop - off)) d''
          (copyAt buf 0 data)
        (⟨off, data, lastRange && decide (stop ≤ off + min chunkSize (stop - off))⟩ :: rest.1,
          rest.2) := by
  have hb : (if stop - off < chunkSize then buf.take (stop - off) else buf)
      = buf.take (min chunkSize (stop - off)) := by
    split
    · rw [Nat.min_eq_right (by omega)]
    · rw [Nat.min_eq_left (by omega), ← hbuf, List.take_length]
  have hbl : (buf.take (min chunkSize (stop - off))).length = min chunkSize (stop - off) := by
    rw [List.length_take]
    omega
  rw [streamRange, if_pos hlt]
  dsimp only
  rw [hb, hr]
  dsimp only
  rw [hbl, if_neg (by omega), if_neg (by omega), Int.toNat_natCast,
    List.take_of_length_le (Nat.le_of_eq hdata)]

/-- **One range**: the chunks that are sent are its pieces. -/
theorem streamRange_eq (hchunk : 0 < chunkSize) {stop : Nat} (hstop : stop ≤ d.size)
    (lastRange : Bool) : ∀ (off : Nat) {d' : DiffDisk} {buf : List UInt8}, d'.Wf →
      DiffDisk.Caches d d' → buf.length = chunkSize →
      ∃ d'', streamRange chunkSize lastRange stop off d' buf
          = ((send d (pieces chunkSize lastRange stop off) buf).1,
            .ok (d'', (send d (pieces chunkSize lastRange stop off) buf).2))
        ∧ d''.Wf ∧ DiffDisk.Caches d d'' := by
  intro off
  induction hm : stop - off using Nat.strong_induction_on generalizing off with
  | h m ih =>
    intro d' buf h' hc hbuf
    rw [pieces]
    by_cases hlt : off < stop
    · rw [if_pos ⟨hlt, hchunk⟩]
      generalize hp : Piece.mk off (min chunkSize (stop - off)) _ = p
      have hlen : p.len = min chunkSize (stop - off) := by rw [← hp]
      have hoff : p.offset = off := by rw [← hp]
      obtain ⟨d₁, hr, hw₁, hc₁⟩ := readAt_piece h' hc p buf (by omega) (by omega)
      rw [hlen, hoff] at hr
      obtain ⟨d₂, hrest, hw₂, hc₂⟩ := ih (stop - (off + min chunkSize (stop - off))) (by omega)
        (off + min chunkSize (stop - off)) rfl hw₁ hc₁
        (show (copyAt buf 0 (p.fill d buf).data).length = chunkSize by
          rw [length_copyAt (Nat.zero_le _), hbuf])
      refine ⟨d₂, ?_, hw₂, hc₂⟩
      rw [streamRange_step hchunk hlt lastRange hbuf ((p.length_fill d buf).trans hlen) hr, hrest,
        ← hp]
      rfl
    · rw [if_neg (fun hh => hlt hh.1), streamRange, if_neg hlt]
      exact ⟨d', rfl, h', hc⟩

/-- **All ranges.** -/
theorem streamRanges_eq (hchunk : 0 < chunkSize) : ∀ {ranges : List (Nat × Nat)} {d' : DiffDisk}
    {buf : List UInt8}, (∀ g ∈ ranges, g.1 + g.2 ≤ d.size) → d'.Wf → DiffDisk.Caches d d' →
      buf.length = chunkSize → streamRanges chunkSize ranges d' buf
        = ((send d (allPieces chunkSize ranges) buf).1, .ok ())
  | [], _, _, _, _, _, _ => rfl
  | (offset, size) :: rest, d', buf, hin, h', hc, hbuf => by
    obtain ⟨d₁, hr, hw₁, hc₁⟩ := streamRange_eq hchunk
      (hin (offset, size) List.mem_cons_self) rest.isEmpty offset h' hc hbuf
    rw [streamRanges, hr, allPieces, send_append]
    dsimp only
    rw [streamRanges_eq hchunk (fun g hg => hin g (List.mem_cons_of_mem _ hg)) hw₁ hc₁
      (length_send.trans hbuf)]

end Stream

/-! ## The pieces -/

/-- The byte at `p` lies inside the chunk. -/
def Chunk.Covers (c : Chunk) (p : Nat) : Prop := c.offset ≤ p ∧ p < c.offset + c.data.length

section Pieces

variable {chunkSize : Nat}

/-- The pieces of a range follow each other through the range. -/
theorem pieces_positions (hchunk : 0 < chunkSize) (lastRange : Bool) (stop : Nat) : ∀ off,
    (pieces chunkSize lastRange stop off).flatMap (fun p => List.range' p.offset p.len)
      = List.range' off (stop - off) := by
  intro off
  induction hm : stop - off using Nat.strong_induction_on generalizing off with
  | h m ih =>
    rw [pieces]
    by_cases hlt : off < stop
    · rw [if_pos ⟨hlt, hchunk⟩]
      rw [List.flatMap_cons, ih (stop - (off + min chunkSize (stop - off))) (by omega) _ rfl,
        List.range'_append_1]
      congr 1
      dsimp only
      omega
    · rw [if_neg (fun hh => hlt hh.1)]
      obtain rfl : m = 0 := by omega
      rfl

theorem allPieces_positions (hchunk : 0 < chunkSize) : ∀ ranges : List (Nat × Nat),
    (allPieces chunkSize ranges).flatMap (fun p => List.range' p.offset p.len)
      = ranges.flatMap (fun g => List.range' g.1 g.2)
  | [] => rfl
  | (offset, size) :: rest => by
    rw [allPieces, List.flatMap_append, pieces_positions hchunk, allPieces_positions hchunk rest,
      Nat.add_sub_cancel_left]
    rfl

theorem send_positions (d : DiffDisk) : ∀ (ps : List Piece) (buf : List UInt8),
    (send d ps buf).1.flatMap (fun c => List.range' c.offset c.data.length)
      = ps.flatMap (fun p => List.range' p.offset p.len)
  | [], _ => rfl
  | p :: ps, buf => by
    show ((p.fill d buf) :: (send d ps _).1).flatMap _ = _
    rw [List.flatMap_cons, List.flatMap_cons, send_positions d ps, p.length_fill]
    rfl

end Pieces

/-! ## What is compared can be read -/

/-- Every range was sent, and no error was returned. -/
def Streams (out : List Chunk × Except SnapErr Unit) (ranges : List SnapshotRange) : Prop :=
  out.2 = .ok () ∧ ∀ g ∈ ranges, ∀ p, g.Covers p → ∃ c ∈ out.1, c.Covers p

theorem Chunk.covers_of_mem_positions {chunks : List Chunk} {p : Nat}
    (h : p ∈ chunks.flatMap (fun c => List.range' c.offset c.data.length)) :
    ∃ c ∈ chunks, c.Covers p := by
  obtain ⟨c, hc, hp⟩ := List.mem_flatMap.mp h
  rw [List.mem_range'_1] at hp
  exact ⟨c, hc, hp⟩

/-- A range as it is requested. -/
def asRequested (g : Nat × Nat) : Int × Int := (g.1, g.2)

/-- The check accepts the ranges that are not empty and end inside the volume. -/
theorem checkRanges_cases (size : Nat) : ∀ ranges : List (Nat × Nat),
    ((∀ g ∈ ranges, 0 < g.2 ∧ g.1 + g.2 ≤ size)
      ∧ checkRanges size (ranges.map asRequested) = .ok ranges) ∨
    ((∃ g ∈ ranges, 0 < g.2 → size < g.1 + g.2)
      ∧ ∃ e, checkRanges size (ranges.map asRequested) = .error e)
  | [] => .inl ⟨fun g hg => absurd hg (by simp), rfl⟩
  | g :: rest => by
    rw [List.map_cons, asRequested, checkRanges]
    by_cases hfit : 0 < g.2 ∧ g.1 + g.2 ≤ size
    · rw [if_neg (by omega)]
      rcases checkRanges_cases size rest with ⟨hin, hok⟩ | ⟨⟨g', hg', hout⟩, e, he⟩
      · refine .inl ⟨fun x hx => ?_, by rw [hok]; rfl⟩
        rcases List.mem_cons.mp hx with rfl | hx
        · exact hfit
        · exact hin x hx
      · exact .inr ⟨⟨g', List.mem_cons_of_mem g hg', hout⟩, e, by rw [he]; rfl⟩
    · rw [if_pos (by omega)]
      exact .inr ⟨⟨g, List.mem_cons_self, by omega⟩, _, rfl⟩

variable {name parent : String}

variable {ranges : List SnapshotRange}

namespace Replica

/-- A read-only open of a volume in whole sectors is in good shape. -/
theorem OpenOn.wf {r : Replica} {u v : List String} (h : OpenOn r name parent u v) (hne : name ≠ "")
    (hsize : r.dir.volumeMeta.size % volumeSectorSize = 0) : r.view.Wf := by
  obtain ⟨w, hw⟩ := h.chain.head_mem hne
  have hshort := h.short
  have h250 : maximumTotalSnapshotCount = 250 := rfl
  have hlen : r.view.files.length = (u ++ v).length + 1 :=
    (List.length_map _).trans h.length_files
  have hpos : 1 ≤ (u ++ v).length := by rw [hw]; simp
  have hloc : ∀ s, r.view.loc s = 0 := fun s => by
    show r.volume.location.getD s 0 = 0
    rw [h.volume, List.getD_eq_getElem?_getD, List.getElem?_replicate]
    split <;> rfl
  refine ⟨?_, by omega, by omega, ?_, fun s => ?_⟩
  · show 0 < r.volume.sectorSize
    rw [h.volume]
    exact (by decide : 0 < volumeSectorSize)
  · show r.volume.location.length * r.volume.sectorSize = r.volume.size
    rw [h.volume, List.length_replicate]
    exact Nat.div_mul_cancel (Nat.dvd_of_mod_eq_zero hsize)
  · rw [hloc s, hlen]
    exact Nat.succ_pos _

/-- A comparison that succeeded was asked for with a name, a block size and a known parent. -/
theorem compareSnapshot_ok {r : Replica} {blockSize : Int}
    (h : (r.compareSnapshot name parent blockSize).2 = .ok ranges) :
    0 < blockSize ∧ (parent = "" ∨ parent ∈ r.activeDiskData.tail) := by
  unfold compareSnapshot at h
  dsimp only at h
  split at h
  · simp at h
  split at h
  · simp at h
  rename_i hb
  refine ⟨by omega, ?_⟩
  by_cases hp : parent = ""
  · exact .inl hp
  · refine .inr ?_
    by_contra hmem
    have hzero : r.findDisk parent = 0 := by rw [findDisk, if_neg hmem]
    rw [if_neg hp, hzero, if_pos (show parent ≠ "" ∧ 0 = 0 from ⟨hp, rfl⟩)] at h
    split at h
    · simp at h
    · simp at h

end Replica

variable {volumeName snapshotName : String}

namespace SnapshotReader

variable {s : SnapshotReader} {r ro : Replica}

theorem snapshotDiskName_ne_empty (name : String) : snapshotDiskName name ≠ "" :=
  generateSnapshotDiskName_ne_empty name

theorem checked_ok {dir : Dir} (hr : s.replica = some r)
    (h : s.checked volumeName snapshotName = .ok dir) : dir = r.dir := by
  unfold checked at h
  split at h
  · simp at h
  generalize (if volumeName = "" then s.volumeName else volumeName) = name at h
  dsimp only at h
  split at h
  · simp at h
  rw [hr] at h
  dsimp only at h
  split at h
  · simp at h
  · exact (Except.ok.inj h).symm

/-- What `Compare` has returned is what `CompareSnapshot` of the opened snapshot has. -/
theorem compare_ok {req : CompareRequest} {blockSize : Int} (hr : s.replica = some r)
    (hopen : newReadOnly r.dir (snapshotDiskName req.snapshotName) none = .ok ro)
    (h : s.compare req = .ok (blockSize, ranges)) :
    s.checked req.volumeName req.snapshotName = .ok r.dir
      ∧ (ro.compareSnapshot (snapshotDiskName req.snapshotName) req.parentDisk blockSize).2
        = .ok ranges := by
  unfold compare at h
  split at h
  · simp at h
  rename_i dir hchecked
  obtain rfl := checked_ok hr hchecked
  refine ⟨hchecked, ?_⟩
  dsimp only at h
  rw [hopen] at h
  dsimp only at h
  split at h
  · simp at h
  · rename_i ranges' hcmp
    obtain ⟨rfl, rfl⟩ := Prod.mk.inj (Except.ok.inj h)
    exact hcmp

/-- The ranges that `Read` goes through. -/
def effective (ro : Replica) (ranges : List (Int × Int)) : Except SnapErr (List (Nat × Nat)) :=
  if ranges = [] then .ok [(0, ro.info.size)] else checkRanges ro.info.size ranges

theorem chunkSize_pos (chunkSize : Int) :
    0 < (if chunkSize ≤ 0 then defaultChunkSize else chunkSize.toNat) := by
  split
  · decide
  · omega

variable {ranges : List (Int × Int)}

theorem read_accepted (chunkSize : Int) {gs : List (Nat × Nat)}
    (hchecked : s.checked volumeName snapshotName = .ok r.dir)
    (hopen : newReadOnly r.dir (snapshotDiskName snapshotName) none = .ok ro)
    (hgs : effective ro ranges = .ok gs) {n : Nat}
    (hn : (if chunkSize ≤ 0 then defaultChunkSize else chunkSize.toNat) = n) :
    s.read ⟨volumeName, snapshotName, chunkSize, ranges⟩
      = streamRanges n gs ro.view (List.replicate n 0) := by
  rw [effective] at hgs
  rw [read, hchecked]
  dsimp only
  rw [hopen]
  dsimp only
  rw [hgs, hn]

theorem read_refused (chunkSize : Int) {e : SnapErr}
    (hchecked : s.checked volumeName snapshotName = .ok r.dir)
    (hopen : newReadOnly r.dir (snapshotDiskName snapshotName) none = .ok ro)
    (hgs : effective ro ranges = .error e) :
    s.read ⟨volumeName, snapshotName, chunkSize, ranges⟩ = ([], .error e) := by
  rw [effective] at hgs
  rw [read, hchecked]
  dsimp only
  rw [hopen]
  dsimp only
  rw [hgs]

/-- The ranges that a comparison reports lie inside the volume if the changed sectors' blocks do. -/
theorem fits_iff {u v : List String} (h : Replica.OpenOn ro name parent u v) (blockSize : Nat) :
    (∀ g ∈ (Replica.OpenOn.comparison u v blockSize).loop (ro.preload false).volume.location 0 none,
        g.offset + g.size ≤ ro.dir.volumeMeta.size)
      ↔ ∀ t < ro.dir.volumeMeta.size / volumeSectorSize, ro.Changed parent t →
        t * volumeSectorSize - t * volumeSectorSize % blockSize + blockSize
          ≤ ro.dir.volumeMeta.size := by
  constructor
  · intro hfit t ht hchanged
    obtain ⟨val, hval, habove⟩ := (h.above_iff blockSize t).mpr ⟨ht, hchanged⟩
    rcases (Comparison.loop_reports_all _ _).complete t val hval habove with hlast | hmem
    · simp at hlast
    · have := hfit _ hmem
      rwa [Nat.zero_add] at this
  · intro hall g hg
    obtain ⟨hgs, t, val, hval, habove, hoff⟩ :=
      (Comparison.loop_reports_all _ _).sound g hg
    obtain ⟨ht, hchanged⟩ := (h.above_iff blockSize t).mp ⟨val, hval, habove⟩
    rw [hgs, hoff, Nat.zero_add]
    exact hall t ht hchanged

/--
**What is compared can be read** exactly when the block of every changed sector ends
inside the volume.
-/
theorem compare_read_iff {req : CompareRequest} {blockSize : Int} {ranges : List SnapshotRange}
    (hr : s.replica = some r) (hsize : r.dir.volumeMeta.size % volumeSectorSize = 0)
    (hopen : newReadOnly r.dir (snapshotDiskName req.snapshotName) none = .ok ro)
    (hcmp : s.compare req = .ok (blockSize, ranges)) (chunkSize : Int) :
    Streams (s.read ⟨req.volumeName, req.snapshotName, chunkSize,
        ranges.map (fun g => ((g.offset : Int), (g.size : Int)))⟩) ranges
      ↔ ∀ t < r.dir.volumeMeta.size / volumeSectorSize, ro.Changed req.parentDisk t →
        t * volumeSectorSize - t * volumeSectorSize % blockSize.toNat + blockSize.toNat
          ≤ r.dir.volumeMeta.size := by
  obtain ⟨hchecked, hok⟩ := compare_ok hr hopen hcmp
  obtain ⟨hb, hp⟩ := Replica.compareSnapshot_ok hok
  obtain ⟨hdir, u, v, h⟩ := Replica.exists_openOn hopen hp
  have hne := snapshotDiskName_ne_empty req.snapshotName
  obtain ⟨b, rfl⟩ := Int.eq_ofNat_of_zero_le (Int.le_of_lt hb)
  have hb' : 0 < b := by omega
  rw [h.compareSnapshot_eq hne hb'] at hok
  obtain rfl := Except.ok.inj hok
  rw [← hdir] at hsize ⊢
  rw [Int.toNat_natCast, ← fits_iff h b]
  have hblocks := ((Replica.OpenOn.comparison u v b).loop_blocks
    (ro.preload false).volume.location).1
  generalize (Replica.OpenOn.comparison u v b).loop (ro.preload false).volume.location 0 none
    = ranges at hblocks ⊢
  have hw := h.wf hne hsize
  have hvol : ro.view.size = ro.dir.volumeMeta.size := by
    show ro.volume.size = _
    rw [h.volume]
  -- ranges that are accepted are sent
  have hsent : ∀ gs, effective ro (ranges.map (fun g => ((g.offset : Int), (g.size : Int))))
      = .ok gs → (∀ g ∈ gs, g.1 + g.2 ≤ ro.view.size) →
      ∃ chunks, s.read ⟨req.volumeName, req.snapshotName, chunkSize,
          ranges.map (fun g => ((g.offset : Int), (g.size : Int)))⟩ = (chunks, .ok ())
        ∧ chunks.flatMap (fun c => List.range' c.offset c.data.length)
          = gs.flatMap (fun g => List.range' g.1 g.2) := by
    intro gs hgs hin
    have hn := chunkSize_pos chunkSize
    refine ⟨_, (read_accepted chunkSize hchecked hopen hgs rfl).trans
      (streamRanges_eq hn hin hw (DiffDisk.Caches.refl _) List.length_replicate), ?_⟩
    rw [send_positions, allPieces_positions hn]
  by_cases hnil : ranges = []
  · subst hnil
    obtain ⟨chunks, hread, -⟩ := hsent [(0, ro.info.size)] rfl (fun g hg => by
      obtain rfl := List.mem_singleton.mp hg
      rw [hvol, h.size, Nat.zero_add])
    refine iff_of_true ⟨by rw [hread], fun g hg => absurd hg (by simp)⟩ (fun g hg => ?_)
    simp at hg
  · have heff : effective ro (ranges.map (fun g => ((g.offset : Int), (g.size : Int))))
        = checkRanges ro.dir.volumeMeta.size
          (ranges.map (fun g => ((g.offset : Int), (g.size : Int)))) := by
      rw [effective, if_neg (by simpa using hnil), h.size]
    have hcast : ranges.map (fun g => ((g.offset : Int), (g.size : Int)))
        = (ranges.map (fun g => (g.offset, g.size))).map asRequested := by
      rw [List.map_map]
      rfl
    rw [hcast] at heff hsent ⊢
    rcases checkRanges_cases ro.dir.volumeMeta.size (ranges.map (fun g => (g.offset, g.size))) with
      ⟨hin, hok⟩ | ⟨⟨g, hg, hout⟩, e, herr⟩
    · obtain ⟨chunks, hread, hpos⟩ := hsent _ (heff.trans hok) (fun g hg => by
        rw [hvol]
        exact (hin g hg).2)
      refine iff_of_true ⟨by rw [hread], fun g hg p hgp => ?_⟩
        (fun g hg => (hin _ (List.mem_map_of_mem hg)).2)
      rw [hread]
      refine Chunk.covers_of_mem_positions ?_
      rw [hpos, List.flatMap_map]
      exact List.mem_flatMap.mpr ⟨g, hg, List.mem_range'_1.mpr hgp⟩
    · obtain ⟨g, hgr, rfl⟩ := List.mem_map.mp hg
      have hpos : 0 < g.size := by rw [(hblocks g hgr).2]; exact hb'
      refine iff_of_false (fun hst => ?_)
        (fun hin => absurd (hin g hgr) (Nat.not_le.mpr (hout hpos)))
      have hread := read_refused chunkSize hchecked hopen (heff.trans herr)
      have hok := hst.1
      rw [hread] at hok
      simp at hok

/-- One sector is written and kept in a snapshot. -/
def keeping : List Replica.Op := [.writeAt [1] 0, .snapshot 250 "a" true "t" none]

/-- The server of a replica. -/
def serving (r : Replica) : SnapshotReader := ⟨"v", some r, "/d"⟩

/-- The comparison of the snapshot with nothing, for two block sizes, and a read of its result. -/
theorem exists_keeping :
    ∃ r r' ro, Replica.construct (Dir.recovered (fun _ => File.empty 0) 4096) Replica.oneSector
        = .ok r
      ∧ Runs.run (Replica.step .least) r keeping = some r'
      ∧ newReadOnly r'.dir (snapshotDiskName "a") none = .ok ro
      ∧ (serving r').compare ⟨"", "a", "", 4096⟩ = .ok (4096, [⟨0, 4096⟩])
      ∧ (serving r').compare ⟨"", "a", "", 0⟩ = .ok (4194304, [⟨0, 4194304⟩])
      ∧ (serving r').read ⟨"", "a", 0, [(0, 4194304)]⟩
        = ([], .error (.invalidRange 0 4194304 4096))
      ∧ r'.dir.volumeMeta.size = 4096 := by
  have hall : ((Replica.construct (Dir.recovered (fun _ => File.empty 0) 4096)
      Replica.oneSector).toOption.bind (fun r => Runs.run (Replica.step .least) r keeping)).any
        (fun r' => (newReadOnly r'.dir (snapshotDiskName "a") none).toOption.any (fun _ => decide
          ((serving r').compare ⟨"", "a", "", 4096⟩ = .ok (4096, [⟨0, 4096⟩])
            ∧ (serving r').compare ⟨"", "a", "", 0⟩ = .ok (4194304, [⟨0, 4194304⟩])
            ∧ (serving r').read ⟨"", "a", 0, [(0, 4194304)]⟩
              = ([], .error (.invalidRange 0 4194304 4096))
            ∧ r'.dir.volumeMeta.size = 4096))) = true := by decide +kernel
  obtain ⟨r', hr', hany⟩ := (Option.any_eq_true _ _).mp hall
  obtain ⟨r, hr, hrun⟩ := Option.bind_eq_some_iff.mp hr'
  obtain ⟨ro, hro, hdec⟩ := (Option.any_eq_true _ _).mp hany
  exact ⟨r, r', ro, Replica.toOption_eq_some hr, hrun, Replica.toOption_eq_some hro,
    of_decide_eq_true hdec⟩

/-- With blocks of one sector the result of the comparison is streamed. -/
theorem compare_read_iff_sectors :
    ∃ r ranges, (serving r).compare ⟨"", "a", "", 4096⟩ = .ok (4096, ranges)
      ∧ Streams ((serving r).read ⟨"", "a", 0,
          ranges.map (fun g => ((g.offset : Int), (g.size : Int)))⟩) ranges := by
  obtain ⟨-, r, ro, -, -, hopen, hcmp, -, -, hsize⟩ := exists_keeping
  have hmod : r.dir.volumeMeta.size % volumeSectorSize = 0 := by
    rw [hsize]
    rfl
  have hiff := @compare_read_iff (serving r) r ro ⟨"", "a", "", 4096⟩ 4096 [⟨0, 4096⟩] rfl hmod
    hopen hcmp 0
  refine ⟨r, _, hcmp, hiff.mpr (fun t ht _ => ?_)⟩
  rw [hsize] at ht ⊢
  obtain rfl : t = 0 := by
    have : 4096 / volumeSectorSize = 1 := by decide
    omega
  decide

/--
With the default block size the one block that is reported is larger than the volume, and
reading it is refused.
-/
theorem compared_not_readable :
    ∃ r r', Replica.construct (Dir.recovered (fun _ => File.empty 0) 4096) Replica.oneSector = .ok r
      ∧ Runs.run (Replica.step .least) r keeping = some r'
      ∧ (serving r').compare ⟨"", "a", "", 0⟩ = .ok (4194304, [⟨0, 4194304⟩])
      ∧ (serving r').read ⟨"", "a", 0, [(0, 4194304)]⟩
        = ([], .error (.invalidRange 0 4194304 4096)) := by
  obtain ⟨r, r', -, hnew, hrun, -, -, hcmp, hread, -⟩ := exists_keeping
  exact ⟨r, r', hnew, hrun, hcmp, hread⟩

end SnapshotReader

end WeftBlock
