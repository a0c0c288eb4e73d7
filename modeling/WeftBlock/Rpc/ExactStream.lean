import WeftBlock.Rpc.SnapshotReader

/-!
# The bytes of a stream

`Read` sends the pieces of the requested ranges in order, and flags the last one. The
bytes are those of the snapshot wherever its files reach. Past the end of a file, which is
where a snapshot is older than an expansion of the volume, a read leaves the buffer alone,
and the buffer still holds an earlier chunk; or it is the tail of an unaligned chunk and
the scratch sector still holds the chunk's head. `Clean` says that what is left there is
zero each time, and is exactly what it takes.
-/

namespace WeftBlock

open Slice Layers Forest

/-! ## The bytes -/

/--
In each piece, what is left past the end of the files is zero, the buffer being what the
pieces before have made of it.
-/
def Clean (d : DiffDisk) : List Piece → List UInt8 → Prop
  | [], _ => True
  | p :: ps, buf =>
    (∀ j < p.len, ¬ d.covered (p.offset + j) → d.stale (buf.take p.len) p.offset j = 0)
      ∧ Clean d ps (copyAt buf 0 (span d.content p.offset p.len))

theorem Piece.getElem?_fill (d : DiffDisk) {p : Piece} (buf : List UInt8) {j : Nat}
    (hj : j < p.len) : (p.fill d buf).data[j]? = some (d.leaves (buf.take p.len) p.offset j) := by
  rw [fill, getElem?_span, if_pos hj, Nat.zero_add]

/-- **A chunk in whole sectors repeats the buffer** past the end of the files. -/
theorem Piece.fill_repeats {d : DiffDisk} {p : Piece} {buf : List UInt8} {j : Nat} (hj : j < p.len)
    (hstart : d.startOffset p.offset = 0) (hend : d.endOffset p.len p.offset = 0)
    (hbuf : p.len ≤ buf.length) (hcov : ¬ d.covered (p.offset + j)) :
    (p.fill d buf).data[j]? = buf[j]? := by
  have hbl : (buf.take p.len).length = p.len := by
    rw [List.length_take]
    omega
  have hal : d.startOffset p.offset = 0 ∧ d.endOffset (buf.take p.len).length p.offset = 0 :=
    ⟨hstart, by rw [hbl]; exact hend⟩
  rw [Piece.getElem?_fill d buf hj, DiffDisk.leaves, if_neg hcov, DiffDisk.stale,
    if_neg (fun hsp => absurd hal hsp.1.1), if_pos (.inl hal), List.getD_eq_getElem?_getD,
    List.getElem?_take_of_lt hj, List.getElem?_eq_getElem (by omega)]
  rfl

/-- A chunk has the content exactly when nothing is left in it past the end of the files. -/
theorem Piece.fill_eq_iff (d : DiffDisk) (p : Piece) (buf : List UInt8) :
    (p.fill d buf).data = span d.content p.offset p.len
      ↔ ∀ j < p.len, ¬ d.covered (p.offset + j) → d.stale (buf.take p.len) p.offset j = 0 := by
  constructor
  · intro heq j hj hcov
    have hj' := Piece.getElem?_fill d buf hj
    rw [heq, getElem?_span, if_pos hj, DiffDisk.leaves, if_neg hcov,
      DiffDisk.content_of_not_covered hcov] at hj'
    exact (Option.some.inj hj').symm
  · intro hzero
    refine ext_of_lt (p.length_fill d buf) (length_span _ _ _) (fun j hj => ?_)
    rw [Piece.getElem?_fill d buf hj, getElem?_span, if_pos hj, DiffDisk.leaves]
    by_cases hcov : d.covered (p.offset + j)
    · rw [if_pos hcov]
    · rw [if_neg hcov, hzero j hj hcov, DiffDisk.content_of_not_covered hcov]

/-- **All chunks have the content** exactly when the pieces are clean. -/
theorem send_exact_iff (d : DiffDisk) : ∀ (ps : List Piece) (buf : List UInt8),
    (∀ c ∈ (send d ps buf).1, c.data = span d.content c.offset c.data.length) ↔ Clean d ps buf
  | [], _ => ⟨fun _ => trivial, fun _ c hc => absurd hc (by simp [send])⟩
  | p :: ps, buf => by
    have hsend : (send d (p :: ps) buf).1
        = p.fill d buf :: (send d ps (copyAt buf 0 (p.fill d buf).data)).1 := rfl
    have hhead : (p.fill d buf).data
          = span d.content (p.fill d buf).offset (p.fill d buf).data.length
        ↔ (p.fill d buf).data = span d.content p.offset p.len := by
      rw [p.length_fill]
      rfl
    rw [hsend, List.forall_mem_cons, hhead, Clean]
    constructor
    · rintro ⟨heq, hrest⟩
      rw [heq] at hrest
      exact ⟨(p.fill_eq_iff d buf).mp heq, (send_exact_iff d ps _).mp hrest⟩
    · rintro ⟨hzero, hrest⟩
      have heq := (p.fill_eq_iff d buf).mpr hzero
      refine ⟨heq, ?_⟩
      rw [heq]
      exact (send_exact_iff d ps _).mpr hrest

/-- Nothing is left over where the files reach. -/
theorem clean_of_covered {d : DiffDisk} (hcov : ∀ p < d.size, d.covered p) :
    ∀ {ps : List Piece} {buf : List UInt8}, (∀ p ∈ ps, p.offset + p.len ≤ d.size) → Clean d ps buf
  | [], _, _ => trivial
  | p :: ps, buf, hin => by
    have hp := hin p List.mem_cons_self
    refine ⟨fun j hj hn => absurd (hcov (p.offset + j) (by omega)) hn, ?_⟩
    exact clean_of_covered hcov (fun q hq => hin q (List.mem_cons_of_mem _ hq))

/-- They reach everywhere if each is as long as the volume. -/
theorem covered_of_long {d : DiffDisk} (h : d.Wf)
    (hlong : ∀ i, 1 ≤ i → i < d.files.length → d.size ≤ (d.file i).size)
    (hexact : d.Exact) : ∀ p < d.size, d.covered p := by
  intro p hp
  rw [DiffDisk.covered_iff_topmost h hexact hp]
  exact Nat.lt_of_lt_of_le hp (hlong _ (DiffDisk.one_le_topmost d _) (DiffDisk.topmost_lt h _))

/-! ## The flags -/

/-- The flag is set on the last one and on no other. -/
def LastOnly (flags : List Bool) : Prop :=
  ∀ u x v, flags = u ++ x :: v → (x = true ↔ v = [])

theorem LastOnly.nil : LastOnly [] := fun _ _ _ heq => absurd heq (by simp)

theorem LastOnly.single : LastOnly [true] := by
  intro u x v heq
  cases u with
  | nil =>
    obtain ⟨rfl, rfl⟩ := List.cons.inj heq
    exact iff_of_true rfl rfl
  | cons y u => exact absurd (List.cons.inj heq).2 (by simp)

theorem LastOnly.cons {l : List Bool} (h : LastOnly l) (hl : l ≠ []) :
    LastOnly (false :: l) := by
  intro u x v heq
  cases u with
  | nil =>
    obtain ⟨rfl, rfl⟩ := List.cons.inj heq
    exact iff_of_false Bool.false_ne_true hl
  | cons y u => exact h u x v (List.cons.inj heq).2

theorem LastOnly.append {l : List Bool} (h : LastOnly l) (hl : l ≠ []) :
    ∀ {u : List Bool}, (∀ x ∈ u, x = false) → LastOnly (u ++ l)
  | [], _ => h
  | x :: u, hu => by
    obtain rfl := hu x List.mem_cons_self
    exact LastOnly.cons (h.append hl (fun y hy => hu y (List.mem_cons_of_mem _ hy)))
      (by simp [hl])

section Pieces

variable {chunkSize : Nat}

theorem pieces_ne_nil (hchunk : 0 < chunkSize) (lastRange : Bool) {stop off : Nat}
    (hlt : off < stop) : pieces chunkSize lastRange stop off ≠ [] := by
  rw [pieces, if_pos ⟨hlt, hchunk⟩]
  exact List.cons_ne_nil _ _

/-- No piece of a range that is not the last one is flagged. -/
theorem pieces_last_false (stop : Nat) : ∀ off,
    ∀ x ∈ (pieces chunkSize false stop off).map Piece.last, x = false := by
  intro off
  induction hm : stop - off using Nat.strong_induction_on generalizing off with
  | h m ih =>
    rw [pieces]
    split
    · rename_i hlt
      intro x hx
      rcases List.mem_cons.mp hx with rfl | hx
      · rfl
      · exact ih (stop - (off + min chunkSize (stop - off))) (by omega) _ rfl x hx
    · intro x hx
      simp at hx

/-- The pieces of the last range. -/
theorem pieces_last (hchunk : 0 < chunkSize) (stop : Nat) : ∀ off,
    LastOnly ((pieces chunkSize true stop off).map Piece.last) := by
  intro off
  induction hm : stop - off using Nat.strong_induction_on generalizing off with
  | h m ih =>
    rw [pieces]
    split
    · rename_i hlt
      rw [List.map_cons, Bool.true_and]
      by_cases hend : stop ≤ off + min chunkSize (stop - off)
      · have hnil : pieces chunkSize true stop (off + min chunkSize (stop - off)) = [] := by
          rw [pieces, if_neg (by omega)]
        rw [hnil, decide_eq_true hend]
        exact LastOnly.single
      · rw [decide_eq_false hend]
        refine LastOnly.cons (ih (stop - (off + min chunkSize (stop - off))) (by omega) _ rfl) ?_
        exact fun h => pieces_ne_nil hchunk true (by omega) (List.map_eq_nil_iff.mp h)
    · exact LastOnly.nil

/-- **The last piece of all is flagged**, if every range after the first has one. -/
theorem allPieces_last (hchunk : 0 < chunkSize) : ∀ {ranges : List (Nat × Nat)},
    (∀ g ∈ ranges.tail, 0 < g.2) → LastOnly ((allPieces chunkSize ranges).map Piece.last)
  | [], _ => LastOnly.nil
  | (offset, size) :: [], _ => by
    rw [allPieces, allPieces, List.append_nil]
    exact pieces_last hchunk _ _
  | (offset, size) :: g :: rest, hpos => by
    have hrest : LastOnly ((allPieces chunkSize (g :: rest)).map Piece.last) :=
      allPieces_last hchunk (fun x hx => hpos x (List.mem_cons_of_mem g hx))
    rw [allPieces, List.map_append]
    refine LastOnly.append hrest ?_ (pieces_last_false _ _)
    have hg := hpos g List.mem_cons_self
    rw [allPieces]
    intro hnil
    exact pieces_ne_nil hchunk rest.isEmpty (show g.1 < g.1 + g.2 by omega)
      (List.append_eq_nil_iff.mp (List.map_eq_nil_iff.mp hnil)).1

end Pieces

theorem send_last (d : DiffDisk) : ∀ (ps : List Piece) (buf : List UInt8),
    (send d ps buf).1.map Chunk.last = ps.map Piece.last
  | [], _ => rfl
  | p :: ps, buf => by
    show p.last :: (send d ps _).1.map Chunk.last = _
    rw [send_last d ps, List.map_cons]

/-! ## The snapshot -/

/-- The volume that is opened on a chain: an empty table over the images, bottom up. -/
def Dir.chainView (dir : Dir) (l : List String) : DiffDisk where
  location := List.replicate (dir.volumeMeta.size / volumeSectorSize) 0
  files := dir.data 0 :: l.reverse.map (fun x => dir.data (dir.ino x))
  sectorSize := volumeSectorSize
  size := dir.volumeMeta.size

section

variable {dir : Dir} {name : String} {l : List String} (hc : IsChain (dir.metas.lookup ·) name l)
include hc

/-- The read-only open of a chain that is complete and not too long. -/
theorem newReadOnly_of_chain (hne : name ≠ "") (hlen : l.length ≤ maximumTotalSnapshotCount)
    (himgs : ∀ x ∈ l, ∃ i, dir.imgs.lookup x = some i) :
    ∃ ro, newReadOnly dir name none = .ok ro ∧ ro.view = dir.chainView l
      ∧ ro.info.size = dir.volumeMeta.size := by
  obtain ⟨ro, hopen, hview, hsize⟩ := newReadOnly_eq none hc hne hlen himgs
  refine ⟨ro, hopen, hview.trans ?_, hsize⟩
  rw [Dir.chainView, Dir.openView, List.cons_append]
  rfl

theorem newReadOnly_of_long (hlen : maximumTotalSnapshotCount < l.length) :
    newReadOnly dir name none = .error (.chainTooLong l.length) := by
  unfold newReadOnly
  rw [chain_of_isChain hc]
  dsimp only [bind, Except.bind]
  rw [if_pos hlen]

end

section

variable {dir : Dir} {name : String} {l : List String} (hc : IsChain (dir.metas.lookup ·) name l)
  (hne : name ≠ "") (hlen : l.length ≤ maximumTotalSnapshotCount)
  (himgs : ∀ x ∈ l, ∃ i, dir.imgs.lookup x = some i)
  (hsize : dir.volumeMeta.size % volumeSectorSize = 0)
include hc hne hlen himgs hsize

theorem wf_chainView : (dir.chainView l).Wf := by
  obtain ⟨ro, hopen, hview, -⟩ := newReadOnly_of_chain hc hne hlen himgs
  obtain ⟨rfl, u, v, h⟩ := Replica.exists_openOn hopen (.inl rfl)
  exact hview ▸ h.wf hne hsize

/-- What is read through the snapshot is what its chain shows. -/
theorem content_chainView {p : Nat} (hp : p < dir.volumeMeta.size) :
    (dir.chainView l).content p = dir.showing none l p := by
  obtain ⟨ro, hopen, hview, -⟩ := newReadOnly_of_chain hc hne hlen himgs
  have hbyte := snapshotByte_eq none hc hne hlen himgs hsize hp
  rw [snapshotByte, hopen, ← DiffDisk.readByte_eq_content (wf_chainView hc hne hlen himgs hsize) hp,
    ← hview] at *
  exact Option.some.inj hbyte

/-- A snapshot whose images are all as long as the volume leaves nothing over. -/
theorem clean_chainView
    (hlong : ∀ x ∈ l, dir.volumeMeta.size ≤ (dir.data (dir.ino x)).size) {ps : List Piece}
    {buf : List UInt8} (hin : ∀ p ∈ ps, p.offset + p.len ≤ dir.volumeMeta.size) :
    Clean (dir.chainView l) ps buf := by
  refine clean_of_covered (covered_of_long (wf_chainView hc hne hlen himgs hsize) ?_ ?_) hin
  · intro i hi hlt
    obtain ⟨k, rfl⟩ : ∃ k, i = k + 1 := ⟨i - 1, by omega⟩
    have hk : k < l.reverse.length := by
      rw [Dir.chainView, List.length_cons, List.length_map] at hlt
      omega
    have hfile : (dir.chainView l).file (k + 1) = dir.data (dir.ino l.reverse[k]) := by
      show (l.reverse.map (fun x => dir.data (dir.ino x))).getD k (File.empty 0) = _
      rw [List.getD_eq_getElem?_getD, List.getElem?_map, List.getElem?_eq_getElem hk]
      rfl
    rw [hfile]
    exact hlong _ (List.mem_reverse.mp (List.getElem_mem hk))
  · intro s hs h0
    refine absurd ?_ h0
    show (List.replicate (dir.volumeMeta.size / volumeSectorSize) (0 : UInt8)).getD s 0 = 0
    rw [List.getD_eq_getElem?_getD, List.getElem?_replicate]
    split <;> rfl

end

/-! ## Streaming is exact -/

/-- The ranges that are asked for: the whole volume if there are none. -/
def requested (size : Nat) (ranges : List (Nat × Nat)) : List (Nat × Nat) :=
  if ranges = [] then [(0, size)] else ranges

variable {ranges : List (Nat × Nat)}

theorem requested_le {size : Nat} {g : Nat × Nat} (hin : ∀ g ∈ ranges, g.1 + g.2 ≤ size)
    (hg : g ∈ requested size ranges) : g.1 + g.2 ≤ size := by
  rw [requested] at hg
  split at hg
  · rw [List.mem_singleton.mp hg, Nat.zero_add]
  · exact hin g hg

theorem requested_tail (size : Nat) (hpos : ∀ g ∈ ranges, 0 < g.2) :
    ∀ g ∈ (requested size ranges).tail, 0 < g.2 := by
  intro g hg
  rw [requested] at hg
  split at hg
  · simp at hg
  · exact hpos g (List.mem_of_mem_tail hg)

/-- **The stream is exact**: no error, the ranges in order, their bytes, and the flag at the end. -/
structure Delivers (out : List Chunk × Except SnapErr Unit) (ranges : List (Nat × Nat))
    (byte : Nat → UInt8) : Prop where
  returned : out.2 = .ok ()
  positions : out.1.flatMap (fun c => List.range' c.offset c.data.length)
    = ranges.flatMap (fun g => List.range' g.1 g.2)
  bytes : ∀ c ∈ out.1, c.data = span byte c.offset c.data.length
  last : LastOnly (out.1.map Chunk.last)

theorem span_congr {f g : Nat → UInt8} {start len : Nat}
    (h : ∀ j < len, f (start + j) = g (start + j)) : span f start len = span g start len := by
  refine ext_of_lt (length_span _ _ _) (length_span _ _ _) (fun j hj => ?_)
  rw [getElem?_span, getElem?_span, if_pos hj, if_pos hj, h j hj]

namespace SnapshotReader

variable {s : SnapshotReader} {r ro : Replica}

/-- The request passes the checks if the snapshot is named. -/
theorem checked_eq {volumeName name : String} (hs : s.replica = some r) (hdir : s.stateDir ≠ "")
    (hvol : volumeName = "" ∨ volumeName = s.volumeName) (hname : name ≠ "") :
    s.checked volumeName name = .ok r.dir := by
  rw [checked, if_neg hname, hs]
  have hv : (if volumeName = "" then s.volumeName else volumeName) = s.volumeName := by
    rcases hvol with h | h
    · rw [if_pos h]
    · rw [h, ite_self]
  dsimp only
  rw [hv, if_neg (not_not.mpr rfl), if_neg hdir]

/-- The ranges that are gone through. -/
theorem effective_requested (ro : Replica) (hpos : ∀ g ∈ ranges, 0 < g.2)
    (hin : ∀ g ∈ ranges, g.1 + g.2 ≤ ro.info.size) :
    effective ro (ranges.map asRequested) = .ok (requested ro.info.size ranges) := by
  rw [effective, requested]
  by_cases hnil : ranges = []
  · rw [if_pos (by rw [hnil]; rfl), if_pos hnil]
  · rw [if_neg (fun h => hnil (List.map_eq_nil_iff.mp h)), if_neg hnil]
    rcases checkRanges_cases ro.info.size ranges with ⟨-, hok⟩ | ⟨⟨g, hg, hout⟩, -⟩
    · exact hok
    · exact absurd (hin g hg) (Nat.not_le.mpr (hout (hpos g hg)))

theorem effective_empty (ro : Replica) (hzero : ¬ ∀ g ∈ ranges, 0 < g.2) :
    ∃ e, effective ro (ranges.map asRequested) = .error e := by
  rw [effective, if_neg]
  · rcases checkRanges_cases ro.info.size ranges with ⟨hin, -⟩ | ⟨-, herr⟩
    · exact absurd (fun g hg => (hin g hg).1) hzero
    · exact herr
  · intro hnil
    rw [List.map_eq_nil_iff.mp hnil] at hzero
    exact hzero (fun g hg => absurd hg (by simp))

section Accepted

variable {name volumeName : String} {l : List String} {chunkSize : Nat} {ranges : List (Nat × Nat)}

section

variable (hchecked : s.checked volumeName name = .ok r.dir)
  (hc : IsChain (r.dir.metas.lookup ·) (snapshotDiskName name) l)
  (hlen : l.length ≤ maximumTotalSnapshotCount) (himgs : ∀ x ∈ l, ∃ i, r.dir.imgs.lookup x = some i)
  (hmod : r.dir.volumeMeta.size % volumeSectorSize = 0) (hchunk : 0 < chunkSize)
  (hpos : ∀ g ∈ ranges, 0 < g.2) (hin : ∀ g ∈ ranges, g.1 + g.2 ≤ r.dir.volumeMeta.size)
include hchecked hc hlen himgs hmod hchunk hpos hin

/-- **A request that is accepted** sends the pieces of the ranges. -/
theorem read_eq_send :
    s.read ⟨volumeName, name, chunkSize, ranges.map asRequested⟩
      = ((send (r.dir.chainView l) (allPieces chunkSize (requested r.dir.volumeMeta.size ranges))
          (List.replicate chunkSize 0)).1, .ok ()) := by
  have hne := snapshotDiskName_ne_empty name
  obtain ⟨ro, hopen, hview, hsize⟩ := newReadOnly_of_chain hc hne hlen himgs
  have hread := read_accepted chunkSize hchecked hopen
    (effective_requested ro hpos (by rw [hsize]; exact hin)) (n := chunkSize)
    (by rw [if_neg (by omega), Int.toNat_natCast])
  rw [hread, hsize, hview]
  refine streamRanges_eq hchunk (fun g hg => ?_) (wf_chainView hc hne hlen himgs hmod)
    (DiffDisk.Caches.refl _) List.length_replicate
  exact requested_le hin hg

/-- It delivers the ranges if the pieces are clean. -/
theorem delivers_accepted_iff :
    Delivers (s.read ⟨volumeName, name, chunkSize, ranges.map asRequested⟩)
        (requested r.dir.volumeMeta.size ranges) (r.dir.showing none l)
      ↔ Clean (r.dir.chainView l) (allPieces chunkSize (requested r.dir.volumeMeta.size ranges))
          (List.replicate chunkSize 0) := by
  rw [read_eq_send hchecked hc hlen himgs hmod hchunk hpos hin]
  have hplace := (send_positions (r.dir.chainView l)
    (allPieces chunkSize (requested r.dir.volumeMeta.size ranges))
    (List.replicate chunkSize 0)).trans (allPieces_positions hchunk _)
  have hlast := allPieces_last hchunk (requested_tail r.dir.volumeMeta.size hpos)
  rw [← send_last (r.dir.chainView l) _ (List.replicate chunkSize 0)] at hlast
  -- the chunks lie inside the volume, where the content is what the chain shows
  have hbytes : ∀ c ∈ (send (r.dir.chainView l)
      (allPieces chunkSize (requested r.dir.volumeMeta.size ranges)) (List.replicate chunkSize 0)).1,
      span (r.dir.chainView l).content c.offset c.data.length
        = span (r.dir.showing none l) c.offset c.data.length := by
    intro c hcmem
    refine span_congr (fun j hj => ?_)
    have hmem : c.offset + j ∈ (requested r.dir.volumeMeta.size ranges).flatMap
        (fun g => List.range' g.1 g.2) := by
      rw [← hplace]
      exact List.mem_flatMap.mpr ⟨c, hcmem, List.mem_range'_1.mpr ⟨by omega, by omega⟩⟩
    obtain ⟨g, hg, hgj⟩ := List.mem_flatMap.mp hmem
    have hgin := requested_le hin hg
    rw [List.mem_range'_1] at hgj
    exact content_chainView hc (snapshotDiskName_ne_empty name) hlen himgs hmod (by omega)
  rw [← send_exact_iff]
  constructor
  · intro hdel c hcmem
    rw [hbytes c hcmem]
    exact hdel.bytes c hcmem
  · intro hexact
    refine ⟨rfl, hplace, fun c hcmem => ?_, hlast⟩
    rw [← hbytes c hcmem]
    exact hexact c hcmem

end

end Accepted

/-- A request for a range without bytes, or for a snapshot that can not be opened, is refused. -/
theorem delivers_refused {name : String} {l : List String} {volumeName : String}
    {ranges gs : List (Nat × Nat)} {byte : Nat → UInt8} (hs : s.replica = some r)
    (hdir : s.stateDir ≠ "") (hvol : volumeName = "" ∨ volumeName = s.volumeName)
    (hc : IsChain (r.dir.metas.lookup ·) (snapshotDiskName name) l) {chunkSize : Nat}
    (hdel : Delivers (s.read ⟨volumeName, name, chunkSize, ranges.map asRequested⟩) gs byte) :
    name ≠ "" ∧ l.length ≤ maximumTotalSnapshotCount ∧ ∀ g ∈ ranges, 0 < g.2 := by
  have hret := hdel.returned
  have hname : name ≠ "" := by
    rintro rfl
    exact absurd hret (by simp [read, checked])
  have hchecked := checked_eq hs hdir hvol hname
  have hlen : l.length ≤ maximumTotalSnapshotCount := by
    by_contra hlong
    rw [read, hchecked] at hret
    dsimp only at hret
    rw [newReadOnly_of_long hc (Nat.not_le.mp hlong)] at hret
    simp at hret
  refine ⟨hname, hlen, ?_⟩
  by_contra hzero
  cases hopen : newReadOnly r.dir (snapshotDiskName name) none with
  | error e =>
    rw [read, hchecked] at hret
    dsimp only at hret
    rw [hopen] at hret
    simp at hret
  | ok ro =>
    obtain ⟨e, he⟩ := effective_empty ro hzero
    rw [read_refused chunkSize hchecked hopen he] at hret
    simp at hret

/-- The volume grows by a sector after the snapshot. -/
def growing : List Replica.Op := keeping ++ [.expand 250 8192 "t"]

/-- What the snapshot is when the volume has grown. -/
theorem exists_growing :
    ∃ r r', Replica.construct (Dir.recovered (fun _ => File.empty 0) 4096) Replica.oneSector
        = .ok r
      ∧ Runs.run (Replica.step .least) r growing = some r'
      ∧ chain r'.dir.metas (snapshotDiskName "a") = .ok [snapshotDiskName "a"]
      ∧ (r'.dir.imgs.lookup (snapshotDiskName "a")).isSome = true
      ∧ r'.dir.volumeMeta.size = 8192
      ∧ (r'.dir.chainView [snapshotDiskName "a"]).content 0 = 1
      ∧ ¬ (r'.dir.chainView [snapshotDiskName "a"]).covered 4096 := by
  have hall : ((Replica.construct (Dir.recovered (fun _ => File.empty 0) 4096)
      Replica.oneSector).toOption.bind (fun r => Runs.run (Replica.step .least) r growing)).any
        (fun r' => decide
          (chain r'.dir.metas (snapshotDiskName "a") = .ok [snapshotDiskName "a"]
            ∧ (r'.dir.imgs.lookup (snapshotDiskName "a")).isSome = true
            ∧ r'.dir.volumeMeta.size = 8192
            ∧ (r'.dir.chainView [snapshotDiskName "a"]).content 0 = 1
            ∧ ¬ (r'.dir.chainView [snapshotDiskName "a"]).covered 4096)) = true := by decide +kernel
  obtain ⟨r', hr', hdec⟩ := (Option.any_eq_true _ _).mp hall
  obtain ⟨r, hr, hrun⟩ := Option.bind_eq_some_iff.mp hr'
  exact ⟨r, r', Replica.toOption_eq_some hr, hrun, of_decide_eq_true hdec⟩

/-- The pieces of two sectors, one at a time. -/
theorem allPieces_growing :
    allPieces 4096 (requested 8192 []) = [⟨0, 4096, false⟩, ⟨4096, 4096, true⟩] := by
  simp [requested, allPieces, pieces]

end SnapshotReader

end WeftBlock
