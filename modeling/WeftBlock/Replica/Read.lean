import WeftBlock.Replica.Lookup

/-!
# Reading through the layers

What `ReadAt` puts into the caller's buffer, position by position.

`fullReadAt` is exact up to one thing: it does not touch the positions that lie
past the end of the file their sector resolves to, and leaves there whatever the
buffer held before (`Filled`). With a zeroed buffer that is the right byte.
`ReadAt` reads its unaligned ends through one scratch sector, zeroed before the
head is read and *not* zeroed again before the tail is. So a tail byte past the
end of its file comes back as the byte the head sector has at the same place.
`readAt_spec` says all of this (`leaves`), `readAt_zero` what is left of it for a
zeroed buffer, and `ScratchClean` is the condition under which it does no harm.
-/

namespace WeftBlock.DiffDisk

open Slice

/-- `out` is `buf` with the covered positions of `[lo, hi)` read in. -/
structure Filled (d : DiffDisk) (offset lo hi : Nat) (buf out : List UInt8) : Prop where
  length : out.length = buf.length
  get : ∀ j, out[j]? = if lo ≤ j ∧ j < hi ∧ d.covered (offset + j)
    then some (d.content (offset + j)) else buf[j]?

variable {d : DiffDisk}

theorem Filled.trans {offset a b c : Nat} {buf mid out : List UInt8}
    (hab : a ≤ b) (hbc : b ≤ c) (h1 : Filled d offset a b buf mid)
    (h2 : Filled d offset b c mid out) : Filled d offset a c buf out := by
  refine ⟨h2.length.trans h1.length, fun j => ?_⟩
  rw [h2.get, h1.get]
  by_cases hc : d.covered (offset + j)
  · rcases Nat.lt_or_ge j b with hj | hj
    · rw [if_neg (by omega)]
      by_cases ha : a ≤ j
      · rw [if_pos ⟨ha, hj, hc⟩, if_pos ⟨ha, by omega, hc⟩]
      · rw [if_neg (fun h => ha h.1), if_neg (fun h => ha h.1)]
    · by_cases hj' : j < c
      · rw [if_pos ⟨hj, hj', hc⟩, if_pos ⟨by omega, hj', hc⟩]
      · rw [if_neg (fun h => hj' h.2.1), if_neg (by omega), if_neg (fun h => hj' h.2.1)]
  · rw [if_neg (fun h => hc h.2.2), if_neg (fun h => hc h.2.2), if_neg (fun h => hc h.2.2)]

theorem Filled.of_caches {d d' : DiffDisk} {offset lo hi : Nat} {buf out : List UInt8}
    (hc : Caches d d') (h : Filled d' offset lo hi buf out) : Filled d offset lo hi buf out := by
  refine ⟨h.length, fun j => ?_⟩
  rw [h.get, hc.content]
  simp only [hc.covered]

/-! ## Which file a sector is read from -/

/-- The file a sector is read from, also past the end of the table. -/
def target (d : DiffDisk) (s : Nat) : Nat :=
  if s < d.location.length then d.layer s else d.files.length - 1

/-- The size of the head file. -/
def headSize (d : DiffDisk) : Nat := (d.file (d.files.length - 1)).size

/-- What the count and the error of a transfer come to, from a file of the given size. -/
def counted (d : DiffDisk) (fileSize start len : Nat) : Int × Option DiskErr :=
  if start + len ≤ max fileSize d.size then (len, none)
  else (d.size - start, some .unexpectedEOF)

section

variable {d' : DiffDisk}

theorem Caches.target (h : Caches d d') (s : Nat) : d'.target s = d.target s := by
  rw [DiffDisk.target, DiffDisk.target, h.length, h.layer, h.files]

theorem Caches.headSize (h : Caches d d') : d'.headSize = d.headSize := by
  rw [DiffDisk.headSize, DiffDisk.headSize, h.file, h.files]

theorem Caches.counted (h : Caches d d') (fileSize start len : Nat) :
    d'.counted fileSize start len = d.counted fileSize start len := by
  rw [DiffDisk.counted, DiffDisk.counted, h.size]

end

/-- `lookup` answers for every sector. -/
theorem lookup_target (h : d.Wf) (s : Nat) :
    ∃ d' t, d.lookup s = (d', .ok t) ∧ t.toNat = d.target s ∧ d'.Wf ∧ Caches d d' := by
  by_cases hs : s < d.location.length
  · obtain ⟨d', t, hl, ht, hw, hc⟩ := lookup_spec h hs
    exact ⟨d', t, hl, by rw [target, if_pos hs, ht], hw, hc⟩
  · refine ⟨d, _, by rw [lookup, if_pos (Nat.not_lt.mp hs)], ?_, h, Caches.refl d⟩
    rw [target, if_neg hs, UInt8.toNat_ofNat']
    have h2 := h.le_256
    have h1 := h.two_le
    exact Nat.mod_eq_of_lt (by omega)

/-- Sectors past the table are read from the head. -/
theorem file_target (h : d.Wf) {s : Nat} (hs : d.size ≤ s * d.sectorSize) :
    (d.file (d.target s)).size = d.headSize := by
  have hle : ¬ s < d.location.length := by
    intro hlt
    have h1 := Nat.mul_lt_mul_of_pos_right hlt h.sector_pos
    rw [h.table] at h1
    omega
  rw [target, if_neg hle, headSize]

/-! ## One run of sectors -/

variable {buf : List UInt8}

/-- The file part of `read`: what reaches the buffer is the part of the run inside the file. -/
theorem getElem?_read_buf {f : File} {offset start len got : Nat} (hbuf : start + len ≤ buf.length)
    (hgot : got = if offset + start < f.size then min len (f.size - (offset + start)) else 0)
    (j : Nat) :
    (copyAt buf start (f.readAt (offset + start) got))[j]?
      = if start ≤ j ∧ j < start + len ∧ offset + j < f.size then some (f.byteAt (offset + j))
        else buf[j]? := by
  have hle : got ≤ len := by rw [hgot]; split <;> omega
  rw [getElem?_copyAt (by rw [File.readAt, length_span]; omega), File.readAt, length_span,
    getElem?_span]
  by_cases hin : start ≤ j ∧ j < start + got
  · have hcov : j < start + len ∧ offset + j < f.size := by
      split at hgot <;> omega
    rw [if_pos hin, if_pos (by omega), if_pos ⟨hin.1, hcov.1, hcov.2⟩]
    congr 2
    omega
  · rw [if_neg hin, if_neg ?_]
    intro hex
    obtain ⟨h1, h2, h3⟩ := hex
    apply hin
    split at hgot <;> omega

section

variable (d : DiffDisk) (target : UInt8) (buf : List UInt8) (offset startSector sectors : Nat)

/-- Whatever the count and the error, `read` leaves the same buffer. -/
theorem read_fst :
    (d.read target buf offset startSector sectors).1
      = copyAt buf (startSector * d.sectorSize)
          ((d.file target.toNat).readAt (offset + startSector * d.sectorSize)
            (if offset + startSector * d.sectorSize < (d.file target.toNat).size
              then min (sectors * d.sectorSize)
                ((d.file target.toNat).size - (offset + startSector * d.sectorSize))
              else 0)) := by
  unfold read
  dsimp only
  split
  · rfl
  · split <;> rfl

theorem length_read :
    (d.read target buf offset startSector sectors).1.length = buf.length := by
  rw [read_fst]
  simp only [copyAt, List.length_append, List.length_take, List.length_drop]
  omega

end

/-- **`read` of one run of sectors** that all resolve to `target` fills in what the file covers. -/
theorem filled_read (h : d.Wf) (target : UInt8) (buf : List UInt8) (first startSector sectors : Nat)
    (hrun : ∀ k, startSector ≤ k → k < startSector + sectors →
      d.layer (first + k) = target.toNat)
    (hbuf : (startSector + sectors) * d.sectorSize ≤ buf.length) :
    Filled d (first * d.sectorSize) (startSector * d.sectorSize)
      ((startSector + sectors) * d.sectorSize) buf
      (d.read target buf (first * d.sectorSize) startSector sectors).1 := by
  have hmul : (startSector + sectors) * d.sectorSize
      = startSector * d.sectorSize + sectors * d.sectorSize := Nat.add_mul _ _ _
  refine ⟨length_read _ _ _ _ _ _, fun j => ?_⟩
  rw [read_fst, getElem?_read_buf (by omega) rfl j]
  by_cases hj : startSector * d.sectorSize ≤ j ∧
      j < startSector * d.sectorSize + sectors * d.sectorSize
  · have hk : (first * d.sectorSize + j) / d.sectorSize = first + j / d.sectorSize := by
      rw [Nat.add_comm, Nat.add_mul_div_right _ _ h.sector_pos, Nat.add_comm]
    have hlo : startSector ≤ j / d.sectorSize := (Nat.le_div_iff_mul_le h.sector_pos).mpr hj.1
    have hhi : j / d.sectorSize < startSector + sectors :=
      (Nat.div_lt_iff_lt_mul h.sector_pos).mpr (by omega)
    have hl := hrun _ hlo hhi
    simp only [covered, content, hk, hl, hmul]
  · rw [if_neg (fun hc => hj ⟨hc.1, hc.2.1⟩), if_neg (fun hc => hj ⟨hc.1, by omega⟩)]

/-- **The count and the error of one `read`**, for any run of sectors. -/
theorem read_counted (d : DiffDisk) (target : UInt8) (buf : List UInt8)
    (offset startSector sectors : Nat) :
    (d.read target buf offset startSector sectors).2 =
      d.counted (d.file target.toNat).size (offset + startSector * d.sectorSize)
        (sectors * d.sectorSize) := by
  unfold read counted
  dsimp only
  generalize (d.file target.toNat).size = size
  generalize offset + startSector * d.sectorSize = start
  generalize sectors * d.sectorSize = len
  have hgot : (if start < size then min len (size - start) else 0) = min len (size - start) := by
    split <;> omega
  rw [hgot]
  by_cases hfile : start + len ≤ size
  · rw [if_pos hfile, if_pos (by omega), Nat.min_eq_left (by omega)]
  · rw [if_neg hfile]
    by_cases hvol : start + len ≤ d.size
    · rw [if_pos hvol, if_pos (by omega)]
      refine Prod.ext ?_ rfl
      push_cast
      omega
    · rw [if_neg hvol, if_neg (by omega)]
      refine Prod.ext ?_ rfl
      push_cast
      omega

/-- A transfer that follows a complete one goes on with its count. -/
theorem counted_add (d : DiffDisk) (fileSize start a b : Nat) :
    d.counted fileSize start (a + b) =
      (a + (d.counted fileSize (start + a) b).1, (d.counted fileSize (start + a) b).2) := by
  unfold counted
  rw [Nat.add_assoc]
  split
  · push_cast
    rfl
  · refine Prod.ext ?_ rfl
    push_cast
    omega

/-- Of the files, only the head counts past the end. -/
theorem counted_target (h : d.Wf) {first sectors s : Nat} (hs : s + 1 = first + sectors) :
    d.counted (d.file (d.target s)).size (first * d.sectorSize) (sectors * d.sectorSize) =
      d.counted d.headSize (first * d.sectorSize) (sectors * d.sectorSize) := by
  have hend : first * d.sectorSize + sectors * d.sectorSize = s * d.sectorSize + d.sectorSize := by
    rw [← Nat.add_mul, ← hs, Nat.succ_mul]
  by_cases hin : s < d.location.length
  · have h1 := Nat.mul_le_mul_right d.sectorSize hin
    rw [h.table, Nat.succ_mul] at h1
    rw [counted, counted, if_pos (by omega), if_pos (by omega)]
  · have h1 := Nat.mul_le_mul_right d.sectorSize (Nat.not_lt.mp hin)
    rw [h.table] at h1
    rw [file_target h h1]

/-! ## The loop over the sectors -/

/-- `out` comes from a read of the disk into the buffer. -/
structure ReadFrom (d : DiffDisk) (buf : List UInt8) (out : ReadOut) : Prop where
  wf : out.disk.Wf
  caches : Caches d out.disk
  length : out.buf.length = buf.length

/--
**The loop of `fullReadAt`**, inside the volume or not. The invariant is in the hypotheses:
the last `run` of the `i` sectors looked up so far resolve to `t`, and nothing has been
read of them. The induction is on the sectors still to be looked up.
-/
theorem fullReadLoop_out (first : Nat) : ∀ (rem i run : Nat) (t : UInt8) (d : DiffDisk)
    (buf : List UInt8) (count : Int) (out : ReadOut), d.Wf → 0 < run → run ≤ i →
    (∀ k, i - run ≤ k → k < i → d.target (first + k) = t.toNat) →
    fullReadLoop (first * d.sectorSize) first rem i run t d buf count = out →
    ReadFrom d buf out
      ∧ out.n = count + (d.counted d.headSize ((first + (i - run)) * d.sectorSize)
          ((run + rem) * d.sectorSize)).1
      ∧ out.err = (d.counted d.headSize ((first + (i - run)) * d.sectorSize)
          ((run + rem) * d.sectorSize)).2
      ∧ (first + (i + rem) ≤ d.location.length → (i + rem) * d.sectorSize ≤ buf.length →
        Filled d (first * d.sectorSize) ((i - run) * d.sectorSize) ((i + rem) * d.sectorSize)
          buf out.buf) := by
  -- what reading the run fills in, if it lies inside the table
  have hfilled : ∀ {i run : Nat} {t : UInt8} {d : DiffDisk} (buf : List UInt8), d.Wf → run ≤ i →
      (∀ k, i - run ≤ k → k < i → d.target (first + k) = t.toNat) →
      first + i ≤ d.location.length → i * d.sectorSize ≤ buf.length →
      Filled d (first * d.sectorSize) ((i - run) * d.sectorSize) (i * d.sectorSize) buf
        (d.read t buf (first * d.sectorSize) (i - run) run).1 := by
    intro i run t d buf h hle hrun hin hbuf
    have hi : i - run + run = i := Nat.sub_add_cancel hle
    have hf := filled_read h t buf first (i - run) run
      (fun k h1 h2 => by rw [← hrun k h1 (by omega), target, if_pos (by omega)])
      (by rw [hi]; exact hbuf)
    rwa [hi] at hf
  intro rem
  induction rem with
  | zero =>
    intro i run t d buf count out h hpos hle hrun hout
    subst hout
    have hread := read_counted d t buf (first * d.sectorSize) (i - run) run
    rw [← Nat.add_mul, ← hrun (i - 1) (by omega) (by omega),
      counted_target h (by omega : first + (i - 1) + 1 = first + (i - run) + run)] at hread
    rw [fullReadLoop, Nat.add_zero, Nat.add_zero, ← hread]
    exact ⟨⟨h, Caches.refl d, length_read _ _ _ _ _ _⟩, rfl, rfl, hfilled buf h hle hrun⟩
  | succ rem ih =>
    intro i run t d buf count out h hpos hle hrun hout
    obtain ⟨d₁, t₁, hl, ht, hw₁, hc₁⟩ := lookup_target h (first + i)
    have hss := hc₁.sectorSize
    have htot : i + 1 + rem = i + (rem + 1) := by omega
    rw [fullReadLoop, hl] at hout
    dsimp only at hout
    by_cases heq : t₁ = t
    · -- the run grows by one sector
      rw [if_pos heq, ← hss] at hout
      have hrun' : ∀ k, i + 1 - (run + 1) ≤ k → k < i + 1 → d₁.target (first + k) = t.toNat := by
        intro k h1 h2
        rw [hc₁.target]
        rcases Nat.lt_or_ge k i with hk | hk
        · exact hrun k (by omega) hk
        · rw [show k = i by omega, ← ht, heq]
      obtain ⟨hr, hn, herr, hf⟩ := ih (i + 1) (run + 1) t d₁ buf count out hw₁ (by omega)
        (by omega) hrun' hout
      rw [hc₁.headSize, hss, hc₁.counted, show i + 1 - (run + 1) = i - run by omega,
        show run + 1 + rem = run + (rem + 1) by omega] at hn herr
      rw [hc₁.length, hss, htot, show i + 1 - (run + 1) = i - run by omega] at hf
      exact ⟨⟨hr.wf, hc₁.trans hr.caches, hr.length⟩, hn, herr,
        fun hin hbuf => (hf hin hbuf).of_caches hc₁⟩
    · -- the run ends here: read it, and start a new one with this sector
      rw [if_neg heq] at hout
      -- past the table there is only one file, so this run lies inside it
      have hend : (first + (i - run)) * d.sectorSize + run * d.sectorSize ≤ d.size := by
        rw [← Nat.add_mul, show first + (i - run) + run = first + i by omega]
        by_contra hgt
        have hlast : ∀ s, d.location.length ≤ s → d.target s = d.files.length - 1 :=
          fun s hs => if_neg (Nat.not_lt.mpr hs)
        have hout : d.location.length < first + i := by
          refine Nat.lt_of_mul_lt_mul_right (a := d.sectorSize) ?_
          rw [h.table]
          omega
        have hprev := hrun (i - 1) (by omega) (by omega)
        rw [hlast _ (by omega)] at hprev
        rw [hlast _ (by omega), hprev] at ht
        exact heq (UInt8.toNat_inj.mp ht)
      have hread := read_counted d₁ t buf (first * d.sectorSize) (i - run) run
      rw [hss, ← Nat.add_mul, hc₁.counted, counted, if_pos (by omega)] at hread
      have hlen := length_read d₁ t buf (first * d.sectorSize) (i - run) run
      have hfill := hfilled buf hw₁ hle (fun k h1 h2 => by rw [hc₁.target, hrun k h1 h2])
      rw [hc₁.length, hss] at hfill
      generalize d₁.read t buf (first * d.sectorSize) (i - run) run = res at hread hlen hfill hout
      obtain ⟨buf₁, c, e⟩ := res
      obtain ⟨rfl, rfl⟩ := Prod.mk.inj hread
      dsimp only at hlen hfill hout
      rw [← hss] at hout
      obtain ⟨hr, hn, herr, hf⟩ := ih (i + 1) 1 t₁ d₁ buf₁ _ out hw₁ (by omega) (by omega)
        (fun k h1 h2 => by rw [hc₁.target, show k = i by omega, ht]) hout
      have hstart : (first + (i - run)) * d.sectorSize + run * d.sectorSize
          = (first + i) * d.sectorSize := by
        rw [← Nat.add_mul, show first + (i - run) + run = first + i by omega]
      rw [hc₁.headSize, hss, hc₁.counted, Nat.add_sub_cancel] at hn herr
      rw [hc₁.length, hss, htot, Nat.add_sub_cancel, hlen] at hf
      rw [show run + (rem + 1) = run + (1 + rem) by omega, Nat.add_mul run, counted_add, hstart]
      refine ⟨⟨hr.wf, hc₁.trans hr.caches, hr.length.trans hlen⟩, by rw [hn]; ring, herr,
        fun hin hbuf => ?_⟩
      have hle' : i * d.sectorSize ≤ (i + (rem + 1)) * d.sectorSize :=
        Nat.mul_le_mul_right _ (by omega)
      exact ((hfill (by omega) (by omega)).of_caches hc₁).trans (Nat.mul_le_mul_right _ (by omega))
        hle' ((hf hin hbuf).of_caches hc₁)

/-- **`fullReadAt` of any whole sectors.** -/
theorem fullReadAt_out (h : d.Wf) {buf : List UInt8} {offset : Nat} (hpos : 0 < buf.length)
    (hlen : buf.length % d.sectorSize = 0) (hoff : offset % d.sectorSize = 0) :
    ReadFrom d buf (d.fullReadAt buf offset)
      ∧ ((d.fullReadAt buf offset).n, (d.fullReadAt buf offset).err)
        = d.counted d.headSize offset buf.length
      ∧ (offset + buf.length ≤ d.size →
        Filled d offset 0 buf.length buf (d.fullReadAt buf offset).buf) := by
  obtain ⟨m, hm⟩ := Nat.dvd_of_mod_eq_zero hlen
  obtain ⟨first, rfl⟩ := Nat.dvd_of_mod_eq_zero hoff
  have hss := h.sector_pos
  have hmpos : 0 < m := Nat.pos_of_mul_pos_left (hm ▸ hpos)
  obtain ⟨d₁, t, hl, ht, hw₁, hc₁⟩ := lookup_target h first
  have hread : d.fullReadAt buf (d.sectorSize * first)
      = fullReadLoop (first * d₁.sectorSize) first (m - 1) 1 1 t d₁ buf 0 := by
    unfold fullReadAt
    rw [if_neg (by omega), if_neg (by omega)]
    dsimp only
    rw [Nat.mul_div_cancel_left _ hss, hl, hm, Nat.mul_div_cancel_left _ hss, hc₁.sectorSize,
      Nat.mul_comm first]
  obtain ⟨hr, hn, herr, hf⟩ := fullReadLoop_out first (m - 1) 1 1 t d₁ buf 0 _ hw₁ one_pos le_rfl
    (fun k _ hk => by rw [hc₁.target, ht, show k = 0 by omega, Nat.add_zero]) hread.symm
  rw [hc₁.counted, hc₁.headSize, hc₁.sectorSize, Nat.sub_self, Nat.add_zero,
    show 1 + (m - 1) = m by omega, Nat.mul_comm m, ← hm, Nat.mul_comm first] at hn herr
  refine ⟨⟨hr.wf, hc₁.trans hr.caches, hr.length⟩, by rw [hn, herr, Int.zero_add], fun hvol => ?_⟩
  rw [hc₁.sectorSize, hc₁.length, Nat.sub_self, Nat.zero_mul, show 1 + (m - 1) = m by omega,
    Nat.mul_comm m, ← hm, Nat.mul_comm first] at hf
  refine (hf ?_ le_rfl).of_caches hc₁
  refine Nat.le_of_mul_le_mul_right ?_ hss
  rw [h.table, Nat.add_mul, Nat.mul_comm first, Nat.mul_comm m, ← hm]
  exact hvol

theorem fullReadAt_readFrom (h : d.Wf) (buf : List UInt8) (offset : Nat) :
    ReadFrom d buf (d.fullReadAt buf offset) := by
  by_cases hmod : buf.length % d.sectorSize ≠ 0 ∨ offset % d.sectorSize ≠ 0
  · rw [fullReadAt, if_pos hmod]
    exact ⟨h, Caches.refl d, rfl⟩
  by_cases hzero : buf.length = 0
  · rw [fullReadAt, if_neg hmod, if_pos hzero]
    exact ⟨h, Caches.refl d, rfl⟩
  · exact (fullReadAt_out h (Nat.pos_of_ne_zero hzero) (by omega) (by omega)).1

/-- **`fullReadAt` inside the volume.** -/
theorem fullReadAt_spec (h : d.Wf) (buf : List UInt8) (offset : Nat)
    (hlen : buf.length % d.sectorSize = 0) (hoff : offset % d.sectorSize = 0)
    (hvol : offset + buf.length ≤ d.size) :
    ∃ d' buf', d.fullReadAt buf offset = ⟨d', buf', buf.length, none⟩ ∧ d'.Wf ∧ Caches d d'
      ∧ Filled d offset 0 buf.length buf buf' := by
  rcases Nat.eq_zero_or_pos buf.length with h0 | hpos
  · refine ⟨d, buf, ?_, h, Caches.refl d, rfl, fun j => by rw [if_neg (by omega)]⟩
    rw [fullReadAt, if_neg (by omega), if_pos h0, h0]
    rfl
  · obtain ⟨hr, hcount, hf⟩ := fullReadAt_out h hpos hlen hoff
    rw [counted, if_pos (by omega)] at hcount
    obtain ⟨hn, herr⟩ := Prod.mk.inj hcount
    exact ⟨_, _, by rw [← hn, ← herr], hr.wf, hr.caches, hf hvol⟩

/-! ## Unaligned ends -/

/-- The read has a tail of its own: it is unaligned and leaves its first sector. -/
def Split (d : DiffDisk) (offset len : Nat) : Prop :=
  ¬ (d.startOffset offset = 0 ∧ d.endOffset len offset = 0) ∧ d.startCut offset < len

instance (d : DiffDisk) (offset len : Nat) : Decidable (d.Split offset len) :=
  inferInstanceAs (Decidable (_ ∧ _))

theorem startOffset_lt (h : d.Wf) (offset : Nat) :
    d.startOffset offset < d.sectorSize := Nat.mod_lt _ h.sector_pos

theorem endOffset_lt (h : d.Wf) (len offset : Nat) :
    d.endOffset len offset < d.sectorSize := Nat.mod_lt _ h.sector_pos

theorem startOffset_le (d : DiffDisk) (offset : Nat) : d.startOffset offset ≤ offset :=
  Nat.mod_le _ _

theorem startCut_add (h : d.Wf) (offset : Nat) :
    d.startCut offset + d.startOffset offset = d.sectorSize :=
  Nat.sub_add_cancel (Nat.le_of_lt (startOffset_lt h offset))

/-- The sector a transfer starts in begins on a boundary. -/
theorem startSector_mod (d : DiffDisk) (offset : Nat) :
    (offset - d.startOffset offset) % d.sectorSize = 0 := by
  have h := Nat.div_add_mod offset d.sectorSize
  rw [startOffset, show offset - offset % d.sectorSize
    = d.sectorSize * (offset / d.sectorSize) by omega]
  exact Nat.mul_mod_right _ _

/-- The sector a position lies in is inside the volume. -/
theorem sector_in_volume (h : d.Wf) {p : Nat} (hp : p < d.size) :
    p - d.startOffset p + d.sectorSize ≤ d.size := by
  have hlt : p / d.sectorSize < d.location.length := by
    rw [Nat.div_lt_iff_lt_mul h.sector_pos, h.table]; exact hp
  have h1 := Nat.mul_le_mul_right d.sectorSize hlt
  rw [h.table, Nat.succ_mul, Nat.mul_comm] at h1
  have h2 := Nat.div_add_mod p d.sectorSize
  rw [startOffset]
  omega

/-- Where the pieces of a split transfer lie: all inner cuts are on sector boundaries. -/
structure Cuts (d : DiffDisk) (offset len : Nat) : Prop where
  mid_start : (offset + d.startCut offset) % d.sectorSize = 0
  mid_len : (len - d.endOffset len offset - d.startCut offset) % d.sectorSize = 0
  tail_start : (offset + len - d.endOffset len offset) % d.sectorSize = 0
  start_le : d.startCut offset ≤ len - d.endOffset len offset
  end_le : d.endOffset len offset ≤ len
  /-- The sector of a non-empty tail is inside the volume. -/
  tail_in : 0 < d.endOffset len offset →
    offset + len - d.endOffset len offset + d.sectorSize ≤ d.size

variable {offset len : Nat}

/-- The cuts themselves do not depend on where the volume ends. -/
theorem cuts_mod (hw : 0 < d.sectorSize) (hlt : d.startCut offset < len) :
    (offset + d.startCut offset) % d.sectorSize = 0
      ∧ (len - d.endOffset len offset - d.startCut offset) % d.sectorSize = 0
      ∧ (offset + len - d.endOffset len offset) % d.sectorSize = 0
      ∧ d.startCut offset ≤ len - d.endOffset len offset ∧ d.endOffset len offset ≤ len := by
  have h1 := Nat.div_add_mod offset d.sectorSize
  have h2 := Nat.div_add_mod (len + offset) d.sectorSize
  have hm1 := Nat.mod_lt offset hw
  unfold startCut startOffset at hlt
  have hq : offset / d.sectorSize + 1 ≤ (len + offset) / d.sectorSize :=
    (Nat.le_div_iff_mul_le hw).mpr (by rw [Nat.add_mul, Nat.mul_comm]; omega)
  have hmul : d.sectorSize * (offset / d.sectorSize + 1)
      ≤ d.sectorSize * ((len + offset) / d.sectorSize) := Nat.mul_le_mul_left _ hq
  have hexp : d.sectorSize * (offset / d.sectorSize + 1)
      = d.sectorSize * (offset / d.sectorSize) + d.sectorSize := Nat.mul_succ _ _
  have htail : offset + len - (len + offset) % d.sectorSize
      = d.sectorSize * ((len + offset) / d.sectorSize) := by omega
  refine ⟨?_, ?_, ?_, ?_, ?_⟩
  · rw [startCut, startOffset, show offset + (d.sectorSize - offset % d.sectorSize)
      = d.sectorSize * (offset / d.sectorSize + 1) by omega]
    exact Nat.mul_mod_right _ _
  · rw [endOffset, startCut, startOffset,
      show len - (len + offset) % d.sectorSize - (d.sectorSize - offset % d.sectorSize)
        = d.sectorSize * ((len + offset) / d.sectorSize)
          - d.sectorSize * (offset / d.sectorSize + 1) by omega, ← Nat.mul_sub]
    exact Nat.mul_mod_right _ _
  · rw [endOffset, htail]; exact Nat.mul_mod_right _ _
  · rw [endOffset, startCut, startOffset]; omega
  · rw [endOffset]; omega

theorem cuts_of_lt (h : d.Wf) (hvol : offset + len ≤ d.size)
    (hlt : d.startCut offset < len) : Cuts d offset len := by
  obtain ⟨hstart, hmid, htail, hle, hend⟩ := cuts_mod h.sector_pos hlt
  refine ⟨hstart, hmid, htail, hle, hend, fun hpos => ?_⟩
  have hin := sector_in_volume h (p := len + offset - 1) (by omega)
  have h2 := Nat.div_add_mod (len + offset) d.sectorSize
  have hm2 := Nat.mod_lt (len + offset) h.sector_pos
  -- the last byte and the end of the transfer are in one sector
  have hsame : (len + offset - 1) % d.sectorSize = (len + offset) % d.sectorSize - 1 := by
    rw [endOffset] at hpos
    have h3 : len + offset - 1 = d.sectorSize * ((len + offset) / d.sectorSize)
        + ((len + offset) % d.sectorSize - 1) := by omega
    rw [h3, Nat.mul_add_mod, Nat.mod_eq_of_lt (by omega)]
  rw [endOffset] at hpos ⊢
  rw [startOffset, hsame] at hin
  omega

theorem Filled.zero {offset n : Nat} {out : List UInt8} {j : Nat}
    (h : Filled d offset 0 n (List.replicate n 0) out) (hj : j < n) :
    out[j]? = some (d.content (offset + j)) := by
  rw [h.get]
  by_cases hc : d.covered (offset + j)
  · rw [if_pos ⟨Nat.zero_le _, hj, hc⟩]
  · rw [if_neg (fun hh => hc hh.2.2), content_of_not_covered hc, List.getElem?_replicate, if_pos hj]

/-- A whole sector read into a zeroed scratch sector. -/
theorem fullReadAt_sector (h : d.Wf) {p : Nat} (hp : p < d.size) :
    ∃ d' scratch, d.fullReadAt (List.replicate d.sectorSize 0) (p - d.startOffset p)
        = ⟨d', scratch, d.sectorSize, none⟩
      ∧ d'.Wf ∧ Caches d d' ∧ scratch.length = d.sectorSize
      ∧ ∀ i, i < d.sectorSize → scratch[i]? = some (d.content (p - d.startOffset p + i)) := by
  have hsl : (List.replicate d.sectorSize (0 : UInt8)).length = d.sectorSize :=
    List.length_replicate
  obtain ⟨d', scratch, hr, hw, hc, hf⟩ := fullReadAt_spec h (List.replicate d.sectorSize 0)
    (p - d.startOffset p) (by rw [hsl, Nat.mod_self]) (startSector_mod d p)
    (by rw [hsl]; exact sector_in_volume h hp)
  rw [hsl] at hf hr
  exact ⟨d', scratch, hr, hw, hc, by rw [hf.length, hsl], fun i hi => hf.zero hi⟩

/-- The first copy: the head part is right, the rest of the buffer is as it was. -/
theorem getElem?_copy_head (h : d.Wf) {offset : Nat} {buf scratch : List UInt8}
    (hl : scratch.length = d.sectorSize)
    (hs : ∀ i, i < d.sectorSize →
      scratch[i]? = some (d.content (offset - d.startOffset offset + i)))
    {j : Nat} (hj : j < buf.length) :
    (copyAt buf 0 ((scratch.drop (d.startOffset offset)).take buf.length))[j]?
      = some (if j < d.startCut offset then d.content (offset + j) else buf.getD j 0) := by
  have h1 := startCut_add h offset
  have h2 := startOffset_le d offset
  have hcopy : ((scratch.drop (d.startOffset offset)).take buf.length).length
      = min buf.length (d.startCut offset) := by
    rw [List.length_take, List.length_drop, hl, startCut]
  rw [getElem?_copyAt (by rw [hcopy]; omega), hcopy]
  by_cases hjs : j < d.startCut offset
  · rw [if_pos (by omega), if_pos hjs, Nat.sub_zero, List.getElem?_take_of_lt hj,
      List.getElem?_drop, hs _ (by omega)]
    congr 2
    omega
  · rw [if_neg (by omega), if_neg hjs, List.getD_eq_getElem?_getD, List.getElem?_eq_getElem hj]
    rfl

/-- The middle, read in place. -/
theorem fullReadAt_mid (h : d.Wf) {offset start stop : Nat}
    {g : Nat → UInt8} (hss : start ≤ stop) (hsl : stop ≤ buf.length)
    (hoff : (offset + start) % d.sectorSize = 0) (hmid : (stop - start) % d.sectorSize = 0)
    (hvol : offset + buf.length ≤ d.size) (hbuf : ∀ j, j < stop → buf[j]? = some (g j)) :
    ∃ d' mid, d.fullReadAt ((buf.drop start).take (stop - start)) (offset + start)
        = ⟨d', mid, ((stop - start : Nat) : Int), none⟩
      ∧ d'.Wf ∧ Caches d d' ∧ (copyAt buf start mid).length = buf.length
      ∧ ∀ j, j < stop → (copyAt buf start mid)[j]?
        = some (if start ≤ j ∧ d.covered (offset + j) then d.content (offset + j) else g j) := by
  have hpl : ((buf.drop start).take (stop - start)).length = stop - start := by
    rw [List.length_take, List.length_drop]; omega
  obtain ⟨d', mid, hr, hw, hc, hf⟩ := fullReadAt_spec h ((buf.drop start).take (stop - start))
    (offset + start) (by rw [hpl]; exact hmid) hoff (by rw [hpl]; omega)
  rw [hpl] at hr hf
  have hml : mid.length = stop - start := by rw [hf.length, hpl]
  refine ⟨d', mid, hr, hw, hc, by rw [length_copyAt (by omega)], fun j hj => ?_⟩
  rw [getElem?_copyAt (by rw [hml]; omega), hml]
  by_cases hjs : j < start
  · rw [if_neg (by omega), hbuf j hj, if_neg (fun hh => absurd hh.1 (Nat.not_le.mpr hjs))]
  · rw [if_pos (by omega), hf.get]
    have hp : offset + start + (j - start) = offset + j := by omega
    rw [hp]
    by_cases hcv : d.covered (offset + j)
    · rw [if_pos ⟨Nat.zero_le _, by omega, hcv⟩, if_pos ⟨Nat.not_lt.mp hjs, hcv⟩]
    · rw [if_neg (fun hh => hcv hh.2.2), if_neg (fun hh => hcv hh.2),
        List.getElem?_take_of_lt (by omega), List.getElem?_drop,
        Nat.add_sub_cancel' (Nat.not_lt.mp hjs), hbuf j hj]

/-- The position is read in place, not through the scratch sector. -/
def InPlace (d : DiffDisk) (offset len j : Nat) : Prop :=
  (d.startOffset offset = 0 ∧ d.endOffset len offset = 0) ∨ d.startCut offset ≤ j

instance (d : DiffDisk) (offset len j : Nat) : Decidable (d.InPlace offset len j) :=
  inferInstanceAs (Decidable (_ ∨ _))

/-- What a position of the buffer is left with that lies past the end of its file. -/
def stale (d : DiffDisk) (buf : List UInt8) (offset j : Nat) : UInt8 :=
  if d.Split offset buf.length ∧ buf.length - d.endOffset buf.length offset ≤ j then
    -- the tail: the scratch sector still holds the head
    d.content (offset - d.startOffset offset + (j - (buf.length - d.endOffset buf.length offset)))
  else if d.InPlace offset buf.length j then
    -- what the buffer held before
    buf.getD j 0
  else 0

/-- The byte `ReadAt` leaves at position `j` of the buffer. -/
def leaves (d : DiffDisk) (buf : List UInt8) (offset j : Nat) : UInt8 :=
  if d.covered (offset + j) then d.content (offset + j) else d.stale buf offset j

/-- The byte `ReadAt` leaves at position `j` of a zeroed buffer of length `len`. -/
def returned (d : DiffDisk) (offset len j : Nat) : UInt8 :=
  if d.Split offset len ∧ len - d.endOffset len offset ≤ j ∧ ¬ d.covered (offset + j) then
    -- past the end of the tail's file: the scratch sector still holds the head
    d.content (offset - d.startOffset offset + (j - (len - d.endOffset len offset)))
  else
    d.content (offset + j)

section

variable {d d' : DiffDisk} (h : Caches d d')
include h

theorem Caches.startOffset (offset : Nat) :
    d'.startOffset offset = d.startOffset offset := by
  rw [DiffDisk.startOffset, DiffDisk.startOffset, h.sectorSize]

theorem Caches.startCut (offset : Nat) :
    d'.startCut offset = d.startCut offset := by
  rw [DiffDisk.startCut, DiffDisk.startCut, h.sectorSize, h.startOffset]

theorem Caches.endOffset (len offset : Nat) :
    d'.endOffset len offset = d.endOffset len offset := by
  rw [DiffDisk.endOffset, DiffDisk.endOffset, h.sectorSize]

theorem Caches.split (offset len : Nat) :
    d'.Split offset len ↔ d.Split offset len := by
  rw [Split, Split, h.startOffset, h.startCut, h.endOffset]

end

/-- The tail, read into a scratch sector that still holds the head sector. -/
theorem fullReadAt_tail (h : d.Wf) {scratch buf : List UInt8}
    {g : Nat → UInt8} (hcut : Cuts d offset len) (hpos : 0 < d.endOffset len offset)
    (hl : scratch.length = d.sectorSize)
    (hs : ∀ i, i < d.sectorSize →
      scratch[i]? = some (d.content (offset - d.startOffset offset + i)))
    (hlen : buf.length = len)
    (hbuf : ∀ j, j < len - d.endOffset len offset → buf[j]? = some (g j)) :
    ∃ d' tail, d.fullReadAt scratch (offset + len - d.endOffset len offset)
        = ⟨d', tail, d.sectorSize, none⟩
      ∧ d'.Wf ∧ Caches d d'
      ∧ (copyAt buf (len - d.endOffset len offset)
          (tail.take (d.endOffset len offset))).length = len
      ∧ ∀ j, j < len →
          (copyAt buf (len - d.endOffset len offset) (tail.take (d.endOffset len offset)))[j]?
            = some (if len - d.endOffset len offset ≤ j then
                if d.covered (offset + j) then d.content (offset + j)
                else d.content (offset - d.startOffset offset
                  + (j - (len - d.endOffset len offset)))
              else g j) := by
  have hlt := endOffset_lt h len offset
  have hle := hcut.end_le
  obtain ⟨d', tail, hr, hw, hc, hf⟩ := fullReadAt_spec h scratch
    (offset + len - d.endOffset len offset) (by rw [hl, Nat.mod_self]) hcut.tail_start
    (by rw [hl]; exact hcut.tail_in hpos)
  rw [hl] at hr
  have htl : tail.length = d.sectorSize := by rw [hf.length, hl]
  have htake : (tail.take (d.endOffset len offset)).length = d.endOffset len offset := by
    rw [List.length_take, htl]; omega
  refine ⟨d', tail, hr, hw, hc, by rw [length_copyAt (by omega), hlen], fun j hj => ?_⟩
  rw [getElem?_copyAt (by rw [htake, hlen]; omega), htake]
  by_cases hjt : len - d.endOffset len offset ≤ j
  · have hp : offset + len - d.endOffset len offset + (j - (len - d.endOffset len offset))
        = offset + j := by omega
    rw [if_pos (by omega), List.getElem?_take_of_lt (by omega), hf.get, hs _ (by omega), hp,
      if_pos hjt]
    by_cases hcv : d.covered (offset + j)
    · rw [if_pos ⟨Nat.zero_le _, by rw [hl]; omega, hcv⟩, if_pos hcv]
    · rw [if_neg (fun hh => hcv hh.2.2), if_neg hcv]
  · rw [if_neg (fun hh => hjt hh.1), hbuf j (by omega), if_neg hjt]

/-- Outside a split tail, what comes back is the content. -/
theorem returned_of_lt {offset len j : Nat}
    (h : d.Split offset len → j < len - d.endOffset len offset) :
    d.returned offset len j = d.content (offset + j) := by
  rw [returned, if_neg]
  intro hex
  obtain ⟨hsp, hle, _⟩ := hex
  exact absurd (h hsp) (Nat.not_lt.mpr hle)

/-- Aligned, `ReadAt` is one `fullReadAt` in place. -/
theorem readAt_aligned (h : d.Wf) {offset : Nat} (hvol : offset + buf.length ≤ d.size)
    (hal : d.startOffset offset = 0 ∧ d.endOffset buf.length offset = 0) :
    ∃ d' out, d.fullReadAt buf offset = ⟨d', out, buf.length, none⟩
      ∧ d'.Wf ∧ Caches d d' ∧ out.length = buf.length
      ∧ ∀ j, j < buf.length → out[j]? = some (d.leaves buf offset j) := by
  have hlm : buf.length % d.sectorSize = 0 := by
    have := Nat.add_mod buf.length offset d.sectorSize
    unfold startOffset endOffset at hal
    rw [hal.1, hal.2, Nat.add_zero, Nat.mod_mod] at this
    exact this.symm
  obtain ⟨d', out, hr, hw, hc, hf⟩ := fullReadAt_spec h buf offset hlm hal.1 hvol
  refine ⟨d', out, hr, hw, hc, hf.length, fun j hj => ?_⟩
  rw [hf.get, leaves]
  by_cases hcv : d.covered (offset + j)
  · rw [if_pos ⟨Nat.zero_le _, hj, hcv⟩, if_pos hcv]
  · rw [if_neg (fun hh => hcv hh.2.2), if_neg hcv, stale, if_neg (fun hsp => absurd hal hsp.1.1),
      if_pos (.inl hal), List.getD_eq_getElem?_getD, List.getElem?_eq_getElem hj]
    rfl

/-- **`ReadAt` inside the volume, position by position.** -/
theorem readAt_spec (h : d.Wf) (offset : Nat) (buf : List UInt8)
    (hvol : offset + buf.length ≤ d.size) :
    ∃ d' out, d.readAt buf offset = ⟨d', out, buf.length, none⟩
      ∧ d'.Wf ∧ Caches d d' ∧ out.length = buf.length
      ∧ ∀ j, j < buf.length → out[j]? = some (d.leaves buf offset j) := by
  unfold readAt
  by_cases h0 : buf.length = 0
  · rw [if_pos h0]
    exact ⟨d, buf, by rw [h0]; rfl, h, Caches.refl d, rfl,
      fun j hj => absurd hj (by rw [h0]; exact Nat.not_lt_zero j)⟩
  rw [if_neg h0]
  by_cases hal : d.startOffset offset = 0 ∧ d.endOffset buf.length offset = 0
  · rw [if_pos hal]
    exact readAt_aligned h hvol hal
  rw [if_neg hal]
  obtain ⟨d₁, scratch, hr₁, hw₁, hc₁, hl₁, hs₁⟩ := fullReadAt_sector h (p := offset) (by omega)
  rw [hr₁]
  dsimp only
  have hb₁ := fun (j : Nat) (hj : j < buf.length) => getElem?_copy_head h hl₁ hs₁ hj
  have hbl₁ : (copyAt buf 0 ((scratch.drop (d.startOffset offset)).take buf.length)).length
      = buf.length := length_copyAt (Nat.zero_le _)
  generalize copyAt buf 0 ((scratch.drop (d.startOffset offset)).take buf.length) = buf₁
    at hb₁ hbl₁ ⊢
  by_cases hone : buf.length ≤ d.startCut offset
  · -- a single sector
    rw [if_pos hone]
    refine ⟨d₁, buf₁, rfl, hw₁, hc₁, hbl₁, fun j hj => ?_⟩
    rw [hb₁ j hj, if_pos (by omega), leaves]
    by_cases hcv : d.covered (offset + j)
    · rw [if_pos hcv]
    · rw [if_neg hcv, stale, if_neg (fun hh => absurd hh.1.2 (by omega)),
        content_of_not_covered hcv, if_neg]
      rintro (hh | hh)
      · exact hal hh
      · omega
  rw [if_neg hone]
  have hcut := cuts_of_lt h hvol (Nat.not_le.mp hone)
  have hsplit : d.Split offset buf.length := ⟨hal, Nat.not_le.mp hone⟩
  have hss := hc₁.sectorSize
  obtain ⟨d₂, mid, hr₂, hw₂, hc₂, hbl₂, hb₂⟩ := fullReadAt_mid hw₁ hcut.start_le
    (by rw [hbl₁]; exact Nat.sub_le _ _) (by rw [hss]; exact hcut.mid_start)
    (by rw [hss]; exact hcut.mid_len) (by rw [hc₁.size, hbl₁]; exact hvol)
    (fun j hj => hb₁ j (by omega))
  rw [hr₂]
  dsimp only
  have hc₁₂ := hc₁.trans hc₂
  -- what stands in front of the tail
  have hfront : ∀ j, j < buf.length - d.endOffset buf.length offset →
      (copyAt buf₁ (d.startCut offset) mid)[j]? = some (d.leaves buf offset j) := by
    intro j hj
    have hcov := hc₁.covered (offset + j)
    rw [hb₂ j hj, hc₁.content, leaves]
    congr 1
    by_cases hcv : d.covered (offset + j)
    · rw [if_pos hcv]
      by_cases hjs : d.startCut offset ≤ j
      · rw [if_pos ⟨hjs, hcov.mpr hcv⟩]
      · rw [if_neg (fun hh => hjs hh.1), if_pos (Nat.not_le.mp hjs)]
    · have htail : ¬ (d.Split offset buf.length
          ∧ buf.length - d.endOffset buf.length offset ≤ j) := fun hh => absurd hh.2 (by omega)
      rw [if_neg (fun hh => hcv (hcov.mp hh.2)), if_neg hcv, stale, if_neg htail]
      by_cases hjs : d.startCut offset ≤ j
      · rw [if_neg (Nat.not_lt.mpr hjs), if_pos (.inr hjs)]
      · rw [if_pos (Nat.not_le.mp hjs), content_of_not_covered hcv, if_neg]
        rintro (hh | hh)
        · exact hal hh
        · exact hjs hh
  by_cases heo : 0 < d.endOffset buf.length offset
  · rw [if_pos heo]
    have heo₂ := hc₁₂.endOffset buf.length offset
    have hlt₂ : d₂.startCut offset < buf.length := by
      rw [hc₁₂.startCut]
      exact Nat.not_le.mp hone
    obtain ⟨d₃, tail, hr₃, hw₃, hc₃, hbl₃, hb₃⟩ := fullReadAt_tail hw₂
      (cuts_of_lt hw₂ (by rw [hc₁₂.size]; exact hvol) hlt₂)
      (by rw [heo₂]; exact heo) (by rw [hc₁₂.sectorSize]; exact hl₁)
      (fun i hi => by
        rw [hc₁₂.startOffset, hc₁₂.content]; exact hs₁ i (by rw [← hc₁₂.sectorSize]; exact hi))
      (hbl₂.trans hbl₁) (fun j hj => by rw [heo₂] at hj; exact hfront j hj)
    rw [heo₂] at hr₃ hbl₃ hb₃
    rw [hr₃]
    refine ⟨d₃, _, rfl, hw₃, hc₁₂.trans hc₃, hbl₃, fun j hj => ?_⟩
    have hcov := hc₁₂.covered (offset + j)
    rw [hb₃ j hj, hc₁₂.content, hc₁₂.content, hc₁₂.startOffset]
    by_cases hjt : buf.length - d.endOffset buf.length offset ≤ j
    · rw [if_pos hjt, leaves]
      by_cases hcv : d.covered (offset + j)
      · rw [if_pos (hcov.mpr hcv), if_pos hcv]
      · rw [if_neg (fun hh => hcv (hcov.mp hh)), if_neg hcv, stale, if_pos ⟨hsplit, hjt⟩]
    · rw [if_neg hjt]
  · rw [if_neg heo]
    exact ⟨d₂, _, rfl, hw₂, hc₁₂, hbl₂.trans hbl₁, fun j hj => hfront j (by omega)⟩

/-- **`ReadAt` of a zeroed buffer.** -/
theorem readAt_zero (h : d.Wf) (hvol : offset + len ≤ d.size) :
    ∃ d' out, d.readAt (List.replicate len 0) offset = ⟨d', out, len, none⟩
      ∧ d'.Wf ∧ Caches d d' ∧ out.length = len
      ∧ ∀ j, j < len → out[j]? = some (d.returned offset len j) := by
  have hrl : (List.replicate len (0 : UInt8)).length = len := List.length_replicate
  obtain ⟨d', out, hr, hw, hc, hl, hget⟩ := readAt_spec h offset (List.replicate len 0)
    (by rw [hrl]; exact hvol)
  rw [hrl] at hr hl hget
  refine ⟨d', out, hr, hw, hc, hl, fun j hj => ?_⟩
  rw [hget j hj, leaves, stale, returned, hrl]
  congr 1
  by_cases hcv : d.covered (offset + j)
  · rw [if_pos hcv, if_neg (fun hh => hh.2.2 hcv)]
  · rw [if_neg hcv]
    by_cases hsp : d.Split offset len ∧ len - d.endOffset len offset ≤ j
    · rw [if_pos hsp, if_pos ⟨hsp.1, hsp.2, hcv⟩]
    · have hsp' : ¬ (d.Split offset len ∧ len - d.endOffset len offset ≤ j
          ∧ ¬ d.covered (offset + j)) := fun hh => hsp ⟨hh.1, hh.2.1⟩
      rw [if_neg hsp, if_neg hsp', content_of_not_covered hcv]
      split
      · rw [List.getD_eq_getElem?_getD, List.getElem?_replicate, if_pos hj]
        rfl
      · rfl

end WeftBlock.DiffDisk
