import WeftBlock.Replica.Wired

/-!
# Taking a disk out

Without force a disk goes if it is a leaf or has one child. `Unlinked` and `Spliced`
say what `RemoveDiffDisk` and `ReplaceDisk` then do, and that they keep a replica in
order. The record of the backing file counts as a leaf: it can be removed, and the
file stays at the bottom of the live stack.
-/

namespace WeftBlock

open Maps Forest

variable {pick : Finset String → String}

namespace Replica

variable {r r' : Replica} {name : String} {b : Option BackingFile}

/-- A removal that succeeds without force. -/
theorem removeDiskNode_ok (hpick : Picks pick)
    (hne : ∀ {d}, r.diskData.lookup name = some d → name ≠ "") (hro : r.readOnly = false)
    (hnonempty : ∀ {q s}, r.diskChildrenMap.lookup q = some s → s.Nonempty)
    (hnode : ∀ {d}, r.diskData.lookup "" ≠ some d)
    (hok : r.removeDiskNode pick name false = (r', .ok ())) :
    ∃ disk, r.diskData.lookup name = some disk ∧
      ((r.diskChildrenMap.lookup name = none ∧ Unlinked r (r'.rmDisk name) name disk)
      ∨ ∃ child childDisk, r.diskChildrenMap.lookup name = some {child}
        ∧ r.diskData.lookup child = some childDisk
        ∧ Spliced r (r'.rmDisk name) name child disk childDisk) := by
  have hends := removeDiskNode_ends pick r name false
  rw [hok] at hends
  cases hends with
  | @removed disk _ hfew _ hd hor =>
    refine ⟨disk, hd, (hor (hne hd)).imp id ?_⟩
    rintro ⟨children, childDisk, hc, hcd, hs⟩
    have hone : children = {pick children} := by
      rw [ManyChildren, childCount, hc] at hfew
      have hle : children.card ≤ 1 := Nat.le_of_not_lt (fun hlt => hfew ⟨hlt, rfl⟩)
      exact Finset.eq_singleton_iff_unique_mem.mpr ⟨hpick _ (hnonempty hc),
        fun x hx => Finset.card_le_one.mp hle x hx _ (hpick _ (hnonempty hc))⟩
    have hchild : pick children ≠ "" := fun heq => hnode (by rw [← heq]; exact hcd)
    exact ⟨pick children, childDisk, by rw [hc, ← hone], hcd, hs hchild hro⟩

/-! ## A leaf -/

namespace Wired

variable {b : Option BackingFile} {r : Replica}

section

variable (h : Wired b r)
include h

theorem records_ne_empty {x : String} {d : Disk}
    (hx : r.diskData.lookup x = some d) :
    x ≠ "" := by
  rcases h.backed hx with hm | ⟨f, hf, rfl, -⟩
  · exact h.tree.rooted.ne_root (parents_eq_some.mpr ⟨d, hm, rfl⟩)
  · exact (h.outside hf).1

theorem backing_not_disk {f : BackingFile} (hf : b = some f) :
    parents r.dir.metas f.path = none := by
  cases hp : parents r.dir.metas f.path with
  | none => rfl
  | some y => exact absurd (h.tree.isDiskName hp) (h.outside hf).2

theorem not_mem_backing {x y : String} (hx : parents r.dir.metas x = some y) :
    x ∉ (b.map BackingFile.path).toList := by
  intro hmem
  obtain ⟨f, hf, rfl⟩ := Option.map_eq_some_iff.mp (Option.mem_toList.mp hmem)
  exact ne_of_node hx (h.backing_not_disk hf) rfl

theorem ne_head_of_children {x : String} {s : Finset String}
    (hs : r.diskChildrenMap.lookup x = some s) : x ≠ r.info.head := by
  rintro rfl
  rw [(h.children.lookup_eq_none_iff h.head_ne_empty).mpr h.tree.leaf] at hs
  simp at hs

/-- The inodes of the live stack only depend on the images of its disks. -/
theorem map_ino_congr {dir dir' : Dir}
    (hino : ∀ x l, Path "" (parents r.dir.metas) r.info.head l → x ∈ l → dir'.ino x = dir.ino x) :
    (r.activeDiskData.drop (b.toList.length + 1)).map dir'.ino
      = (r.activeDiskData.drop (b.toList.length + 1)).map dir.ino := by
  obtain ⟨l, hl, hactive⟩ := h.live
  rw [hactive, drop_active]
  exact List.map_congr_left (fun x hx => hino x l hl (List.mem_reverse.mp hx))

end

end Wired

namespace Unlinked

variable {b : Option BackingFile} {r r' : Replica} {name : String} {disk : Disk}

theorem parents_eq (hu : Unlinked r r' name disk) :
    parents r'.dir.metas = dropLeaf (parents r.dir.metas) name := by
  funext x
  rw [parents, hu.metas, dropLeaf, Function.update_apply]
  split <;> rfl

theorem wired (hw : Wired b r) (hu : Unlinked r r' name disk)
    (hd : r.diskData.lookup name = some disk) (hc : r.diskChildrenMap.lookup name = none)
    (hne : name ≠ r.info.head) : Wired b r' := by
  have hempty := hw.records_ne_empty hd
  have hleaf := (hw.children.lookup_eq_none_iff hempty).mp hc
  refine ⟨by rw [hu.readOnly, hw.writable], by rw [hu.parents_eq, hu.info]; exact hw.tree.drop hleaf hne,
    fun {x d} hx => ?_, fun {x d} hx => ?_, hw.outside, ?_, ?_, by rw [hu.volumeMeta, hu.info]; exact hw.volumeMeta⟩
  · rw [hu.metas] at hx
    rw [hu.diskData]
    split_ifs at hx ⊢
    exact hw.records hx
  · rw [hu.diskData] at hx
    rw [hu.metas]
    split_ifs at hx ⊢
    exact hw.backed hx
  · rw [hu.parents_eq, hu.children]
    rcases hw.backed hd with hm | ⟨f, hf, rfl, rfl⟩
    · exact hw.children.drop (parents_eq_some.mpr ⟨disk, hm, rfl⟩)
    · -- the backing file's record has no parent, so no entry changes that counts
      have hnone := hw.backing_not_disk hf
      rw [dropLeaf, ← hnone, Function.update_eq_self]
      refine ⟨fun {q c} hq => ?_, nonempty_rmChildDisk hw.children.nonempty⟩
      rw [mem_rmChildDisk, hw.children.mem hq]
      exact and_iff_left (fun hh => hq hh.1)
  · obtain ⟨l, hl, hactive⟩ := hw.live
    rw [hu.parents_eq, hu.info, hu.active]
    exact ⟨l, hl.dropLeaf hleaf hne.symm, hactive⟩

theorem opened (hw : Wired b r) (ho : Opened b r) (hu : Unlinked r r' name disk)
    (hd : r.diskData.lookup name = some disk) (hc : r.diskChildrenMap.lookup name = none)
    (hne : name ≠ r.info.head) : Opened b r' := by
  have hleaf := (hw.children.lookup_eq_none_iff (hw.records_ne_empty hd)).mp hc
  refine ⟨fun x => ?_, ?_⟩
  · rw [hu.imgs, hu.metas]
    split
    · rfl
    · exact ho.images x
  · rw [hu.volume, hu.active, ho.files]
    congr 1
    refine (hw.map_ino_congr (fun x l hl hx => ?_)).symm
    rw [Dir.ino, Dir.ino, hu.imgs, if_neg]
    rintro rfl
    exact hl.not_mem_leaf hleaf hne.symm hx

theorem inOrder (h : InOrder r) (hu : Unlinked r r' name disk)
    (hd : r.diskData.lookup name = some disk) (hc : r.diskChildrenMap.lookup name = none)
    (hne : name ≠ r.info.head) : InOrder r' := by
  have hb : r'.info.backingFile = r.info.backingFile := by rw [hu.info]
  refine ⟨by rw [hb]; exact hu.wired h.wired hd hc hne,
    by rw [hb]; exact hu.opened h.wired h.opened hd hc hne, ?_⟩
  rw [hu.parents_eq, hu.info, dropLeaf, Function.update_of_ne hne.symm]
  exact h.parent

end Unlinked

/-! ## A disk with one child -/

/-- Where a disk of the live stack above the backing file is found. -/
theorem findDisk_eq {L : List String}
    (hactive : r.activeDiskData = "" :: (b.map BackingFile.path).toList ++ L)
    (hb : name ∉ (b.map BackingFile.path).toList) :
    r.findDisk name = if name ∈ L then b.toList.length + L.idxOf name + 1 else 0 := by
  have hlen : (b.map BackingFile.path).toList.length = b.toList.length := by cases b <;> rfl
  rw [findDisk, hactive, List.cons_append, List.tail_cons, List.idxOf_append_of_notMem hb, hlen]
  simp only [List.mem_append, hb, false_or]

/-- Taking a disk out of a stack that lies on the backing file. -/
theorem eraseIdx_stack {α β : Type} [DecidableEq β] {z : α} {pre : List α} {n : Nat}
    (hn : pre.length = n) (L : List β) (name : β) (f : β → α) :
    (z :: pre ++ L.map f).eraseIdx (n + L.idxOf name + 1) = z :: pre ++ (L.erase name).map f := by
  rw [List.cons_append, List.eraseIdx_cons_succ, ← hn,
    List.eraseIdx_append_of_length_le (by omega), Nat.add_sub_cancel_left, List.eraseIdx_map,
    List.eraseIdx_idxOf_eq_erase, List.cons_append]

namespace Spliced

variable {b : Option BackingFile} {r r' : Replica} {name child : String} {disk childDisk : Disk}

/-- The facts of the tree that a splice starts from. -/
structure At (r : Replica) (name child : String) (disk childDisk : Disk) : Prop where
  record : r.diskData.lookup name = some disk
  only : r.diskChildrenMap.lookup name = some {child}
  childRecord : r.diskData.lookup child = some childDisk
  ne_head : name ≠ r.info.head

theorem At.facts (hw : Wired b r) (ha : At r name child disk childDisk) :
    r.dir.metas.lookup name = some disk ∧ parents r.dir.metas name = some disk.parent
      ∧ r.dir.metas.lookup child = some childDisk ∧ childDisk.parent = name
      ∧ (∀ x, parents r.dir.metas x = some name ↔ x = child) ∧ child ≠ name := by
  have hempty := hw.records_ne_empty ha.record
  have honly : ∀ x, parents r.dir.metas x = some name ↔ x = child := by
    intro x
    rw [← hw.children.mem hempty, ha.only]
    exact Finset.mem_singleton
  have hchild := (honly child).mpr rfl
  obtain ⟨d, hd, hp⟩ := parents_eq_some.mp hchild
  obtain rfl := Option.some.inj ((hw.records hd).symm.trans ha.childRecord)
  have hnode : ∃ y, parents r.dir.metas name = some y := by
    by_contra hno
    refine hw.tree.rooted.parent_ne_of_none (z := name) ?_ hempty hchild
    exact Option.eq_none_iff_forall_ne_some.mpr (fun y hy => hno ⟨y, hy⟩)
  obtain ⟨y, hy⟩ := hnode
  obtain ⟨dn, hdn, rfl⟩ := parents_eq_some.mp hy
  obtain rfl := Option.some.inj ((hw.records hdn).symm.trans ha.record)
  refine ⟨hdn, hy, hd, hp, honly, ?_⟩
  rintro rfl
  exact hw.tree.rooted.parent_ne_self hchild

section

variable (hw : Wired b r) (ha : At r name child disk childDisk)
  (hs : Spliced r r' name child disk childDisk)
include hw ha hs

theorem parents_eq :
    parents r'.dir.metas = splice (parents r.dir.metas) name := by
  obtain ⟨hmeta, -, -, -, honly, -⟩ := ha.facts hw
  exact hs.parents_splice hmeta honly

/-- The live stack after a splice, whatever the images are. -/
theorem live {l : List String} (hl : Path "" (parents r.dir.metas) r.info.head l)
    (hactive : r.activeDiskData = "" :: (b.map BackingFile.path).toList ++ l.reverse) :
    Path "" (parents r'.dir.metas) r.info.head (l.erase name)
      ∧ r'.activeDiskData = "" :: (b.map BackingFile.path).toList ++ (l.erase name).reverse
      ∧ ∀ f : String → Ino, r.volume.files = 0 :: (b.map BackingFile.disk).toList ++ l.reverse.map f →
        r'.volume.files = 0 :: (b.map BackingFile.disk).toList ++ (l.erase name).reverse.map f := by
  obtain ⟨-, hname, -, -, -, -⟩ := ha.facts hw
  have hfind := findDisk_eq hactive (hw.not_mem_backing hname)
  have hrev : l.reverse.erase name = (l.erase name).reverse := by
    rw [(List.nodup_reverse.mpr hl.nodup).erase_eq_filter, hl.nodup.erase_eq_filter,
      List.filter_reverse]
  refine ⟨?_, ?_, fun f hf => ?_⟩
  · rw [hs.parents_eq hw ha]
    exact hl.splice hname (hw.tree.rooted.ne_root hname) ha.ne_head.symm
  · rw [hs.active, hfind]
    by_cases hmem : name ∈ l.reverse
    · rw [if_pos hmem, if_neg (by omega), hactive]
      have hlen : (b.map BackingFile.path).toList.length = b.toList.length := by cases b <;> rfl
      have := eraseIdx_stack (z := "") hlen l.reverse name id
      rw [List.map_id, List.map_id] at this
      rw [this, hrev]
    · rw [if_neg hmem, if_pos rfl, hactive, List.erase_of_not_mem (fun hh => hmem (List.mem_reverse.mpr hh))]
  · rw [hs.volume, hfind]
    by_cases hmem : name ∈ l.reverse
    · rw [if_pos hmem, if_neg (by omega), Volume.removeIndex]
      have hlen : (b.map BackingFile.disk).toList.length = b.toList.length := by cases b <;> rfl
      rw [hf, eraseIdx_stack hlen l.reverse name f, hrev]
    · rw [if_neg hmem, if_pos rfl, hf, List.erase_of_not_mem (fun hh => hmem (List.mem_reverse.mpr hh))]

theorem wired : Wired b r' := by
  obtain ⟨hmeta, hname, hcm, hcp, honly, hcn⟩ := ha.facts hw
  have hhead : r'.info.head = r.info.head ∧ r'.info.size = r.info.size := by
    rw [hs.info]
    split <;> exact ⟨rfl, rfl⟩
  refine ⟨by rw [hs.readOnly, hw.writable], ?_, fun {x d} hx => ?_, fun {x d} hx => ?_, hw.outside,
    ?_, ?_, ?_⟩
  · rw [hs.parents_eq hw ha, hhead.1]
    exact hw.tree.splice hname ha.ne_head
  · rw [hs.metas] at hx
    rw [hs.diskData]
    split_ifs at hx ⊢
    · exact hx
    · exact hw.records hx
  · rw [hs.diskData] at hx
    rw [hs.metas]
    split_ifs at hx ⊢
    · exact Or.inl hx
    · exact hw.backed hx
  · rw [hs.parents_eq hw ha, hs.children]
    exact hw.children.splice hname (fun heq => hw.tree.rooted.parent_ne_self (by rw [hname, heq])) honly
  · obtain ⟨l, hl, hactive⟩ := hw.live
    obtain ⟨hl', hactive', -⟩ := hs.live hw ha hl hactive
    exact ⟨l.erase name, by rw [hhead.1]; exact hl', hactive'⟩
  · rw [hs.volumeMeta, hhead.1, hhead.2]
    exact hw.volumeMeta

end

/-- The parent the replica knows of its head is updated if it has to be. -/
theorem parent (hw : Wired b r) (hparent : parents r.dir.metas r.info.head = some r.info.parent)
    (ha : At r name child disk childDisk) (hs : Spliced r r' name child disk childDisk) :
    parents r'.dir.metas r'.info.head = some r'.info.parent := by
  obtain ⟨-, hname, -, -, -, -⟩ := ha.facts hw
  have hw' := hs.wired hw ha
  have hhead : r'.info.head = r.info.head := by
    rw [hs.info]
    split <;> rfl
  obtain ⟨p, hp⟩ := hw'.tree.has_head
  obtain ⟨d, hd, rfl⟩ := parents_eq_some.mp hp
  rw [hp, hs.info]
  split
  · rw [← hhead, hw'.records hd]
    rfl
  · rename_i hnot
    -- the head's parent is not the disk, or the index would be the one below the head
    have hkeep : parents r.dir.metas r.info.head ≠ some name := by
      intro hpn
      obtain ⟨p, v, hp', hl, hv, hactive⟩ := hw.exists_chain
      obtain rfl : p = name := Option.some.inj (hp'.symm.trans hpn)
      obtain ⟨w, rfl, hwpath⟩ := hv.parent hname (hw.tree.rooted.ne_root hname)
      rw [List.append_assoc] at hactive
      have hfind := findDisk_eq hactive (hw.not_mem_backing hname)
      have hnw : p ∉ w.reverse := fun hh => (List.nodup_cons.mp hv.nodup).1 (List.mem_reverse.mp hh)
      have hlen : (b.map BackingFile.path).toList.length = b.toList.length := by cases b <;> rfl
      rw [if_pos (by simp), List.reverse_cons, List.append_assoc,
        List.idxOf_append_of_notMem hnw] at hfind
      refine hnot ⟨by omega, ?_⟩
      rw [hfind, hactive]
      simp [hlen]
      omega
    rw [hs.parents_eq hw ha, hhead, splice, if_neg ha.ne_head.symm, if_neg hkeep, hparent] at hp
    exact hp.symm

theorem inOrder (h : InOrder r) (ha : At r name child disk childDisk)
    (hs : Spliced r r' name child disk childDisk) : InOrder r' := by
  obtain ⟨hmeta, hname, hcm, -, -, hcn⟩ := ha.facts h.wired
  have hb : r'.info.backingFile = r.info.backingFile := by
    rw [hs.info]
    split <;> rfl
  obtain ⟨l, hl, hactive⟩ := h.wired.live
  obtain ⟨hl', hactive', hfiles⟩ := hs.live h.wired ha hl hactive
  have hold := h.opened.files
  rw [hactive, Wired.drop_active] at hold
  refine ⟨by rw [hb]; exact hs.wired h.wired ha, ⟨fun x => ?_, ?_⟩, hs.parent h.wired h.parent ha⟩
  · rw [hs.imgs, hs.metas]
    split
    · rfl
    · split
      · rename_i hx
        rw [hx, h.opened.images, hcm]
        rfl
      · exact h.opened.images x
  · rw [hb, hactive', Wired.drop_active, hfiles _ hold]
    congr 1
    refine List.map_congr_left (fun x hx => ?_)
    rw [Dir.ino, Dir.ino, hs.imgs, if_neg]
    rintro rfl
    exact hl.nodup.not_mem_erase (List.mem_reverse.mp hx)

end Spliced

/-- **What `RemoveDiffDisk` does without force**, if it succeeds. -/
theorem removeDiffDisk_cases (h : Wired b r) (hpick : Picks pick)
    (hok : r.removeDiffDisk pick name false = (r', .ok ())) :
    ∃ disk, r.diskData.lookup name = some disk ∧ name ≠ r.info.head
      ∧ ((r.diskChildrenMap.lookup name = none ∧ Unlinked r r' name disk)
        ∨ ∃ child childDisk, Spliced.At r name child disk childDisk
          ∧ Spliced r r' name child disk childDisk) := by
  unfold removeDiffDisk at hok
  split at hok
  · simp at hok
  · rename_i hne
    split at hok
    · simp at hok
    · rename_i r1 hrm
      obtain rfl := (Prod.mk.inj hok).1
      obtain ⟨disk, hd, hor⟩ := removeDiskNode_ok hpick h.records_ne_empty h.writable
        h.children.nonempty (fun hd => h.records_ne_empty hd rfl) hrm
      refine ⟨disk, hd, hne, hor.imp id ?_⟩
      rintro ⟨child, childDisk, hc, hcd, hs⟩
      exact ⟨child, childDisk, ⟨hd, hc, hcd, hne⟩, hs⟩

theorem removeDiffDisk_inOrder (h : InOrder r) (hpick : Picks pick)
    (hok : r.removeDiffDisk pick name false = (r', .ok ())) : InOrder r' := by
  obtain ⟨disk, hd, hne, hor⟩ := removeDiffDisk_cases h.wired hpick hok
  rcases hor with ⟨hc, hu⟩ | ⟨child, childDisk, ha, hs⟩
  · exact hu.inOrder h hd hc hne
  · exact hs.inOrder h ha

/-! ## A disk in the place of its child -/

/-- Both names stand for one image. -/
def hardlinked (r : Replica) (target : String) (i : Ino) : Replica :=
  { r with dir := { r.dir with imgs := r.dir.imgs.insert target i } }

theorem Wired.hardlinked (h : Wired b r) (target : String) (i : Ino) :
    Wired b (r.hardlinked target i) :=
  ⟨h.writable, h.tree, h.records, h.backed, h.outside, h.children, h.live, h.volumeMeta⟩

/-- The target's file handle is opened again. -/
def refreshed (r : Replica) (target : String) (i : Ino) : Replica :=
  if r.findDisk target = 0 then r
  else { r with volume := { r.volume with files := r.volume.files.set (r.findDisk target) i } }

/-- Setting one file of a stack is setting what its disk stands for. -/
theorem set_stack {α β : Type} [DecidableEq β] {z : α} {pre : List α} {n : Nat}
    (hn : pre.length = n) {L : List β} (hL : L.Nodup) {t : β} (ht : t ∈ L) (f : β → α) (i : α) :
    (z :: pre ++ L.map f).set (n + L.idxOf t + 1) i
      = z :: pre ++ L.map (fun x => if x = t then i else f x) := by
  have hmap : (L.map f).set (L.idxOf t) i = L.map (fun x => if x = t then i else f x) := by
    induction L with
    | nil => simp at ht
    | cons x L ih =>
      have hx := List.nodup_cons.mp hL
      by_cases hxt : x = t
      · subst hxt
        rw [List.idxOf_cons_self, List.map_cons, List.set_cons_zero, List.map_cons, if_pos rfl]
        congr 1
        refine List.map_congr_left (fun y hy => ?_)
        rw [if_neg]
        rintro rfl
        exact hx.1 hy
      · have ht' : t ∈ L := (List.mem_cons.mp ht).resolve_left (Ne.symm hxt)
        rw [List.idxOf_cons_ne _ hxt, List.map_cons, List.set_cons_succ, ih hx.2 ht', List.map_cons,
          if_neg hxt]
  rw [List.cons_append, List.set_cons_succ, ← hn, List.set_append_right _ _ (by omega),
    Nat.add_sub_cancel_left, hmap, List.cons_append]

theorem getD_findDisk (h : r.findDisk name ≠ 0) :
    r.activeDiskData.getD (r.findDisk name) "" = name := by
  unfold findDisk at h ⊢
  split at h
  · rename_i hmem
    rw [if_pos hmem]
    cases hact : r.activeDiskData with
    | nil => rw [hact] at hmem; exact absurd hmem (by simp)
    | cons x l =>
      rw [hact, List.tail_cons] at hmem
      rw [List.tail_cons, List.getD_cons_succ, List.getD_eq_getElem?_getD, List.getElem?_idxOf hmem]
      rfl
  · exact absurd rfl h

/-- A `ReplaceDisk` into the only child that succeeds. -/
theorem replaceDisk_cases (h : Wired b r) (hpick : Picks pick) {target source : String}
    (honly : r.diskChildrenMap.lookup source = some {target}) (hsource : source ≠ r.info.head)
    (hok : r.replaceDisk pick target source = (r', .ok ())) :
    ∃ i disk targetDisk r2, r.dir.imgs.lookup source = some i
      ∧ Spliced.At r source target disk targetDisk ∧ target ≠ r.info.head
      ∧ Spliced (r.hardlinked target i) r2 source target disk targetDisk
      ∧ r' = r2.refreshed target i := by
  unfold replaceDisk replaceDiskOn at hok
  split at hok
  · simp at hok
  rename_i htarget
  split at hok
  · simp at hok
  · simp at hok
  rename_i i hlink
  have hi := Dir.lookup_of_hardlinkDisk hlink
  dsimp only at hok
  split at hok
  · simp at hok
  rename_i r1 hrm
  obtain ⟨disk, hd, hor⟩ := removeDiskNode_ok (r := r.hardlinked target i) hpick h.records_ne_empty
    h.writable h.children.nonempty (fun hd => h.records_ne_empty hd rfl) hrm
  rcases hor with ⟨hc, -⟩ | ⟨child, childDisk, hc, hcd, hs⟩
  · exact absurd (honly.symm.trans hc) (by simp)
  · obtain rfl : child = target := Finset.singleton_injective (Option.some.inj (hc.symm.trans honly))
    refine ⟨i, disk, childDisk, _, hi, ⟨hd, hc, hcd, hsource⟩, htarget, hs, ?_⟩
    rw [refreshed]
    split at hok
    · rename_i h0
      rw [if_pos h0]
      exact (Prod.mk.inj hok).1.symm
    · rename_i h0
      rw [if_neg h0]
      split at hok
      · simp at hok
      · rename_i f hf
        -- the disk at the index is the target, and its image is the source's
        have hne : child ≠ source :=
          (Spliced.At.facts h ⟨hd, hc, hcd, hsource⟩).2.2.2.2.2
        rw [getD_findDisk h0, Dir.openFile, hs.imgs, if_neg hne, hardlinked, lookup_insert_eq,
          if_pos rfl] at hf
        rw [Except.ok.inj hf]
        exact (Prod.mk.inj hok).1.symm

theorem refreshed_fields (r : Replica) (target : String) (i : Ino) :
    (r.refreshed target i).dir = r.dir ∧ (r.refreshed target i).info = r.info
      ∧ (r.refreshed target i).activeDiskData = r.activeDiskData := by
  unfold refreshed
  split <;> exact ⟨rfl, rfl, rfl⟩

theorem Wired.refreshed (h : Wired b r) (target : String) (i : Ino) :
    Wired b (r.refreshed target i) := by
  unfold Replica.refreshed
  split
  · exact h
  · exact ⟨h.writable, h.tree, h.records, h.backed, h.outside, h.children, h.live, h.volumeMeta⟩

/-- Replacing the only child keeps a replica in order. -/
theorem replaceDisk_inOrder (h : InOrder r) (hpick : Picks pick) {target source : String}
    (honly : r.diskChildrenMap.lookup source = some {target}) (hsource : source ≠ r.info.head)
    (hok : r.replaceDisk pick target source = (r', .ok ())) : InOrder r' := by
  obtain ⟨i, disk, targetDisk, r2, hi, ha, htarget, hs, rfl⟩ :=
    replaceDisk_cases h.wired hpick honly hsource hok
  obtain ⟨hmeta, hname, hcm, -, -, hcn⟩ := ha.facts h.wired
  have hw1 := h.wired.hardlinked target i
  have ha1 : Spliced.At (r.hardlinked target i) source target disk targetDisk :=
    ⟨ha.record, ha.only, ha.childRecord, ha.ne_head⟩
  obtain ⟨l, hl, hactive⟩ := h.wired.live
  obtain ⟨hl', hactive', hfiles⟩ := hs.live hw1 ha1 hl hactive
  have hold := h.opened.files
  rw [hactive, Wired.drop_active] at hold
  have hfiles2 := hfiles _ hold
  have hw2 := hs.wired hw1 ha1
  have hb2 : r2.info.backingFile = r.info.backingFile := by
    rw [hs.info]
    split <;> rfl
  have himgs : ∀ x, r2.dir.imgs.lookup x = if x = source then none
      else if x = target then some i else r.dir.imgs.lookup x := fun x => by
    rw [hs.imgs, hardlinked, lookup_insert_eq]
  obtain ⟨hdir, hinfo, hact⟩ := refreshed_fields r2 target i
  refine ⟨?_, ⟨fun x => ?_, ?_⟩, ?_⟩
  · rw [hinfo, hb2]
    exact hw2.refreshed target i
  · rw [hdir, himgs, hs.metas]
    split
    · rfl
    · split
      · rfl
      · exact h.opened.images x
  · have hino : (l.erase source).reverse.map r2.dir.ino
        = (l.erase source).reverse.map (fun x => if x = target then i else r.dir.ino x) := by
      refine List.map_congr_left (fun x hx => ?_)
      have hxs : x ≠ source := by
        rintro rfl
        exact hl.nodup.not_mem_erase (List.mem_reverse.mp hx)
      rw [Dir.ino, himgs, if_neg hxs]
      split <;> rfl
    rw [hdir, hinfo, hact, hb2, hactive', Wired.drop_active, hino, refreshed]
    have htn : target ∉ (r.info.backingFile.map BackingFile.path).toList :=
      h.wired.not_mem_backing (parents_eq_some.mpr ⟨targetDisk, hcm, rfl⟩)
    have hfind := findDisk_eq hactive' htn
    by_cases hmem : target ∈ (l.erase source).reverse
    · rw [if_pos hmem] at hfind
      have hlen : (r.info.backingFile.map BackingFile.disk).toList.length
          = r.info.backingFile.toList.length := by cases r.info.backingFile <;> rfl
      rw [if_neg (by omega), hfind, hfiles2]
      exact set_stack hlen (List.nodup_reverse.mpr (hl.nodup.erase _)) hmem _ i
    · rw [if_neg hmem] at hfind
      rw [if_pos hfind, hfiles2]
      congr 1
      refine List.map_congr_left (fun x hx => ?_)
      rw [if_neg]
      rintro rfl
      exact hmem hx
  · rw [hdir, hinfo]
    exact hs.parent hw1 h.parent ha1

end Replica

end WeftBlock
