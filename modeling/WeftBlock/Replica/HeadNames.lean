import WeftBlock.Replica.Snapshots

/-!
# The names of the heads

A new head is numbered after the last digit of the old head's number, so the numbers go
round: after 009 comes 010, and after that 001 again. The files of all heads but one are
gone by then, and the other disks are named after snapshots. But a name only stands for
the path that `diskPath` makes of it, and a snapshot can be named so that its file is
where that of a head will have to be.
-/

namespace WeftBlock

open Maps

/-- One element more of a path, which is cleaned at once. -/
def pushElement (path : List String) (e : String) : List String :=
  if e = "" ∨ e = "." then path else if e = ".." then path.dropLast else path ++ [e]

/-- `diskPath`: the elements of the path, for a directory that has the elements `root`. -/
def diskPath (root : List String) (name : String) : List String :=
  ((name.toList.splitOn '/').map String.ofList).foldl pushElement
    (if name.toList.head? = some '/' then [] else root)

/-- The paths of the files in the directory. -/
def Dir.files (root : List String) (dir : Dir) : List (List String) :=
  (dir.imgs.keys ++ dir.metas.keys.map (· ++ ".meta") ++ ["volume.meta", "revision.counter"]).map
    (diskPath root)

theorem diskPath_flat (root : List String) {name : String} (h : '/' ∉ name.toList) :
    diskPath root name = pushElement root name := by
  have hsplit : name.toList.splitOn '/' = [name.toList] :=
    List.splitOnP_eq_singleton (fun c hc => beq_eq_false_iff_ne.mpr (by rintro rfl; exact h hc))
  rw [diskPath, hsplit, if_neg (fun he => h (List.mem_of_head? he)), List.map_cons, List.map_nil,
    String.ofList_toList]
  rfl

theorem eq_of_pushElement {root : List String} {x y : String}
    (h : pushElement root x = root ++ [y]) : x = y := by
  have hlen := congrArg List.length h
  rw [List.length_append, List.length_singleton] at hlen
  unfold pushElement at h hlen
  split_ifs at h hlen
  · omega
  · rw [List.length_dropLast] at hlen
    omega
  · exact List.singleton_inj.mp (List.append_cancel_left h)

namespace Replica

/-- **The next head has a name of its own**, and there is no file with its path. -/
def NextHeadFree (root : List String) (r : Replica) : Prop :=
  ∃ newHead, nextFile r.info.head = some newHead ∧ newHead ≠ r.info.head
    ∧ diskPath root newHead ∉ r.dir.files root
    ∧ ∀ parent created size, ∃ h, r.createNewHead r.info.head parent created size = .ok h

/-- No disk's name has a slash in it. -/
def Flat (r : Replica) : Prop := ∀ x, (r.dir.imgs.lookup x).isSome = true → '/' ∉ x.toList

theorem volumeHeadDiskName_flat : ∀ n ≤ 10, '/' ∉ (volumeHeadDiskName n).toList
    ∧ ¬ (volumeHeadDiskName n = "" ∨ volumeHeadDiskName n = ".") ∧ volumeHeadDiskName n ≠ ".."
    ∧ (volumeHeadDiskName n).toList.getLast? = some 'g' := by
  decide +kernel

theorem InOrder.nextHeadFree {r : Replica} (h : InOrder r) (hflat : r.Flat) (root : List String) :
    r.NextHeadFree root := by
  obtain ⟨newHead, hnext⟩ := h.wired.tree.exists_next
  obtain ⟨⟨n, hn, hnamed⟩, hne, hnone, -⟩ := h.wired.tree.next_head hnext
  obtain ⟨hslash, hdot, hdots, hlast⟩ := hnamed ▸ volumeHeadDiskName_flat n hn
  have himg := h.newHead_free hnext
  refine ⟨newHead, hnext, hne, fun hmem => ?_, fun parent created size => ?_⟩
  · rw [diskPath_flat root hslash, pushElement, if_neg hdot, if_neg hdots] at hmem
    obtain ⟨name, hname, heq⟩ := List.mem_map.mp hmem
    have hkey : ∀ {V : Type} {m : AList (fun _ : String => V)} {x : String}, x ∈ m.keys →
        (m.lookup x).isSome = true := fun hx => AList.lookup_isSome.mpr (AList.mem_keys.mpr hx)
    have hother : '/' ∉ name.toList ∧ name ≠ newHead := by
      simp only [List.mem_append, List.mem_map, List.mem_cons, List.not_mem_nil, or_false] at hname
      rcases hname with (hx | ⟨x, hx, rfl⟩) | rfl | rfl
      · refine ⟨hflat name (hkey hx), ?_⟩
        rintro rfl
        simpa [himg] using hkey hx
      · have hx' := hflat x (by rw [h.opened.images]; exact hkey hx)
        refine ⟨by simp [String.toList_append, hx'], ?_⟩
        rintro rfl
        simp [String.toList_append] at hlast
      · exact ⟨by decide, by rintro rfl; exact absurd hlast (by decide)⟩
      · exact ⟨by decide, by rintro rfl; exact absurd hlast (by decide)⟩
    rw [diskPath_flat root hother.1] at heq
    exact hother.2 (eq_of_pushElement heq)
  · rw [createNewHead, hnext]
    exact ⟨_, if_neg (by simp [himg])⟩

/-- The calls that make heads, with names that have no slash in them. -/
def Op.MakesHead : Op → Prop
  | .snapshot _ name _ _ _ => '/' ∉ name.toList
  | .expand _ _ _ | .revert _ _ _ _ => True
  | _ => False

theorem Grown.flat {r r' : Replica} {s newHead created : String} {size : Nat} {snap : Disk}
    (h : InOrder r) (hg : Grown r r' (generateSnapshotDiskName s) newHead created size snap)
    (hflat : r.Flat) (hs : '/' ∉ s.toList) : r'.Flat := by
  obtain ⟨⟨n, hn, hnew⟩, -⟩ := h.wired.tree.next_head hg.next
  intro x hx
  rw [hg.imgs] at hx
  split_ifs at hx with h1 h2 h3
  · simp at hx
  · rw [h2]
    simp [generateSnapshotDiskName, String.toList_append, hs]
  · rw [h3, hnew]
    exact (volumeHeadDiskName_flat n hn).1
  · exact hflat x hx

theorem step_flat {env : Env} {r r' : Replica} {op : Op} (hop : op.MakesHead)
    (hi : InOrder r ∧ r.Flat) (hstep : step env r op = some r') : InOrder r' ∧ r'.Flat := by
  obtain ⟨h, hflat⟩ := hi
  have hout : op.Outside := by
    cases op with
    | new a => exact hop.elim
    | _ => trivial
  refine ⟨step_inOrder h hout hstep, ?_⟩
  cases op with
  | snapshot snapshotMaxCount name userCreated created labels =>
    obtain ⟨v, hok⟩ := succeeded_eq_some hstep
    obtain ⟨newHead, snap, hg⟩ := createDisk_ok h.wired hok
    exact hg.flat h hflat hop
  | expand snapshotMaxCount size created =>
    obtain ⟨v, hok⟩ := succeeded_eq_some hstep
    rcases (expand_cases h.wired hok).2 with ⟨rfl, -⟩ | ⟨-, r1, newHead, snap, hg, rfl⟩
    · exact hflat
    · have hflat1 : r1.Flat := by
        refine hg.flat h hflat (fun hslash => ?_)
        simp only [generateExpansionSnapshotName, String.toList_append, Nat.toString_eq_repr,
          Nat.toList_repr, List.mem_append] at hslash
        rcases hslash with hslash | hslash
        · exact absurd hslash (by decide)
        · exact absurd (Nat.isDigit_of_mem_toDigits (by omega) (by omega) hslash) (by decide)
      exact hflat1
  | revert snapshotMaxCount sectorSize name created =>
    obtain ⟨newHead, v, hr⟩ := revert_reverted h (toOption_eq_some hstep)
    obtain ⟨⟨n, hn, hnew⟩, -⟩ := h.wired.tree.next_head hr.next
    intro x hx
    rw [hr.imgs, revertedDir, lookup_erase_eq, lookup_insert_eq] at hx
    split_ifs at hx with h1 h2
    · simp at hx
    · rw [h2, hnew]
      exact (volumeHeadDiskName_flat n hn).1
    · exact hflat x hx
  | _ => exact hop.elim

/--
**The names of heads never collide.** After any run of snapshots, expansions and reverts of
what `New` made of an empty directory, there is no file with the path of the next head.
-/
theorem run_nextHeadFree (env : Env) (root : List String) (data : Ino → File) (a : OpenArgs)
    (ha : a.Outside) {r r' : Replica} (hnew : construct (Dir.recovered data a.size) a = .ok r)
    (ops : List Op) (hops : ∀ op ∈ ops, op.MakesHead)
    (hrun : Runs.run (step env) r ops = some r') : r'.NextHeadFree root := by
  have hflat : r.Flat := by
    intro x hx
    rw [construct_recovered hnew, finished, (insertBackingFile_fields _).2] at hx
    dsimp only at hx
    rw [imgs_firstHead, lookup_insert_eq] at hx
    split_ifs at hx with h0
    · rw [h0]
      exact (volumeHeadDiskName_flat 0 (by omega)).1
    · simp at hx
  obtain ⟨h, hflat'⟩ := Runs.run_invariant_mem (fun _ op hop _ => step_flat (hops op hop))
    ⟨new_inOrder ha hnew, hflat⟩ hrun
  exact h.nextHeadFree hflat' root

/-- A snapshot, a growing volume and a revert to the snapshot. -/
def backAgain : List Op :=
  [.snapshot 250 "a" true "t" none, .expand 250 12288 "t", .revert 250 512 "volume-snap-a.img" "t"]

theorem run_nextHeadFree_backAgain :
    ∃ r r', construct (Dir.recovered (fun _ => File.empty 0) 8192) overBase = .ok r
      ∧ Runs.run (step .least) r backAgain = some r' ∧ r'.NextHeadFree ["replica"] := by
  have hrun : ((construct (Dir.recovered (fun _ => File.empty 0) 8192) overBase).toOption.bind
      (fun r => Runs.run (step .least) r backAgain)).isSome = true := by decide +kernel
  obtain ⟨r', hr'⟩ := Option.isSome_iff_exists.mp hrun
  obtain ⟨r, hr, hr'⟩ := Option.bind_eq_some_iff.mp hr'
  refine ⟨r, r', toOption_eq_some hr, hr', run_nextHeadFree .least ["replica"] _ overBase
    overBase_outside (toOption_eq_some hr) backAgain (fun op hop => ?_) hr'⟩
  simp only [backAgain, List.mem_cons, List.not_mem_nil, or_false] at hop
  rcases hop with rfl | rfl | rfl
  · exact (by decide : '/' ∉ "a".toList)
  · trivial
  · trivial

/-- A snapshot whose file has the name of the head after the next one. -/
theorem snapshot_takes_head_name :
    ∃ r r', construct (Dir.recovered (fun _ => File.empty 0) 8192) overBase = .ok r
      ∧ Runs.run (step .least) r [.snapshot 250 "x/../volume-head-002" true "t" none] = some r'
      ∧ ¬ r'.NextHeadFree ["replica"] := by
  have hall : ((construct (Dir.recovered (fun _ => File.empty 0) 8192) overBase).toOption.bind
      (fun r => Runs.run (step .least) r [.snapshot 250 "x/../volume-head-002" true "t" none])).any
      (fun r' => (nextFile r'.info.head).any
        (fun n => decide (diskPath ["replica"] n ∈ r'.dir.files ["replica"]))) = true := by
    decide +kernel
  obtain ⟨r', hr', hcollide⟩ := (Option.any_eq_true _ _).mp hall
  obtain ⟨r, hr, hr'⟩ := Option.bind_eq_some_iff.mp hr'
  refine ⟨r, r', toOption_eq_some hr, hr', ?_⟩
  rintro ⟨n, hn, -, hfree, -⟩
  rw [hn] at hcollide
  exact hfree (of_decide_eq_true hcollide)

end Replica

end WeftBlock
