import DefinitionSite.Proofs.FileTree.Growth

/-! Making directories and files. The directories that are missing on the way to a place are made,
and nothing else changes. Where the path leads is known only afterwards, since links are followed on
the way. -/
namespace DefinitionSite.FileTree

/-- Every place on the way to one is a directory now and was one or free before, and nothing else
has changed. -/
structure Made (t t' : FileTree) (there : List String) : Prop where
  cwd : t'.cwd = t.cwd
  free : ∀ names, names <+: there → t.entryAt? names = none ∨ t.entryAt? names = some .dir
  entry : ∀ names, t'.entryAt? names = if names <+: there then some .dir else t.entryAt? names

/-- A path leads to a directory, and what is missing on the way to its place has been made. Where
the path or its parent was missing, nothing stood. -/
structure MadeDir (t t' : FileTree) (p : Path) (there : List String) : Prop where
  made : Made t t' there
  leads : ∃ entries, t'.stat p = .ok (there, .dir entries)
  fresh : t.stat p = .error .notFound → t.entryAt? there = none
  freshParent : t.stat p.parent = .error .notFound →
    ∀ above node, t'.stat p.parent = .ok (above, node) → t.entryAt? above = none

variable {t t' t'' : FileTree} {here names there front : List String} {name : String} {p : Path}
  {entries : List (String × Node)} {links : Nat}

theorem entryAt?_front (h : t.entryAt? names = some .dir) (hfront : front <+: names) :
    t.entryAt? front = some .dir := by
  obtain ⟨rest, rfl⟩ := hfront
  cases rest with
  | nil => simpa using h
  | cons name rest => exact entryAt?_dir_of_below (by rw [h]; simp)

/-- Nothing stands below a place where nothing stands. -/
theorem entryAt?_below_none (h : t.entryAt? there = none) (rest : List String) :
    t.entryAt? (there ++ rest) = none := by
  rw [entryAt?_eq_none] at h ⊢
  rw [node?_append, h, Option.bind_none]

theorem Made.grows (h : Made t t' there) : Grows t t' where
  cwd := h.cwd
  keeps names entry hentry := by
    rw [h.entry]
    split_ifs with hway
    · rcases h.free names hway with hnone | hdir
      · cases hnone.symm.trans hentry
      · exact hdir.symm.trans hentry
    · exact hentry
  links names target hlink := by
    rw [h.entry] at hlink
    split_ifs at hlink with hway
    · cases hlink
    · exact hlink

/-- Nothing has to be made on the way to a directory. -/
theorem Made.refl (h : t.entryAt? there = some .dir) : Made t t there where
  cwd := rfl
  free names hway := .inr (entryAt?_front h hway)
  entry names := by
    split_ifs with hway
    · exact entryAt?_front h hway
    · rfl

/-- A directory is made in one that has been made. -/
theorem Made.child (h : Made t t' there) (h' : Made t' t'' (there ++ [name]))
    (hfresh : t.entryAt? there = none) : Made t t'' (there ++ [name]) where
  cwd := h'.cwd.trans h.cwd
  free names hway := by
    rcases List.prefix_concat_iff.mp hway with rfl | hway
    · exact .inl (entryAt?_below_none hfresh [name])
    · exact h.free names hway
  entry names := by
    rw [h'.entry, h.entry]
    split_ifs with hplace hway
    · rfl
    · exact absurd (hway.trans (List.prefix_append there [name])) hplace
    · rfl

/-- A new directory in one that is there. -/
theorem made_putAt (hdir : t.node? here = some (.dir entries))
    (hnone : t.node? (here ++ [name]) = none) :
    Made t (t.putAt (here ++ [name]) (.dir [])) (here ++ [name]) where
  cwd := rfl
  free names hway := by
    rcases List.prefix_concat_iff.mp hway with rfl | hway
    · exact .inl (entryAt?_eq_none.mpr hnone)
    · exact .inr (entryAt?_front (entryAt?_eq_dir.mpr ⟨entries, hdir⟩) hway)
  entry names := by
    rw [entryAt?_putAt hdir hnone (fun _ => rfl)]
    split_ifs with hplace hway hway
    · rfl
    · exact absurd (hplace ▸ List.prefix_refl _) hway
    · rcases List.prefix_concat_iff.mp hway with rfl | hway
      · exact absurd rfl hplace
      · exact entryAt?_front (entryAt?_eq_dir.mpr ⟨entries, hdir⟩) hway
    · rfl

/-- A name that is looked up in a directory and missed is none of its entries. -/
theorem node?_of_missing (hdir : t.node? here = some (.dir entries)) (hplain : IsPlain name)
    (h : t.walk links false here [name] = .error .notFound) :
    isTooLong name = false ∧ t.node? (here ++ [name]) = none := by
  rw [walk_plain hdir hplain] at h
  cases hlong : isTooLong name with
  | true => simp [hlong] at h
  | false =>
    refine ⟨rfl, ?_⟩
    cases hnode : t.node? (here ++ [name]) with
    | none => rfl
    | some node => cases node <;> simp [hlong, hnode, walk] at h

theorem isDir_iff : t.isDir p = true ↔ ∃ there entries, t.stat p = .ok (there, .dir entries) := by
  unfold isDir
  cases hstat : t.stat p with
  | error fault => simp [Except.toOption]
  | ok found =>
    obtain ⟨there, node⟩ := found
    cases node <;> simp [Except.toOption, Node.isDir]

section MakeDir

theorem stat_parent (hparts : p.parts = names ++ [name]) :
    t.stat p.parent = t.walk linkLimit true (t.start p) names := by
  rw [stat, Path.parent, hparts, List.dropLast_concat]
  rfl

/-- What making one directory has asked: that its parent is a directory and holds nothing of its
name. -/
theorem makeDir_ok (h : t.makeDir p = .ok t') :
    ∃ front name parent entries, p.parts = front ++ [name] ∧
      t.walk linkLimit true (t.start p) front = .ok (parent, .dir entries) ∧
      t.walk linkLimit false (t.start p) p.parts = .error .notFound ∧
      t' = t.putAt (parent ++ [name]) (.dir []) := by
  unfold makeDir at h
  split at h
  · cases h
  · rename_i hmissing
    split at h
    · rename_i name parent entries hlast hparent
      split_ifs at h
      obtain ⟨front, hparts⟩ := List.getLast?_eq_some_iff.mp hlast
      refine ⟨front, name, parent, entries, hparts, ?_, hmissing, (Except.ok.inj h).symm⟩
      simpa [hparts] using hparent
    · cases h
    · cases h
  · cases h

/-- A path leads somewhere only if its parent does. -/
theorem exists_stat_parent {found : List String × Node} (h : t.stat p = .ok found) :
    ∃ found, t.stat p.parent = .ok found := by
  rcases List.eq_nil_or_concat p.parts with hparts | ⟨names, name, hparts⟩
  · have hparent : p.parent = p := by
      cases p
      simp_all [Path.parent]
    exact ⟨found, by rw [hparent, h]⟩
  · rw [List.concat_eq_append] at hparts
    rw [stat, hparts] at h
    obtain ⟨there, node, hfront⟩ := exists_walk_front h
    exact ⟨(there, node), (stat_parent hparts).trans hfront⟩

/-- A directory that is made stands below the place that its parent leads to. -/
theorem madeDir_of_makeDir (hplain : ∀ name ∈ p.parts, IsPlain name)
    (hparts : p.parts = names ++ [name])
    (hparent : t.walk linkLimit true (t.start p) names = .ok (here, .dir entries))
    (h : t.makeDir p = .ok t') : MadeDir t t' p (here ++ [name]) := by
  obtain ⟨names', name', here', entries', hparts', hparent', hmissing, rfl⟩ := makeDir_ok h
  obtain ⟨rfl, hlast⟩ := List.append_inj' (hparts.symm.trans hparts') rfl
  obtain rfl : name = name' := by simpa using hlast
  obtain ⟨rfl, -⟩ := Prod.mk.inj (Except.ok.inj (hparent.symm.trans hparent'))
  have hname : IsPlain name := hplain name (by simp [hparts])
  have hdir := node?_of_walk hparent
  obtain ⟨left, -, hleft⟩ := walk_append hparent
  rw [hparts, hleft] at hmissing
  obtain ⟨hshort, hnone⟩ := node?_of_missing hdir hname hmissing
  have hmade := made_putAt hdir hnone
  obtain ⟨node, hnow, hentry⟩ := hmade.grows.walk_ok hparent
  obtain ⟨entries', rfl⟩ := Node.entry_eq_dir.mp hentry
  have hleads : ∃ entries, (t.putAt (here ++ [name]) (.dir [])).stat p =
      .ok (here ++ [name], .dir entries) := by
    obtain ⟨made, hnew⟩ :=
      entryAt?_eq_dir.mp ((hmade.entry (here ++ [name])).trans (if_pos (List.prefix_refl _)))
    refine ⟨made, ?_⟩
    rw [stat, hparts]
    exact walk_concat hnow hname hshort hnew (by simp)
  refine ⟨hmade, hleads, fun _ => entryAt?_eq_none.mpr hnone, fun hmissing => ?_⟩
  cases hparent.symm.trans ((stat_parent hparts).symm.trans hmissing)

theorem exists_madeDir_of_makeDir (hplain : ∀ name ∈ p.parts, IsPlain name)
    (h : t.makeDir p = .ok t') : ∃ there, MadeDir t t' p there := by
  obtain ⟨names, name, here, entries, hparts, hparent, -, -⟩ := makeDir_ok h
  exact ⟨here ++ [name], madeDir_of_makeDir hplain hparts hparent h⟩

/-- Nothing is made where a directory is already. -/
theorem exists_madeDir_of_isDir (h : t.isDir p = true) : ∃ there, MadeDir t t p there := by
  obtain ⟨there, entries, hstat⟩ := isDir_iff.mp h
  have hdir := entryAt?_eq_dir.mpr ⟨entries, node?_of_walk hstat⟩
  refine ⟨there, .refl hdir, ⟨entries, hstat⟩, fun hmissing => ?_, fun hmissing => ?_⟩
  · cases hstat.symm.trans hmissing
  · obtain ⟨found, hparent⟩ := exists_stat_parent hstat
    cases hparent.symm.trans hmissing

theorem ensureDir_ok (h : t.ensureDir p = (.ok (), t')) :
    t.makeDir p = .ok t' ∨ t' = t ∧ t.isDir p = true := by
  unfold ensureDir at h
  split at h
  · rename_i hmade
    obtain ⟨-, rfl⟩ := Prod.mk.inj h
    exact .inl hmade
  · split_ifs at h with hdir
    · exact .inr ⟨(Prod.mk.inj h).2.symm, hdir⟩
    · cases (Prod.mk.inj h).1

theorem exists_madeDir_of_ensureDir (hplain : ∀ name ∈ p.parts, IsPlain name)
    (h : t.ensureDir p = (.ok (), t')) : ∃ there, MadeDir t t' p there := by
  rcases ensureDir_ok h with hmade | ⟨rfl, hdir⟩
  · exact exists_madeDir_of_makeDir hplain hmade
  · exact exists_madeDir_of_isDir hdir

/-- A directory that cannot be made because something is missing has a parent that is missing. -/
theorem stat_parent_of_missing {e : FileError} (hplain : ∀ name ∈ p.parts, IsPlain name)
    (h : t.makeDir p = .error e) (hmissing : e.fault = .notFound) :
    t.stat p.parent = .error .notFound := by
  unfold makeDir at h
  split at h
  · obtain rfl := Except.error.inj h
    cases hmissing
  · split at h
    · rename_i name parent entries hlast _
      split_ifs at h with hup
      exact absurd (beq_iff_eq.mp hup) (hplain name (List.mem_of_getLast? hlast)).ne_up
    · obtain rfl := Except.error.inj h
      cases hmissing
    · rename_i fault hparent
      obtain rfl := Except.error.inj h
      obtain rfl : fault = .notFound := hmissing
      exact hparent
  · rename_i hother _
    obtain rfl := Except.error.inj h
    exact absurd hmissing hother

/-- A directory is made in one that is new. -/
theorem MadeDir.child (h : MadeDir t t' p.parent there) (hplain : ∀ name ∈ p.parts, IsPlain name)
    (hparts : p.parts = names ++ [name]) (hfresh : t.entryAt? there = none)
    (hthen : t'.ensureDir p = (.ok (), t'')) : MadeDir t t'' p (there ++ [name]) := by
  obtain ⟨entries, hparent⟩ := h.leads
  have hwalk : t'.walk linkLimit true (t'.start p) names = .ok (there, .dir entries) := by
    rwa [stat_parent hparts] at hparent
  have hempty : t'.entryAt? (there ++ [name]) = none := by
    have hbelow : ¬there ++ [name] <+: there := fun hway => by
      have hle := hway.length_le
      rw [List.length_append, List.length_singleton] at hle
      omega
    rw [h.made.entry, if_neg hbelow]
    exact entryAt?_below_none hfresh [name]
  rcases ensureDir_ok hthen with hmade | ⟨rfl, hdir⟩
  · have hnew := madeDir_of_makeDir hplain hparts hwalk hmade
    refine ⟨h.made.child hnew.made hfresh, hnew.leads,
      fun _ => entryAt?_below_none hfresh [name], ?_⟩
    intro _ above node habove
    obtain ⟨entries', hnow⟩ := hnew.made.grows.stat_dir hparent
    obtain ⟨rfl, -⟩ := Prod.mk.inj (Except.ok.inj (hnow.symm.trans habove))
    exact hfresh
  · -- There is no directory in one that is new.
    have hname : IsPlain name := hplain name (by simp [hparts])
    obtain ⟨left, -, hleft⟩ := walk_append hwalk
    have hstat : t''.stat p = if isTooLong name then .error .nameTooLong else .error .notFound := by
      rw [stat, hparts, hleft, walk_plain (node?_of_walk hwalk) hname, entryAt?_eq_none.mp hempty]
    unfold isDir at hdir
    rw [hstat] at hdir
    split_ifs at hdir <;> simp [Except.toOption] at hdir

/-- Making a directory and those above it changes nothing but what is missing on the way. -/
theorem exists_madeDir {depth : Nat} (hplain : ∀ name ∈ p.parts, IsPlain name)
    (h : t.makeDirsUpTo p depth = (.ok (), t')) : ∃ there, MadeDir t t' p there := by
  induction depth generalizing p t' with
  | zero => exact exists_madeDir_of_ensureDir hplain h
  | succ depth ih =>
    unfold makeDirsUpTo at h
    split at h
    · rename_i hmade
      obtain ⟨-, rfl⟩ := Prod.mk.inj h
      exact exists_madeDir_of_makeDir hplain hmade
    · rename_i e hfault
      split_ifs at h with hmissing hdir
      · simp only [Bool.and_eq_true, beq_iff_eq, Bool.not_eq_true',
          List.isEmpty_eq_false_iff] at hmissing
        obtain ⟨hnotFound, hparts⟩ := hmissing
        split at h
        · rename_i above habove
          obtain ⟨there, hthere⟩ :=
            ih (fun name hname => hplain name (List.dropLast_subset _ hname)) habove
          have hfresh := hthere.fresh (stat_parent_of_missing hplain hfault hnotFound)
          obtain ⟨names, name, hconcat⟩ := List.eq_nil_or_concat p.parts |>.resolve_left hparts
          rw [List.concat_eq_append] at hconcat
          exact ⟨there ++ [name], hthere.child hplain hconcat hfresh h⟩
        · cases (Prod.mk.inj h).1
      · obtain ⟨-, rfl⟩ := Prod.mk.inj h
        exact exists_madeDir_of_isDir hdir
      · cases (Prod.mk.inj h).1

/-- A directory is made in one that has nothing of its name. -/
theorem makeDir_new (hdir : t.stat p = .ok (here, .dir entries)) (hplain : IsPlain name)
    (hname : isTooLong name = false) (hnone : t.node? (here ++ [name]) = none) :
    t.makeDir (p.child name) = .ok (t.putAt (here ++ [name]) (.dir [])) := by
  have hmissing : t.walk linkLimit false (t.start (p.child name)) (p.child name).parts =
      .error .notFound := walk_concat_none hdir hplain hname hnone
  have hlast : (p.child name).parts.getLast? = some name := List.getLast?_concat
  have hparent : t.walk linkLimit true (t.start (p.child name)) (p.child name).parts.dropLast =
      .ok (here, .dir entries) := by
    rw [Path.child, List.dropLast_concat]
    exact hdir
  rw [makeDir, hmissing]
  simp [hlast, hparent, hplain.ne_up]

/-- A directory that is there is not made again. -/
theorem makeDirsUpTo_of_isDir (h : t.isDir p = true) (depth : Nat) :
    t.makeDirsUpTo p depth = (.ok (), t) := by
  have hexists : t.makeDir p = .error ⟨.exists, p.toString⟩ := by
    obtain ⟨there, entries, hstat⟩ := isDir_iff.mp h
    obtain ⟨found, hfound⟩ := exists_walk_unfollowed hstat
    rw [makeDir, hfound]
  cases depth with
  | zero => rw [makeDirsUpTo, ensureDir, hexists, h]; rfl
  | succ depth => rw [makeDirsUpTo, hexists, h]; rfl

/-- Writing to a path at whose place nothing stands adds a file there. -/
theorem writeBytes_new {bytes : List UInt8} (hdir : t.stat p = .ok (here, .dir entries))
    (hplain : IsPlain name) (hname : isTooLong name = false)
    (hnone : t.node? (here ++ [name]) = none) :
    t.writeBytes (p.child name) bytes = .ok (t.putAt (here ++ [name]) (.file bytes)) := by
  have hasked : ((p.parts ++ [name]).reverse.dropWhile (· == "")).reverse = p.parts ++ [name] := by
    simp [hplain.ne_empty]
  have hnames : namesDir name = false := by
    simp [namesDir, hplain.ne_empty, hplain.ne_here, hplain.ne_up]
  have hplace :
      t.placeToWrite linkLimit (t.start p) (p.parts ++ [name]) = .ok (here ++ [name]) := by
    rw [stat] at hdir
    rw [placeToWrite]
    simp only [hasked, List.getLast?_concat, List.dropLast_concat, hdir, hnames, hname, hnone,
      Nat.lt_irrefl, decide_false, Bool.or_self, Bool.false_eq_true, ↓reduceIte]
  rw [writeBytes, show t.placeToWrite linkLimit (t.start (p.child name)) (p.child name).parts =
    .ok (here ++ [name]) from hplace]

end MakeDir

end DefinitionSite.FileTree
