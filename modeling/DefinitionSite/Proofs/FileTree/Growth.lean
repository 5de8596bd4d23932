import DefinitionSite.Proofs.FileTree.Entries
import DefinitionSite.Proofs.FileTree.Resolution

/-! A file system that grows, by anything but links. A look-up that did not miss what it looked for
ends as before, and every path keeps its real path. -/
namespace DefinitionSite.FileTree

/-- One file system holds all that another does, and no more links. -/
structure Grows (t t' : FileTree) : Prop where
  cwd : t'.cwd = t.cwd
  keeps : ∀ names entry, t.entryAt? names = some entry → t'.entryAt? names = some entry
  links : ∀ names target, t'.entryAt? names = some (.link target) →
    t.entryAt? names = some (.link target)

/-- Where a look-up ends, and what stands there. -/
def place (found : List String × Node) : List String × Entry := (found.1, found.2.entry)

variable {t t' t'' : FileTree} {here names there : List String} {links : Nat} {last : Bool}
  {p real : Path} {node : Node}

theorem Grows.refl (t : FileTree) : Grows t t := ⟨rfl, fun _ _ h => h, fun _ _ h => h⟩

theorem Grows.trans (h : Grows t t') (h' : Grows t' t'') : Grows t t'' where
  cwd := h'.cwd.trans h.cwd
  keeps names entry hentry := h'.keeps names entry (h.keeps names entry hentry)
  links names target hlink := h.links names target (h'.links names target hlink)

theorem Grows.exists_node (h : Grows t t') (hnode : t.node? here = some node) :
    ∃ node', t'.node? here = some node' ∧ node'.entry = node.entry :=
  Option.map_eq_some_iff.mp (h.keeps here node.entry (entryAt?_of_node? hnode))

theorem Grows.exists_dir (h : Grows t t') {entries : List (String × Node)}
    (hdir : t.node? here = some (.dir entries)) : ∃ entries, t'.node? here = some (.dir entries) :=
  entryAt?_eq_dir.mp (h.keeps here .dir (entryAt?_eq_dir.mpr ⟨entries, hdir⟩))

theorem Grows.node?_link (h : Grows t t') {target : String}
    (hlink : t.node? here = some (.link target)) : t'.node? here = some (.link target) :=
  entryAt?_eq_link.mp (h.keeps here _ (entryAt?_eq_link.mpr hlink))

theorem Grows.start (h : Grows t t') (p : Path) : t'.start p = t.start p := by
  rw [FileTree.start, FileTree.start, h.cwd]

/-- A look-up that does not miss anything ends at the same place, or with the same fault. -/
theorem Grows.walk (h : Grows t t') (links : Nat) (last : Bool) (here names : List String) :
    t.walk links last here names = .error .notFound ∨
      (t'.walk links last here names).map place = (t.walk links last here names).map place := by
  fun_induction FileTree.walk t links last here names with
  | case1 links here node hnode =>
    obtain ⟨node', hnode', hentry⟩ := h.exists_node hnode
    right
    simp [FileTree.walk, hnode', Except.map, place, hentry]
  | case2 links here hnone => exact .inl rfl
  | case3 links here name rest entries hdir hname ih =>
    obtain ⟨entries', hdir'⟩ := h.exists_dir hdir
    rw [walk_skip hdir' hname]
    exact ih
  | case4 links here name rest entries hdir hskip hname ih =>
    obtain ⟨entries', hdir'⟩ := h.exists_dir hdir
    rw [walk_up hdir' hskip hname]
    exact ih
  | case5 links here name rest entries hdir hskip hup hlong =>
    obtain ⟨entries', hdir'⟩ := h.exists_dir hdir
    right
    rw [walk_plain hdir' (isPlain_of_unskipped hskip hup), if_pos hlong]
  | case6 links here name rest entries hdir hskip hup hlong hchild => exact .inl rfl
  | case7 links here name rest entries hdir hskip hup hlong target hchild hlast =>
    obtain ⟨entries', hdir'⟩ := h.exists_dir hdir
    right
    rw [node?_child hdir] at hchild
    rw [walk_plain hdir' (isPlain_of_unskipped hskip hup), if_neg hlong, h.node?_link hchild]
    simp only [hlast, ↓reduceIte]
  | case8 here name rest entries hdir hskip hup hlong target hchild hlast =>
    obtain ⟨entries', hdir'⟩ := h.exists_dir hdir
    right
    rw [node?_child hdir] at hchild
    rw [walk_plain hdir' (isPlain_of_unskipped hskip hup), if_neg hlong, h.node?_link hchild]
    simp only [hlast, Bool.false_eq_true, ↓reduceIte]
  | case9 here name rest entries hdir hskip hup hlong target hchild hlast links start found htarget
      ih =>
    obtain ⟨entries', hdir'⟩ := h.exists_dir hdir
    rw [node?_child hdir] at hchild
    rw [walk_plain hdir' (isPlain_of_unskipped hskip hup), if_neg hlong, h.node?_link hchild]
    simpa only [hlast, Bool.false_eq_true, ↓reduceIte, htarget] using ih
  | case10 links here name rest entries hdir hskip hup hlong child hlink hchild ih =>
    obtain ⟨entries', hdir'⟩ := h.exists_dir hdir
    rw [node?_child hdir] at hchild
    obtain ⟨child', hchild', hentry⟩ := h.exists_node hchild
    rw [walk_plain hdir' (isPlain_of_unskipped hskip hup), if_neg hlong, hchild']
    cases child' with
    | link target => exact absurd (Node.entry_eq_link.mp hentry.symm) (hlink target)
    | dir entries => exact ih
    | file bytes => exact ih
  | case11 links here name rest node hnode hdir =>
    obtain ⟨node', hnode', hentry⟩ := h.exists_node hdir
    right
    rw [FileTree.walk.eq_2 t', hnode']
    cases node' with
    | dir entries =>
      obtain ⟨entries', rfl⟩ := Node.entry_eq_dir.mp hentry.symm
      exact absurd rfl (hnode entries')
    | file bytes => rfl
    | link target => rfl
  | case12 links here name rest hnone => exact .inl rfl

/-- A look-up that ends well ends at the same place. -/
theorem Grows.walk_ok (h : Grows t t') (hwalk : t.walk links last here names = .ok (there, node)) :
    ∃ node', t'.walk links last here names = .ok (there, node') ∧ node'.entry = node.entry := by
  obtain hmiss | hsame := h.walk links last here names
  · cases hmiss.symm.trans hwalk
  · rw [hwalk] at hsame
    cases hwalk' : t'.walk links last here names with
    | error fault =>
      rw [hwalk'] at hsame
      cases hsame
    | ok found =>
      obtain ⟨there', node'⟩ := found
      rw [hwalk'] at hsame
      obtain ⟨rfl, hentry⟩ : there' = there ∧ node'.entry = node.entry :=
        Prod.mk.inj (Except.ok.inj hsame)
      exact ⟨node', rfl, hentry⟩

theorem Grows.namesOf (h : Grows t t') (p : Path) : t'.namesOf p = t.namesOf p := by
  rw [FileTree.namesOf, FileTree.namesOf, h.start]

/-- A path that does not miss anything leads to the same. -/
theorem Grows.stat (h : Grows t t') (p : Path) :
    t.stat p = .error .notFound ∨ (t'.stat p).map place = (t.stat p).map place := by
  rw [FileTree.stat, FileTree.stat, h.start]
  exact h.walk linkLimit true (t.start p) p.parts

theorem Grows.stat_ok (h : Grows t t') (hstat : t.stat p = .ok (there, node)) :
    ∃ node', t'.stat p = .ok (there, node') ∧ node'.entry = node.entry := by
  rw [FileTree.stat, h.start]
  exact h.walk_ok hstat

/-- A path that leads to a directory leads to it still. -/
theorem Grows.stat_dir (h : Grows t t') {entries : List (String × Node)}
    (hstat : t.stat p = .ok (there, .dir entries)) :
    ∃ entries, t'.stat p = .ok (there, .dir entries) := by
  obtain ⟨node, hnow, hentry⟩ := h.stat_ok hstat
  obtain ⟨entries', rfl⟩ := Node.entry_eq_dir.mp hentry
  exact ⟨entries', hnow⟩

/-- A path that leads somewhere now was missed or led to the same place. -/
theorem Grows.stat_before (h : Grows t t') (hstat : t'.stat p = .ok (there, node)) :
    t.stat p = .error .notFound ∨ ∃ node, t.stat p = .ok (there, node) := by
  rcases h.stat p with hmiss | hsame
  · exact .inl hmiss
  · right
    rw [hstat] at hsame
    cases hbefore : t.stat p with
    | error fault =>
      rw [hbefore] at hsame
      cases hsame
    | ok found =>
      rw [hbefore] at hsame
      obtain ⟨there', node'⟩ := found
      obtain ⟨rfl, -⟩ : there = there' ∧ node.entry = node'.entry :=
        Prod.mk.inj (Except.ok.inj hsame)
      exact ⟨node', rfl⟩

/-- Resolving a path asks for nothing but links. -/
theorem Grows.realFrom (h : Grows t t') (fuel : Nat) (active : List Path) (p : Path)
    (steps : List Step) : t'.realFrom fuel active p steps = t.realFrom fuel active p steps := by
  fun_induction FileTree.realFrom t fuel active p steps with
  | case1 fuel active here => rw [FileTree.realFrom]
  | case2 fuel active here rest ih => rw [FileTree.realFrom, ih]
  | case3 fuel active here name rest hname ih =>
    rw [FileTree.realFrom]
    simpa only [hname, ↓reduceIte] using ih
  | case4 fuel active here name rest hskip hname ih =>
    rw [FileTree.realFrom]
    simpa only [hskip, hname, Bool.false_eq_true, ↓reduceIte] using ih
  | case5 fuel active here name rest hskip hup target hlink hactive =>
    rw [FileTree.realFrom]
    simp only [hskip, hup, Bool.false_eq_true, ↓reduceIte, h.namesOf, h.node?_link hlink, hactive]
  | case6 active here name rest hskip hup target hlink hactive =>
    rw [FileTree.realFrom]
    simp only [hskip, hup, Bool.false_eq_true, ↓reduceIte, h.namesOf, h.node?_link hlink, hactive]
  | case7 active here name rest hskip hup target hlink hactive fuel names start ih =>
    rw [FileTree.realFrom]
    simp only [hskip, hup, Bool.false_eq_true, ↓reduceIte, h.namesOf, h.node?_link hlink, hactive]
    simpa only [start, dite_eq_ite] using ih
  | case8 fuel active here name rest hskip hup hlink ih =>
    rw [FileTree.realFrom]
    simp only [hskip, hup, Bool.false_eq_true, ↓reduceIte, h.namesOf]
    split
    · rename_i target hlink'
      have hbefore := h.links _ target (entryAt?_eq_link.mpr hlink')
      exact absurd (entryAt?_eq_link.mp hbefore) (hlink target)
    · exact ih

/-- A path keeps its real path where that leads somewhere. -/
theorem Grows.resolve (h : Grows t t') (hreal : t.resolve p = .ok real)
    (hstat : t'.stat real ≠ .error .tooManyLinks) : t'.resolve p = .ok real := by
  unfold FileTree.resolve at hreal ⊢
  simp only [h.realFrom, h.namesOf] at hreal ⊢
  split at hreal
  · cases hreal
  rename_i hnull
  rw [if_neg hnull]
  split at hreal
  · cases hreal
  · obtain rfl := Except.ok.inj hreal
    split
    · rename_i hloop
      exact absurd hloop hstat
    · rfl

end DefinitionSite.FileTree
