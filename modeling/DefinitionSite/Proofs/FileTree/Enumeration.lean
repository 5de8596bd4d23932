import Mathlib.Data.String.Basic
import DefinitionSite.Proofs.FileTree.Sources

/-! The enumeration of source files: which entries below a directory are listed, and in which
order. A directory's own files come first and then its subdirectories, both in the order of their
names, so the list is determined by what it holds. -/
namespace DefinitionSite
open SourceFiles

/-- An entry below a directory, reached through subdirectories by a name of its own, is a source
file: no link and no directory to be skipped is on the way, and the entry is no directory and no
link to one. -/
structure FileTree.IsSource (t : FileTree) (real globs skipDirs dirs : List String)
    (name : String) : Prop where
  entered : ∀ outer d inner, dirs = outer ++ d :: inner →
    (∃ entries, t.node? (real ++ (outer ++ [d])) = some (.dir entries)) ∧ isHidden d = false ∧
      d ∉ skipDirs
  isFile : (∃ bytes, t.node? (real ++ (dirs ++ [name])) = some (.file bytes)) ∨
    ∃ target, t.node? (real ++ (dirs ++ [name])) = some (.link target) ∧
      t.isDir (.absolute (real ++ (dirs ++ [name]))) = false
  visible : isHidden name = false
  wanted : ∃ glob ∈ globs, globMatches glob name = true

/-- Of two files below a directory, given by the names that lead to them, the first is listed before
the second: a file of the directory before those of its subdirectories, and in name order else. -/
inductive ListedBefore : List String → List String → Prop
  | files {a b : String} (h : a < b) : ListedBefore [a] [b]
  | file {a b : String} {rest : List String} (h : rest ≠ []) : ListedBefore [a] (b :: rest)
  | dirs {a b : String} {as bs : List String} (h : a < b) (ha : as ≠ []) (hb : bs ≠ []) :
      ListedBefore (a :: as) (b :: bs)
  | within {a : String} {as bs : List String} (h : ListedBefore as bs) :
      ListedBefore (a :: as) (a :: bs)

/-- Values with different names are strictly in the order of their names once they are sorted. -/
theorem pairwise_mergeSort_lt {α : Type} (key : α → String) {xs : List α}
    (h : (xs.map key).Nodup) :
    (xs.mergeSort fun a b => !decide (key b < key a)).Pairwise fun a b => key a < key b := by
  have hle : (xs.mergeSort fun a b => !decide (key b < key a)).Pairwise
      fun a b => (!decide (key b < key a)) = true := by
    refine List.pairwise_mergeSort (fun a b c hab hbc => ?_) (fun a b => ?_) xs
    · simp only [Bool.not_eq_true', decide_eq_false_iff_not, not_lt] at hab hbc ⊢
      exact hab.trans hbc
    · rcases le_total (key a) (key b) with h | h
      · simp [not_lt.mpr h]
      · simp [not_lt.mpr h]
  have hperm := List.mergeSort_perm xs fun a b => !decide (key b < key a)
  have hne := List.pairwise_map.mp ((hperm.map key).nodup_iff.mpr h)
  refine (hle.and hne).imp fun hab => ?_
  simp only [Bool.not_eq_true', decide_eq_false_iff_not, not_lt] at hab
  exact lt_of_le_of_ne hab.1 hab.2

namespace SourceFiles

variable {w : Wanted} {here : List String} {entries : List (String × Node)} {node : Node}

/-- The files of a branch stand behind its name. -/
theorem exists_of_mem_branch (h : (Node.dir entries).isSound = true)
    {branch : String × List (List String)} (hmem : branch ∈ branches w here entries)
    {names : List String} (hnames : names ∈ branch.2) :
    ∃ rest, names = branch.1 :: rest ∧ rest ≠ [] := by
  obtain ⟨child, hchild, heq⟩ := mem_branches hmem
  have hsound := (((Node.isSound_dir_iff entries).mp h).2 _ hchild).2
  rw [heq] at hnames
  obtain ⟨rest, hrest, rfl⟩ := List.mem_map.mp hnames
  exact ⟨rest, rfl, ((below_names w hsound _).2 rest hrest).1⟩

/-- The enumeration is in order. -/
theorem pairwise_below (h : node.isSound = true) (here : List String) :
    (below w here node).Pairwise ListedBefore := by
  induction node using Node.entry_induction generalizing here with
  | file bytes => simp [below]
  | link target => simp [below]
  | dir entries ih =>
    obtain ⟨hnodup, hentries⟩ := (Node.isSound_dir_iff entries).mp h
    have hfiles : (((entries.filter fun e => w.isFile here e && w.takes e.1).map (·.1)).map
        fun name => name).Nodup := by
      rw [List.map_id']
      exact (List.filter_sublist.map _).nodup hnodup
    have hdirs := (branches_sublist w here entries).nodup hnodup
    rw [below, List.pairwise_append]
    refine ⟨?_, ?_, ?_⟩
    · exact List.pairwise_map.mpr ((pairwise_mergeSort_lt _ hfiles).imp .files)
    · rw [List.pairwise_flatMap]
      constructor
      · intro branch hmem
        obtain ⟨child, hchild, heq⟩ := mem_branches (List.mem_mergeSort.mp hmem)
        rw [heq]
        exact List.pairwise_map.mpr ((ih _ hchild (hentries _ hchild).2 _).imp .within)
      · refine (pairwise_mergeSort_lt _ hdirs).imp_of_mem ?_
        intro a b ha hb hlt as has bs hbs
        obtain ⟨as, rfl, hane⟩ := exists_of_mem_branch h (List.mem_mergeSort.mp ha) has
        obtain ⟨bs, rfl, hbne⟩ := exists_of_mem_branch h (List.mem_mergeSort.mp hb) hbs
        exact .dirs hlt hane hbne
    · intro as has bs hbs
      obtain ⟨a, -, rfl⟩ := List.mem_map.mp has
      obtain ⟨branch, hmem, hbs⟩ := List.mem_flatMap.mp hbs
      obtain ⟨rest, rfl, hne⟩ := exists_of_mem_branch h (List.mem_mergeSort.mp hmem) hbs
      exact .file hne

/-- What names have to lead to for the enumeration of the files below an entry to list them. -/
def Lists (w : Wanted) (here : List String) (node : Node) (dirs : List String) (name : String) :
    Prop :=
  (∀ outer d inner, dirs = outer ++ d :: inner →
    (∃ entries, node.at? (outer ++ [d]) = some (.dir entries)) ∧ w.enters d = true) ∧
  ∃ child, node.at? (dirs ++ [name]) = some child ∧ w.isFile (here ++ dirs) (name, child) = true ∧
    w.takes name = true

theorem lists_cons {d : String} {dirs : List String} {name : String} :
    Lists w here node (d :: dirs) name ↔ ∃ entries, node.child? d = some (.dir entries) ∧
      w.enters d = true ∧ Lists w (here ++ [d]) (.dir entries) dirs name := by
  constructor
  · rintro ⟨henter, hfile⟩
    obtain ⟨⟨entries, hat⟩, hd⟩ := henter [] d dirs rfl
    have hchild : node.child? d = some (.dir entries) := by simpa [Node.at?] using hat
    refine ⟨entries, hchild, hd, ?_, ?_⟩
    · rintro outer d' inner rfl
      simpa [Node.at?, hchild] using henter (d :: outer) d' inner rfl
    · simpa [Node.at?, hchild] using hfile
  · rintro ⟨entries, hchild, hd, henter, hfile⟩
    refine ⟨?_, by simpa [Node.at?, hchild] using hfile⟩
    intro outer d' inner heq
    cases outer with
    | nil =>
      obtain ⟨rfl, rfl⟩ := List.cons_eq_cons.mp heq
      exact ⟨⟨entries, by simpa [Node.at?] using hchild⟩, hd⟩
    | cons c outer =>
      obtain ⟨rfl, rfl⟩ := List.cons_eq_cons.mp heq
      simpa [Node.at?, hchild] using henter outer d' inner rfl

theorem child?_eq_some_iff (h : (Node.dir entries).isSound = true) {name : String} :
    (Node.dir entries).child? name = some node ↔ (name, node) ∈ entries := by
  obtain ⟨hnodup, -⟩ := (Node.isSound_dir_iff entries).mp h
  simp only [Node.child?, Option.map_eq_some_iff]
  constructor
  · rintro ⟨e, hfind, rfl⟩
    obtain rfl : e.1 = name := by simpa using List.find?_some hfind
    exact List.mem_of_find?_eq_some hfind
  · intro hmem
    cases hfind : entries.find? (·.1 == name) with
    | none => simpa using List.find?_eq_none.mp hfind _ hmem
    | some e =>
      have hname : e.1 = name := by simpa using List.find?_some hfind
      have heq := List.inj_on_of_nodup_map hnodup (List.mem_of_find?_eq_some hfind) hmem hname
      exact ⟨e, rfl, by rw [heq]⟩

/-- A directory's own files. -/
theorem mem_ownFiles (h : (Node.dir entries).isSound = true) {name : String} :
    name ∈ sortNames ((entries.filter fun e => w.isFile here e && w.takes e.1).map (·.1)) ↔
      Lists w here (.dir entries) [] name := by
  have hnone : ∀ outer d inner, ([] : List String) = outer ++ d :: inner →
      (∃ found, (Node.dir entries).at? (outer ++ [d]) = some (.dir found)) ∧
        w.enters d = true := by simp
  unfold sortNames Lists
  rw [List.mem_mergeSort, List.mem_map, and_iff_right hnone]
  simp only [List.mem_filter, Bool.and_eq_true, List.nil_append, Node.at?, Option.bind_fun_some,
    List.append_nil, child?_eq_some_iff h]
  constructor
  · rintro ⟨⟨name, child⟩, hmem, rfl⟩
    exact ⟨child, hmem⟩
  · rintro ⟨child, hmem⟩
    exact ⟨(name, child), hmem, rfl⟩

theorem not_lists (h : ∀ name, node.child? name = none) (dirs : List String) (name : String) :
    ¬ Lists w here node dirs name := by
  rintro ⟨-, child, hat, -⟩
  cases dirs <;> simp [Node.at?, h] at hat

/-- The files of a directory's subdirectories. -/
theorem mem_branchFiles {names : List String} :
    names ∈ ((branches w here entries).mergeSort fun a b => !decide (b.1 < a.1)).flatMap (·.2) ↔
      ∃ d found, (d, Node.dir found) ∈ entries ∧ w.enters d = true ∧
        ∃ rest ∈ below w (here ++ [d]) (.dir found), names = d :: rest := by
  simp only [List.mem_flatMap, List.mem_mergeSort, branches_eq, List.mem_map, List.mem_filter,
    Bool.and_eq_true]
  constructor
  · rintro ⟨-, ⟨⟨d, node⟩, ⟨hmem, hdir, hd⟩, rfl⟩, hnames⟩
    obtain ⟨rest, hrest, rfl⟩ := List.mem_map.mp hnames
    cases node with
    | dir found => exact ⟨d, found, hmem, hd, rest, hrest, rfl⟩
    | file bytes => simp [Node.isDir] at hdir
    | link target => simp [Node.isDir] at hdir
  · rintro ⟨d, found, hmem, hd, rest, hrest, rfl⟩
    exact ⟨_, ⟨(d, .dir found), ⟨hmem, rfl, hd⟩, rfl⟩, List.mem_map_of_mem hrest⟩

/-- The enumeration of the files below an entry is complete and lists nothing else. -/
theorem mem_below (h : node.isSound = true) (here names : List String) :
    names ∈ below w here node ↔
      ∃ dirs name, names = dirs ++ [name] ∧ Lists w here node dirs name := by
  induction node using Node.entry_induction generalizing here names with
  | file bytes =>
    have hnone : ∀ dirs name, ¬ Lists w here (.file bytes) dirs name := not_lists fun _ => rfl
    simp [below, hnone]
  | link target =>
    have hnone : ∀ dirs name, ¬ Lists w here (.link target) dirs name := not_lists fun _ => rfl
    simp [below, hnone]
  | dir entries ih =>
    obtain ⟨-, hentries⟩ := (Node.isSound_dir_iff entries).mp h
    rw [below, List.mem_append, List.mem_map, mem_branchFiles]
    constructor
    · rintro (⟨name, hname, rfl⟩ | ⟨d, found, hmem, hd, rest, hrest, rfl⟩)
      · exact ⟨[], name, rfl, (mem_ownFiles h).mp hname⟩
      · obtain ⟨dirs, name, rfl, hlists⟩ := (ih _ hmem (hentries _ hmem).2 _ _).mp hrest
        exact ⟨d :: dirs, name, rfl,
          lists_cons.mpr ⟨found, (child?_eq_some_iff h).mpr hmem, hd, hlists⟩⟩
    · rintro ⟨dirs, name, rfl, hlists⟩
      cases dirs with
      | nil => exact .inl ⟨name, (mem_ownFiles h).mpr hlists, rfl⟩
      | cons d dirs =>
        obtain ⟨found, hchild, hd, hlists⟩ := lists_cons.mp hlists
        have hmem := (child?_eq_some_iff h).mp hchild
        refine .inr ⟨d, found, hmem, hd, dirs ++ [name], ?_, rfl⟩
        exact (ih _ hmem (hentries _ hmem).2 _ _).mpr ⟨dirs, name, rfl, hlists⟩

theorem takes_iff {name : String} : w.takes name = true ↔
    isHidden name = false ∧ ∃ glob ∈ w.globs, globMatches glob name = true := by
  simp [Wanted.takes]

theorem enters_iff {d : String} : w.enters d = true ↔
    isHidden d = false ∧ d ∉ w.skipDirs := by
  simp [Wanted.enters]

theorem isFile_iff {name : String} {child : Node} :
    w.isFile here (name, child) = true ↔ (∃ bytes, child = .file bytes) ∨
      ∃ target, child = .link target ∧ w.leadsToDir (here ++ [name]) = false := by
  cases child <;> simp [Wanted.isFile]

end SourceFiles

namespace FileTree
open SourceFiles

variable {t : FileTree} {real globs skipDirs : List String} {entries : List (String × Node)}

/-- What the enumeration below a directory lists are its source files. -/
theorem lists_iff_isSource (hnode : t.node? real = some (.dir entries)) (dirs : List String)
    (name : String) :
    Lists ⟨globs, skipDirs, fun names => t.isDir (.absolute names)⟩ real (.dir entries) dirs name ↔
      t.IsSource real globs skipDirs dirs name := by
  have hat : ∀ names, t.node? (real ++ names) = (Node.dir entries).at? names := by
    intro names
    have hbelow := Node.at?_append real names t.top
    rw [show t.top.at? real = some (.dir entries) from hnode, Option.bind_some] at hbelow
    exact hbelow
  constructor
  · rintro ⟨henter, child, hchild, hfile, htakes⟩
    obtain ⟨hvisible, hwanted⟩ := takes_iff.mp htakes
    refine ⟨fun outer d inner heq => ?_, ?_, hvisible, hwanted⟩
    · obtain ⟨hdir, hd⟩ := henter outer d inner heq
      rw [hat]
      exact ⟨hdir, enters_iff.mp hd⟩
    · rw [hat, hchild]
      simpa [isFile_iff] using hfile
  · rintro ⟨hentered, hfile, hvisible, hwanted⟩
    refine ⟨fun outer d inner heq => ?_, ?_⟩
    · obtain ⟨hdir, hd⟩ := hentered outer d inner heq
      rw [hat] at hdir
      exact ⟨hdir, enters_iff.mpr hd⟩
    · rw [hat] at hfile
      rcases hfile with ⟨bytes, hchild⟩ | ⟨target, hchild, hlink⟩
      · exact ⟨_, hchild, isFile_iff.mpr (.inl ⟨bytes, rfl⟩), takes_iff.mpr ⟨hvisible, hwanted⟩⟩
      · refine ⟨_, hchild, isFile_iff.mpr (.inr ⟨target, rfl, ?_⟩),
          takes_iff.mpr ⟨hvisible, hwanted⟩⟩
        simpa using hlink

/-- Below a directory exactly its source files are listed, each once and in order. -/
theorem listSourceFiles_exact (hsound : t.Sound) (root : Path) (globs skipDirs : List String)
    (hroot : t.stat root = .ok (real, .dir entries)) :
    ∃ below : List (List String),
      t.listSourceFiles root globs skipDirs =
        .ok (below.map fun names => ⟨root.root, root.parts ++ names⟩) ∧
      (∀ names, names ∈ below ↔ ∃ dirs name, names = dirs ++ [name] ∧
        t.IsSource real globs skipDirs dirs name) ∧
      below.Pairwise ListedBefore ∧
      (below.map fun names => (⟨root.root, root.parts ++ names⟩ : Path)).Nodup := by
  obtain ⟨used, -, hleads, hnode⟩ := leads_of_walk hsound hroot
  have hdir := (Node.isSound_at? hsound hnode).2
  refine ⟨SourceFiles.below ⟨globs, skipDirs, fun names => t.isDir (.absolute names)⟩ real
    (.dir entries), ?_, ?_, pairwise_below hdir real, ?_⟩
  · have hnull : root.holdsNull = false := by
      simpa [Path.holdsNull] using hleads.not_holdsNull
    simp [listSourceFiles, hnull, sourceFiles, hroot]
  · intro names
    simp only [mem_below hdir, lists_iff_isSource hnode]
  · refine List.Nodup.map (fun a b hab => ?_) ((below_names _ hdir real).1)
    exact List.append_cancel_left (Path.mk.inj hab).2

theorem listSourceFiles_exact_project :
    let entries : List (String × Node) :=
      [("lib", .dir [("D.hs", .file []), ("dist", .dir [("E.hs", .file [])])]),
        ("old", .link "lib"), ("C.hs", .link "gone"), (".B.hs", .file []), ("A.hs", .file []),
        ("notes", .file [])]
    let t : FileTree := ⟨.dir [("app", .dir entries)], []⟩
    t.Sound ∧ t.stat ⟨"/", ["app"]⟩ = .ok (["app"], .dir entries) ∧
      ∃ below : List (List String),
        t.listSourceFiles ⟨"/", ["app"]⟩ ["*.hs"] ["dist"] =
          .ok (below.map fun names => ⟨"/", ["app"] ++ names⟩) ∧
        (∀ names, names ∈ below ↔ ∃ dirs name, names = dirs ++ [name] ∧
          t.IsSource ["app"] ["*.hs"] ["dist"] dirs name) ∧
        below.Pairwise ListedBefore ∧
        (below.map fun names => (⟨"/", ["app"] ++ names⟩ : Path)).Nodup := by
  intro entries t
  have hsound : t.Sound := by
    unfold FileTree.Sound
    decide
  have hroot : t.stat ⟨"/", ["app"]⟩ = .ok (["app"], .dir entries) := by
    simp [FileTree.stat, FileTree.walk, FileTree.start, Path.isAbsolute, FileTree.node?, Node.at?,
      Node.child?, isTooLong, t, entries]
    decide
  exact ⟨hsound, hroot, listSourceFiles_exact hsound _ _ _ hroot⟩

end FileTree
end DefinitionSite
