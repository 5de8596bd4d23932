import DefinitionSite.Proofs.FileTree.Resolution
import DefinitionSite.Proofs.Path.Strings
import DefinitionSite.SourceFiles

/-! The source files of a sound file system: each is listed once, by names of entries, and its
string is the string of no other. -/
namespace DefinitionSite

/-- What holds of a directory whenever it holds of its entries holds of every entry. -/
theorem Node.entry_induction {P : Node → Prop} (file : ∀ bytes, P (.file bytes))
    (link : ∀ target, P (.link target))
    (dir : ∀ entries : List (String × Node), (∀ e ∈ entries, P e.2) → P (.dir entries)) :
    ∀ node, P node
  | .file bytes => file bytes
  | .link target => link target
  | .dir entries => dir entries fun e _ => Node.entry_induction file link dir e.2
termination_by node => sizeOf node
decreasing_by
  have hlt := List.sizeOf_lt_of_mem ‹_›
  cases e
  simp at hlt ⊢
  omega

namespace SourceFiles
open scoped List

variable {w : Wanted}

/-- The branches are those entries that are entered, one by one. -/
theorem branches_eq (w : Wanted) (here : List String) (entries : List (String × Node)) :
    branches w here entries = (entries.filter fun e => e.2.isDir && w.enters e.1).map fun e =>
      (e.1, (below w (here ++ [e.1]) e.2).map (e.1 :: ·)) := by
  induction entries with
  | nil => rfl
  | cons e entries ih =>
    obtain ⟨name, node⟩ := e
    rw [branches, List.filter_cons, ih]
    split_ifs <;> rfl

theorem mem_branches {here : List String} {entries : List (String × Node)}
    {branch : String × List (List String)} (h : branch ∈ branches w here entries) :
    ∃ node, (branch.1, node) ∈ entries ∧
      branch.2 = (below w (here ++ [branch.1]) node).map (branch.1 :: ·) := by
  rw [branches_eq, List.mem_map] at h
  obtain ⟨e, hmem, rfl⟩ := h
  exact ⟨e.2, List.mem_of_mem_filter hmem, rfl⟩

theorem branches_sublist (w : Wanted) (here : List String) (entries : List (String × Node)) :
    ((branches w here entries).map (·.1)).Sublist (entries.map (·.1)) := by
  rw [branches_eq, List.map_map]
  exact List.filter_sublist.map _

/-- The files below an entry are told apart by their names. -/
theorem below_names (w : Wanted) {node : Node} (h : node.isSound = true) (here : List String) :
    (below w here node).Nodup ∧
      ∀ names ∈ below w here node, names ≠ [] ∧ ∀ name ∈ names, isName name = true := by
  induction node using Node.entry_induction generalizing here with
  | file bytes => simp [below]
  | link target => simp [below]
  | dir entries ih =>
    obtain ⟨hnodup, hentries⟩ := (Node.isSound_dir_iff entries).mp h
    have hbranch : ∀ branch ∈ branches w here entries, branch.2.Nodup ∧ ∀ names ∈ branch.2,
        ∃ rest, names = branch.1 :: rest ∧ rest ≠ [] ∧ ∀ name ∈ names, isName name = true := by
      intro branch hmem
      obtain ⟨node, hnode, heq⟩ := mem_branches hmem
      obtain ⟨hname, hsound⟩ := hentries _ hnode
      obtain ⟨hfiles, hrest⟩ := ih _ hnode hsound (here ++ [branch.1])
      rw [heq]
      refine ⟨hfiles.map fun a b hab => (List.cons_eq_cons.mp hab).2, ?_⟩
      intro names hnames
      obtain ⟨rest, hmem, rfl⟩ := List.mem_map.mp hnames
      exact ⟨rest, rfl, (hrest rest hmem).1, List.forall_mem_cons.mpr ⟨hname, (hrest rest hmem).2⟩⟩
    have hperm : below w here (.dir entries) ~
        ((entries.filter fun e => w.isFile here e && w.takes e.1).map (·.1)).map
          (fun name => [name]) ++
          (branches w here entries).flatMap (·.2) := by
      rw [below]
      exact ((List.mergeSort_perm _ _).map _).append
        ((List.mergeSort_perm _ _).flatMap_right _)
    constructor
    · rw [hperm.nodup_iff, List.nodup_append']
      refine ⟨?_, ?_, ?_⟩
      · refine ((List.Sublist.map _ List.filter_sublist).nodup hnodup).map fun a b hab => ?_
        exact (List.cons_eq_cons.mp hab).1
      · rw [List.nodup_flatMap]
        refine ⟨fun branch hmem => (hbranch branch hmem).1, ?_⟩
        have hdistinct := (branches_sublist w here entries).nodup hnodup
        refine (List.pairwise_map.mp hdistinct).imp_of_mem fun {a b} ha hb hne => ?_
        intro names hnames hnames'
        obtain ⟨_, rfl, -⟩ := (hbranch a ha).2 names hnames
        obtain ⟨_, heq, -⟩ := (hbranch b hb).2 _ hnames'
        exact hne (List.cons_eq_cons.mp heq).1
      · -- A file of a subdirectory has more than one name.
        intro names hfile hdeep
        obtain ⟨name, -, rfl⟩ := List.mem_map.mp hfile
        obtain ⟨branch, hmem, hnames⟩ := List.mem_flatMap.mp hdeep
        obtain ⟨rest, heq, hne, -⟩ := (hbranch branch hmem).2 _ hnames
        exact hne (List.cons_eq_cons.mp heq).2.symm
    · intro names hnames
      rcases List.mem_append.mp (hperm.mem_iff.mp hnames) with hfile | hdeep
      · obtain ⟨name, hname, rfl⟩ := List.mem_map.mp hfile
        obtain ⟨e, he, rfl⟩ := List.mem_map.mp hname
        exact ⟨by simp, by simpa using (hentries e (List.mem_of_mem_filter he)).1⟩
      · obtain ⟨branch, hmem, hnames⟩ := List.mem_flatMap.mp hdeep
        obtain ⟨rest, rfl, -, hall⟩ := (hbranch branch hmem).2 _ hnames
        exact ⟨by simp, hall⟩

end SourceFiles

namespace FileTree

/-- The source files below a directory stand below it by different names. -/
theorem exists_sourceFiles {t : FileTree} (hsound : t.Sound) (root : Path)
    (globs skipDirs : List String) : ∃ below : List (List String), below.Nodup ∧
      (∀ names ∈ below, names ≠ [] ∧ ∀ name ∈ names, isName name = true) ∧
      t.sourceFiles root globs skipDirs =
        below.map fun names => ⟨root.root, root.parts ++ names⟩ := by
  unfold sourceFiles
  split
  · exact ⟨[], List.nodup_nil, by simp, rfl⟩
  · rename_i real node hstat
    obtain ⟨_, -, -, hnode⟩ := leads_of_walk hsound hstat
    have hnames := SourceFiles.below_names
      ⟨globs, skipDirs, fun names => t.isDir (.absolute names)⟩
      (Node.isSound_at? hsound hnode).2 real
    exact ⟨_, hnames.1, hnames.2, rfl⟩

variable {t : FileTree} {root : Path} {globs skipDirs : List String}

theorem spelled_sourceFile (hsound : t.Sound) (hroot : root.Spelled) {p : Path}
    (h : p ∈ t.sourceFiles root globs skipDirs) : p.Spelled := by
  obtain ⟨below, -, hnames, heq⟩ := exists_sourceFiles hsound root globs skipDirs
  rw [heq] at h
  obtain ⟨names, hmem, rfl⟩ := List.mem_map.mp h
  refine ⟨hroot.root, fun name hname => ?_⟩
  rcases List.mem_append.mp hname with hname | hname
  · exact hroot.parts name hname
  · obtain ⟨hne, hdot, -, hslash, -⟩ := isName_iff.mp ((hnames names hmem).2 name hname)
    exact ⟨hne, hdot, hslash⟩

/-- The strings of source files are different. -/
theorem nodup_sourceFiles (hsound : t.Sound) (hroot : root.Spelled) :
    ((t.sourceFiles root globs skipDirs).map Path.toString).Nodup := by
  refine List.Nodup.map_on ?_ ?_
  · intro p hp q hq heq
    rw [← Path.ofString_toString (spelled_sourceFile hsound hroot hp), heq,
      Path.ofString_toString (spelled_sourceFile hsound hroot hq)]
  · obtain ⟨below, hnodup, -, heq⟩ := exists_sourceFiles hsound root globs skipDirs
    rw [heq]
    refine hnodup.map fun a b hab => ?_
    exact List.append_cancel_left (Path.mk.inj hab).2

/-- A file that can be read has a real path. -/
theorem exists_resolve_of_readText (hsound : t.Sound) {p : Path} {text : Text}
    (h : t.readText p = .ok text) : ∃ real, t.resolve p = .ok real := by
  rw [readText, readBytes] at h
  cases hstat : t.stat p with
  | error fault => simp [hstat, Except.map] at h
  | ok found =>
    obtain ⟨there, node⟩ := found
    cases node with
    | file bytes => exact ⟨_, resolve_of_stat hsound (by simp) hstat⟩
    | dir entries => simp [hstat, Except.map] at h
    | link target => simp [hstat, Except.map] at h

end FileTree
end DefinitionSite
