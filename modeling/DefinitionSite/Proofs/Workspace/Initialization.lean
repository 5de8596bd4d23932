import DefinitionSite.Proofs.FileTree.Directories
import DefinitionSite.Proofs.Workspace.Discovery

/-! Making a workspace of a directory. The directories on the way to its configuration are there
afterwards and a configuration stands in the last of them; nothing else has changed, making it again
changes nothing, and a search from below finds it. -/
namespace DefinitionSite

namespace FileTree

variable {t t' : FileTree} {p root : Path} {real names : List String}
  {entries : List (String × Node)}

theorem isPlain_tidy {done : List String} (hdone : ∀ name ∈ done, IsPlain name)
    (names : List String) : ∀ name ∈ tidy done names, IsPlain name := by
  induction names generalizing done with
  | nil => exact hdone
  | cons name names ih =>
    rw [tidy]
    split_ifs with hskip hup
    · exact ih hdone
    · exact ih fun name hname => hdone name (List.dropLast_subset _ hname)
    · refine ih fun other hother => ?_
      rcases List.mem_append.mp hother with hother | hother
      · exact hdone other hother
      · rw [List.mem_singleton.mp hother]
        exact isPlain_of_unskipped hskip hup

/-- A real path is absolute, and its names are plain. -/
theorem exists_names_of_resolve (h : t.resolve p = .ok root) :
    ∃ names, root = .absolute names ∧ ∀ name ∈ names, IsPlain name := by
  unfold resolve at h
  simp only at h
  split at h
  · cases h
  · split at h
    · cases h
    · exact ⟨_, (Except.ok.inj h).symm, isPlain_tidy (by simp) _⟩

/-- A new file in a directory that has nothing of its name. -/
theorem grows_putFile {name : String} {bytes : List UInt8}
    (hdir : t.node? names = some (.dir entries)) (hnone : t.node? (names ++ [name]) = none) :
    Grows t (t.putAt (names ++ [name]) (.file bytes)) where
  cwd := rfl
  keeps other entry hentry := by
    rw [entryAt?_putAt hdir hnone fun _ => rfl]
    split_ifs with hplace
    · cases (hplace ▸ hentry).symm.trans (entryAt?_eq_none.mpr hnone)
    · exact hentry
  links other target hlink := by
    rw [entryAt?_putAt hdir hnone fun _ => rfl] at hlink
    split_ifs at hlink
    · cases hlink
    · exact hlink

/-- A configuration has been added to the directory at a place: every directory on the way to it is
there, and was there before or was missing; the configuration that was there is kept, and otherwise
there is a new one; and everything else is as before. -/
structure ConfigAdded (t t' : FileTree) (real : List String) : Prop where
  cwd : t'.cwd = t.cwd
  way : ∀ names, names <+: real ++ [configDirName] →
    (t.entryAt? names = none ∨ t.entryAt? names = some .dir) ∧ t'.entryAt? names = some .dir
  config : t'.entryAt? (real ++ [configDirName, configFileName]) =
    some ((t.entryAt? (real ++ [configDirName, configFileName])).getD
      (.file (Text.encode Workspace.configTemplate.toList)))
  other : ∀ names, ¬names <+: real ++ [configDirName] →
    names ≠ real ++ [configDirName, configFileName] → t'.entryAt? names = t.entryAt? names

end FileTree

namespace Workspace
open FileTree

section Init

variable {w : Workspace} {t : FileTree} {path root : Path} {real : List String}

/-- What making a workspace has come to if it ends well. -/
theorem init_ok (h : (w.init t path).result = .ok root) :
    t.resolve path = .ok root ∧ ∃ made tree,
      t.makeDirs (root.child configDirName) = (.ok (), made) ∧
      addConfig made ((root.child configDirName).child configFileName) = .ok tree ∧
      w.init t path = ⟨.ok root, ⟨some root⟩, tree⟩ := by
  unfold init at h ⊢
  split at h
  · cases h
  · rename_i real hreal
    split at h
    · cases h
    · rename_i haskable
      split_ifs at h with hfile
      split at h
      · cases h
      · rename_i made hmade
        split at h
        · cases h
        · rename_i tree htree
          obtain rfl : real = root := Except.ok.inj h
          refine ⟨hreal, made, tree, hmade, htree, ?_⟩
          simp only [hfile]
          rfl

theorem isPlain_configDir (hresolve : t.resolve path = .ok root) :
    ∀ name ∈ (root.child configDirName).parts, IsPlain name := by
  obtain ⟨names, rfl, hplain⟩ := exists_names_of_resolve hresolve
  intro name hmem
  rcases List.mem_append.mp hmem with hmem | hmem
  · exact hplain name hmem
  · rw [List.mem_singleton.mp hmem]
    exact isPlain_of_isName (by decide)

/-- Where the directory of a configuration has been made: in the place of the root, below which no
link stands. -/
theorem exists_place {made : FileTree} (hresolve : t.resolve path = .ok root)
    (hmade : t.makeDirs (root.child configDirName) = (.ok (), made))
    (hlinks : ∀ real node, t.stat root = .ok (real, node) →
      ∀ below target, t.node? (real ++ below) ≠ some (.link target)) :
    ∃ real, Made t made (real ++ [configDirName]) ∧
      (∃ entries, made.stat root = .ok (real, .dir entries)) ∧
      (∃ entries, made.stat (root.child configDirName) =
        .ok (real ++ [configDirName], .dir entries)) ∧
      ∀ below target, made.node? (real ++ below) ≠ some (.link target) := by
  obtain ⟨there, hdir⟩ := exists_madeDir (isPlain_configDir hresolve) hmade
  obtain ⟨names, rfl, -⟩ := exists_names_of_resolve hresolve
  obtain ⟨entries, hleads⟩ := hdir.leads
  obtain ⟨real, node, hroot⟩ := exists_walk_front hleads
  obtain ⟨left, -, hleft⟩ := walk_append hroot
  have hinside : made.walk left true real [configDirName] = .ok (there, .dir entries) := by
    rw [← hleft]
    exact hleads
  obtain ⟨rootEntries, hrootDir⟩ := exists_dir_of_walk hinside
  obtain rfl := Option.some.inj ((node?_of_walk hroot).symm.trans hrootDir)
  have hbelow : ∀ below target, made.node? (real ++ below) ≠ some (.link target) := by
    intro below target hlink
    have hbefore : t.node? (real ++ below) = some (.link target) :=
      entryAt?_eq_link.mp (hdir.made.grows.links _ _ (entryAt?_eq_link.mpr hlink))
    -- The root led to its place before, where no link stood, or nothing stood there at all.
    rcases hdir.made.grows.stat_before (p := .absolute names) hroot with hmiss | ⟨node, hstat⟩
    · have hparent : ((Path.absolute names).child configDirName).parent = .absolute names := by
        simp [Path.child, Path.parent]
      have hnone := hdir.freshParent (by rw [hparent, hmiss]) real _ (by rw [hparent]; exact hroot)
      cases (entryAt?_eq_none.mp (entryAt?_below_none hnone below)).symm.trans hbefore
    · exact hlinks real node hstat below target hbefore
  have hname : ∀ name ∈ [configDirName], IsPlain name := by
    simpa using isPlain_of_isName (by decide)
  obtain rfl := walk_linkless hbelow hname hinside
  exact ⟨real, hdir.made, ⟨_, hroot⟩, ⟨_, hleads⟩, hbelow⟩

/-- The place of a configuration is below its directory. -/
theorem configPlace_eq (real : List String) :
    real ++ [configDirName, configFileName] = real ++ [configDirName] ++ [configFileName] :=
  List.append_cons real configDirName [configFileName]

theorem not_configPlace_above (real : List String) :
    ¬real ++ [configDirName, configFileName] <+: real ++ [configDirName] := by
  intro h
  have hle := h.length_le
  rw [configPlace_eq, List.length_append, List.length_singleton] at hle
  omega

/-- A configuration that is there is kept. -/
theorem configAdded_kept {made : FileTree} {entry : Entry}
    (hmade : Made t made (real ++ [configDirName]))
    (hconfig : made.entryAt? (real ++ [configDirName, configFileName]) = some entry) :
    ConfigAdded t made real where
  cwd := hmade.cwd
  way names hway := ⟨hmade.free names hway, (hmade.entry names).trans (if_pos hway)⟩
  config := by
    have hbefore := hmade.entry (real ++ [configDirName, configFileName])
    rw [if_neg (not_configPlace_above real), hconfig] at hbefore
    rw [hconfig, ← hbefore, Option.getD_some]
  other names hway _ := (hmade.entry names).trans (if_neg hway)

/-- A configuration that is missing is written. -/
theorem configAdded_written {made : FileTree} {entries : List (String × Node)}
    (hmade : Made t made (real ++ [configDirName]))
    (hdir : made.node? (real ++ [configDirName]) = some (.dir entries))
    (hnone : made.node? (real ++ [configDirName] ++ [configFileName]) = none) :
    ConfigAdded t (made.putAt (real ++ [configDirName] ++ [configFileName])
      (.file (Text.encode configTemplate.toList))) real where
  cwd := hmade.cwd
  way names hway := by
    refine ⟨hmade.free names hway, ?_⟩
    rw [entryAt?_putAt hdir hnone fun _ => rfl, if_neg, hmade.entry, if_pos hway]
    rintro rfl
    exact not_configPlace_above real (configPlace_eq real ▸ hway)
  config := by
    have hbefore := hmade.entry (real ++ [configDirName, configFileName])
    rw [if_neg (not_configPlace_above real), configPlace_eq, entryAt?_eq_none.mpr hnone] at hbefore
    rw [configPlace_eq, entryAt?_putAt hdir hnone fun _ => rfl, if_pos rfl, ← hbefore,
      Option.getD_none]
    rfl
  other names hway hplace := by
    rw [entryAt?_putAt hdir hnone fun _ => rfl, if_neg (configPlace_eq real ▸ hplace), hmade.entry,
      if_neg hway]

/-- Adding the configuration to its directory. -/
theorem configAdded_of_addConfig {made tree : FileTree} {dir : Path}
    {entries : List (String × Node)} (hmade : Made t made (real ++ [configDirName]))
    (hdir : made.stat dir = .ok (real ++ [configDirName], .dir entries))
    (hlinks : ∀ below target, made.node? (real ++ below) ≠ some (.link target))
    (h : addConfig made (dir.child configFileName) = .ok tree) :
    ConfigAdded t tree real ∧ Grows made tree ∧ tree.exists? (dir.child configFileName) = true := by
  have hplain : IsPlain configFileName := isPlain_of_isName (by decide)
  have hshort : isTooLong configFileName = false := by decide
  have hnode := node?_of_walk hdir
  have hplace : ∀ target,
      made.node? (real ++ [configDirName] ++ [configFileName]) ≠ some (.link target) := by
    rw [← configPlace_eq]
    exact hlinks [configDirName, configFileName]
  have hthere := exists?_child_iff hdir hplain hshort hplace
  unfold addConfig at h
  split_ifs at h with hexists
  · obtain rfl := Except.ok.inj h
    obtain ⟨config, hconfig⟩ := Option.ne_none_iff_exists'.mp (hthere.mp hexists)
    rw [← configPlace_eq] at hconfig
    exact ⟨configAdded_kept hmade (entryAt?_of_node? hconfig), .refl made, hexists⟩
  · have hnone : made.node? (real ++ [configDirName] ++ [configFileName]) = none :=
      not_not.mp (mt hthere.mpr hexists)
    rw [writeText, writeBytes_new hdir hplain hshort hnone] at h
    obtain rfl := Except.ok.inj h
    have hgrows : Grows made (made.putAt (real ++ [configDirName] ++ [configFileName])
        (.file (Text.encode configTemplate.toList))) := grows_putFile hnode hnone
    refine ⟨configAdded_written hmade hnode hnone, hgrows, ?_⟩
    obtain ⟨_, hnow⟩ := hgrows.stat_dir hdir
    have hfile : (made.putAt (real ++ [configDirName] ++ [configFileName])
        (.file (Text.encode configTemplate.toList))).entryAt?
          (real ++ [configDirName] ++ [configFileName]) = some (.file _) :=
      (entryAt?_putAt hnode hnone (fun _ => rfl) _).trans (if_pos rfl)
    refine (exists?_child_iff hnow hplain hshort fun target hlink => ?_).mpr fun hmissing => ?_
    · cases hfile.symm.trans (entryAt?_eq_link.mpr hlink)
    · cases hfile.symm.trans (entryAt?_eq_none.mpr hmissing)

/-- A workspace is made of a directory that has nothing of the name of a configuration's. -/
theorem init_new {entries : List (String × Node)} (hresolve : t.resolve path = .ok root)
    (hroot : t.stat root = .ok (real, .dir entries))
    (hnone : t.node? (real ++ [configDirName]) = none) :
    (w.init t path).result = .ok root := by
  have hname : IsPlain configDirName ∧ isTooLong configDirName = false :=
    ⟨isPlain_of_isName (by decide), by decide⟩
  have hmake := makeDir_new hroot hname.1 hname.2 hnone
  have hmade : t.makeDirs (root.child configDirName) =
      (.ok (), t.putAt (real ++ [configDirName]) (.dir [])) := by
    rw [makeDirs, Path.child, List.length_append, List.length_singleton, makeDirsUpTo,
      ← Path.child, hmake]
  have hdir := madeDir_of_makeDir (isPlain_configDir hresolve) rfl hroot hmake
  obtain ⟨_, hleads⟩ := hdir.leads
  have hempty : (t.putAt (real ++ [configDirName]) (.dir [])).node?
      (real ++ [configDirName] ++ [configFileName]) = none := by
    refine entryAt?_eq_none.mp ?_
    rw [hdir.made.entry, if_neg (configPlace_eq real ▸ not_configPlace_above real)]
    exact entryAt?_below_none (entryAt?_eq_none.mpr hnone) [configFileName]
  have hfile : IsPlain configFileName ∧ isTooLong configFileName = false :=
    ⟨isPlain_of_isName (by decide), by decide⟩
  have hconfig : (t.putAt (real ++ [configDirName]) (.dir [])).exists?
      ((root.child configDirName).child configFileName) = false := by
    simp [exists?, stat_child_none hleads hfile.1 hfile.2 hempty, Except.toOption]
  have haskable : t.unaskable? root = none := by simp [unaskable?, hroot]
  have hisDir : t.isDir root = true := isDir_iff.mpr ⟨_, _, hroot⟩
  rw [init, hresolve]
  simp only [haskable, hisDir, Bool.not_true, Bool.and_false, Bool.false_eq_true, ↓reduceIte, hmade,
    addConfig, hconfig, writeText, writeBytes_new hleads hfile.1 hfile.2 hempty]

/-- Making a workspace where one has been made changes nothing. -/
theorem init_again (hresolve : t.resolve path = .ok root) (hroot : t.isDir root = true)
    (hdir : t.isDir (root.child configDirName) = true)
    (hconfig : t.exists? ((root.child configDirName).child configFileName) = true) :
    w.init t path = ⟨.ok root, ⟨some root⟩, t⟩ := by
  obtain ⟨there, entries, hstat⟩ := isDir_iff.mp hroot
  have haskable : t.unaskable? root = none := by simp [unaskable?, hstat]
  have hmade : t.makeDirs (root.child configDirName) = (.ok (), t) := makeDirsUpTo_of_isDir hdir _
  rw [init, hresolve]
  simp only [haskable, hroot, Bool.not_true, Bool.and_false, Bool.false_eq_true, ↓reduceIte, hmade,
    addConfig, hconfig]

/-- The directories on the way from a root to one below it, where no link stands. -/
theorem stat_below {names mid rest there : List String} {entries inside : List (String × Node)}
    (hroot : t.stat (.absolute names) = .ok (real, .dir entries))
    (hlinks : ∀ below target, t.node? (real ++ below) ≠ some (.link target))
    (hplain : ∀ name ∈ mid, IsPlain name)
    (hstat : t.stat (.absolute (names ++ mid ++ rest)) = .ok (there, .dir inside)) :
    ∃ entries, t.stat (.absolute (names ++ mid)) = .ok (real ++ mid, .dir entries) := by
  obtain ⟨place, node, hfront⟩ := exists_walk_front hstat
  have hdir : ∃ entries, t.node? place = some (.dir entries) := by
    cases rest with
    | nil =>
      rw [List.append_nil] at hstat
      obtain ⟨rfl, rfl⟩ := Prod.mk.inj (Except.ok.inj (hfront.symm.trans hstat))
      exact ⟨inside, node?_of_walk hstat⟩
    | cons name rest =>
      obtain ⟨left, -, hleft⟩ := walk_append hfront
      exact exists_dir_of_walk ((hleft true name rest).symm.trans hstat)
  obtain ⟨inner, hinner⟩ := hdir
  obtain rfl := Option.some.inj ((node?_of_walk hfront).symm.trans hinner)
  have hplace : place = real ++ mid := by
    cases mid with
    | nil =>
      rw [List.append_nil] at hfront ⊢
      exact (Prod.mk.inj (Except.ok.inj (hfront.symm.trans hroot))).1
    | cons name mid =>
      obtain ⟨left, -, hleft⟩ := walk_append hroot
      exact walk_linkless hlinks hplain ((hleft true name mid).symm.trans hfront)
  exact ⟨inner, hplace ▸ hfront⟩

/-- A search from a directory below the root finds it, unless there is a project in between. -/
theorem discover_below {names below : List String} {d : Path} {entries : List (String × Node)}
    {found : List String × Node} (hroot : t.stat (.absolute names) = .ok (real, .dir entries))
    (hconfig : t.stat ((Path.absolute names).child configDirName) = .ok found)
    (hlinks : ∀ below target, t.node? (real ++ below) ≠ some (.link target))
    (hresolve : t.resolve d = .ok (.absolute (names ++ below)))
    (hdir : t.isDir (.absolute (names ++ below)) = true)
    (hbetween : ∀ mid, mid <+: below → mid ≠ [] →
      t.isProjectRoot (.absolute (names ++ mid)) ≠ .ok true) :
    discover t d = .ok ⟨some (.absolute names)⟩ := by
  obtain ⟨there, inside, hstat⟩ := isDir_iff.mp hdir
  have haskable : t.unaskable? (.absolute (names ++ below)) = none := by simp [unaskable?, hstat]
  have hfile : t.isFile (.absolute (names ++ below)) = false := by
    simp [isFile, hstat, Except.toOption]
  obtain ⟨passed, above, hsplit, hpassed⟩ :=
    exists_selfAndAbove_split (List.prefix_append names below)
  -- No directory below the root is a project, so the search comes to it.
  have hnone : t.firstProjectRoot passed = .ok none := by
    refine firstProjectRoot_eq_none.mpr fun p hp => ?_
    obtain ⟨upwards, hup, hlt, rfl⟩ := (hpassed p).mp hp
    obtain ⟨mid, rfl⟩ := List.prefix_of_prefix_length_le (List.prefix_append names below) hup
      (Nat.le_of_lt hlt)
    obtain ⟨rest, rfl⟩ := (List.prefix_append_right_inj names).mp hup
    have hplain : ∀ name ∈ mid, IsPlain name := by
      obtain ⟨_, heq, hall⟩ := exists_names_of_resolve hresolve
      obtain rfl := (Path.mk.inj heq).2
      exact fun name hname => hall name (by simp [hname])
    rw [← List.append_assoc] at hstat
    obtain ⟨_, hmid⟩ := stat_below hroot hlinks hplain hstat
    have hnot := hbetween mid ⟨rest, rfl⟩ (by rintro rfl; simp at hlt)
    obtain ⟨found, hproject⟩ := exists_isProjectRoot hmid fun marker target => by
      rw [List.append_assoc]
      exact hlinks (mid ++ [marker]) target
    cases found with
    | true => exact absurd hproject hnot
    | false => exact hproject
  simp only [discover, hresolve, haskable, hfile, Bool.false_eq_true, ↓reduceIte, hsplit,
    firstProjectRoot_append, hnone, firstProjectRoot, isProjectRoot_of_configDir hconfig]

/-- A workspace is not made of a file. -/
theorem init_file {node : Node} (hresolve : t.resolve path = .ok root)
    (hroot : t.stat root = .ok (real, node)) (hdir : node.isDir = false) :
    w.init t path = ⟨.error (.notDirectory root), w, t⟩ := by
  have haskable : t.unaskable? root = none := by simp [unaskable?, hroot]
  have hfile : (t.exists? root && !t.isDir root) = true := by
    simp [exists?, isDir, hroot, Except.toOption, hdir]
  rw [init, hresolve]
  simp only [haskable, hfile, ↓reduceIte]

theorem init_notDirectory {p : Path} (h : (w.init t path).result = .error (.notDirectory p)) :
    w.init t path = ⟨.error (.notDirectory p), w, t⟩ := by
  unfold init at h ⊢
  split at h
  · cases h
  · split at h
    · cases h
    · split_ifs at h with hfile
      · obtain rfl : _ = p := by simpa using h
        simp only [hfile, ↓reduceIte]
      · split at h
        · cases h
        · split at h <;> cases h

end Init

/-- A workspace that is made of a path, below whose place no link stands, has the path's real path
as its root. Directories on the way to the configuration are made where they are missing, and the
configuration where there is none, and nothing else changes. Making the workspace again changes
nothing, and a search from the root or a directory below it, without a project in between, finds the
root and that configuration. A workspace that is made of a file changes nothing. -/
theorem init_then_discover (w : Workspace) (t : FileTree) (path : Path) :
    (∀ root, (w.init t path).result = .ok root →
      (∀ real node, t.stat root = .ok (real, node) →
        ∀ below target, t.node? (real ++ below) ≠ some (.link target)) →
      t.resolve path = .ok root ∧ (w.init t path).workspace = ⟨some root⟩ ∧
      ∃ tree real, (w.init t path).tree = tree ∧ ConfigAdded t tree real ∧
        (∃ entries, tree.stat root = .ok (real, .dir entries)) ∧
        (∀ w' : Workspace, w'.init tree path = ⟨.ok root, ⟨some root⟩, tree⟩) ∧
        tree.resolve path = .ok root ∧
        ∀ d below, tree.resolve d = .ok (.absolute (root.parts ++ below)) →
          tree.isDir (.absolute (root.parts ++ below)) = true →
          (∀ mid, mid <+: below → mid ≠ [] →
            tree.isProjectRoot (.absolute (root.parts ++ mid)) ≠ .ok true) →
          ∃ found, discover tree d = .ok found ∧ found.root = some root ∧
            found.configFile = some ((root.child configDirName).child configFileName) ∧
            tree.exists? ((root.child configDirName).child configFileName) = true) ∧
    (∀ p, (w.init t path).result = .error (.notDirectory p) →
      (w.init t path).workspace = w ∧ (w.init t path).tree = t) ∧
    ∀ root real bytes, t.resolve path = .ok root → t.stat root = .ok (real, .file bytes) →
      w.init t path = ⟨.error (.notDirectory root), w, t⟩ := by
  refine ⟨fun root hok hlinks => ?_, fun p hfault => ?_, fun root real bytes hresolve hfile => ?_⟩
  · obtain ⟨hresolve, made, tree, hmade, htree, hinit⟩ := init_ok hok
    obtain ⟨real, hway, ⟨_, hroot⟩, ⟨_, hdir⟩, hlinkless⟩ := exists_place hresolve hmade hlinks
    obtain ⟨hadded, hgrows, hconfig⟩ := configAdded_of_addConfig hway hdir hlinkless htree
    obtain ⟨entries, hrootNow⟩ := hgrows.stat_dir hroot
    obtain ⟨_, hdirNow⟩ := hgrows.stat_dir hdir
    have hlinklessNow : ∀ below target, tree.node? (real ++ below) ≠ some (.link target) :=
      fun below target hlink => hlinkless below target
        (entryAt?_eq_link.mp (hgrows.links _ target (entryAt?_eq_link.mpr hlink)))
    have hresolveNow : tree.resolve path = .ok root :=
      (hway.grows.trans hgrows).resolve hresolve (by simp [hrootNow])
    refine ⟨hresolve, by rw [hinit], tree, real, by rw [hinit], hadded, ⟨entries, hrootNow⟩, ?_,
      hresolveNow, ?_⟩
    · intro w'
      exact init_again hresolveNow (isDir_iff.mpr ⟨_, _, hrootNow⟩) (isDir_iff.mpr ⟨_, _, hdirNow⟩)
        hconfig
    · intro d below hd hisDir hbetween
      obtain ⟨names, rfl, -⟩ := exists_names_of_resolve hresolve
      exact ⟨⟨some (.absolute names)⟩,
        discover_below hrootNow hdirNow hlinklessNow hd hisDir hbetween, rfl, rfl, hconfig⟩
  · rw [init_notDirectory hfault]
    exact ⟨rfl, rfl⟩
  · exact init_file hresolve hfile rfl

section Work

/-- A directory with sources and no project. -/
def workTree : FileTree where
  top := .dir [("work", .dir [("src", .dir [])])]
  cwd := []

/-- That directory. -/
def workPath : Path := .absolute ["work"]

theorem stat_workPath : workTree.stat workPath = .ok (["work"], .dir [("src", .dir [])]) := by
  have hshort : isTooLong "work" = false := by decide
  simp [stat, start, workTree, workPath, Path.absolute, Path.isAbsolute, walk, node?, Node.at?,
    Node.child?, hshort]

theorem resolve_workPath : workTree.resolve workPath = .ok workPath := by
  have hsound : workTree.Sound := by
    show workTree.top.isSound = true
    decide
  exact resolve_of_stat hsound (by simp) stat_workPath

theorem linkless_workTree (names : List String) (target : String) :
    workTree.node? names ≠ some (.link target) := by
  intro h
  rcases names with _ | ⟨first, _ | ⟨second, rest⟩⟩
  · simp [node?, workTree, Node.at?] at h
  · by_cases hfirst : first = "work"
    · simp [node?, workTree, Node.at?, Node.child?, hfirst] at h
    · simp [node?, workTree, Node.at?, Node.child?, Ne.symm hfirst] at h
  · by_cases hfirst : first = "work"
    · by_cases hsecond : second = "src"
      · cases rest <;> simp [node?, workTree, Node.at?, Node.child?, hfirst, hsecond] at h
      · simp [node?, workTree, Node.at?, Node.child?, hfirst, Ne.symm hsecond] at h
    · simp [node?, workTree, Node.at?, Node.child?, Ne.symm hfirst] at h

/-- A workspace is made of the directory with sources, which a search from it then finds. -/
theorem init_then_discover_work :
    (Workspace.init ⟨none⟩ workTree workPath).result = .ok workPath ∧
    (∀ real node, workTree.stat workPath = .ok (real, node) →
      ∀ below target, workTree.node? (real ++ below) ≠ some (.link target)) ∧
    ∃ tree real found, (Workspace.init ⟨none⟩ workTree workPath).tree = tree ∧
      ConfigAdded workTree tree real ∧ discover tree workPath = .ok found ∧
      found.root = some workPath := by
  have hresult : (Workspace.init ⟨none⟩ workTree workPath).result = .ok workPath :=
    init_new resolve_workPath stat_workPath rfl
  have hlinks : ∀ real node, workTree.stat workPath = .ok (real, node) →
      ∀ below target, workTree.node? (real ++ below) ≠ some (.link target) :=
    fun real _ _ below => linkless_workTree (real ++ below)
  refine ⟨hresult, hlinks, ?_⟩
  obtain ⟨-, -, tree, real, htree, hadded, ⟨entries, hroot⟩, -, hresolve, hdiscover⟩ :=
    (init_then_discover ⟨none⟩ workTree workPath).1 workPath hresult hlinks
  obtain ⟨found, hfound, hfoundRoot, -⟩ := hdiscover workPath [] hresolve
    (isDir_iff.mpr ⟨real, entries, hroot⟩) fun mid hmid hne => absurd (List.prefix_nil.mp hmid) hne
  exact ⟨tree, real, found, htree, hadded, hfound, hfoundRoot⟩

end Work

end Workspace
end DefinitionSite
