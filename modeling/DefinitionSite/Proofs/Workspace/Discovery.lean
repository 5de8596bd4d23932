import Mathlib.Data.List.Induction
import DefinitionSite.Glob
import DefinitionSite.Proofs.FileTree.Resolution
import DefinitionSite.Proofs.FileTree.Walking
import DefinitionSite.Workspace

/-! The root of a project is the nearest directory upwards that holds a marker. What marks a project
is said by the entries of a directory; the search stops early only at a marker that it cannot even
ask about, which is a link with a target that is too long. -/
namespace DefinitionSite

namespace Glob

theorem covered_chars (text name : Text) : covered (text.map .char) name = true ↔ text = name := by
  induction text generalizing name with
  | nil => cases name <;> simp [covered]
  | cons c text ih =>
    cases name with
    | nil => simp [covered]
    | cons d name =>
      simp only [List.map_cons, covered, Bool.and_eq_true, beq_iff_eq, ih, List.cons.injEq]
      exact and_congr_left' eq_comm

theorem mem_suffixes {part text : Text} : part ∈ suffixes text ↔ part <:+ text := by
  induction text with
  | nil => simp [suffixes]
  | cons c text ih => simp [suffixes, ih, List.suffix_cons_iff]

/-- A star and plain characters match the names that end in these. -/
theorem covered_anyRun (text name : Text) :
    covered (.anyRun :: text.map .char) name = true ↔ text <:+ name := by
  simp [covered, covered_chars, mem_suffixes]

end Glob

theorem globMatches_cabal (name : String) :
    globMatches "*.cabal" name = true ↔ ".cabal".toList <:+ name.toList := by
  have hpieces : Glob.pieces "*.cabal".toList = .anyRun :: ".cabal".toList.map .char := by
    simp [Glob.pieces]
  rw [globMatches, hpieces, Glob.covered_anyRun]

theorem isPackageFile_iff (name : String) :
    isPackageFile name = true ↔ globMatches "*.cabal" name = true := by
  rw [globMatches_cabal, isPackageFile, String.endsWith, String.Slice.endsWith_string_iff]
  simp

namespace FileTree

/-- A directory of a kind at or above another, with none of that kind below it on the way. -/
structure Nearest (kind : List String → Prop) (dir found : List String) : Prop where
  above : found <+: dir
  holds : kind found
  nearest : ∀ below, below <+: dir → found.length < below.length → ¬kind below

theorem Nearest.unique {kind : List String → Prop} {dir found found' : List String}
    (h : Nearest kind dir found) (h' : Nearest kind dir found') : found = found' := by
  have hle : found'.length ≤ found.length :=
    Nat.not_lt.mp fun hlt => h.nearest found' h'.above hlt h'.holds
  have hge : found.length ≤ found'.length :=
    Nat.not_lt.mp fun hlt => h'.nearest found h.above hlt h.holds
  exact (List.prefix_of_prefix_length_le h.above h'.above hge).eq_of_length
    (Nat.le_antisymm hge hle)

/-- Asking which of some entries of a directory exist comes to one that cannot be asked about. -/
inductive Unaskable (t : FileTree) (dir : Path) (e : FileError) : List String → Prop where
  | here {name : String} {rest : List String} (h : t.unaskable? (dir.child name) = some e) :
      Unaskable t dir e (name :: rest)
  | later {name : String} {rest : List String} (haskable : t.unaskable? (dir.child name) = none)
      (hmissing : t.exists? (dir.child name) = false) (hrest : Unaskable t dir e rest) :
      Unaskable t dir e (name :: rest)

/-- A directory has an entry that is named like a package description, of whatever kind, or one of
the other markers of a project exists in it. -/
def HoldsProject (t : FileTree) (dir : List String) : Prop :=
  (∃ marker ∈ rootMarkers, t.exists? ((Path.absolute dir).child marker) = true) ∨
    ∃ name, t.node? (dir ++ [name]) ≠ none ∧ globMatches "*.cabal" name = true

/-- A directory is no project, and every marker can be asked about. -/
structure Passed (t : FileTree) (dir : List String) : Prop where
  noProject : ¬t.HoldsProject dir
  askable : ∀ e, ¬t.Unaskable (.absolute dir) e rootMarkers

/-- All that looking for a project from a directory upwards can come to. -/
inductive Discovery (t : FileTree) (dir : List String) : Except FileError (Option Path) → Prop where
  | found {root : List String} (habove : root <+: dir) (hholds : t.HoldsProject root)
      (haskable : ∀ e, ¬t.Unaskable (.absolute root) e rootMarkers)
      (hnearest : ∀ below, below <+: dir → root.length < below.length → t.Passed below) :
      Discovery t dir (.ok (some (.absolute root)))
  | nowhere (hnone : ∀ above, above <+: dir → t.Passed above) : Discovery t dir (.ok none)
  | undecided {stop : List String} {e : FileError} (habove : stop <+: dir)
      (h : t.Unaskable (.absolute stop) e rootMarkers)
      (hnearest : ∀ below, below <+: dir → stop.length < below.length → t.Passed below) :
      Discovery t dir (.error e)

section Markers

variable {t : FileTree} {dir : Path} {names there : List String} {name : String} {e : FileError}
  {entries : List (String × Node)} {found : Bool}

theorem holdsAny_eq_error : t.holdsAny dir names = .error e ↔ t.Unaskable dir e names := by
  induction names with
  | nil =>
    rw [holdsAny]
    constructor
    · intro h
      cases h
    · intro h
      cases h
  | cons name names ih =>
    rw [holdsAny]
    constructor
    · intro h
      split at h
      · rename_i haskable
        obtain rfl := Except.error.inj h
        exact .here haskable
      · rename_i haskable
        split_ifs at h with hexists
        exact .later haskable (by simpa using hexists) (ih.mp h)
    · rintro (hunaskable | ⟨haskable, hmissing, hrest⟩)
      · rw [hunaskable]
      · rw [haskable, hmissing]
        exact ih.mpr hrest

theorem holdsAny_ok (h : t.holdsAny dir names = .ok found) :
    found = true ↔ ∃ name ∈ names, t.exists? (dir.child name) = true := by
  induction names with
  | nil =>
    obtain rfl : false = found := by simpa [holdsAny] using h
    simp
  | cons name names ih =>
    rw [holdsAny] at h
    split at h
    · cases h
    · split_ifs at h with hexists
      · obtain rfl := Except.ok.inj h
        simp [hexists]
      · simp [ih h, hexists]

theorem isProjectRoot_eq_error :
    t.isProjectRoot dir = .error e ↔ t.Unaskable dir e rootMarkers := by
  rw [← holdsAny_eq_error, isProjectRoot]
  cases t.holdsAny dir rootMarkers <;> simp

/-- A directory with one for a configuration is a project. -/
theorem isProjectRoot_of_configDir {found : List String × Node}
    (h : t.stat (dir.child configDirName) = .ok found) : t.isProjectRoot dir = .ok true := by
  simp [isProjectRoot, rootMarkers, holdsAny, unaskable?, exists?, h, Except.toOption]

/-- An entry of a directory is named like a package description. -/
theorem holdsPackage_iff (hdir : t.stat dir = .ok (there, .dir entries)) :
    t.holdsPackage dir = true ↔
      ∃ name, t.node? (there ++ [name]) ≠ none ∧ globMatches "*.cabal" name = true := by
  have hentry : ∀ name, t.node? (there ++ [name]) ≠ none ↔ ∃ node, (name, node) ∈ entries := by
    intro name
    rw [← node?_child (node?_of_walk hdir), Node.child?, Ne, Option.map_eq_none_iff,
      List.find?_eq_none]
    simp
  simp only [holdsPackage, hdir, Except.toOption, Option.any_some, List.any_eq_true, hentry,
    ← isPackageFile_iff]
  constructor
  · rintro ⟨e, hmem, hpackage⟩
    exact ⟨e.1, ⟨e.2, hmem⟩, hpackage⟩
  · rintro ⟨name, ⟨node, hmem⟩, hpackage⟩
    exact ⟨_, hmem, hpackage⟩

theorem isProjectRoot_ok (hdir : t.stat (.absolute names) = .ok (names, .dir entries))
    (h : t.isProjectRoot (.absolute names) = .ok found) :
    (found = true ↔ t.HoldsProject names) ∧ ∀ e, ¬t.Unaskable (.absolute names) e rootMarkers := by
  constructor
  · unfold isProjectRoot at h
    split at h
    · cases h
    · rename_i marked hmarked
      obtain rfl := Except.ok.inj h
      rw [Bool.or_eq_true, holdsAny_ok hmarked, holdsPackage_iff hdir, HoldsProject]
  · intro e hunaskable
    cases (isProjectRoot_eq_error.mpr hunaskable).symm.trans h

theorem isPlain_rootMarkers :
    ∀ marker ∈ rootMarkers, IsPlain marker ∧ isTooLong marker = false := by
  have hplain : ∀ marker ∈ rootMarkers, isName marker = true ∧ isTooLong marker = false := by
    decide
  exact fun marker hmem => ⟨isPlain_of_isName (hplain marker hmem).1, (hplain marker hmem).2⟩

/-- Only a link keeps one of the markers of a directory from being asked about. -/
theorem Unaskable.exists_link {markers : List String} (h : t.Unaskable dir e markers)
    (hdir : t.stat dir = .ok (there, .dir entries))
    (hmarkers : ∀ marker ∈ markers, IsPlain marker ∧ isTooLong marker = false) :
    ∃ marker ∈ markers, ∃ target, t.node? (there ++ [marker]) = some (.link target) ∧
      t.stat (dir.child marker) = .error .nameTooLong ∧
      e = ⟨.nameTooLong, (dir.child marker).toString⟩ := by
  induction h with
  | @here marker rest h =>
    obtain ⟨hplain, hshort⟩ := hmarkers marker (by simp)
    refine ⟨marker, by simp, ?_⟩
    unfold unaskable? at h
    split at h
    · rename_i hstat
      cases hnode : t.node? (there ++ [marker]) with
      | none => cases (stat_child_none hdir hplain hshort hnode).symm.trans hstat
      | some node =>
        cases node with
        | link target => exact ⟨target, rfl, hstat, (Option.some.inj h).symm⟩
        | dir entries => cases (stat_child hdir hplain hshort hnode (by simp)).symm.trans hstat
        | file bytes => cases (stat_child hdir hplain hshort hnode (by simp)).symm.trans hstat
    · cases h
  | later _ _ _ ih =>
    obtain ⟨marker, hmem, hlink⟩ := ih (fun marker hmem => hmarkers marker (by simp [hmem]))
    exact ⟨marker, by simp [hmem], hlink⟩

/-- Where no link stands it can be told whether a directory is a project. -/
theorem exists_isProjectRoot (hdir : t.stat dir = .ok (there, .dir entries))
    (hlinks : ∀ marker target, t.node? (there ++ [marker]) ≠ some (.link target)) :
    ∃ found, t.isProjectRoot dir = .ok found := by
  cases hproject : t.isProjectRoot dir with
  | ok found => exact ⟨found, rfl⟩
  | error e =>
    obtain ⟨marker, -, target, hlink, -⟩ :=
      (isProjectRoot_eq_error.mp hproject).exists_link hdir isPlain_rootMarkers
    exact absurd hlink (hlinks marker target)

end Markers

theorem selfAndAbove_nil : (Path.absolute []).selfAndAbove = [.absolute []] := rfl

theorem selfAndAbove_concat (names : List String) (name : String) :
    (Path.absolute (names ++ [name])).selfAndAbove =
      .absolute (names ++ [name]) :: (Path.absolute names).selfAndAbove := by
  unfold Path.selfAndAbove
  simp only [Path.absolute, List.length_append, List.length_singleton]
  rw [List.range_succ_eq_map, List.map_cons, List.map_map]
  congr 1
  · simp [List.take_of_length_le]
  · refine List.map_congr_left fun n hn => ?_
    simp [List.take_append]

section Upwards

variable {t : FileTree} {home dir : List String}

theorem firstProjectRoot_append (t : FileTree) (dirs rest : List Path) :
    t.firstProjectRoot (dirs ++ rest) =
      match t.firstProjectRoot dirs with
      | .ok none => t.firstProjectRoot rest
      | result => result := by
  induction dirs with
  | nil => rfl
  | cons dir dirs ih =>
    rw [List.cons_append, firstProjectRoot, firstProjectRoot]
    split
    · rfl
    · rfl
    · exact ih

theorem firstProjectRoot_eq_none {dirs : List Path} : t.firstProjectRoot dirs = .ok none ↔
    ∀ dir ∈ dirs, t.isProjectRoot dir = .ok false := by
  induction dirs with
  | nil => simp [firstProjectRoot]
  | cons dir dirs ih =>
    rw [firstProjectRoot, List.forall_mem_cons, ← ih]
    cases hdir : t.isProjectRoot dir with
    | error e => simp
    | ok found => cases found <;> simp

theorem mem_selfAndAbove {p : Path} : p ∈ (Path.absolute dir).selfAndAbove ↔
    ∃ names, names <+: dir ∧ p = .absolute names := by
  induction dir using List.reverseRecOn with
  | nil => simp [selfAndAbove_nil]
  | append_singleton dir name ih =>
    simp only [selfAndAbove_concat, List.mem_cons, ih, List.prefix_concat_iff, or_and_right,
      exists_or, exists_eq_left]

/-- The directories upwards from one are those below a given one of them, that one, and others. -/
theorem exists_selfAndAbove_split (h : home <+: dir) : ∃ below above,
    (Path.absolute dir).selfAndAbove = below ++ .absolute home :: above ∧ ∀ p, p ∈ below ↔
      ∃ names, names <+: dir ∧ home.length < names.length ∧ p = .absolute names := by
  induction dir using List.reverseRecOn with
  | nil =>
    rw [List.prefix_nil.mp h]
    exact ⟨[], [], rfl, by simp⟩
  | append_singleton dir name ih =>
    rw [selfAndAbove_concat]
    rcases List.prefix_concat_iff.mp h with rfl | hdir
    · refine ⟨[], _, rfl, fun p => ⟨by simp, ?_⟩⟩
      rintro ⟨names, hnames, hlt, -⟩
      exact absurd hnames.length_le (by omega)
    · obtain ⟨below, above, heq, hbelow⟩ := ih hdir
      refine ⟨.absolute (dir ++ [name]) :: below, above, by rw [heq]; rfl, fun p => ?_⟩
      have hlonger : home.length < (dir ++ [name]).length := by
        have hlength := hdir.length_le
        simp
        omega
      simp only [List.mem_cons, hbelow, List.prefix_concat_iff, or_and_right, exists_or,
        exists_eq_left, hlonger, true_and]

end Upwards

/-- The current directory is one, and its names lead to it. -/
def Entered (t : FileTree) : Prop := ∃ entries, t.stat t.here = .ok (t.cwd, .dir entries)

section Search

variable {t : FileTree} {dir there : List String} {node : Node} {start : Path}

/-- A directory at which the search ends. -/
theorem discovery_here (hdir : ∃ entries, t.stat (.absolute dir) = .ok (dir, .dir entries))
    (h : t.isProjectRoot (.absolute dir) ≠ .ok false) (rest : List Path) :
    Discovery t dir (t.firstProjectRoot (.absolute dir :: rest)) := by
  have hlast : ∀ below, below <+: dir → dir.length < below.length → t.Passed below :=
    fun below hbelow hlt => absurd hbelow.length_le (by omega)
  obtain ⟨entries, hdir⟩ := hdir
  rw [firstProjectRoot]
  split
  · rename_i hroot
    exact .undecided (List.prefix_refl dir) (isProjectRoot_eq_error.mp hroot) hlast
  · rename_i hroot
    obtain ⟨hholds, haskable⟩ := isProjectRoot_ok hdir hroot
    exact .found (List.prefix_refl dir) (hholds.mp rfl) haskable hlast
  · rename_i hroot
    exact absurd hroot h

theorem passed_of_isProjectRoot (hdir : ∃ entries, t.stat (.absolute dir) = .ok (dir, .dir entries))
    (h : t.isProjectRoot (.absolute dir) = .ok false) : t.Passed dir := by
  obtain ⟨entries, hdir⟩ := hdir
  obtain ⟨hholds, haskable⟩ := isProjectRoot_ok hdir h
  exact ⟨fun hproject => Bool.false_ne_true (hholds.mpr hproject), haskable⟩

/-- Passing a directory by leaves the search to those above it. -/
theorem Discovery.below {name : String} {result : Except FileError (Option Path)}
    (h : Discovery t dir result) (hpassed : t.Passed (dir ++ [name])) :
    Discovery t (dir ++ [name]) result := by
  have hupwards : ∀ {top : List String}, (∀ below, below <+: dir → top.length < below.length →
      t.Passed below) → ∀ below, below <+: dir ++ [name] → top.length < below.length →
      t.Passed below := by
    intro top hnearest below hbelow hlt
    rcases List.prefix_concat_iff.mp hbelow with rfl | hbelow
    · exact hpassed
    · exact hnearest below hbelow hlt
  have hextend : ∀ {above : List String}, above <+: dir → above <+: dir ++ [name] :=
    fun h => h.trans (List.prefix_append dir [name])
  cases h with
  | found habove hholds haskable hnearest =>
    exact .found (hextend habove) hholds haskable (hupwards hnearest)
  | nowhere hnone =>
    refine .nowhere fun above habove => ?_
    rcases List.prefix_concat_iff.mp habove with rfl | habove
    · exact hpassed
    · exact hnone above habove
  | undecided habove hstop hnearest =>
    exact .undecided (hextend habove) hstop (hupwards hnearest)

/-- Looking for a project upwards from a directory. -/
theorem discovery (hdirs : ∀ above, above <+: dir →
      ∃ entries, t.stat (.absolute above) = .ok (above, .dir entries)) :
    Discovery t dir (t.firstProjectRoot (Path.absolute dir).selfAndAbove) := by
  induction dir using List.reverseRecOn with
  | nil =>
    have hroot := hdirs [] (List.prefix_refl [])
    rw [selfAndAbove_nil]
    by_cases hpass : t.isProjectRoot (.absolute []) = .ok false
    · rw [firstProjectRoot, hpass]
      refine .nowhere fun above habove => ?_
      rw [List.prefix_nil.mp habove]
      exact passed_of_isProjectRoot hroot hpass
    · exact discovery_here hroot hpass []
  | append_singleton dir name ih =>
    have hdir := hdirs (dir ++ [name]) (List.prefix_refl _)
    rw [selfAndAbove_concat]
    by_cases hpass : t.isProjectRoot (.absolute (dir ++ [name])) = .ok false
    · rw [firstProjectRoot, hpass]
      have habove := ih fun above habove =>
        hdirs above (habove.trans (List.prefix_append dir [name]))
      exact habove.below (passed_of_isProjectRoot hdir hpass)
    · exact discovery_here hdir hpass _

/-- A marker that cannot be asked about is the first such. -/
theorem Unaskable.unique {markers : List String} {p : Path} {e e' : FileError}
    (h : t.Unaskable p e markers) (h' : t.Unaskable p e' markers) : e = e' := by
  induction h with
  | here h =>
    cases h' with
    | here h' => exact Option.some.inj (h.symm.trans h')
    | later haskable => cases h.symm.trans haskable
  | later haskable _ _ ih =>
    cases h' with
    | here h' => cases h'.symm.trans haskable
    | later _ _ hrest => exact ih hrest

/-- The search ends at a directory with one for a configuration, if it comes to it. -/
theorem discovery_configDir {root : List String} {entries : List (String × Node)}
    {found : List String × Node} (habove : root <+: dir)
    (hroot : t.stat (.absolute root) = .ok (root, .dir entries))
    (hconfig : t.stat ((Path.absolute root).child configDirName) = .ok found)
    (hnearest : ∀ below, below <+: dir → root.length < below.length → t.Passed below) :
    Discovery t dir (.ok (some (.absolute root))) := by
  obtain ⟨hholds, haskable⟩ := isProjectRoot_ok hroot (isProjectRoot_of_configDir hconfig)
  exact .found habove (hholds.mp rfl) haskable hnearest

/-- The search comes to one thing only. -/
theorem Discovery.unique {result result' : Except FileError (Option Path)}
    (h : Discovery t dir result) (h' : Discovery t dir result') : result = result' := by
  have hproject : ∀ {above}, t.HoldsProject above → ¬t.Passed above := fun h hpassed =>
    hpassed.noProject h
  have hstuck : ∀ {above e}, t.Unaskable (.absolute above) e rootMarkers → ¬t.Passed above :=
    fun h hpassed => hpassed.askable _ h
  have hstop : ∀ {above}, above <+: dir → ¬t.Passed above →
      (∀ below, below <+: dir → above.length < below.length → t.Passed below) →
      Nearest (¬t.Passed ·) dir above := fun habove hstop hnearest =>
    ⟨habove, hstop, fun below hbelow hlt hnot => hnot (hnearest below hbelow hlt)⟩
  cases h with
  | found habove hholds haskable hnearest =>
    have hhere := hstop habove (hproject hholds) hnearest
    cases h' with
    | found habove' hholds' _ hnearest' =>
      rw [hhere.unique (hstop habove' (hproject hholds') hnearest')]
    | nowhere hnone' => exact absurd (hnone' _ habove) (hproject hholds)
    | undecided habove' hstuck' hnearest' =>
      obtain rfl := hhere.unique (hstop habove' (hstuck hstuck') hnearest')
      exact absurd hstuck' (haskable _)
  | nowhere hnone =>
    cases h' with
    | found habove' hholds' => exact absurd (hnone _ habove') (hproject hholds')
    | nowhere => rfl
    | undecided habove' hstuck' => exact absurd (hnone _ habove') (hstuck hstuck')
  | undecided habove hstuck' hnearest =>
    have hhere := hstop habove (hstuck hstuck') hnearest
    cases h' with
    | found habove' hholds' haskable' hnearest' =>
      obtain rfl := hhere.unique (hstop habove' (hproject hholds') hnearest')
      exact absurd hstuck' (haskable' _)
    | nowhere hnone' => exact absurd (hnone' _ habove) (hstuck hstuck')
    | undecided habove' hstuck'' hnearest' =>
      obtain rfl := hhere.unique (hstop habove' (hstuck hstuck'') hnearest')
      rw [hstuck'.unique hstuck'']

end Search

section Start

variable {t : FileTree} {there : List String} {node : Node} {start : Path}

/-- The directory that a search starts from: a file counts as its directory. -/
def directoryOf (there : List String) : Node → List String
  | .file _ => there.dropLast
  | _ => there

theorem start_above_cwd (t : FileTree) (p : Path) : t.start p <+: t.cwd := by
  unfold start
  split_ifs
  · exact List.nil_prefix
  · exact List.prefix_refl _

/-- A path that leads to an entry leads there by the names of its place as well. -/
theorem stat_place (hsound : t.Sound) (hhere : t.Entered) (h : t.stat start = .ok (there, node)) :
    (∀ target, node ≠ .link target) ∧ t.stat (.absolute there) = .ok (there, node) := by
  obtain ⟨entries, hcwd⟩ := hhere
  have hshort : Short t.cwd := short_of_walk hcwd (by simp [Short, FileTree.start, FileTree.here,
    Path.isAbsolute, Path.absolute])
  have hstart : Short (t.start start) := fun name hname =>
    hshort name ((start_above_cwd t start).subset hname)
  have hlink := ne_link_of_walk h (node?_ne_link (node?_of_walk hcwd) (start_above_cwd t start))
  exact ⟨hlink, walk_place hsound (short_of_walk h hstart) (node?_of_walk h) hlink⟩

/-- A search starts from a directory. -/
theorem exists_dir_directoryOf (hhere : t.Entered) (hnode : t.node? there = some node)
    (hlink : ∀ target, node ≠ .link target) :
    ∃ entries, t.node? (directoryOf there node) = some (.dir entries) := by
  cases node with
  | dir entries => exact ⟨entries, hnode⟩
  | link target => exact absurd rfl (hlink target)
  | file bytes =>
    obtain ⟨entries, hcwd⟩ := hhere
    rcases List.eq_nil_or_concat there with rfl | ⟨front, name, rfl⟩
    · -- The root of the file system is on the way to the current directory, so it is no file.
      have htop : (t.node? []).bind (Node.at? t.cwd) = some (.dir entries) :=
        node?_of_walk hcwd
      rw [hnode] at htop
      cases hcwd : t.cwd <;> simp [hcwd, Node.at?, Node.child?] at htop
    · rw [List.concat_eq_append] at hnode
      simpa [directoryOf] using exists_dir_of_node? hnode

/-- The directories at and above the one that a search starts from. -/
theorem stat_above (hsound : t.Sound) (hhere : t.Entered) (h : t.stat start = .ok (there, node))
    {above : List String} (habove : above <+: directoryOf there node) :
    ∃ entries, t.stat (.absolute above) = .ok (above, .dir entries) := by
  obtain ⟨hlink, hplace⟩ := stat_place hsound hhere h
  obtain ⟨entries, hdir⟩ := exists_dir_directoryOf hhere (node?_of_walk h) hlink
  have hshort : Short there := short_of_walk hplace (by simp [Short, FileTree.start,
    Path.isAbsolute, Path.absolute])
  have hup : directoryOf there node <+: there := by
    cases node with
    | file bytes => exact List.dropLast_prefix there
    | dir entries => exact List.prefix_refl there
    | link target => exact List.prefix_refl there
  have hway : ∃ entries, t.node? above = some (.dir entries) := by
    obtain ⟨rest, hrest⟩ := habove
    rw [← hrest] at hdir
    cases rest with
    | nil => exact ⟨entries, by simpa using hdir⟩
    | cons name rest => exact exists_dir_of_node? hdir
  obtain ⟨entries', hway⟩ := hway
  exact ⟨entries', walk_place hsound
    (fun name hname => hshort name ((habove.trans hup).subset hname)) hway (by simp)⟩

theorem discover_eq (hsound : t.Sound) (hhere : t.Entered) (h : t.stat start = .ok (there, node)) :
    Workspace.discover t start =
      match t.firstProjectRoot (Path.absolute (directoryOf there node)).selfAndAbove with
      | .error e => .error (.file e)
      | .ok root => .ok ⟨root⟩ := by
  obtain ⟨hlink, hplace⟩ := stat_place hsound hhere h
  have haskable : t.unaskable? (.absolute there) = none := by simp [unaskable?, hplace]
  have hdir : (if t.isFile (.absolute there) then (Path.absolute there).parent
      else .absolute there) = .absolute (directoryOf there node) := by
    unfold isFile
    rw [hplace]
    cases node <;> rfl
  cases hroot : t.firstProjectRoot (Path.absolute (directoryOf there node)).selfAndAbove <;>
    simp only [Workspace.discover, resolve_of_stat hsound hlink h, haskable, hdir, hroot]

theorem discover_of_discovery (hsound : t.Sound) (hhere : t.Entered)
    (h : t.stat start = .ok (there, node)) {root : Option Path}
    (hsearch : Discovery t (directoryOf there node) (.ok root)) :
    Workspace.discover t start = .ok ⟨root⟩ := by
  have hfound := discovery fun _ => stat_above hsound hhere h
  rw [discover_eq hsound hhere h, hfound.unique hsearch]

/-- What a search that ends well has come to. -/
theorem discovery_of_discover (hsound : t.Sound) (hhere : t.Entered)
    (h : t.stat start = .ok (there, node)) {w : Workspace}
    (hw : Workspace.discover t start = .ok w) :
    Discovery t (directoryOf there node) (.ok w.root) := by
  have hsearch := discovery fun _ => stat_above hsound hhere h
  rw [discover_eq hsound hhere h] at hw
  split at hw
  · cases hw
  · rename_i root hroot
    obtain rfl := Except.ok.inj hw
    exact hroot ▸ hsearch

end Start

section Root

variable {t : FileTree} {dir : List String} {w : Workspace}

theorem Discovery.nearest (h : Discovery t dir (.ok w.root)) :
    (∀ root, w.root = some root ↔
      ∃ names, root = .absolute names ∧ Nearest t.HoldsProject dir names) ∧
    (w.root = none ↔ ∀ above, above <+: dir → ¬t.HoldsProject above) := by
  obtain ⟨root⟩ := w
  cases h with
  | found habove hholds haskable hnearest =>
    have hfound : Nearest t.HoldsProject dir _ :=
      ⟨habove, hholds, fun below hbelow hlt => (hnearest below hbelow hlt).noProject⟩
    refine ⟨fun root => ⟨?_, ?_⟩, by simp, fun hnone => absurd hholds (hnone _ habove)⟩
    · rintro ⟨rfl⟩
      exact ⟨_, rfl, hfound⟩
    · rintro ⟨names, rfl, hnearest⟩
      rw [hfound.unique hnearest]
  | nowhere hnone =>
    refine ⟨fun root => ⟨by simp, ?_⟩, fun _ above habove => (hnone above habove).noProject,
      by simp⟩
    rintro ⟨names, -, hnearest⟩
    exact absurd hnearest.holds (hnone names hnearest.above).noProject

end Root

/-- The root of the workspace around an entry is the nearest directory upwards that holds a project,
where an entry of any kind that is named like a package description counts, and there is none, and
no directory for a configuration, just if no directory upwards holds one. The search fails just
where it comes to a marker that cannot be asked about, which only a link keeps it from. -/
theorem discover_nearest {t : FileTree} {start : Path} {there : List String} {node : Node}
    (hsound : t.Sound) (hhere : t.Entered) (hstart : t.stat start = .ok (there, node)) :
    (∀ w, Workspace.discover t start = .ok w →
      (∀ root, w.root = some root ↔ ∃ names, root = .absolute names ∧
        Nearest t.HoldsProject (directoryOf there node) names) ∧
      (w.root = none ↔ ∀ above, above <+: directoryOf there node → ¬t.HoldsProject above) ∧
      (w.configDir = none ↔ w.root = none)) ∧
    (∀ f, Workspace.discover t start = .error f ↔ ∃ stop e, f = .file e ∧
      stop <+: directoryOf there node ∧ t.Unaskable (.absolute stop) e rootMarkers ∧
      ∀ below, below <+: directoryOf there node → stop.length < below.length → t.Passed below) ∧
    ∀ stop e, stop <+: directoryOf there node → t.Unaskable (.absolute stop) e rootMarkers →
      ∃ marker ∈ rootMarkers, ∃ target, t.node? (stop ++ [marker]) = some (.link target) ∧
        t.stat ((Path.absolute stop).child marker) = .error .nameTooLong ∧
        e = ⟨.nameTooLong, ((Path.absolute stop).child marker).toString⟩ := by
  refine ⟨fun w hw => ?_, fun f => ?_, fun stop e hstop h => ?_⟩
  · obtain ⟨hroot, hnone⟩ := (discovery_of_discover hsound hhere hstart hw).nearest
    exact ⟨hroot, hnone, by rw [Workspace.configDir, Option.map_eq_none_iff]⟩
  · have hsearch := discovery fun _ => stat_above hsound hhere hstart
    rw [discover_eq hsound hhere hstart]
    constructor
    · intro hf
      split at hf
      · rename_i e hroot
        obtain rfl := Except.error.inj hf
        rw [hroot] at hsearch
        cases hsearch with
        | undecided habove h hnearest => exact ⟨_, e, rfl, habove, h, hnearest⟩
      · cases hf
    · rintro ⟨stop, e, rfl, habove, h, hnearest⟩
      rw [hsearch.unique (.undecided habove h hnearest)]
  · obtain ⟨entries, hdir⟩ := stat_above hsound hhere hstart hstop
    exact h.exists_link hdir isPlain_rootMarkers

section Unmarked

variable {t : FileTree} {dir : List String} {entries : List (String × Node)} {marker : String}

/-- A marker that no entry of a directory is named like is missing in it. -/
theorem stat_marker_missing (hdir : t.stat (.absolute dir) = .ok (dir, .dir entries))
    (hentries : ∀ e ∈ entries, e.1 ∉ rootMarkers) (hmarker : marker ∈ rootMarkers) :
    t.stat ((Path.absolute dir).child marker) = .error .notFound := by
  obtain ⟨hplain, hshort⟩ := isPlain_rootMarkers marker hmarker
  refine stat_child_none hdir hplain hshort ?_
  rw [← node?_child (node?_of_walk hdir), Node.child?, Option.map_eq_none_iff, List.find?_eq_none]
  intro e hmem hname
  exact hentries e hmem (beq_iff_eq.mp hname ▸ hmarker)

theorem exists_marker_eq_false (hdir : t.stat (.absolute dir) = .ok (dir, .dir entries))
    (hentries : ∀ e ∈ entries, e.1 ∉ rootMarkers) (hmarker : marker ∈ rootMarkers) :
    t.exists? ((Path.absolute dir).child marker) = false := by
  simp [exists?, stat_marker_missing hdir hentries hmarker, Except.toOption]

theorem askable_of_unmarked (hdir : t.stat (.absolute dir) = .ok (dir, .dir entries))
    (hentries : ∀ e ∈ entries, e.1 ∉ rootMarkers) (e : FileError) :
    ¬t.Unaskable (.absolute dir) e rootMarkers := by
  intro hstuck
  obtain ⟨marker, hmem, target, -, hstat, -⟩ := hstuck.exists_link hdir isPlain_rootMarkers
  cases (stat_marker_missing hdir hentries hmem).symm.trans hstat

/-- A directory is passed by if none of its entries is named like a marker or a package
description. -/
theorem passed_of_unmarked (hdir : t.stat (.absolute dir) = .ok (dir, .dir entries))
    (hentries : ∀ e ∈ entries, e.1 ∉ rootMarkers ∧ globMatches "*.cabal" e.1 = false) :
    t.Passed dir := by
  have hmarkers := fun e hmem => (hentries e hmem).1
  refine ⟨?_, askable_of_unmarked hdir hmarkers⟩
  rintro (⟨marker, hmarker, hmarked⟩ | ⟨name, hname, hpackage⟩)
  · cases (exists_marker_eq_false hdir hmarkers hmarker).symm.trans hmarked
  · rw [← node?_child (node?_of_walk hdir), Node.child?, Ne, Option.map_eq_none_iff,
      List.find?_eq_none] at hname
    push Not at hname
    obtain ⟨e, hmem, heq⟩ := hname
    cases (hentries e hmem).2.symm.trans (beq_iff_eq.mp heq ▸ hpackage)

end Unmarked

section Notes

/-- A home directory with the directory of a package manager and one for notes, and no file. -/
def notesHome : FileTree where
  top := .dir [("home", .dir [(".cabal", .dir [("packages", .dir [])]), ("notes", .dir [])])]
  cwd := []

theorem sound_notesHome : notesHome.Sound := by
  show notesHome.top.isSound = true
  decide

theorem entered_notesHome : notesHome.Entered := by
  refine ⟨[("home", .dir [(".cabal", .dir [("packages", .dir [])]), ("notes", .dir [])])], ?_⟩
  simp [stat, FileTree.start, FileTree.here, notesHome, Path.absolute, Path.isAbsolute, walk,
    node?, Node.at?]

theorem stat_notes : notesHome.stat (.absolute ["home", "notes"]) =
    .ok (["home", "notes"], .dir []) := by
  have hshort : isTooLong "home" = false ∧ isTooLong "notes" = false := by decide
  simp [stat, FileTree.start, notesHome, Path.absolute, Path.isAbsolute, walk, node?, Node.at?,
    Node.child?, hshort]

/-- The directories upwards from the notes hold directories only, and none that is named like a
marker. -/
theorem stat_notesHome {above : List String} (h : above <+: ["home", "notes"]) :
    ∃ entries, notesHome.stat (.absolute above) = .ok (above, .dir entries) ∧
      ∀ e ∈ entries, e.1 ∉ rootMarkers ∧ ∃ below, e.2 = .dir below := by
  obtain ⟨entries, hdir⟩ := stat_above sound_notesHome entered_notesHome stat_notes h
  refine ⟨entries, hdir, ?_⟩
  have hnode := node?_of_walk hdir
  simp only [List.prefix_cons_iff, List.prefix_nil] at h
  rcases h with rfl | ⟨_, rfl, rfl | ⟨_, rfl, rfl⟩⟩
  · obtain rfl := Node.dir.inj (Option.some.inj hnode)
    simp [rootMarkers, configDirName]
  · obtain rfl := Node.dir.inj (Option.some.inj hnode)
    simp [rootMarkers, configDirName]
  · obtain rfl := Node.dir.inj (Option.some.inj hnode)
    simp

theorem discovery_notes : Discovery notesHome ["home", "notes"]
    (.ok (some (.absolute ["home"]))) := by
  have hhome : ["home"] <+: ["home", "notes"] := ⟨["notes"], rfl⟩
  obtain ⟨entries, hdir, hentries⟩ := stat_notesHome hhome
  refine .found hhome (.inr ⟨".cabal", ?_, ?_⟩)
    (askable_of_unmarked hdir fun e hmem => (hentries e hmem).1) ?_
  · simp [node?, notesHome, Node.at?, Node.child?]
  · exact (globMatches_cabal _).mpr (List.suffix_refl _)
  · intro below hbelow hlonger
    obtain rfl : below = ["home", "notes"] := hbelow.eq_of_length_le hlonger
    exact passed_of_unmarked stat_notes (by simp)

theorem discover_notes : Workspace.discover notesHome (.absolute ["home", "notes"]) =
    .ok ⟨some (.absolute ["home"])⟩ :=
  discover_of_discovery sound_notesHome entered_notesHome stat_notes discovery_notes

/-- The notes belong to the home directory, which has an entry named like a package description. -/
theorem discover_nearest_notes : notesHome.Sound ∧ notesHome.Entered ∧
    notesHome.stat (.absolute ["home", "notes"]) = .ok (["home", "notes"], .dir []) ∧
    Nearest notesHome.HoldsProject ["home", "notes"] ["home"] := by
  refine ⟨sound_notesHome, entered_notesHome, stat_notes, ?_⟩
  obtain ⟨hfound, -, -⟩ := discover_nearest sound_notesHome entered_notesHome stat_notes
  obtain ⟨names, hnames, hnearest⟩ := ((hfound _ discover_notes).1 _).mp rfl
  obtain rfl : ["home"] = names := (Path.mk.inj hnames).2
  exact hnearest

/-- Upwards from the notes there is no file and no other project marker, and yet the home directory
is taken for a project, because of a directory. -/
theorem discover_notes_noFile :
    (∀ above, above <+: ["home", "notes"] →
      (∀ marker ∈ rootMarkers, notesHome.exists? ((Path.absolute above).child marker) = false) ∧
      ∀ name bytes, notesHome.node? (above ++ [name]) ≠ some (.file bytes)) ∧
    Workspace.discover notesHome (.absolute ["home", "notes"]) =
      .ok ⟨some (.absolute ["home"])⟩ := by
  refine ⟨fun above habove => ?_, discover_notes⟩
  obtain ⟨entries, hdir, hentries⟩ := stat_notesHome habove
  refine ⟨fun marker => exists_marker_eq_false hdir fun e hmem => (hentries e hmem).1, ?_⟩
  intro name bytes hfile
  rw [← node?_child (node?_of_walk hdir), Node.child?, Option.map_eq_some_iff] at hfile
  obtain ⟨e, hfind, hfile⟩ := hfile
  obtain ⟨below, hbelow⟩ := (hentries e (List.mem_of_find?_eq_some hfind)).2
  cases hbelow.symm.trans hfile

end Notes

end FileTree
end DefinitionSite
