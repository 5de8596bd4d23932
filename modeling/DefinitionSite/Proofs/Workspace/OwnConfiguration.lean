import DefinitionSite.Proofs.FileTree.Growth
import DefinitionSite.Proofs.Path.Strings
import DefinitionSite.Proofs.Settings.Loaded
import DefinitionSite.Proofs.Workspace.Discovery

/-! The user's own configuration and the search for a project. The directory of that configuration
has the name of a project marker, so it makes the home directory a project. Otherwise the search is
not affected by it, unless a marker is a link that leads into it. -/
namespace DefinitionSite

namespace FileTree

/-- The user's own configuration is added to a home directory, together with its directory if that
is missing. -/
structure AddsConfig (t t' : FileTree) (home : List String) (bytes : List UInt8) : Prop where
  cwd : t'.cwd = t.cwd
  free : t.entryAt? (home ++ [configDirName]) = none ∨
    t.entryAt? (home ++ [configDirName]) = some .dir
  missing : t.entryAt? (home ++ [configDirName, configFileName]) = none
  entry : ∀ names, t'.entryAt? names =
    if names = home ++ [configDirName, configFileName] then some (.file bytes)
    else if names = home ++ [configDirName] then some .dir
    else t.entryAt? names

variable {t t' : FileTree} {home dir : List String} {bytes : List UInt8}

theorem AddsConfig.grows (h : AddsConfig t t' home bytes) : Grows t t' where
  cwd := h.cwd
  keeps names entry hentry := by
    rw [h.entry]
    split_ifs with hfile hdir
    · cases (hfile ▸ h.missing).symm.trans hentry
    · rcases h.free with hnone | hsome
      · cases (hdir ▸ hnone).symm.trans hentry
      · exact (hdir ▸ hsome).symm.trans hentry
    · exact hentry
  links names target hlink := by
    rw [h.entry] at hlink
    split_ifs at hlink
    · cases hlink
    · cases hlink
    · exact hlink

/-- What stands in a directory is not affected under other names. -/
theorem AddsConfig.entry_child (h : AddsConfig t t' home bytes) {name : String}
    (hfile : name ≠ configFileName) (hdir : dir = home → name ≠ configDirName) :
    t'.entryAt? (dir ++ [name]) = t.entryAt? (dir ++ [name]) := by
  have hnotFile : dir ++ [name] ≠ home ++ [configDirName, configFileName] := by
    intro heq
    have hlast := (List.append_inj' (heq.trans (List.append_cons home _ _)) rfl).2
    exact hfile (List.singleton_inj.mp hlast)
  have hnotDir : dir ++ [name] ≠ home ++ [configDirName] := by
    intro heq
    obtain ⟨rfl, hlast⟩ := List.append_inj' heq rfl
    exact hdir rfl (List.singleton_inj.mp hlast)
  rw [h.entry, if_neg hnotFile, if_neg hnotDir]

section Search

theorem firstProjectRoot_congr {dirs : List Path}
    (h : ∀ dir ∈ dirs, t'.isProjectRoot dir = t.isProjectRoot dir) :
    t'.firstProjectRoot dirs = t.firstProjectRoot dirs := by
  induction dirs with
  | nil => rfl
  | cons dir dirs ih =>
    obtain ⟨hdir, hdirs⟩ := List.forall_mem_cons.mp h
    rw [firstProjectRoot, firstProjectRoot, hdir, ih hdirs]

/-- A path exists and can be asked about as long as it leads to the same. -/
theorem asked_congr {p : Path} (h : (t'.stat p).map place = (t.stat p).map place) :
    t'.exists? p = t.exists? p ∧ t'.unaskable? p = t.unaskable? p := by
  unfold exists? unaskable?
  cases hstat : t.stat p with
  | error fault =>
    cases hstat' : t'.stat p with
    | error fault' =>
      rw [hstat, hstat'] at h
      obtain rfl := Except.error.inj h
      exact ⟨rfl, rfl⟩
    | ok found =>
      rw [hstat, hstat'] at h
      cases h
  | ok found =>
    cases hstat' : t'.stat p with
    | error fault' =>
      rw [hstat, hstat'] at h
      cases h
    | ok found => exact ⟨rfl, rfl⟩

theorem holdsAny_congr {p : Path} {markers : List String} (h : ∀ marker ∈ markers,
      (t'.stat (p.child marker)).map place = (t.stat (p.child marker)).map place) :
    t'.holdsAny p markers = t.holdsAny p markers := by
  induction markers with
  | nil => rfl
  | cons marker markers ih =>
    obtain ⟨hmarker, hrest⟩ := List.forall_mem_cons.mp h
    obtain ⟨hthere, haskable⟩ := asked_congr hmarker
    rw [holdsAny, holdsAny, hthere, haskable, ih hrest]

/-- One of the markers of a directory is a link that leads nowhere in one file system and not so in
another. -/
def MarkerGained (t t' : FileTree) (dir : List String) : Prop :=
  ∃ marker ∈ rootMarkers, ∃ target, t.node? (dir ++ [marker]) = some (.link target) ∧
    t.stat ((Path.absolute dir).child marker) = .error .notFound ∧
    t'.stat ((Path.absolute dir).child marker) ≠ .error .notFound

/-- The user's own configuration does not decide whether a directory is a project, but for the home
directory and where a marker leads into the configuration. -/
theorem AddsConfig.isProjectRoot (h : AddsConfig t t' home bytes)
    {entries : List (String × Node)} (hdir : t.stat (.absolute dir) = .ok (dir, .dir entries))
    (hhome : dir = home → t.node? (home ++ [configDirName]) ≠ none)
    (hlinks : ¬MarkerGained t t' dir) :
    t'.isProjectRoot (.absolute dir) = t.isProjectRoot (.absolute dir) := by
  obtain ⟨entries', hdir'⟩ := h.grows.stat_dir hdir
  have hnotFile : ∀ marker ∈ rootMarkers, marker ≠ configFileName := by decide
  have hmarkers : ∀ marker ∈ rootMarkers,
      (t'.stat ((Path.absolute dir).child marker)).map place =
        (t.stat ((Path.absolute dir).child marker)).map place := by
    intro marker hmarker
    obtain ⟨hplain, hshort⟩ := isPlain_rootMarkers marker hmarker
    rcases h.grows.stat ((Path.absolute dir).child marker) with hmiss | hsame
    · suffices t'.stat ((Path.absolute dir).child marker) = .error .notFound by rw [this, hmiss]
      cases hnode : t.node? (dir ++ [marker]) with
      | none =>
        have hother : dir = home → marker ≠ configDirName := by
          rintro rfl rfl
          exact hhome rfl hnode
        refine stat_child_none hdir' hplain hshort (entryAt?_eq_none.mp ?_)
        rw [h.entry_child (hnotFile marker hmarker) hother]
        exact entryAt?_eq_none.mpr hnode
      | some node =>
        cases node with
        | link target =>
          by_contra hgained
          exact hlinks ⟨marker, hmarker, target, hnode, hmiss, hgained⟩
        | dir entries => cases (walk_concat hdir hplain hshort hnode (by simp)).symm.trans hmiss
        | file bytes => cases (walk_concat hdir hplain hshort hnode (by simp)).symm.trans hmiss
    · exact hsame
  have hpackage : t'.holdsPackage (.absolute dir) = t.holdsPackage (.absolute dir) := by
    rw [Bool.eq_iff_iff, holdsPackage_iff hdir', holdsPackage_iff hdir]
    refine exists_congr fun name => and_congr_left fun hname => ?_
    rw [globMatches_cabal] at hname
    have hfile : name ≠ configFileName := by
      rintro rfl
      revert hname
      decide
    have hother : name ≠ configDirName := by
      rintro rfl
      revert hname
      decide
    rw [Ne, ← entryAt?_eq_none, h.entry_child hfile fun _ => hother, entryAt?_eq_none]
  rw [FileTree.isProjectRoot, FileTree.isProjectRoot, holdsAny_congr hmarkers, hpackage]

theorem AddsConfig.stat_configDir (h : AddsConfig t t' home bytes)
    {entries : List (String × Node)} (hdir : t'.stat (.absolute home) = .ok (home, .dir entries)) :
    ∃ entries, t'.stat ((Path.absolute home).child configDirName) =
      .ok (home ++ [configDirName], .dir entries) := by
  have hentry : t'.entryAt? (home ++ [configDirName]) = some .dir := by
    rw [h.entry, if_neg (by simp), if_pos rfl]
  obtain ⟨entries', hnode⟩ := entryAt?_eq_dir.mp hentry
  obtain ⟨hplain, hshort⟩ := isPlain_rootMarkers configDirName (by decide)
  exact ⟨entries', walk_concat hdir hplain hshort hnode (by simp)⟩

/-- The search for a project with and without the user's own configuration. -/
theorem AddsConfig.firstProjectRoot (h : AddsConfig t t' home bytes)
    (hdirs : ∀ above, above <+: dir →
      ∃ entries, t.stat (.absolute above) = .ok (above, .dir entries))
    (hlinks : ∀ above, above <+: dir → ¬MarkerGained t t' above) :
    t'.firstProjectRoot (Path.absolute dir).selfAndAbove =
        t.firstProjectRoot (Path.absolute dir).selfAndAbove ∨
      (home <+: dir ∧ t.node? (home ++ [configDirName]) = none ∧
        (∀ below, below <+: dir → home.length < below.length → t.Passed below) ∧
        t'.firstProjectRoot (Path.absolute dir).selfAndAbove = .ok (some (.absolute home))) := by
  have hsame : ∀ above, above <+: dir → (above = home → t.node? (home ++ [configDirName]) ≠ none) →
      t'.isProjectRoot (.absolute above) = t.isProjectRoot (.absolute above) := by
    intro above habove hhome
    obtain ⟨entries, hdir⟩ := hdirs above habove
    exact h.isProjectRoot hdir hhome (hlinks above habove)
  by_cases hnew : home <+: dir ∧ t.node? (home ++ [configDirName]) = none
  · obtain ⟨hup, hnone⟩ := hnew
    obtain ⟨below, above, hsplit, hbelow⟩ := exists_selfAndAbove_split hup
    have hsameBelow : t'.firstProjectRoot below = t.firstProjectRoot below := by
      refine firstProjectRoot_congr fun p hp => ?_
      obtain ⟨names, hnames, hlt, rfl⟩ := (hbelow p).mp hp
      exact hsame names hnames fun heq => absurd hlt (by rw [heq]; exact Nat.lt_irrefl _)
    rw [hsplit, firstProjectRoot_append, firstProjectRoot_append, hsameBelow]
    split
    · -- Nothing below the home directory is a project, so the search comes to it.
      rename_i hpassed
      right
      refine ⟨hup, hnone, fun names hnames hlt => ?_, ?_⟩
      · have hfalse := firstProjectRoot_eq_none.mp hpassed (.absolute names)
          ((hbelow _).mpr ⟨names, hnames, hlt, rfl⟩)
        exact passed_of_isProjectRoot (hdirs names hnames) hfalse
      · obtain ⟨entries, hdir⟩ := hdirs home hup
        obtain ⟨entries', hdir'⟩ := h.grows.stat_dir hdir
        obtain ⟨_, hconfigDir⟩ := h.stat_configDir hdir'
        rw [FileTree.firstProjectRoot, isProjectRoot_of_configDir hconfigDir]
    · exact .inl rfl
  · left
    refine firstProjectRoot_congr fun p hp => ?_
    obtain ⟨names, hnames, rfl⟩ := mem_selfAndAbove.mp hp
    exact hsame names hnames fun heq hnone => hnew ⟨heq ▸ hnames, hnone⟩

end Search

section Start

variable {start : Path} {there : List String} {node : Node}

theorem Grows.entered (h : Grows t t') (hhere : t.Entered) : t'.Entered := by
  obtain ⟨entries, hcwd⟩ := hhere
  obtain ⟨entries', hcwd'⟩ := h.stat_dir hcwd
  exact ⟨entries', by rw [FileTree.here, h.cwd]; exact hcwd'⟩

theorem directoryOf_congr {node node' : Node} (h : node'.entry = node.entry)
    (there : List String) : directoryOf there node' = directoryOf there node := by
  cases node <;> cases node' <;> first | rfl | cases h

/-- The workspace around an entry with and without the user's own configuration. -/
theorem AddsConfig.discover (h : AddsConfig t t' home bytes) (hsound : t.Sound)
    (hsound' : t'.Sound) (hhere : t.Entered) (hstart : t.stat start = .ok (there, node)) :
    Workspace.discover t' start = Workspace.discover t start ∨
      (home <+: directoryOf there node ∧ t.node? (home ++ [configDirName]) = none ∧
        (∀ below, below <+: directoryOf there node → home.length < below.length →
          t.Passed below) ∧
        Workspace.discover t' start = .ok ⟨some (.absolute home)⟩) ∨
      ∃ above, above <+: directoryOf there node ∧ MarkerGained t t' above := by
  obtain ⟨node', hstart', hentry⟩ := h.grows.stat_ok hstart
  have hdirs := fun above (habove : above <+: directoryOf there node) =>
    stat_above hsound hhere hstart habove
  by_cases hlinks : ∀ above, above <+: directoryOf there node → ¬MarkerGained t t' above
  · rw [discover_eq hsound hhere hstart, discover_eq hsound' (h.grows.entered hhere) hstart',
      directoryOf_congr hentry]
    rcases h.firstProjectRoot hdirs hlinks with hsame | ⟨hup, hnone, hpassed, hfound⟩
    · left
      rw [hsame]
    · right
      left
      refine ⟨hup, hnone, hpassed, ?_⟩
      rw [hfound]
  · right
    right
    simpa only [not_forall, not_not, exists_prop] using hlinks

end Start

end FileTree

namespace Configuration
open FileTree

variable {t : FileTree} {start home root : Path} {there : List String} {node : Node}
  {platform : Platform} {env : Environment} {w : Workspace} {c : Configuration} {file : String}

theorem spelled_configFile (h : root.Spelled) :
    ((root.child configDirName).child configFileName).Spelled where
  root := h.root
  parts := by
    have hnames : ∀ name ∈ [configDirName, configFileName],
        name ≠ "" ∧ name ≠ "." ∧ '/' ∉ name.toList := by decide
    intro name hname
    have hparts : name ∈ root.parts ++ [configDirName, configFileName] := by
      simpa [Path.child] using hname
    rcases List.mem_append.mp hparts with hroot | hown
    · exact h.parts name hroot
    · exact hnames name hown

theorem spelled_homeDir (h : homeDir env = .ok home) : home.Spelled := by
  unfold homeDir at h
  split at h
  · cases h
  · simp only at h
    split_ifs at h <;> exact Except.ok.inj h ▸ Path.spelled_ofString _

/-- The root of a workspace that was looked for is spelled by some string. -/
theorem spelled_root (hsound : t.Sound) (hhere : t.Entered)
    (hstart : t.stat start = .ok (there, node)) (hw : Workspace.discover t start = .ok w)
    (hroot : w.root = some root) : root.Spelled := by
  have hfound := discovery_of_discover hsound hhere hstart hw
  rw [hroot] at hfound
  cases hfound with
  | @found names habove =>
    obtain ⟨entries, hdir⟩ := stat_above hsound hhere hstart habove
    refine ⟨.inr (.inl rfl), fun name hname => ?_⟩
    obtain ⟨hne, hdot, -, hslash, -⟩ :=
      isName_iff.mp ((Node.isSound_at? hsound (node?_of_walk hdir)).1 name hname)
    exact ⟨hne, hdot, hslash⟩

theorem configFile_inj {p q : Path} (h : (p.child configDirName).child configFileName =
    (q.child configDirName).child configFileName) : p = q := by
  obtain ⟨hroot, hparts⟩ := Path.mk.inj h
  have hsame := List.append_cancel_right (List.append_cancel_right hparts)
  cases p
  cases q
  exact congrArg₂ Path.mk hroot hsame

/-- The file of the workspace counts as loaded together with the user's own just if the home
directory is its root. -/
theorem localFile_iff (hspelled : ∀ root, w.root = some root → root.Spelled)
    (hhome : homeDir env = .ok home)
    (hglobal : globalConfigFile platform env =
      .ok ((home.child configDirName).child configFileName))
    (hload : (load t platform env (some w)).1 = .ok c) (hloaded : c.source.globalFile = some file) :
    c.source.localFile = some file ↔ w.root = some home := by
  obtain ⟨hown, hlocal⟩ := load_files hglobal hload
  rw [hloaded] at hown
  split_ifs at hown with hloads
  obtain rfl := Option.some.inj hown
  rw [hlocal]
  cases hroot : w.root with
  | none => simp [Workspace.configFile, Workspace.configDir, hroot]
  | some root =>
    have hfile : w.configFile = some ((root.child configDirName).child configFileName) := by
      simp [Workspace.configFile, Workspace.configDir, hroot]
    rw [Option.bind_some, hfile, Option.bind_some]
    constructor
    · intro h
      split_ifs at h
      have hstring := congrArg Path.ofString (Option.some.inj h)
      rw [Path.ofString_toString (spelled_configFile (hspelled root hroot)),
        Path.ofString_toString (spelled_configFile (spelled_homeDir hhome))] at hstring
      rw [configFile_inj hstring]
    · rintro ⟨rfl⟩
      rw [if_pos hloads]

/-- The home directory is the root just if the search comes to it, since the user's own
configuration stands in it. -/
theorem root_eq_home_iff (hsound : t.Sound) (hhere : t.Entered)
    (hstart : t.stat start = .ok (there, node)) (hw : Workspace.discover t start = .ok w)
    (hexists : t.exists? ((home.child configDirName).child configFileName) = true) :
    w.root = some home ↔ ∃ names, home = .absolute names ∧ names <+: directoryOf there node ∧
      ∀ below, below <+: directoryOf there node → names.length < below.length →
        t.Passed below := by
  have hsearch := discovery_of_discover hsound hhere hstart hw
  constructor
  · intro hroot
    rw [hroot] at hsearch
    cases hsearch with
    | found habove _ _ hnearest => exact ⟨_, rfl, habove, hnearest⟩
  · rintro ⟨names, rfl, habove, hnearest⟩
    obtain ⟨entries, hdir⟩ := stat_above hsound hhere hstart habove
    obtain ⟨found, hfile⟩ : ∃ found, t.stat (((Path.absolute names).child configDirName).child
        configFileName) = .ok found := by
      unfold exists? at hexists
      cases hstat : t.stat (((Path.absolute names).child configDirName).child configFileName) with
      | error fault => simp [hstat, Except.toOption] at hexists
      | ok found => exact ⟨found, rfl⟩
    obtain ⟨_, _, hconfigDir⟩ := exists_walk_front hfile
    have hhome := discovery_configDir habove hdir hconfigDir hnearest
    exact Except.ok.inj (hsearch.unique hhome)

/-- The root of the workspace around an entry is the same with and without the user's own
configuration, unless the directory of that is new and makes the home directory the nearest project,
or a marker is a link that leads into it. Where the user's own file is loaded, that of the workspace
is the same file just if the home directory is the root, and it is the root just if it is at or
above the entry and no directory below it on the way is a project. -/
theorem discover_besideConfig {t : FileTree} {start : Path} {there : List String} {node : Node}
    (hsound : t.Sound) (hhere : t.Entered) (hstart : t.stat start = .ok (there, node)) :
    (∀ t' home bytes, t'.Sound → AddsConfig t t' home bytes →
      Workspace.discover t' start = Workspace.discover t start ∨
      (home <+: directoryOf there node ∧ t.node? (home ++ [configDirName]) = none ∧
        (∀ below, below <+: directoryOf there node → home.length < below.length →
          t.Passed below) ∧
        Workspace.discover t' start = .ok ⟨some (.absolute home)⟩) ∨
      ∃ above, above <+: directoryOf there node ∧ MarkerGained t t' above) ∧
    ∀ platform env home w c file, homeDir env = .ok home →
      globalConfigFile platform env = .ok ((home.child configDirName).child configFileName) →
      Workspace.discover t start = .ok w → (load t platform env (some w)).1 = .ok c →
      c.source.globalFile = some file →
        (c.source.localFile = some file ↔ w.root = some home) ∧
        (w.root = some home ↔ ∃ names, home = .absolute names ∧
          names <+: directoryOf there node ∧
          ∀ below, below <+: directoryOf there node → names.length < below.length →
            t.Passed below) := by
  refine ⟨fun t' home bytes hsound' h => h.discover hsound hsound' hhere hstart, ?_⟩
  intro platform env home w c file hhome hglobal hw hload hloaded
  have hexists : t.exists? ((home.child configDirName).child configFileName) = true := by
    have hown := (load_files hglobal hload).1
    rw [hloaded] at hown
    split_ifs at hown with hloads
    exact (Bool.and_eq_true_iff.mp hloads).1
  have hspelled := fun root (hroot : w.root = some root) =>
    spelled_root hsound hhere hstart hw hroot
  exact ⟨localFile_iff hspelled hhome hglobal hload hloaded,
    root_eq_home_iff hsound hhere hstart hw hexists⟩

section Notes

/-- A home directory with one for notes. -/
def plainHome : FileTree where
  top := .dir [("home", .dir [("notes", .dir [])])]
  cwd := []

/-- The same home directory with an empty configuration of the user. -/
def configuredHome : FileTree where
  top := .dir [("home", .dir [("notes", .dir []),
    (".hsdef", .dir [("config.toml", .file [])])])]
  cwd := []

/-- Where the notes are. -/
def notesPath : Path := .absolute ["home", "notes"]

theorem sound_homes : plainHome.Sound ∧ configuredHome.Sound := by
  show plainHome.top.isSound = true ∧ configuredHome.top.isSound = true
  decide

theorem entered_plainHome : plainHome.Entered := by
  refine ⟨[("home", .dir [("notes", .dir [])])], ?_⟩
  simp [stat, FileTree.start, FileTree.here, plainHome, Path.absolute, Path.isAbsolute, walk,
    node?, Node.at?]

theorem addsConfig_plainHome : AddsConfig plainHome configuredHome ["home"] [] where
  cwd := rfl
  free := .inl rfl
  missing := rfl
  entry names := by
    have hdir : ∀ names, (plainHome.putAt (["home"] ++ [".hsdef"]) (.dir [])).entryAt? names =
        if names = ["home"] ++ [".hsdef"] then some .dir else plainHome.entryAt? names :=
      entryAt?_putAt rfl rfl fun _ => rfl
    have hfile : ∀ names, ((plainHome.putAt (["home"] ++ [".hsdef"]) (.dir [])).putAt
        (["home", ".hsdef"] ++ ["config.toml"]) (.file [])).entryAt? names =
          if names = ["home", ".hsdef"] ++ ["config.toml"] then some (.file [])
          else (plainHome.putAt (["home"] ++ [".hsdef"]) (.dir [])).entryAt? names :=
      entryAt?_putAt rfl rfl fun _ => rfl
    refine (hfile names).trans ?_
    rw [hdir]
    rfl

theorem entered_configuredHome : configuredHome.Entered :=
  addsConfig_plainHome.grows.entered entered_plainHome

theorem stat_plainHome_notes : plainHome.stat notesPath = .ok (["home", "notes"], .dir []) := by
  have hshort : isTooLong "home" = false ∧ isTooLong "notes" = false := by decide
  simp [stat, FileTree.start, plainHome, notesPath, Path.absolute, Path.isAbsolute, walk, node?,
    Node.at?, Node.child?, hshort]

theorem stat_configuredHome_notes :
    configuredHome.stat notesPath = .ok (["home", "notes"], .dir []) := by
  have hshort : isTooLong "home" = false ∧ isTooLong "notes" = false := by decide
  simp [stat, FileTree.start, configuredHome, notesPath, Path.absolute, Path.isAbsolute, walk,
    node?, Node.at?, Node.child?, hshort]

theorem discover_plainHome : Workspace.discover plainHome notesPath = .ok ⟨none⟩ := by
  have hdirs := fun above (habove : above <+: ["home", "notes"]) =>
    stat_above sound_homes.1 entered_plainHome stat_plainHome_notes habove
  have hunmarked :
      globMatches "*.cabal" "home" = false ∧ globMatches "*.cabal" "notes" = false := by
    simp only [← Bool.not_eq_true, globMatches_cabal]
    decide
  have hnowhere : Discovery plainHome ["home", "notes"] (.ok none) := by
    refine .nowhere fun above habove => ?_
    obtain ⟨entries, hdir⟩ := hdirs above habove
    have hnode := node?_of_walk hdir
    simp only [List.prefix_cons_iff, List.prefix_nil] at habove
    refine passed_of_unmarked hdir ?_
    rcases habove with rfl | ⟨_, rfl, rfl | ⟨_, rfl, rfl⟩⟩
    · obtain rfl := Node.dir.inj (Option.some.inj hnode)
      simp [rootMarkers, configDirName, hunmarked]
    · obtain rfl := Node.dir.inj (Option.some.inj hnode)
      simp [rootMarkers, configDirName, hunmarked]
    · obtain rfl := Node.dir.inj (Option.some.inj hnode)
      simp
  exact discover_of_discovery sound_homes.1 entered_plainHome stat_plainHome_notes hnowhere

theorem discover_configuredHome :
    Workspace.discover configuredHome notesPath = .ok ⟨some (.absolute ["home"])⟩ := by
  have hdirs := fun above (habove : above <+: ["home", "notes"]) =>
    stat_above sound_homes.2 entered_configuredHome stat_configuredHome_notes habove
  have hhome : Discovery configuredHome ["home", "notes"] (.ok (some (.absolute ["home"]))) := by
    have habove : ["home"] <+: ["home", "notes"] := ⟨["notes"], rfl⟩
    obtain ⟨entries, hdir⟩ := hdirs _ habove
    obtain ⟨_, hconfig⟩ := addsConfig_plainHome.stat_configDir hdir
    refine discovery_configDir habove hdir hconfig fun below hbelow hlonger => ?_
    obtain rfl : below = ["home", "notes"] := hbelow.eq_of_length_le hlonger
    exact passed_of_unmarked stat_configuredHome_notes (by simp)
  exact discover_of_discovery sound_homes.2 entered_configuredHome stat_configuredHome_notes hhome

/-- Where the user's own configuration is. -/
def ownPath : Path := .absolute ["home", ".hsdef", "config.toml"]

theorem stat_ownPath : configuredHome.stat ownPath =
    .ok (["home", ".hsdef", "config.toml"], .file []) := by
  have hshort : isTooLong "home" = false ∧ isTooLong ".hsdef" = false ∧
      isTooLong "config.toml" = false := by decide
  simp [stat, FileTree.start, configuredHome, ownPath, Path.absolute, Path.isAbsolute, walk,
    node?, Node.at?, Node.child?, hshort]

theorem loads_ownPath : loads configuredHome ownPath = true := by
  have hexists : configuredHome.exists? ownPath = true := by
    simp [exists?, stat_ownPath, Except.toOption]
  have hbytes : configuredHome.readBytes ownPath = .ok [] := by
    simp [readBytes, stat_ownPath]
  simp only [loads, hexists, Settings.fileFault?, Settings.applyFile, hbytes]
  decide +kernel

/-- An environment with that home directory. -/
def homeEnvironment : Environment := ⟨[("HOME", "/home")], none⟩

theorem globalConfigFile_home : globalConfigFile .posix homeEnvironment = .ok ownPath := by
  decide

/-- The workspace of that home directory. -/
def homeWorkspace : Workspace := ⟨some (.absolute ["home"])⟩

/-- With the home directory as the root, one file is loaded as both layers. -/
theorem load_configuredHome :
    ∃ c, (load configuredHome .posix homeEnvironment (some homeWorkspace)).1 = .ok c ∧
      c.source.globalFile = some "/home/.hsdef/config.toml" ∧
      c.source.localFile = some "/home/.hsdef/config.toml" := by
  have hloads : ∀ layer ∈ layers ownPath (some homeWorkspace),
      loads configuredHome layer.2 = true := by
    rw [show layers ownPath (some homeWorkspace) = [(.user, ownPath), (.workspace, ownPath)]
      from rfl]
    simpa using loads_ownPath
  have hstring : ownPath.toString = "/home/.hsdef/config.toml" := by decide
  obtain ⟨c, hc⟩ := exists_load globalConfigFile_home hloads
  obtain ⟨hown, hlocal⟩ := load_files globalConfigFile_home hc
  refine ⟨c, hc, ?_, ?_⟩
  · rw [hown, if_pos loads_ownPath, hstring]
  · refine hlocal.trans ?_
    rw [show (some homeWorkspace).bind Workspace.configFile = some ownPath from rfl,
      Option.bind_some, if_pos loads_ownPath, hstring]

/-- The notes are in no project before the user's own configuration is added, and in the home
directory afterwards, whose file is that of the user. -/
theorem discover_besideConfig_notes :
    plainHome.Sound ∧ plainHome.Entered ∧
    plainHome.stat notesPath = .ok (["home", "notes"], .dir []) ∧ configuredHome.Sound ∧
    AddsConfig plainHome configuredHome ["home"] [] ∧
    (Workspace.discover configuredHome notesPath = Workspace.discover plainHome notesPath ∨
      (["home"] <+: ["home", "notes"] ∧ plainHome.node? ["home", ".hsdef"] = none ∧
        (∀ below, below <+: ["home", "notes"] → 1 < below.length → plainHome.Passed below) ∧
        Workspace.discover configuredHome notesPath = .ok homeWorkspace) ∨
      ∃ above, above <+: ["home", "notes"] ∧ MarkerGained plainHome configuredHome above) ∧
    ∃ c, (load configuredHome .posix homeEnvironment (some homeWorkspace)).1 = .ok c ∧
      c.source.localFile = c.source.globalFile := by
  have hplain := discover_besideConfig sound_homes.1 entered_plainHome stat_plainHome_notes
  have hconfigured :=
    discover_besideConfig sound_homes.2 entered_configuredHome stat_configuredHome_notes
  refine ⟨sound_homes.1, entered_plainHome, stat_plainHome_notes, sound_homes.2,
    addsConfig_plainHome, hplain.1 _ _ _ sound_homes.2 addsConfig_plainHome, ?_⟩
  obtain ⟨c, hc, hown, -⟩ := load_configuredHome
  have hlocal := (hconfigured.2 .posix homeEnvironment (.absolute ["home"]) homeWorkspace c _
    (by decide) globalConfigFile_home discover_configuredHome hc hown).1
  exact ⟨c, hc, (hlocal.mpr rfl).trans hown.symm⟩

/-- Adding the user's own configuration can change the root, and one file can be loaded as both
layers. -/
theorem discover_homes : AddsConfig plainHome configuredHome ["home"] [] ∧
    Workspace.discover plainHome notesPath = .ok ⟨none⟩ ∧
    Workspace.discover configuredHome notesPath = .ok homeWorkspace ∧
    ∃ c file, (load configuredHome .posix homeEnvironment (some homeWorkspace)).1 = .ok c ∧
      c.source.globalFile = some file ∧ c.source.localFile = some file := by
  obtain ⟨c, hc, hown, hlocal⟩ := load_configuredHome
  exact ⟨addsConfig_plainHome, discover_plainHome, discover_configuredHome, c, _, hc, hown, hlocal⟩

end Notes

end Configuration
end DefinitionSite
