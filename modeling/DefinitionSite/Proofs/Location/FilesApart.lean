import DefinitionSite.Locator
import DefinitionSite.Proofs.FileTree.Resolution
import DefinitionSite.Proofs.Location.Stopped

/-! Files are kept apart. The locations of matches from many files are, file by file, that of the
best match there, so they do not depend on how the matches of different files come mixed, and the
matches of one file do not change what another gets. All that one file can do to the others is to
have a path that cannot be resolved where there is a current file to leave out. -/
namespace DefinitionSite

namespace Match

variable {cs ms ms' found : List Match} {m : Match} {s : RawText}

theorem mem_bestPerFile (hcs : ∀ m ∈ cs, ∃ s, m.file = .name s) (h : bestPerFile cs = .ok found) :
    m ∈ found ↔ ∃ s, best (cs.filter (·.file.same (.name s))) = some m := by
  rw [bestPerFile_eq hcs] at h
  obtain rfl := Except.ok.inj h
  rw [List.mem_filterMap]
  refine exists_congr fun s => and_iff_right_of_imp fun hbest => ?_
  exact mem_firstSeen.mpr ⟨m, (mem_filter_same hcs).mp (mem_of_best hbest)⟩

/-- The lists have the same matches in a file. -/
def AgreeIn (ms ms' : List Match) (s : RawText) : Prop :=
  ms.filter (·.file.same (.name s)) = ms'.filter (·.file.same (.name s))

theorem AgreeIn.mem_firstSeen_iff (h : AgreeIn ms ms' s) (hms : ∀ m ∈ ms, ∃ t, m.file = .name t)
    (hms' : ∀ m ∈ ms', ∃ t, m.file = .name t) : s ∈ firstSeen ms ↔ s ∈ firstSeen ms' := by
  simp only [mem_firstSeen, ← mem_filter_same hms, ← mem_filter_same hms', show _ = _ from h]

end Match

namespace Location
open FileLabel (exists_name)
open Match (AgreeIn IsBestIn firstSeen bestPerFile)
open scoped List

variable {tree : FileTree} {excluded : Option Path} {currentFile : Option String} {run : Run}
  {ms ms' found : List Match} {locations : List Location} {s : RawText}

/-- The locations of the best matches in their files. -/
def ofWorkspace (tree : FileTree) (currentFile : Option String) (run : Run) (ms : List Match) :
    Except LocationFault (List Location) :=
  match bestPerFile ms with
  | .error f => .error (.shape f)
  | .ok found => (ofMatches tree currentFile found run).1

/-- The path of a file can be resolved, or need not be. -/
def Resolves (tree : FileTree) (excluded : Option Path) (s : RawText) : Prop :=
  excluded = none ∨ ∃ path, tree.resolve (.ofRaw s) = .ok path

theorem resolves_iff {m : Match} (hm : m.file = .name s) :
    Resolves tree excluded s ↔ ∃ inside, isIn tree excluded m = .ok inside := by
  cases excluded with
  | none => simp [Resolves, isIn]
  | some path =>
    cases hresolve : tree.resolve (.ofRaw s) <;>
      simp [Resolves, isIn, keyOf, hm, hresolve, Except.map]

/-- Matches are told apart only if it is known of each whether it is in the excluded file. -/
theorem isIn_of_distinct {seen kept : List Match}
    (h : (distinct tree excluded seen ms).1 = .ok kept) :
    ∀ m ∈ ms, ∃ inside, isIn tree excluded m = .ok inside := by
  induction ms generalizing seen kept with
  | nil => simp
  | cons m ms ih =>
    rw [List.forall_mem_cons]
    unfold distinct at h
    split at h
    · cases h
    · rename_i hm
      exact ⟨⟨true, hm⟩, ih h⟩
    · rename_i hm
      refine ⟨⟨false, hm⟩, ?_⟩
      split at h
      · exact ih h
      · cases hrest : (distinct tree excluded (m :: seen) ms).1 with
        | error f => simp [hrest, Except.map] at h
        | ok others => exact ih hrest

/-- Locations that come in the order of their names are told by which they are. -/
theorem eq_of_before {xs ys : List Location} (hnames : ∀ a ∈ xs, a.file.IsName)
    (hx : xs.Pairwise fun a b => a.file.before b.file = true)
    (hy : ys.Pairwise fun a b => a.file.before b.file = true) (hmem : ∀ a, a ∈ xs ↔ a ∈ ys) :
    xs = ys := by
  have hnot : ∀ a ∈ xs, ∀ b ∈ xs, a.file.before b.file = true → ¬ b.file.before a.file = true := by
    intro a ha b hb hab hba
    obtain ⟨s, -, hs⟩ := hnames a ha
    obtain ⟨t, -, ht⟩ := hnames b hb
    simp only [hs, ht, FileLabel.before_name, decide_eq_true_eq] at hab hba
    exact List.lt_asymm hab hba
  have hnodup : ∀ zs : List Location, (∀ a ∈ zs, a ∈ xs) →
      zs.Pairwise (fun a b => a.file.before b.file = true) → zs.Nodup := by
    intro zs hzs hordered
    refine hordered.imp_of_mem fun {a b} ha hb hab heq => ?_
    subst heq
    exact hnot a (hzs a ha) a (hzs a ha) hab hab
  have hperm : xs ~ ys :=
    (List.perm_ext_iff_of_nodup (hnodup xs (fun _ => id) hx)
      (hnodup ys (fun a => (hmem a).mpr) hy)).mpr hmem
  refine hperm.eq_of_pairwise (fun a b ha hb hab hba => ?_) hx hy
  exact absurd hba (hnot a ha b ((hmem b).mpr hb) hab)

/-- Matches in different files become locations once it is known of each whether it is left out. -/
theorem exists_ofMatches (hnames : ∀ m ∈ found, m.file.IsName)
    (hdistinct : (found.map (·.file)).Nodup) (hexcluded : leftOut tree currentFile = .ok excluded)
    (hin : ∀ m ∈ found, ∃ inside, isIn tree excluded m = .ok inside) :
    ∃ sorted, (ofMatches tree currentFile found run).1 = .ok sorted ∧
      sorted.Pairwise (fun a b => a.file.before b.file = true) ∧
      ∀ a, a ∈ sorted ↔ ∃ m ∈ found, isIn tree excluded m = .ok false ∧ a = ofMatch m := by
  choose! inside hinside using hin
  obtain ⟨sorted, hsorted, hperm, hordered⟩ :
      ∃ sorted, (ofMatches tree currentFile found run).1 = .ok sorted ∧ _ :=
    ofMatches_inside hnames hdistinct hexcluded hinside
  refine ⟨sorted, hsorted, hordered, fun a => ?_⟩
  rw [hperm.mem_iff, List.mem_map]
  refine exists_congr fun m => ?_
  rw [List.mem_filter, and_assoc, eq_comm (a := a)]
  refine and_congr_right fun hm => ?_
  simp [hinside m hm]

/-- The location is what the file with the given name gives: that of its best match, unless it is
the excluded file. -/
def Contributes (tree : FileTree) (excluded : Option Path) (ms : List Match) (s : RawText)
    (a : Location) : Prop :=
  ∃ m, Match.best (ms.filter (·.file.same (.name s))) = some m ∧
    isIn tree excluded m = .ok false ∧ a = ofMatch m

theorem Contributes.file_eq {a : Location} (h : Contributes tree excluded ms s a)
    (hms : ∀ m ∈ ms, ∃ t, m.file = .name t) : a.file = .name s := by
  obtain ⟨m, hbest, -, rfl⟩ := h
  exact ((Match.mem_filter_same hms).mp (Match.mem_of_best hbest)).2

theorem contributes_congr (h : AgreeIn ms ms' s) (a : Location) :
    Contributes tree excluded ms s a ↔ Contributes tree excluded ms' s a := by
  unfold Contributes
  rw [show _ = _ from h]

/-- The list is what the matches of all files give, each file for itself. -/
structure Listed (tree : FileTree) (excluded : Option Path) (ms : List Match)
    (locations : List Location) : Prop where
  resolves : ∀ s ∈ firstSeen ms, Resolves tree excluded s
  ordered : locations.Pairwise fun a b => a.file.before b.file = true
  mem_iff : ∀ a, a ∈ locations ↔ ∃ s, Contributes tree excluded ms s a

theorem Listed.isName {locations : List Location} (h : Listed tree excluded ms locations)
    (hms : ∀ m ∈ ms, m.file.IsName) : ∀ a ∈ locations, a.file.IsName := by
  intro a ha
  obtain ⟨s, m, hbest, -, rfl⟩ := (h.mem_iff a).mp ha
  exact hms m (List.mem_of_mem_filter (Match.mem_of_best hbest))

section Found

variable (hms : ∀ m ∈ ms, m.file.IsName) (hfound : bestPerFile ms = .ok found)
include hms hfound

theorem isName_bestPerFile : ∀ m ∈ found, m.file.IsName := fun m hm =>
  hms m (Match.mem_of_bestPerFile hfound hm)

/-- It is known of every best match whether it is left out if the paths of all files can be
resolved. -/
theorem resolves_firstSeen_iff : (∀ s ∈ firstSeen ms, Resolves tree excluded s) ↔
    ∀ m ∈ found, ∃ inside, isIn tree excluded m = .ok inside := by
  have hnames := exists_name hms
  constructor
  · intro h m hm
    obtain ⟨t, -, ht⟩ := isName_bestPerFile hms hfound m hm
    have hseen := Match.mem_firstSeen.mpr ⟨m, Match.mem_of_bestPerFile hfound hm, ht⟩
    exact (resolves_iff ht).mp (h t hseen)
  · intro h s hs
    obtain ⟨m, hfile, hbest⟩ := Match.exists_isBestIn hnames hs
    exact (resolves_iff hfile).mpr (h m ((Match.mem_bestPerFile hnames hfound).mpr ⟨s, hbest⟩))

theorem exists_contributes_iff (a : Location) : (∃ s, Contributes tree excluded ms s a) ↔
    ∃ m ∈ found, isIn tree excluded m = .ok false ∧ a = ofMatch m := by
  simp only [Match.mem_bestPerFile (exists_name hms) hfound, Contributes]
  constructor
  · rintro ⟨s, m, hbest, hout⟩
    exact ⟨m, ⟨s, hbest⟩, hout⟩
  · rintro ⟨m, ⟨s, hbest⟩, hout⟩
    exact ⟨s, m, hbest, hout⟩

end Found

/-- There are locations if the paths that are asked about can be resolved. -/
theorem exists_listed (hms : ∀ m ∈ ms, m.file.IsName)
    (hexcluded : leftOut tree currentFile = .ok excluded)
    (hresolves : ∀ s ∈ firstSeen ms, Resolves tree excluded s) :
    ∃ sorted, ofWorkspace tree currentFile run ms = .ok sorted ∧
      Listed tree excluded ms sorted := by
  obtain ⟨found, hfound, -⟩ := Match.bestPerFile_forall₂ (exists_name hms)
  obtain ⟨sorted, hsorted, hordered, hmem⟩ :
      ∃ sorted, (ofMatches tree currentFile found run).1 = .ok sorted ∧ _ :=
    exists_ofMatches (isName_bestPerFile hms hfound)
      (Match.nodup_bestPerFile (exists_name hms) hfound) hexcluded
      ((resolves_firstSeen_iff hms hfound).mp hresolves)
  refine ⟨sorted, ?_, hresolves, hordered, fun a => ?_⟩
  · simp only [ofWorkspace, hfound, hsorted]
  · rw [hmem, exists_contributes_iff hms hfound]

/-- The locations are what the files give, once the paths that are asked about can be resolved. -/
theorem ofWorkspace_ok_iff (hms : ∀ m ∈ ms, m.file.IsName) :
    ofWorkspace tree currentFile run ms = .ok locations ↔
      ∃ excluded, leftOut tree currentFile = .ok excluded ∧
        Listed tree excluded ms locations := by
  obtain ⟨found, hfound, -⟩ := Match.bestPerFile_forall₂ (exists_name hms)
  constructor
  · intro h
    have hof : (ofMatches tree currentFile found run).1 = .ok locations := by
      simpa only [ofWorkspace, hfound] using h
    rw [ofMatches_eq] at hof
    cases hexcluded : leftOut tree currentFile with
    | error f => simp [hexcluded] at hof
    | ok excluded =>
      cases hkept : (distinct tree excluded [] found).1 with
      | error f => simp [hexcluded, hkept, Except.bind] at hof
      | ok kept =>
        obtain ⟨sorted, hsorted, hlist⟩ := exists_listed hms hexcluded
          ((resolves_firstSeen_iff hms hfound).mpr (isIn_of_distinct hkept))
        obtain rfl := Except.ok.inj (h.symm.trans hsorted)
        exact ⟨excluded, rfl, hlist⟩
  · rintro ⟨excluded, hexcluded, hlist⟩
    obtain ⟨sorted, hsorted, hlist'⟩ := exists_listed hms hexcluded hlist.resolves
    rw [hsorted, eq_of_before (hlist'.isName hms) hlist'.ordered hlist.ordered fun a => by
      rw [hlist'.mem_iff, hlist.mem_iff]]

theorem exists_locations_iff (hms : ∀ m ∈ ms, m.file.IsName) :
    (∃ locations, ofWorkspace tree currentFile run ms = .ok locations) ↔
      ∃ excluded, leftOut tree currentFile = .ok excluded ∧
        ∀ s ∈ firstSeen ms, Resolves tree excluded s := by
  constructor
  · rintro ⟨locations, h⟩
    obtain ⟨excluded, hexcluded, hlist⟩ := (ofWorkspace_ok_iff hms).mp h
    exact ⟨excluded, hexcluded, hlist.resolves⟩
  · rintro ⟨excluded, hexcluded, hresolves⟩
    obtain ⟨sorted, hsorted, -⟩ := exists_listed hms hexcluded hresolves
    exact ⟨sorted, hsorted⟩

/-- Only the paths that are asked about keep matches in named files from being locations. -/
theorem exists_of_ofWorkspace {f : LocationFault} (hms : ∀ m ∈ ms, m.file.IsName)
    (h : ofWorkspace tree currentFile run ms = .error f) :
    ∃ file name g, currentFile = some file ∧ file ≠ "" ∧ f = .path g ∧
      (name = .text file ∨ name ∈ firstSeen ms) ∧ tree.resolve (.ofRaw name) = .error g := by
  obtain ⟨found, hfound, -⟩ := Match.bestPerFile_forall₂ (exists_name hms)
  have hof : (ofMatches tree currentFile found run).1 = .error f := by
    simpa only [ofWorkspace, hfound] using h
  cases stopped_ofMatches hof with
  | @path file name g hfile hne hname hresolve =>
    refine ⟨file, name, g, hfile, hne, rfl, hname.imp_right ?_, hresolve⟩
    rintro ⟨m, hm, hname⟩
    exact Match.mem_firstSeen.mpr ⟨m, Match.mem_of_bestPerFile hfound hm, hname⟩
  | name hm hv =>
    obtain ⟨t, -, ht⟩ := isName_bestPerFile hms hfound _ hm
    cases hv.symm.trans ht

/-- Lists that agree in every file have the same locations. -/
theorem ofWorkspace_congr (hms : ∀ m ∈ ms, m.file.IsName) (hms' : ∀ m ∈ ms', m.file.IsName)
    (hagree : ∀ s, AgreeIn ms ms' s) :
    ofWorkspace tree currentFile run ms = .ok locations ↔
      ofWorkspace tree currentFile run ms' = .ok locations := by
  rw [ofWorkspace_ok_iff hms, ofWorkspace_ok_iff hms']
  refine exists_congr fun excluded => and_congr_right fun _ => ?_
  have hseen := fun s => (hagree s).mem_firstSeen_iff (exists_name hms) (exists_name hms')
  have hcontributes : ∀ s a, Contributes tree excluded ms s a ↔ Contributes tree excluded ms' s a :=
    fun s => contributes_congr (hagree s)
  constructor
  · rintro ⟨hresolves, hordered, hmem⟩
    refine ⟨fun s hs => hresolves s ((hseen s).mpr hs), hordered, fun a => ?_⟩
    simp only [hmem, hcontributes]
  · rintro ⟨hresolves, hordered, hmem⟩
    refine ⟨fun s hs => hresolves s ((hseen s).mp hs), hordered, fun a => ?_⟩
    simp only [hmem, hcontributes]

/-- Lists that agree in every file but one have the same locations in the others, unless the path of
the one file cannot be resolved where there is a current file to leave out. -/
theorem ofWorkspace_of_agree (hms : ∀ m ∈ ms, m.file.IsName) (hms' : ∀ m ∈ ms', m.file.IsName)
    (hagree : ∀ t, t ≠ s → AgreeIn ms ms' t)
    (h : ofWorkspace tree currentFile run ms = .ok locations) :
    (∃ locations', ofWorkspace tree currentFile run ms' = .ok locations' ∧
      locations'.filter (!·.file.same (.name s)) = locations.filter (!·.file.same (.name s))) ∨
    ∃ file f, currentFile = some file ∧ file ≠ "" ∧ s ∈ firstSeen ms' ∧
      tree.resolve (.ofRaw s) = .error f ∧
      ofWorkspace tree currentFile run ms' = .error (.path f) := by
  obtain ⟨excluded, hexcluded, hlist⟩ := (ofWorkspace_ok_iff hms).mp h
  cases h' : ofWorkspace tree currentFile run ms' with
  | ok locations' =>
    refine .inl ⟨locations', rfl, ?_⟩
    obtain ⟨excluded', hexcluded', hlist'⟩ := (ofWorkspace_ok_iff hms').mp h'
    obtain rfl := Except.ok.inj (hexcluded.symm.trans hexcluded')
    refine eq_of_before (fun a ha => hlist'.isName hms' a (List.mem_of_mem_filter ha))
      (hlist'.ordered.filter _) (hlist.ordered.filter _) fun a => ?_
    rw [List.mem_filter, List.mem_filter, hlist'.mem_iff, hlist.mem_iff]
    refine and_congr_left fun hother => exists_congr fun t => ?_
    -- What stands in another file is given by the matches there.
    by_cases hts : t = s
    · subst hts
      constructor
      · intro hcontributes
        simp [hcontributes.file_eq (exists_name hms')] at hother
      · intro hcontributes
        simp [hcontributes.file_eq (exists_name hms)] at hother
    · exact (contributes_congr (hagree t hts) a).symm
  | error f =>
    obtain ⟨file, name, g, hfile, hne, rfl, hname, hresolve⟩ := exists_of_ofWorkspace hms' h'
    have hleft : leftOut tree currentFile = (tree.resolve (.ofString file)).map some := by
      simp [leftOut, hfile, hne]
    have hname : name ∈ firstSeen ms' := by
      refine hname.resolve_left ?_
      rintro rfl
      simp only [Path.ofRaw] at hresolve
      simp [hleft, hresolve, Except.map] at hexcluded
    have hsome : excluded ≠ none := by
      rintro rfl
      rw [hleft] at hexcluded
      cases hreal : tree.resolve (.ofString file) <;> simp [hreal, Except.map] at hexcluded
    -- The path of any other file has been resolved before.
    obtain rfl : name = s := by
      by_contra hns
      have hseen := ((hagree name hns).mem_firstSeen_iff (exists_name hms)
        (exists_name hms')).mpr hname
      obtain ⟨path, hpath⟩ := (hlist.resolves name hseen).resolve_left hsome
      simp [hpath] at hresolve
    exact .inr ⟨file, g, hfile, hne, hname, hresolve, rfl⟩

/-- Files do not interfere but for a path that cannot be resolved. Each file that has a match gets
the best of its own, where it is first seen, and to take the best of these changes nothing. There
are locations just if the paths that are asked about can be resolved; they are the same for lists
that agree in every file, and lists that agree in every file but one have the same in the others, or
the path of that file stops them all. -/
theorem ofWorkspace_filesApart (tree : FileTree) (currentFile : Option String) (run : Run)
    (ms : List Match) (hms : ∀ m ∈ ms, m.file.IsName) :
    (∃ found, bestPerFile ms = .ok found ∧
      List.Forall₂ (IsBestIn ms) (firstSeen ms) found ∧ bestPerFile found = .ok found) ∧
    ((∃ locations, ofWorkspace tree currentFile run ms = .ok locations) ↔
      ∃ excluded, leftOut tree currentFile = .ok excluded ∧
        ∀ s ∈ firstSeen ms, Resolves tree excluded s) ∧
    ∀ ms', (∀ m ∈ ms', m.file.IsName) →
      ((∀ s, AgreeIn ms ms' s) → ∀ locations,
        ofWorkspace tree currentFile run ms = .ok locations ↔
          ofWorkspace tree currentFile run ms' = .ok locations) ∧
      ∀ s, (∀ t, t ≠ s → AgreeIn ms ms' t) → ∀ locations,
        ofWorkspace tree currentFile run ms = .ok locations →
        (∃ locations', ofWorkspace tree currentFile run ms' = .ok locations' ∧
          locations'.filter (!·.file.same (.name s)) =
            locations.filter (!·.file.same (.name s))) ∨
        ∃ file f, currentFile = some file ∧ file ≠ "" ∧ s ∈ firstSeen ms' ∧
          tree.resolve (.ofRaw s) = .error f ∧
          ofWorkspace tree currentFile run ms' = .error (.path f) := by
  obtain ⟨found, hfound, hbest⟩ := Match.bestPerFile_forall₂ (exists_name hms)
  refine ⟨⟨found, hfound, hbest, ?_⟩, ?_, fun ms' hms' => ⟨fun hagree locations => ?_, ?_⟩⟩
  · exact Match.bestPerFile_of_nodup (exists_name (isName_bestPerFile hms hfound))
      (Match.nodup_bestPerFile (exists_name hms) hfound)
  · exact exists_locations_iff hms
  · exact ofWorkspace_congr hms hms' hagree
  · exact fun s hagree locations => ofWorkspace_of_agree hms hms' hagree

/-- A directory with three files and a link that leads to itself. -/
def loopTree : FileTree where
  top := .dir [("A.hs", .file []), ("B.hs", .file []), ("C.hs", .file []),
    ("loop.hs", .link "loop.hs")]
  cwd := []

theorem resolve_loopTree {name : String} (h : name = "A.hs" ∨ name = "B.hs" ∨ name = "C.hs") :
    loopTree.resolve (.ofString name) = .ok (.absolute [name]) := by
  have hsound : loopTree.top.isSound = true := by decide
  have hpath : Path.ofString name = ⟨"", [name]⟩ := by
    rcases h with rfl | rfl | rfl <;> decide
  have hstat : loopTree.stat ⟨"", [name]⟩ = .ok ([name], .file []) := by
    have hlong : FileTree.isTooLong name = false := by rcases h with rfl | rfl | rfl <;> decide
    rcases h with rfl | rfl | rfl <;>
      simp [FileTree.stat, FileTree.walk, FileTree.start, Path.isAbsolute, FileTree.node?,
        loopTree, Node.at?, Node.child?, hlong]
  rw [hpath]
  exact FileTree.resolve_of_stat hsound (by simp) hstat

theorem targetFrom_loop : FileTree.targetFrom [] "loop.hs" = ([], ["loop.hs"]) := by
  have hnames : (Text.splitAt '/' "loop.hs".toList).map String.ofList = ["loop.hs"] := by decide
  simp only [FileTree.targetFrom, hnames]
  simp

section Loop
variable (hlink : tree.top.child? "loop.hs" = some (.link "loop.hs"))
include hlink

/-- However many links are followed, the link leads on. -/
theorem walk_loop (links : Nat) : tree.walk links true [] ["loop.hs"] = .error .tooManyLinks := by
  have hlong : FileTree.isTooLong "loop.hs" = false := by decide
  obtain ⟨entries, htop⟩ : ∃ entries, tree.top = .dir entries := by
    cases htop : tree.top with
    | dir entries => exact ⟨entries, rfl⟩
    | file bytes => simp [htop, Node.child?] at hlink
    | link target => simp [htop, Node.child?] at hlink
  have hnode : tree.node? [] = some (.dir entries) := congrArg some htop
  rw [htop] at hlink
  induction links with
  | zero => simp [FileTree.walk, hnode, hlong, hlink]
  | succ links ih => simp [FileTree.walk, hnode, hlong, hlink, targetFrom_loop, ih]

theorem resolve_ofString_loop (hcwd : tree.cwd = []) :
    tree.resolve (.ofString "loop.hs") = .error (.loop "/loop.hs") := by
  have hpath : Path.ofString "loop.hs" = ⟨"", ["loop.hs"]⟩ := by decide
  have hstart : ∀ parts, tree.start ⟨"", parts⟩ = [] := fun _ => hcwd
  have hhere : tree.namesOf ⟨"", []⟩ = [] := by
    simp only [FileTree.namesOf, hstart]
    rfl
  have hnames : tree.namesOf ⟨"", ["loop.hs"]⟩ = ["loop.hs"] := by
    simp only [FileTree.namesOf, hstart]
    decide
  have hchild : Path.child ⟨"", []⟩ "loop.hs" = ⟨"", ["loop.hs"]⟩ := by decide
  have hnode : tree.node? ["loop.hs"] = some (.link "loop.hs") := by
    simp [FileTree.node?, Node.at?, hlink]
  have hreal : tree.realFrom FileTree.resolveLimit [] ⟨"", []⟩ [.name "loop.hs"] =
      ⟨"", ["loop.hs"]⟩ := by
    rw [FileTree.resolveLimit,
      FileTree.realFrom_follow (by decide) (by rw [hchild, hnames]; exact hnode) (by simp), hhere,
      targetFrom_loop]
    simp [FileTree.targetStart, FileTree.realFrom, hchild, hnames, hnode]
    rfl
  have hstat : tree.stat (.absolute ["loop.hs"]) = .error .tooManyLinks := walk_loop hlink 40
  have hnull : Path.holdsNull ⟨"", ["loop.hs"]⟩ = false := by decide
  rw [hpath]
  simp only [FileTree.resolve, Path.isAbsolute, List.map_cons, List.map_nil,
    show (!("" : String).isEmpty) = false from rfl, Bool.false_eq_true, ↓reduceIte, hnull, hreal,
    hnames, hstat]
  decide

end Loop

theorem resolve_loop : loopTree.resolve (.ofString "loop.hs") = .error (.loop "/loop.hs") :=
  resolve_ofString_loop rfl rfl

/-- A match of a leaf in the given file. -/
def leafIn (name : String) (kind : Kind) (line : Nat) : Match :=
  ⟨kind, .named name, line, Text.of "leaf"⟩

/-- Matches of three files, mixed. -/
def mixedLeaves : List Match :=
  [leafIn "A.hs" .assignment 3, leafIn "C.hs" .assignment 0, leafIn "B.hs" .signatureSameLine 1,
    leafIn "A.hs" .signatureSameLine 5]

/-- The same matches, file by file. -/
def groupedLeaves : List Match :=
  [leafIn "B.hs" .signatureSameLine 1, leafIn "A.hs" .assignment 3,
    leafIn "A.hs" .signatureSameLine 5, leafIn "C.hs" .assignment 0]

/-- The same matches but for one file, where another was found. -/
def changedLeaves : List Match :=
  [leafIn "B.hs" .assignment 7, leafIn "A.hs" .assignment 3, leafIn "A.hs" .signatureSameLine 5,
    leafIn "C.hs" .assignment 0]

theorem isName_leafIn (name : String) (kind : Kind) (line : Nat) :
    (leafIn name kind line).file.IsName := FileLabel.isName_named name

theorem filter_leafIn (name : String) (kind : Kind) (line : Nat) (rest : List Match) (s : RawText) :
    (leafIn name kind line :: rest).filter (·.file.same (.name s)) =
      if s = .text name then leafIn name kind line :: rest.filter (·.file.same (.name s))
      else rest.filter (·.file.same (.name s)) := by
  by_cases hs : s = .text name
  · simp [leafIn, FileLabel.named, hs]
  · simp [leafIn, FileLabel.named, hs, Ne.symm hs]

theorem leftOut_loopTree : leftOut loopTree (some "C.hs") = .ok (some (.absolute ["C.hs"])) := by
  have hc := resolve_loopTree (.inr (.inr rfl))
  simp [leftOut, hc, Except.map]

/-- Locations that come in order stay as they are. -/
theorem sort_eq_self (hnames : ∀ a ∈ locations, a.file.IsName)
    (hordered : locations.Pairwise fun a b => (!b.file.before a.file) = true) :
    sort locations = .ok locations := by
  rw [sort, firstUnordered_names hnames, List.mergeSort_of_pairwise hordered]

theorem ofWorkspace_mixedLeaves (run : Run) :
    ofWorkspace loopTree (some "C.hs") run mixedLeaves =
      .ok [ofMatch (leafIn "A.hs" .signatureSameLine 5),
        ofMatch (leafIn "B.hs" .signatureSameLine 1)] := by
  have hbest : bestPerFile mixedLeaves = .ok [leafIn "A.hs" .signatureSameLine 5,
      leafIn "C.hs" .assignment 0, leafIn "B.hs" .signatureSameLine 1] := rfl
  have hkept : (distinct loopTree (some (.absolute ["C.hs"])) []
      [leafIn "A.hs" .signatureSameLine 5, leafIn "C.hs" .assignment 0,
        leafIn "B.hs" .signatureSameLine 1]).1 =
      .ok [leafIn "A.hs" .signatureSameLine 5, leafIn "B.hs" .signatureSameLine 1] := by
    have ha := resolve_loopTree (.inl rfl)
    have hb := resolve_loopTree (.inr (.inl rfl))
    have hc := resolve_loopTree (.inr (.inr rfl))
    have hac : (Path.absolute ["A.hs"] == Path.absolute ["C.hs"]) = false := by decide
    have hbc : (Path.absolute ["B.hs"] == Path.absolute ["C.hs"]) = false := by decide
    simp [distinct, isIn, keyOf, Path.ofRaw, leafIn, FileLabel.named, ha, hb, hc, hac, hbc,
      samePlace, Except.map]
  simp only [ofWorkspace, hbest]
  rw [ofMatches_eq]
  simp only [leftOut_loopTree, hkept, Except.bind]
  exact sort_eq_self (by simp [ofMatch, ofMatchIn, isName_leafIn]) (by decide)

/-- However the matches come mixed, the locations are the same, and another match in one file leaves
the other as it was. -/
theorem ofWorkspace_filesApart_leaves :
    (∀ m ∈ mixedLeaves, m.file.IsName) ∧ (∀ m ∈ groupedLeaves, m.file.IsName) ∧
    (∀ m ∈ changedLeaves, m.file.IsName) ∧ (∀ s, AgreeIn mixedLeaves groupedLeaves s) ∧
    (∀ s, s ≠ .text "B.hs" → AgreeIn mixedLeaves changedLeaves s) ∧
    ofWorkspace loopTree (some "C.hs") .fresh groupedLeaves =
      .ok [ofMatch (leafIn "A.hs" .signatureSameLine 5),
        ofMatch (leafIn "B.hs" .signatureSameLine 1)] ∧
    ∃ locations, ofWorkspace loopTree (some "C.hs") .fresh changedLeaves = .ok locations ∧
      locations.filter (!·.file.same (.name (.text "B.hs"))) =
        [ofMatch (leafIn "A.hs" .signatureSameLine 5)] := by
  have hmixed : ∀ m ∈ mixedLeaves, m.file.IsName := by
    simp [mixedLeaves, isName_leafIn]
  have hgrouped : ∀ m ∈ groupedLeaves, m.file.IsName := by
    simp [groupedLeaves, isName_leafIn]
  have hchanged : ∀ m ∈ changedLeaves, m.file.IsName := by
    simp [changedLeaves, isName_leafIn]
  have hagree : ∀ s, AgreeIn mixedLeaves groupedLeaves s := by
    intro s
    simp only [AgreeIn, mixedLeaves, groupedLeaves, filter_leafIn, List.filter_nil]
    split_ifs <;> simp_all
  have hothers : ∀ s, s ≠ .text "B.hs" → AgreeIn mixedLeaves changedLeaves s := by
    intro s hs
    simp only [AgreeIn, mixedLeaves, changedLeaves, filter_leafIn, List.filter_nil]
    split_ifs <;> simp_all
  have hapart := (ofWorkspace_filesApart loopTree (some "C.hs") .fresh mixedLeaves hmixed).2.2
  have hlocations := ofWorkspace_mixedLeaves .fresh
  refine ⟨hmixed, hgrouped, hchanged, hagree, hothers, ?_, ?_⟩
  · exact ((hapart groupedLeaves hgrouped).1 hagree _).mp hlocations
  · rcases (hapart changedLeaves hchanged).2 _ hothers _ hlocations with h | h
    · exact h
    · obtain ⟨_, f, -, -, -, hresolve, -⟩ := h
      rw [Path.ofRaw, resolve_loopTree (.inr (.inl rfl))] at hresolve
      cases hresolve

/-- A match in a file whose path leads in a circle takes the location in another file away. -/
theorem ofWorkspace_loop :
    (∀ s, s ≠ .text "loop.hs" → AgreeIn [leafIn "A.hs" .assignment 0]
      [leafIn "A.hs" .assignment 0, leafIn "loop.hs" .assignment 2] s) ∧
    ofWorkspace loopTree (some "C.hs") .fresh [leafIn "A.hs" .assignment 0] =
      .ok [ofMatch (leafIn "A.hs" .assignment 0)] ∧
    ofWorkspace loopTree (some "C.hs") .fresh
        [leafIn "A.hs" .assignment 0, leafIn "loop.hs" .assignment 2] =
      .error (.path (.loop "/loop.hs")) := by
  have ha := resolve_loopTree (.inl rfl)
  have hac : (Path.absolute ["A.hs"] == Path.absolute ["C.hs"]) = false := by decide
  have hone : bestPerFile [leafIn "A.hs" .assignment 0] = .ok [leafIn "A.hs" .assignment 0] := rfl
  have htwo : bestPerFile [leafIn "A.hs" .assignment 0, leafIn "loop.hs" .assignment 2] =
      .ok [leafIn "A.hs" .assignment 0, leafIn "loop.hs" .assignment 2] := rfl
  refine ⟨fun s hs => ?_, ?_, ?_⟩
  · simp only [AgreeIn, filter_leafIn, List.filter_nil, hs, ↓reduceIte]
  · simp only [ofWorkspace, hone]
    rw [ofMatches_eq, leftOut_loopTree]
    simp [distinct, isIn, keyOf, Path.ofRaw, leafIn, FileLabel.named, ha, hac, Except.map,
      Except.bind, sort, firstUnordered]
  · simp only [ofWorkspace, htwo]
    rw [ofMatches_eq, leftOut_loopTree]
    simp [distinct, isIn, keyOf, Path.ofRaw, leafIn, FileLabel.named, ha, hac, resolve_loop,
      Except.map, Except.bind]

end Location

/-- What a look-up answers from a workspace that was searched to the end. -/
theorem Locator.inWorkspace_found {l : Locator} {identifier : Text} {request : Request}
    {run now : Run} {root : Path} {cs : List Match} (hroot : request.root = some root)
    (hsearch : searchAll l.engine identifier
      (.directory root (globsOf request.globs) l.skipDirs)
      (run.say .debug ("Not found in current buffer, searching " ++ root.toString ++ " in: " ++
        ", ".intercalate (globsOf request.globs))) = (.ok (.found cs), now))
    (hrunning : now.cancelled = false) :
    (inWorkspace l identifier request run).1 =
      .answer ((Location.ofWorkspace l.tree request.currentFile now cs).mapError .location) := by
  unfold inWorkspace
  simp only [hroot, hsearch, hrunning, Bool.false_eq_true, ↓reduceIte, Location.ofWorkspace]
  cases Match.bestPerFile cs <;> rfl

end DefinitionSite
