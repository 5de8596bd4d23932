import DefinitionSite.Proofs.FileTree.Asking
import DefinitionSite.Proofs.FileTree.Sources
import DefinitionSite.Proofs.Locator.Absent
import DefinitionSite.Proofs.Locator.Directory

/-! A look-up in a workspace agrees with the look-ups in the texts of its files: a location for each
source file that can be read, is not the current one and whose text alone has an answer, in the
order of the file names. -/
namespace DefinitionSite
open FileLabel
open scoped List

/-- The place of the answer in a file, if it can be read and is not the excluded one. -/
def Location.hitIn (tree : FileTree) (lookUp : Text → Option Match) (excluded : Option Path)
    (p : Path) : Option Location :=
  match tree.readText p with
  | .error _ => none
  | .ok text =>
    if excluded.any fun other => (tree.resolve p).toOption == some other then none
    else (lookUp text).map (.ofMatchIn (named p.toString))

variable {tree : FileTree} {root : Path} {globs skipDirs : List String}

theorem keyOf_sourceFile (hsound : tree.Sound) (hroot : root.Spelled) {p : Path}
    (hp : p ∈ tree.sourceFiles root globs skipDirs) {real : Path}
    (hreal : tree.resolve p = .ok real) :
    Location.keyOf tree (named p.toString) = .ok real := by
  have hback := Path.ofString_toString (FileTree.spelled_sourceFile hsound hroot hp)
  simp only [named, Location.keyOf, Path.ofRaw, hback, hreal]

theorem nodup_readable (hsound : tree.Sound) (hroot : root.Spelled) (globs skipDirs : List String) :
    ((tree.readable (tree.sourceFiles root globs skipDirs)).map (·.1.toString)).Nodup := by
  have hsub := (tree.readable_sublist (tree.sourceFiles root globs skipDirs)).map Path.toString
  rw [List.map_map] at hsub
  exact hsub.nodup (FileTree.nodup_sourceFiles hsound hroot)

theorem nodup_answers (hsound : tree.Sound) (hroot : root.Spelled) (lookUp : Text → Option Match) :
    ((answers lookUp (tree.readable (tree.sourceFiles root globs skipDirs))).map
      (·.file)).Nodup := by
  apply (answers_sublist lookUp _).nodup
  have hnamed := (nodup_readable hsound hroot globs skipDirs).map fun s t h => named_inj h
  rwa [List.map_map] at hnamed

/-- The answers that are not in the excluded file stand for the hits. -/
theorem answers_hits {files : List Path} {real : FileLabel → Path} (lookUp : Text → Option Match)
    (hreal : ∀ p ∈ files, ∀ text, tree.readText p = .ok text →
      tree.resolve p = .ok (real (named p.toString))) (excluded : Option Path) :
    ((answers lookUp (tree.readable files)).filter fun m => !excluded.any (real m.file == ·)).map
        Location.ofMatch = files.filterMap (Location.hitIn tree lookUp excluded) := by
  unfold answers FileTree.readable
  rw [List.filterMap_filterMap, List.filter_filterMap, List.map_filterMap]
  apply List.filterMap_congr
  intro p hp
  unfold Location.hitIn
  cases hread : tree.readText p with
  | error e => rfl
  | ok text =>
    have hresolve := hreal p hp text hread
    simp only [hresolve, Except.toOption, Option.map_some, Option.bind_some]
    by_cases hother : excluded.any (real (named p.toString) == ·) = true
    · cases lookUp text <;> simp [Match.inFile, hother]
    · cases lookUp text <;> simp [Match.inFile, hother, Location.ofMatch, Location.ofMatchIn]

/-- The locations of the answers in the source files below a directory. -/
theorem ofMatches_answers (hsound : tree.Sound) (hroot : root.Spelled)
    (lookUp : Text → Option Match) {ms : List Match}
    (hms : ms ~ answers lookUp (tree.readable (tree.sourceFiles root globs skipDirs)))
    (currentFile : Option String) (run : Run) :
    match Location.leftOut tree currentFile with
    | .error f => (Location.ofMatches tree currentFile ms run).1 = .error (.path f)
    | .ok excluded => ∃ found, (Location.ofMatches tree currentFile ms run).1 = .ok found ∧
        found ~ (tree.sourceFiles root globs skipDirs).filterMap
          (Location.hitIn tree lookUp excluded) ∧
        found.Pairwise fun a b => a.file.before b.file = true := by
  obtain ⟨real, hreal⟩ : ∃ real : FileLabel → Path, ∀ p ∈ tree.sourceFiles root globs skipDirs,
      ∀ text, tree.readText p = .ok text → tree.resolve p = .ok (real (named p.toString)) ∧
        Location.keyOf tree (named p.toString) = .ok (real (named p.toString)) := by
    refine ⟨fun file => (Location.keyOf tree file).toOption.getD default, fun p hp text hread => ?_⟩
    obtain ⟨path, hpath⟩ := FileTree.exists_resolve_of_readText hsound hread
    have hkey := keyOf_sourceFile hsound hroot hp hpath
    simp only [hkey]
    exact ⟨hpath, rfl⟩
  have hnames : ∀ m ∈ ms, ∃ s, m.file = named s := by
    intro m hm
    obtain ⟨p, -, -, -, hfile⟩ := mem_answers (hms.mem_iff.mp hm)
    exact ⟨p.toString, hfile⟩
  have hkeys : ∀ m ∈ ms, Location.keyOf tree m.file = .ok (real m.file) := by
    intro m hm
    obtain ⟨p, hp, text, hread, hfile⟩ := mem_answers (hms.mem_iff.mp hm)
    rw [hfile]
    exact (hreal p hp text hread).2
  have hnodup := (hms.map (·.file)).nodup_iff.mpr (nodup_answers hsound hroot lookUp)
  have hlocations := Location.ofMatches_names hnames hkeys hnodup currentFile run
  cases hexcluded : Location.leftOut tree currentFile with
  | error f =>
    rw [hexcluded] at hlocations
    exact hlocations
  | ok excluded =>
    rw [hexcluded] at hlocations
    obtain ⟨found, hfound, hperm, hsorted⟩ := hlocations
    refine ⟨found, hfound, ?_, hsorted⟩
    rw [← answers_hits lookUp (fun p hp text hread => (hreal p hp text hread).1) excluded]
    exact hperm.trans ((hms.filter _).map _)

namespace Locator

/-- The answer of the look-up in a text alone. -/
def answerIn (l : Locator) (identifier : Option Text) (run : Run) (text : Text) : Option Match :=
  match (findInText l.engine identifier (some text) run).1 with
  | .ok answer => answer
  | .error _ => none

/-- What a look-up in the workspace has to give: the fault of the current file's path, or a location
for each hit in the source files, in the order of their names. -/
def IsLookUp (l : Locator) (request : Request) (root : Path) (run : Run)
    (result : Except LocateFault (List Location)) : Prop :=
  match Location.leftOut l.tree request.currentFile with
  | .error f => result = .error (.location (.path f))
  | .ok excluded => ∃ found, result = .ok found ∧
      found ~ (l.tree.sourceFiles root (globsOf request.globs) l.skipDirs).filterMap
        (Location.hitIn l.tree (l.answerIn request.identifier run) excluded) ∧
      found.Pairwise fun a b => a.file.before b.file = true

variable {l : Locator} {request : Request} {run : Run}

theorem isLookUp_ofMatches (hsound : l.tree.Sound) (hroot : root.Spelled) {ms : List Match}
    (hms : ms ~ answers (l.answerIn request.identifier run)
      (l.tree.readable (l.tree.sourceFiles root (globsOf request.globs) l.skipDirs)))
    (after : Run) :
    IsLookUp l request root run
      ((Location.ofMatches l.tree request.currentFile ms after).1.mapError .location) := by
  have hlocations := ofMatches_answers hsound hroot _ hms request.currentFile after
  unfold IsLookUp
  cases hexcluded : Location.leftOut l.tree request.currentFile with
  | error f =>
    rw [hexcluded] at hlocations
    simp only [hlocations]
    rfl
  | ok excluded =>
    rw [hexcluded] at hlocations
    obtain ⟨found, hfound, hperm, hsorted⟩ := hlocations
    exact ⟨found, by rw [hfound]; rfl, hperm, hsorted⟩

theorem answerIn_absent (habsent : l.engine.Absent) (hname : wanted request.identifier ≠ [])
    (hrun : run.Undisturbed) :
    l.answerIn request.identifier run = scanText (wanted request.identifier) := by
  funext text
  unfold answerIn
  rw [findInText_absent habsent hname (some text) hrun]
  by_cases htext : text = []
  · subst htext
    rfl
  · simp [someText, Option.filter, htext]

theorem scanDirectory_answers (hdir : tree.askDir root = .ok true) (globs skipDirs : List String)
    (identifier : Text) {now : Run} (hnow : now.Undisturbed) :
    ∃ after, LineScan.scanDirectory tree identifier root globs skipDirs now =
      (.ok (answers (scanText identifier) (tree.readable (tree.sourceFiles root globs skipDirs))),
        after) ∧ after.Undisturbed := by
  obtain ⟨after, hscan, hafter⟩ := scanFiles_readable tree identifier [] hnow
    (tree.sourceFiles root globs skipDirs)
  refine ⟨after, ?_, hafter⟩
  unfold LineScan.scanDirectory
  simp only [hdir, hscan, List.nil_append]

/-- The line scan of a workspace, when there is no answer in the buffer. -/
theorem locateByScan_isLookUp (hsound : l.tree.Sound) (hroot : root.Spelled)
    (hsome : request.root = some root) (hdir : l.tree.askDir root = .ok true)
    (hname : wanted request.identifier ≠ []) (habsent : l.engine.Absent) (hrun : run.Undisturbed)
    (hbuffer : (findInText l.engine request.identifier request.buffer run).1 = .ok none)
    {now : Run} (hnow : now.Undisturbed) :
    IsLookUp l request root run (locateByScan l (wanted request.identifier) request now).1 := by
  rw [findInText_absent habsent hname request.buffer hrun] at hbuffer
  have hnone : ((someText request.buffer).bind fun text =>
      Match.best (LineScan.scan (wanted request.identifier) text .buffer)) = none :=
    Except.ok.inj hbuffer
  obtain ⟨after, hscan, hafter⟩ := scanDirectory_answers hdir (globsOf request.globs) l.skipDirs
    (wanted request.identifier) hnow
  unfold locateByScan
  simp only [hnone, hsome, hnow.running, hscan, hafter.running, Bool.and_false, Bool.false_eq_true,
    ↓reduceIte]
  apply isLookUp_ofMatches hsound hroot
  rw [answerIn_absent habsent hname hrun]

/-- An engine that turns out to be absent leaves the work to the line scan. -/
theorem locateByEngine_absent (habsent : l.engine.Absent) (havailable : l.engine.available = true)
    (hsome : request.root = some root) (identifier : Text) (hrun : run.Undisturbed) :
    ∃ why now, locateByEngine l identifier request run = (.scan why, now) ∧ now.Undisturbed := by
  have hsearch := fun source {now : Run} (hnow : now.Undisturbed) =>
    searchAll_absent habsent havailable identifier source hnow
  unfold locateByEngine inBuffer
  cases someText request.buffer with
  | none =>
    unfold inWorkspace
    simp only [hsome]
    generalize hsay : run.say .debug _ = start
    have hstart : start.Undisturbed := hsay ▸ hrun.say _ _
    obtain ⟨why, now, hall, hnow⟩ := hsearch
      (.directory root (globsOf request.globs) l.skipDirs) hstart
    exact ⟨why, now, by simp only [hall], hnow⟩
  | some text =>
    simp only
    generalize hsay : run.say .debug _ = start
    have hstart : start.Undisturbed := hsay ▸ hrun.say _ _
    obtain ⟨why, now, hall, hnow⟩ := hsearch (.buffer text) hstart
    exact ⟨why, now, by simp only [hall], hnow⟩

section Engine

variable {timeout : Float}

theorem answerIn_inProcess (hengine : l.engine = InProcess.engine l.tree timeout)
    (hname : wanted request.identifier ≠ []) :
    l.answerIn request.identifier run =
      fun text => (Catalog.foundAll (wanted request.identifier) text none).head? := by
  funext text
  unfold answerIn
  rw [hengine, findInText_inProcess l.tree timeout hname]

/-- Without an answer in the buffer the look-up goes on to the workspace. -/
theorem inBuffer_goOn (hengine : l.engine = InProcess.engine l.tree timeout)
    (hname : wanted request.identifier ≠ []) (hrun : run.Undisturbed)
    (hbuffer : (findInText l.engine request.identifier request.buffer run).1 = .ok none) :
    ∃ after, inBuffer l (wanted request.identifier) request run = (.goOn, after) ∧
      after.Undisturbed ∧ after.clock = run.clock := by
  unfold inBuffer
  cases htext : someText request.buffer with
  | none => exact ⟨run, rfl, hrun, rfl⟩
  | some text =>
    have hfound : (Catalog.foundAll (wanted request.identifier) text none).head? = none := by
      have hgiven : request.buffer = some text := (Option.filter_eq_some_iff.mp htext).1
      rw [hengine, hgiven, findInText_inProcess l.tree timeout hname] at hbuffer
      exact Except.ok.inj hbuffer
    have htick : ∀ before : Run, before.Undisturbed ∧ before.clock = run.clock →
        before.tick.Undisturbed ∧ before.tick.clock = run.clock :=
      fun _ hbefore => ⟨hbefore.1.tick, hbefore.2⟩
    simp only
    generalize hsay : run.say .debug _ = start
    have hstart : start.Undisturbed ∧ start.clock = run.clock := hsay ▸ ⟨hrun.say _ _, rfl⟩
    obtain ⟨after, hall, hafter⟩ := searchAll_buffer l.tree timeout htick
      (wanted request.identifier) text start hstart
    refine ⟨after, ?_, hafter⟩
    simp only [hengine, hall, hafter.1.running, Bool.false_eq_true, ↓reduceIte, best_foundAll,
      hfound]

/-- The search of a workspace with the in-process engine. -/
theorem inWorkspace_isLookUp (run : Run) (hsound : l.tree.Sound) (hroot : root.Spelled)
    (hsome : request.root = some root) (hdir : l.tree.askDir root = .ok true)
    (hengine : l.engine = InProcess.engine l.tree timeout) (hname : wanted request.identifier ≠ [])
    {now : Run} (hnow : now.Undisturbed)
    (htime : (Deadline.startingAt now.clock timeout).expired now.clock = false) :
    ∃ result after,
      inWorkspace l (wanted request.identifier) request now = (.answer result, after) ∧
        IsLookUp l request root run result := by
  unfold inWorkspace
  simp only [hsome]
  generalize hsay : now.say .debug _ = start
  have hstart : start.Undisturbed ∧ start.clock = now.clock := hsay ▸ ⟨hnow.say _ _, rfl⟩
  rw [← hstart.2] at htime
  obtain ⟨after, hall, hafter⟩ := searchAll_directory (wanted request.identifier) hdir
    (globsOf request.globs) l.skipDirs hstart.1 htime
  obtain ⟨found, hbest, hperm⟩ := bestPerFile_answers (wanted request.identifier)
    (nodup_readable hsound hroot (globsOf request.globs) l.skipDirs)
  simp only [hengine, hall, hafter.running, Bool.false_eq_true, ↓reduceIte, hbest]
  refine ⟨_, _, rfl, ?_⟩
  apply isLookUp_ofMatches hsound hroot
  rw [answerIn_inProcess hengine hname]
  exact hperm

end Engine

/-- An engine whose work nothing cuts short: the in-process one while its time is not over, or one
that is absent, so that the line scan stands in. -/
def Steady (l : Locator) (run : Run) : Prop :=
  (∃ timeout, l.engine = InProcess.engine l.tree timeout ∧
    (Deadline.startingAt run.clock timeout).expired run.clock = false) ∨
  l.engine.Absent

/-- The look-up in a workspace agrees with the look-ups in the texts of its files. -/
theorem locate_isLookUp (l : Locator) (request : Request) (run : Run) (root : String)
    (hsound : l.tree.Sound) (hsteady : l.Steady run) (hrun : run.Undisturbed)
    (hname : wanted request.identifier ≠ []) (hroot : request.root = some (.ofString root))
    (hdir : l.tree.askDir (.ofString root) = .ok true)
    (hbuffer : (findInText l.engine request.identifier request.buffer run).1 = .ok none) :
    IsLookUp l request (.ofString root) run (locate l request run).1 := by
  have hspelled := Path.spelled_ofString root
  have hempty : (wanted request.identifier).isEmpty = false := by simpa using hname
  unfold locate
  simp only [hempty, Bool.false_eq_true, ↓reduceIte]
  rcases hsteady with ⟨timeout, hengine, htime⟩ | habsent
  · have havailable : l.engine.available = true := by rw [hengine]; rfl
    obtain ⟨now, hgoOn, hnow, hclock⟩ := inBuffer_goOn hengine hname hrun hbuffer
    rw [← hclock] at htime
    obtain ⟨result, after, hanswer, hresult⟩ :=
      inWorkspace_isLookUp run hsound hspelled hroot hdir hengine hname hnow htime
    simp only [havailable, Bool.not_true, Bool.false_eq_true, ↓reduceIte, locateByEngine, hgoOn,
      hanswer]
    exact hresult
  · have hscan := fun {now : Run} (hnow : now.Undisturbed) =>
      locateByScan_isLookUp hsound hspelled hroot hdir hname habsent hrun hbuffer hnow
    cases havailable : l.engine.available with
    | false => exact hscan (hrun.say _ _)
    | true =>
      obtain ⟨why, now, hengine, hnow⟩ :=
        locateByEngine_absent habsent havailable hroot (wanted request.identifier) hrun
      simp only [Bool.not_true, Bool.false_eq_true, ↓reduceIte, hengine]
      exact hscan (hnow.say _ _)

/-- A workspace of two files that both define a leaf, and no engine that can run. -/
def twoLeaves : Locator where
  tree := ⟨.dir [("Main.hs", .file (Text.encode (Text.of "leaf = 0"))),
    ("lib", .dir [("Tree.hs", .file (Text.encode (Text.of "leaf ::\nleaf = 1")))])], []⟩
  engine := ⟨"rg", false, fun _ _ _ run => (.ok (.fail .unavailable ""), run)⟩
  skipDirs := []

/-- A request for a leaf from the first of them. -/
def leafRequest : Request :=
  ⟨some (Text.of " leaf "), some (Text.of "tree = 2"), some (.ofString "/"), none, some "/Main.hs"⟩

theorem locate_isLookUp_twoLeaves :
    IsLookUp twoLeaves leafRequest (.ofString "/") .fresh
      (locate twoLeaves leafRequest .fresh).1 := by
  apply locate_isLookUp twoLeaves leafRequest .fresh "/"
  · show twoLeaves.tree.top.isSound = true
    decide
  · exact Or.inr (Or.inl rfl)
  · exact ⟨rfl, rfl⟩
  · decide
  · rfl
  · have hstart : Path.ofString "/" = ⟨"/", []⟩ := by decide
    refine FileTree.askDir_true_iff.mpr ⟨by decide, by decide, ?_⟩
    simp [hstart, FileTree.isDir, FileTree.stat, FileTree.walk, FileTree.node?, FileTree.start,
      Path.isAbsolute, Node.at?, twoLeaves, Except.toOption, Node.isDir]
  · rfl

end Locator
end DefinitionSite
