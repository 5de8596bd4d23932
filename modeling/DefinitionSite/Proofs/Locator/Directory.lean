import DefinitionSite.Proofs.InProcess.Files
import DefinitionSite.Proofs.Location.Ordered
import DefinitionSite.Proofs.Locator.Searches

/-! The search of a directory by either of the two ways: up to the order of the files, it gives what
the look-ups in the texts of the files give one by one, each under the name of its file. -/
namespace DefinitionSite

/-- The files that can be read, with their texts. -/
def FileTree.readable (t : FileTree) (files : List Path) : List (Path × Text) :=
  files.filterMap fun p => (t.readText p).toOption.map fun text => (p, text)

/-- The match in a file of the given label. -/
def Match.inFile (file : FileLabel) (m : Match) : Match := { m with file }

open FileLabel Locator
open scoped List

variable {tree : FileTree} {files : List Path}

theorem FileTree.readable_cons (tree : FileTree) (p : Path) (files : List Path) :
    tree.readable (p :: files) = ((tree.readText p).toOption.map fun text => (p, text)).toList ++
      tree.readable files := by
  unfold FileTree.readable
  cases hread : tree.readText p <;> simp [hread, Except.toOption]

theorem FileTree.readable_sublist (tree : FileTree) (files : List Path) :
    ((tree.readable files).map (·.1)).Sublist files := by
  induction files with
  | nil => exact List.Sublist.slnil
  | cons p files ih =>
    rw [readable_cons]
    cases tree.readText p with
    | error e => exact ih.cons p
    | ok text => exact ih.cons_cons p

section InProcess

theorem flatMap_eventsIn (find : Text → List Regex.Span) (files : List Path) :
    (files.map fun p => (p, tree.readText p)).flatMap (InProcess.eventsIn find) =
      (tree.readable files).flatMap fun file =>
        Event.ofSpans (find file.2) file.2 (some (named file.1.toString)) := by
  induction files with
  | nil => rfl
  | cons p files ih =>
    rw [List.map_cons, List.flatMap_cons, ih, FileTree.readable_cons, List.flatMap_append]
    cases hread : tree.readText p <;> simp [InProcess.eventsIn, Except.toOption, named]

/-- A search that is neither cancelled nor out of time finds what there is in the files that can be
read. -/
theorem searchFiles_readable (tree : FileTree) (find : Text → List Regex.Span)
    (deadline : Deadline Float) (sight : Nat → InProcess.Sight)
    (hsight : ∀ n, (sight n).cancelled = false ∧ deadline.expired (sight n).now = false)
    (number : Nat) (events : List Event) (log : Log) (files : List Path) :
    (InProcess.searchFiles find deadline sight number events log
      (files.map fun p => (p, tree.readText p))).1 =
      .ofEvents (events ++ (tree.readable files).flatMap fun file =>
        Event.ofSpans (find file.2) file.2 (some (named file.1.toString))) := by
  have hstop : ∀ n, InProcess.stopAt deadline (sight n) = none :=
    fun n => InProcess.stopAt_eq_none_iff.mpr (hsight n)
  rw [InProcess.searchFiles_whole fun _ _ => hstop _, flatMap_eventsIn]

theorem ofEvents_flatMap (kind : Kind) {φ : Type} (files : List φ) {events : φ → List Event}
    {ms : φ → List Match} (h : ∀ file, Match.ofEvents kind (events file) = .ok (ms file)) :
    Match.ofEvents kind (files.flatMap events) = .ok (files.flatMap ms) := by
  induction files with
  | nil => rfl
  | cons file files ih =>
    unfold Match.ofEvents at h ih ⊢
    rw [List.flatMap_cons, List.mapM_append, h, ih]
    rfl

variable {root : Path}

/-- What the in-process engine finds in a directory while nobody cancels it and time is left. -/
theorem search_directory (identifier : Text) (hroot : tree.askDir root = .ok true)
    (globs skipDirs : List String) {timeout : Float} {run : Run} (hrun : run.Undisturbed)
    (htime : (Deadline.startingAt run.clock timeout).expired run.clock = false) (kind : Kind) :
    ∃ log, InProcess.search tree timeout (Catalog.patternText identifier kind)
        (.directory root globs skipDirs) run =
      (.ok (.ofEvents ((tree.readable (tree.sourceFiles root globs skipDirs)).flatMap fun file =>
        Event.find (Catalog.regex identifier kind) file.2 (some (named file.1.toString)))),
        { run with log }) := by
  have hfound := searchFiles_readable tree (Catalog.regex identifier kind).findAll
    (.startingAt run.clock timeout) (fun _ => ⟨run.cancelled, run.clock⟩)
    (fun _ => ⟨hrun.running, htime⟩) 0 [] [] (tree.sourceFiles root globs skipDirs)
  unfold InProcess.search InProcess.searchWith
  simp only [Catalog.compile_patternText, hroot, hfound, List.nil_append]
  exact ⟨_, rfl⟩

/-- The in-process engine finds, kind by kind, what there is in the files that can be read. -/
theorem searchAll_directory (identifier : Text) (hroot : tree.askDir root = .ok true)
    (globs skipDirs : List String) {timeout : Float} {run : Run} (hrun : run.Undisturbed)
    (htime : (Deadline.startingAt run.clock timeout).expired run.clock = false) :
    ∃ after, searchAll (InProcess.engine tree timeout) identifier
        (.directory root globs skipDirs) run =
      (.ok (.found (Kind.all.flatMap fun kind =>
        (tree.readable (tree.sourceFiles root globs skipDirs)).flatMap fun file =>
          Catalog.found identifier kind file.2 (some (named file.1.toString)))), after) ∧
      after.Undisturbed := by
  have hsearch : ∀ kind before, before.Undisturbed ∧ before.clock = run.clock → ∃ after,
      (InProcess.engine tree timeout).search kind (Catalog.patternText identifier kind)
        (.directory root globs skipDirs) before =
        (.ok (.ofEvents ((tree.readable (tree.sourceFiles root globs skipDirs)).flatMap fun file =>
          Event.find (Catalog.regex identifier kind) file.2 (some (named file.1.toString)))),
          after) ∧
      after.tick.Undisturbed ∧ after.tick.clock = run.clock := by
    rintro kind before ⟨hbefore, hclock⟩
    obtain ⟨log, hlog⟩ := search_directory identifier hroot globs skipDirs hbefore
      (hclock ▸ htime) kind
    exact ⟨_, hlog, (hbefore.withLog log).tick, hclock⟩
  have hms := fun kind => ofEvents_flatMap kind
    (tree.readable (tree.sourceFiles root globs skipDirs)) fun file =>
      Match.ofEvents_find kind (Catalog.regex identifier kind) file.2 (some (named file.1.toString))
  obtain ⟨after, hall, hafter⟩ := searchAll_ofEvents hsearch hms run ⟨hrun, rfl⟩
  exact ⟨after, hall, hafter.1⟩

end InProcess

section Labels

theorem found_inFile (identifier : Text) (kind : Kind) (text : Text) (file : FileLabel) :
    Catalog.found identifier kind text (some file) =
      (Catalog.found identifier kind text none).map (Match.inFile file) := by
  unfold Catalog.found
  rw [List.map_map]
  rfl

theorem best_foundAll_inFile (identifier text : Text) (file : FileLabel) :
    Match.best (Catalog.foundAll identifier text (some file)) =
      (Catalog.foundAll identifier text none).head?.map (Match.inFile file) := by
  have hmap : Catalog.foundAll identifier text (some file) =
      (Catalog.foundAll identifier text none).map (Match.inFile file) := by
    unfold Catalog.foundAll
    rw [List.map_flatMap]
    simp only [found_inFile]
  rw [hmap, Match.best_map (Match.inFile file) fun _ => rfl, best_foundAll]

theorem scanLines_inFile (identifier : Text) (label file : FileLabel) (lines : List Text)
    (index : Nat) (inData : Bool) (previous : Text) :
    LineScan.scanLines identifier file index inData previous lines =
      (LineScan.scanLines identifier label index inData previous lines).map
        (Match.inFile file) := by
  induction lines generalizing index inData previous with
  | nil => rfl
  | cons line lines ih =>
    unfold LineScan.scanLines
    rw [List.map_append, List.map_map, ← ih]
    rfl

theorem best_scan_inFile (identifier text : Text) (file : FileLabel) :
    Match.best (LineScan.scan identifier text file) =
      (scanText identifier text).map (Match.inFile file) := by
  have hmap : LineScan.scan identifier text file =
      (LineScan.scan identifier text .buffer).map (Match.inFile file) := by
    unfold LineScan.scan
    split
    · rfl
    · exact scanLines_inFile identifier .buffer file _ 0 false []
  unfold scanText
  rw [hmap, Match.best_map (Match.inFile file) fun _ => rfl]

end Labels

/-- The answers of look-ups in the texts of files, each under the name of its file. -/
def answers (lookUp : Text → Option Match) (files : List (Path × Text)) : List Match :=
  files.filterMap fun file => (lookUp file.2).map (Match.inFile (named file.1.toString))

theorem mem_answers {lookUp : Text → Option Match} {m : Match}
    (h : m ∈ answers lookUp (tree.readable files)) :
    ∃ p ∈ files, ∃ text, tree.readText p = .ok text ∧ m.file = named p.toString := by
  obtain ⟨⟨p, text⟩, hread, hm⟩ := List.mem_filterMap.mp h
  obtain ⟨found, -, rfl⟩ := Option.map_eq_some_iff.mp hm
  obtain ⟨q, hq, hpair⟩ := List.mem_filterMap.mp hread
  cases hcase : tree.readText q with
  | error e => simp [hcase, Except.toOption] at hpair
  | ok given =>
    obtain ⟨rfl, rfl⟩ : q = p ∧ given = text := by simpa [hcase, Except.toOption] using hpair
    exact ⟨q, hq, given, hcase, rfl⟩

theorem answers_sublist (lookUp : Text → Option Match) (files : List (Path × Text)) :
    ((answers lookUp files).map (·.file)).Sublist
      (files.map fun file => named file.1.toString) := by
  induction files with
  | nil => exact List.Sublist.slnil
  | cons file files ih =>
    unfold answers at ih ⊢
    rw [List.filterMap_cons]
    cases lookUp file.2 with
    | none => exact ih.cons _
    | some m => exact ih.cons_cons _

/-- The best match of each file is the answer of the look-up in its text. -/
theorem bestPerFile_answers (identifier : Text) {files : List (Path × Text)}
    (hfiles : (files.map (·.1.toString)).Nodup) :
    ∃ found, Match.bestPerFile (Kind.all.flatMap fun kind => files.flatMap fun file =>
        Catalog.found identifier kind file.2 (some (named file.1.toString))) = .ok found ∧
      found ~ answers (fun text => (Catalog.foundAll identifier text none).head?) files := by
  have hlabel : (files.map fun file => RawText.text file.1.toString).Nodup := by
    have hmap := hfiles.map fun s t (h : RawText.text s = .text t) => RawText.text.inj h
    rwa [List.map_map] at hmap
  have hms : ∀ kind (file : Path × Text), ∀ m ∈ Catalog.found identifier kind file.2
      (some (named file.1.toString)), m.file = .name (.text file.1.toString) := by
    intro kind file m hm
    rw [found_inFile] at hm
    obtain ⟨m, -, rfl⟩ := List.mem_map.mp hm
    rfl
  obtain ⟨found, hfound, hperm⟩ := Match.bestPerFile_flatMap Kind.all hlabel hms
  refine ⟨found, hfound, ?_⟩
  simp only [answers, ← best_foundAll_inFile]
  exact hperm

/-- The line scan of files that nobody cancels answers what the scans of their texts answer. -/
theorem scanFiles_readable (tree : FileTree) (identifier : Text) (before : List Match) {run : Run}
    (hrun : run.Undisturbed) (files : List Path) :
    ∃ after, LineScan.scanFiles tree identifier before run files =
      (before ++ answers (scanText identifier) (tree.readable files), after) ∧
      after.Undisturbed := by
  induction files generalizing before run with
  | nil => exact ⟨run, by simp [LineScan.scanFiles, answers, FileTree.readable], hrun⟩
  | cons p files ih =>
    unfold LineScan.scanFiles LineScan.scanFile
    rw [FileTree.readable_cons]
    simp only [hrun.running, Bool.false_eq_true, ↓reduceIte]
    cases tree.readText p with
    | error e => exact ih before (hrun.say _ _).tick
    | ok text =>
      simp only [best_scan_inFile, Except.toOption, Option.map_some, Option.toList_some,
        List.singleton_append]
      cases hm : scanText identifier text with
      | none =>
        have hanswers : answers (scanText identifier) ((p, text) :: tree.readable files) =
            answers (scanText identifier) (tree.readable files) := by
          simp [answers, hm]
        rw [hanswers]
        exact ih before hrun.tick
      | some m =>
        have hanswers : before ++ answers (scanText identifier) ((p, text) :: tree.readable files) =
            (before ++ [m.inFile (named p.toString)]) ++
              answers (scanText identifier) (tree.readable files) := by
          simp [answers, hm]
        rw [hanswers]
        exact ih _ (hrun.say _ _).tick

end DefinitionSite
