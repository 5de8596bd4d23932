import DefinitionSite.Proofs.Locator.Directory

/-! The search of a directory is all or nothing. Whatever the clock shows and whenever the search is
cancelled, it either reports every occurrence in every file that can be read, in the order of the
files, or it says why it did not come to its end and reports nothing. It has no result at all just
where the compiler breaks on the expression, or the directory cannot be asked about. -/
namespace DefinitionSite

/-- Every occurrence in the source files below a directory that can be read, file by file in
enumeration order. -/
def FileTree.eventsBelow (tree : FileTree) (find : Text → List Regex.Span) (root : Path)
    (globs skipDirs : List String) : List Event :=
  (tree.readable (tree.sourceFiles root globs skipDirs)).flatMap fun file =>
    Event.ofSpans (find file.2) file.2 (some (.named file.1.toString))

namespace InProcess

/-- The source files below a directory, each with what reading it gives. -/
def filesBelow (tree : FileTree) (root : Path) (globs skipDirs : List String) :
    List (Path × Except FileError Text) :=
  (tree.sourceFiles root globs skipDirs).map fun p => (p, tree.readText p)

/-- Searches a directory when it is given how expressions compile, at which moment the search starts
and what can be seen before the file of each number. -/
def searchWatched (compile : Regex.Compiler) (tree : FileTree) (timeout start : Float)
    (sight : Nat → Sight) (pattern : Text) (root : Path) (globs skipDirs : List String) :
    Except SearchFault SearchResult × Log :=
  match compile pattern with
  | .error (.refused why) => (.ok (.fail .failed ("Invalid regex pattern: " ++ why)), [])
  | .error (.broken why) => (.error (.expression why), [])
  | .ok find =>
    match tree.askDir root with
    | .error e => (.error (.unaskable e), [])
    | .ok false => (.ok (.fail .failed ("Path not found: " ++ root.toString)), [])
    | .ok true =>
      let (result, log) := searchFiles find (.startingAt start timeout) sight 0 [] []
        (filesBelow tree root globs skipDirs)
      (.ok result, log)

variable {compile : Regex.Compiler} {tree : FileTree} {timeout start : Float} {sight : Nat → Sight}
  {pattern : Text} {root : Path} {globs skipDirs : List String}

/-- The engine sees the same before every file: its own run. -/
theorem searchWith_eq_searchWatched (compile : Regex.Compiler) (tree : FileTree) (timeout : Float)
    (pattern : Text) (root : Path) (globs skipDirs : List String) (run : Run) :
    searchWith compile tree timeout pattern (.directory root globs skipDirs) run =
      let (result, log) := searchWatched compile tree timeout run.clock
        (fun _ => ⟨run.cancelled, run.clock⟩) pattern root globs skipDirs
      (result, { run with log := run.log ++ log }) := by
  unfold searchWith searchWatched
  cases compile pattern with
  | error fault => cases fault <;> simp only [List.append_nil]
  | ok find =>
    cases hask : tree.askDir root with
    | error e => simp only [hask, List.append_nil]
    | ok isDir => cases isDir <;> simp only [hask, List.append_nil, filesBelow]

theorem fst_searchWith (compile : Regex.Compiler) (tree : FileTree) (timeout : Float)
    (pattern : Text) (root : Path) (globs skipDirs : List String) (run : Run) :
    (searchWith compile tree timeout pattern (.directory root globs skipDirs) run).1 =
      (searchWatched compile tree timeout run.clock (fun _ => ⟨run.cancelled, run.clock⟩)
        pattern root globs skipDirs).1 := by
  rw [searchWith_eq_searchWatched]

/-- All that a search of a directory can come to, with what it logs: its expression or its directory
is refused or breaks the search, it is cut short at the first file before which it is to stop, or it
reads every file. -/
inductive Outcome (compile : Regex.Compiler) (tree : FileTree) (timeout start : Float)
    (sight : Nat → Sight) (pattern : Text) (root : Path) (globs skipDirs : List String) :
    Except SearchFault SearchResult × Log → Prop
  | refused {why : String} (h : compile pattern = .error (.refused why)) :
      Outcome compile tree timeout start sight pattern root globs skipDirs
        (.ok (.fail .failed ("Invalid regex pattern: " ++ why)), [])
  | broken {why : String} (h : compile pattern = .error (.broken why)) :
      Outcome compile tree timeout start sight pattern root globs skipDirs
        (.error (.expression why), [])
  | unaskable {find : Text → List Regex.Span} {e : FileError}
      (hcompile : compile pattern = .ok find) (h : tree.askDir root = .error e) :
      Outcome compile tree timeout start sight pattern root globs skipDirs
        (.error (.unaskable e), [])
  | noDirectory {find : Text → List Regex.Span} (hcompile : compile pattern = .ok find)
      (h : tree.askDir root = .ok false) :
      Outcome compile tree timeout start sight pattern root globs skipDirs
        (.ok (.fail .failed ("Path not found: " ++ root.toString)), [])
  | cutShort {find : Text → List Regex.Span} {n : Nat} {result : SearchResult}
      (hcompile : compile pattern = .ok find) (hroot : tree.askDir root = .ok true)
      (hn : n < (tree.sourceFiles root globs skipDirs).length)
      (hbefore : ∀ k < n, stopAt (.startingAt start timeout) (sight k) = none)
      (h : stopAt (.startingAt start timeout) (sight n) = some result) :
      Outcome compile tree timeout start sight pattern root globs skipDirs
        (.ok result, ((filesBelow tree root globs skipDirs).take n).flatMap skipLine)
  | whole {find : Text → List Regex.Span} (hcompile : compile pattern = .ok find)
      (hroot : tree.askDir root = .ok true)
      (h : ∀ k < (tree.sourceFiles root globs skipDirs).length,
        stopAt (.startingAt start timeout) (sight k) = none) :
      Outcome compile tree timeout start sight pattern root globs skipDirs
        (.ok (.ofEvents (tree.eventsBelow find root globs skipDirs)),
          (filesBelow tree root globs skipDirs).flatMap skipLine)

theorem searchWatched_outcome :
    Outcome compile tree timeout start sight pattern root globs skipDirs
      (searchWatched compile tree timeout start sight pattern root globs skipDirs) := by
  unfold searchWatched
  cases hcompile : compile pattern with
  | error fault =>
    cases fault with
    | refused why => exact .refused hcompile
    | broken why => exact .broken hcompile
  | ok find =>
    cases hroot : tree.askDir root with
    | error e => exact .unaskable hcompile hroot
    | ok isDir =>
      cases isDir with
      | false => exact .noDirectory hcompile hroot
      | true =>
        have hlength : (filesBelow tree root globs skipDirs).length =
            (tree.sourceFiles root globs skipDirs).length := List.length_map ..
        have hends := searchFiles_ends find (.startingAt start timeout) sight 0 [] []
          (filesBelow tree root globs skipDirs)
        simp only
        generalize searchFiles find (.startingAt start timeout) sight 0 [] []
          (filesBelow tree root globs skipDirs) = result at hends ⊢
        cases hends with
        | cutShort hn hbefore h =>
          simp only [Nat.zero_add] at hbefore h
          exact .cutShort hcompile hroot (hlength ▸ hn) hbefore h
        | whole h =>
          simp only [Nat.zero_add, hlength] at h
          rw [filesBelow, flatMap_eventsIn]
          exact .whole hcompile hroot h

/-- A result that reports everything and says so, or that reports nothing and says why. -/
def AllOrNothing (compile : Regex.Compiler) (tree : FileTree) (pattern : Text) (root : Path)
    (globs skipDirs : List String) (result : SearchResult) : Prop :=
  (∃ find, compile pattern = .ok find ∧
    result.events = tree.eventsBelow find root globs skipDirs ∧
    (result.status = .ok ∧ result.events ≠ [] ∨ result.status = .noMatches ∧ result.events = [])) ∨
  (result.status = .failed ∨ result.status = .timeout ∨ result.status = .cancelled) ∧
    result.events = []

/-- What leaves a search of a directory without a result. -/
inductive NoResult (compile : Regex.Compiler) (tree : FileTree) (pattern : Text) (root : Path) :
    SearchFault → Prop
  | broken {why : String} (h : compile pattern = .error (.broken why)) :
      NoResult compile tree pattern root (.expression why)
  | unaskable {find : Text → List Regex.Span} {e : FileError}
      (hcompile : compile pattern = .ok find) (h : tree.askDir root = .error e) : NoResult compile tree pattern root (.unaskable e)

theorem Outcome.allOrNothing {outcome : Except SearchFault SearchResult × Log}
    (h : Outcome compile tree timeout start sight pattern root globs skipDirs outcome)
    {result : SearchResult} (hresult : outcome.1 = .ok result) :
    AllOrNothing compile tree pattern root globs skipDirs result := by
  cases h with
  | broken | unaskable => cases hresult
  | refused | noDirectory =>
    obtain rfl := Except.ok.inj hresult
    exact .inr ⟨.inl rfl, rfl⟩
  | cutShort _ _ _ _ h =>
    obtain rfl := Except.ok.inj hresult
    obtain ⟨hstatus, hevents⟩ := status_of_stopAt h
    exact .inr ⟨.inr hstatus, hevents⟩
  | whole hcompile =>
    obtain rfl := Except.ok.inj hresult
    refine .inl ⟨_, hcompile, (Locator.success_ofEvents _).2, ?_⟩
    unfold SearchResult.ofEvents
    split_ifs with hempty
    · exact .inr ⟨rfl, rfl⟩
    · exact .inl ⟨rfl, by simpa using hempty⟩

theorem searchWatched_error_iff {f : SearchFault} :
    (searchWatched compile tree timeout start sight pattern root globs skipDirs).1 = .error f ↔
      NoResult compile tree pattern root f := by
  constructor
  · intro hfault
    have houtcome : Outcome compile tree timeout start sight pattern root globs skipDirs
        (searchWatched compile tree timeout start sight pattern root globs skipDirs) :=
      searchWatched_outcome
    generalize searchWatched compile tree timeout start sight pattern root globs skipDirs = outcome
      at hfault houtcome
    cases houtcome with
    | broken h =>
      obtain rfl := Except.error.inj hfault
      exact .broken h
    | unaskable hcompile h =>
      obtain rfl := Except.error.inj hfault
      exact .unaskable hcompile h
    | _ => cases hfault
  · rintro (h | ⟨hcompile, h⟩)
    · simp only [searchWatched, h]
    · simp only [searchWatched, hcompile, h]

/-- However expressions compile and whatever can be seen before each file, a search of a directory
has no result just where its expression breaks the compiler or the directory cannot be asked about;
otherwise it reports everything or nothing, and which of both is told by the first file before which
it is to stop. The engine's own searches are such searches. -/
theorem searchWatched_allOrNothing (compile : Regex.Compiler) (tree : FileTree)
    (timeout start : Float) (sight : Nat → Sight) (pattern : Text) (root : Path)
    (globs skipDirs : List String) :
    (∀ result, (searchWatched compile tree timeout start sight pattern root globs skipDirs).1 =
        .ok result → AllOrNothing compile tree pattern root globs skipDirs result) ∧
      (∀ f, (searchWatched compile tree timeout start sight pattern root globs skipDirs).1 =
        .error f ↔ NoResult compile tree pattern root f) ∧
      Outcome compile tree timeout start sight pattern root globs skipDirs
        (searchWatched compile tree timeout start sight pattern root globs skipDirs) ∧
      ∀ run : Run,
        (searchWith compile tree timeout pattern (.directory root globs skipDirs) run).1 =
          (searchWatched compile tree timeout run.clock (fun _ => ⟨run.cancelled, run.clock⟩)
            pattern root globs skipDirs).1 :=
  ⟨fun _ => searchWatched_outcome.allOrNothing, fun _ => searchWatched_error_iff,
    searchWatched_outcome, fun _ => fst_searchWith ..⟩

/-- Below a root of three hundred letters the search for a letter has no result. -/
theorem search_longName :
    (search ⟨.dir [], []⟩ 5.0 (Text.of "x") (.directory (.ofString FileTree.longName) [] [])
      .fresh).1 = .error (.unaskable ⟨.nameTooLong, FileTree.longName⟩) := by
  have hread : Regex.read (Text.of "x") = .ok (Regex.seqAll [.char 'x']) := by
    have htokens : Regex.tokens 0 (Text.of "x") = [(0, .char 'x')] := by
      simp [Regex.tokens, Regex.firstToken, Text.of]
    rw [Regex.read, htokens]
    rfl
  have hcompile : Regex.compile (Text.of "x") = .ok (Regex.findAll (Regex.seqAll [.char 'x'])) := by
    simp only [Regex.compile, hread]
  exact (fst_searchWith ..).trans
    (searchWatched_error_iff.mpr (.unaskable hcompile (FileTree.askDir_longName rfl)))

end InProcess
end DefinitionSite
