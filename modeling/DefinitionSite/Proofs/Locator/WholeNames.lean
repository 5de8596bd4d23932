import DefinitionSite.Proofs.Catalog.WholeNames
import DefinitionSite.Proofs.InProcess.Files
import DefinitionSite.Proofs.Locator.Absent
import DefinitionSite.Proofs.Locator.Origins

/-! A look-up never takes a part of a longer name for the name: whatever the library's own engine or
the line scan gives, the identifier stands on its line as a whole, and where no text that is looked
at holds it as a whole there is no answer. -/
namespace DefinitionSite
open Declared FileLabel

variable {identifier text : Text} {m : Match}

/-- A line that the scan reports holds the name, and so does its text. -/
theorem LineScan.holdsName_of_mem_scan (hid : Proper identifier) {file : FileLabel}
    (h : m ∈ scan identifier text file) :
    HoldsName identifier m.text ∧ HoldsName identifier text := by
  obtain ⟨-, i, line, hget, hm, hkinds⟩ := mem_scan.mp h
  have hmem := List.mem_of_getElem? hget
  have hbreak := Text.not_mem_of_mem_splitLines hmem
  -- The line matches by itself, is the name of a signature, or declares a constructor.
  have hline : HoldsName identifier line := by
    rcases mem_kindsOf.mp hkinds with ⟨hkind, hoccurs⟩ | ⟨-, hstarts⟩ | ⟨-, hdeclares⟩
    · exact holdsName_of_onLine ((occursIn_iff_onLine hid hkind hbreak).mp hoccurs)
    · have htrim : line.trimRight = identifier := by
        unfold startsSignature at hstarts
        exact beq_iff_eq.mp ((Bool.and_eq_true _ _).mp hstarts).1
      obtain ⟨⟨gap, rfl, hgap⟩, -⟩ := Text.dropEndWhile_eq_iff.mp htrim
      refine ⟨[], gap, detached_nil, ?_, rfl⟩
      simpa using boundary_gaps hgap boundary_nil
    · unfold declaresConstructor at hdeclares
      split at hdeclares
      · exact holdsName_of_behindSign (behindSign_of_onDataLine hdeclares)
      · have hoccurs := ((Bool.and_eq_true _ _).mp hdeclares).2
        rcases line_of_onContinuation hbreak hoccurs with hsign | ⟨gap, rest, hne, hgap, hrest, rfl⟩
        · exact holdsName_of_behindSign hsign
        · exact holdsName_behind_gaps hne hgap hrest
  rw [hm]
  exact ⟨hline, holdsName_of_lineOf (lineOf_of_mem_splitLines hmem) hline⟩

/-- A line that the search for a kind finds holds the name, and so does its text. -/
theorem Catalog.holdsName_of_mem_found (hid : Proper identifier) {kind : Kind}
    {path : Option FileLabel} (h : m ∈ found identifier kind text path) :
    HoldsName identifier m.text ∧ HoldsName identifier text := by
  obtain ⟨span, hspan, rfl⟩ := List.mem_map.mp h
  obtain ⟨hstarts, i, line, hnamed, hget, hm⟩ := named_of_mem hid path hspan
  have hline := holdsName_of_defines hget (defines_of_namedAt hstarts hnamed)
  rw [hm]
  exact ⟨hline, holdsName_of_lineOf (lineOf_of_mem_physicalLines (List.mem_of_getElem? hget)) hline⟩

/-- The text is searched when the source is. -/
def FileTree.HasText (tree : FileTree) (text : Text) : Source → Prop
  | .buffer given => text = given
  | .directory root globs skipDirs =>
    ∃ p ∈ tree.sourceFiles root globs skipDirs, tree.readText p = .ok text

namespace InProcess

section Search

variable {find : Text → List Regex.Span} {tree : FileTree} {timeout : Float} {source : Source}

/-- A search of files, cut short or not, reports what it found before and what is in the files. -/
theorem mem_searchFiles {deadline : Deadline Float} {sight : Nat → Sight} {number : Nat}
    {found : List Event} {log : Log} {files : List (Path × Except FileError Text)} {event : Event}
    (h : event ∈ (searchFiles find deadline sight number found log files).1.events) :
    event ∈ found ∨ ∃ file ∈ files, ∃ text path, file.2 = .ok text ∧
      event ∈ Event.ofSpans (find text) text path := by
  have hends := searchFiles_ends find deadline sight number found log files
  generalize searchFiles find deadline sight number found log files = result at h hends
  cases hends with
  | cutShort _ _ hstop => simp [(status_of_stopAt hstop).2] at h
  | whole =>
    rw [(Locator.success_ofEvents _).2] at h
    refine (List.mem_append.mp h).imp_right fun hmem => ?_
    obtain ⟨⟨path, content⟩, hfile, hevent⟩ := List.mem_flatMap.mp hmem
    cases content with
    | error e => simp [eventsIn] at hevent
    | ok text => exact ⟨_, hfile, text, _, rfl, hevent⟩

/-- A search reports nothing but occurrences in the texts of its source. -/
theorem mem_searchWith {compile : Regex.Compiler} {pattern : Text} {run : Run}
    {result : SearchResult} {event : Event} (hcompile : compile pattern = .ok find)
    (h : (searchWith compile tree timeout pattern source run).1 = .ok result)
    (hevent : event ∈ result.events) :
    ∃ text path, tree.HasText text source ∧ event ∈ Event.ofSpans (find text) text path := by
  unfold searchWith at h
  simp only [hcompile] at h
  cases source with
  | buffer given =>
    obtain rfl := Except.ok.inj h
    rw [(Locator.success_ofEvents _).2] at hevent
    exact ⟨given, none, rfl, hevent⟩
  | directory root globs skipDirs =>
    cases hask : tree.askDir root with
    | error e => simp [hask] at h
    | ok isDir =>
      simp only [hask] at h
      cases isDir with
      | false =>
        obtain rfl := Except.ok.inj h
        simp [SearchResult.fail] at hevent
      | true =>
        obtain rfl := Except.ok.inj h
        rcases mem_searchFiles hevent with hnil | ⟨file, hfile, text, path, hread, hevent⟩
        · simp at hnil
        · obtain ⟨p, hp, rfl⟩ := List.mem_map.mp hfile
          exact ⟨text, path, ⟨p, hp, hread⟩, hevent⟩

theorem engine_reportsText (tree : FileTree) (timeout : Float) :
    (engine tree timeout).ReportsText := by
  intro kind pattern source run result h event hevent
  change (searchWith Regex.compile tree timeout pattern source run).1 = .ok result at h
  cases hcompile : Regex.compile pattern with
  | ok find =>
    obtain ⟨text, path, -, hmem⟩ := mem_searchWith hcompile h hevent
    obtain ⟨span, -, rfl⟩ := List.mem_map.mp hmem
    exact ⟨_, rfl⟩
  | error fault =>
    cases fault with
    | broken why => simp [searchWith, hcompile] at h
    | refused why =>
      obtain rfl : .fail .failed ("Invalid regex pattern: " ++ why) = result := by
        simpa [searchWith, hcompile] using h
      simp [SearchResult.fail] at hevent

/-- What the engine reports can be read, and is a definition in a text of its source. -/
theorem exists_of_reported {result : Except ShapeFault Match}
    (h : Locator.Reported (engine tree timeout) identifier source result) :
    ∃ m kind text path, result = .ok m ∧ tree.HasText text source ∧
      m ∈ Catalog.found identifier kind text path := by
  obtain ⟨kind, now, found, hsearch, event, hevent, hresult⟩ := h
  obtain ⟨text, path, htext, hfind⟩ :=
    mem_searchWith (Catalog.compile_patternText identifier kind) hsearch hevent
  obtain ⟨span, hspan, rfl⟩ := List.mem_map.mp hfind
  rw [Match.ofEvent_ofSpan] at hresult
  exact ⟨_, kind, text, path, hresult.symm, htext, List.mem_map_of_mem hspan⟩

end Search

end InProcess

/-- An engine that never comes to run a search. -/
def Engine.Idle (engine : Engine) : Prop :=
  engine.available = false ∨ ∀ kind pattern source run, ∃ result,
    (engine.search kind pattern source run).1 = .ok result ∧ result.status = .unavailable

namespace Locator

/-- A locator that looks for definitions itself: with the in-process engine, or with the line scan
because its engine never comes to run. -/
def LooksItself (l : Locator) : Prop :=
  (∃ timeout, l.engine = InProcess.engine l.tree timeout) ∨ l.engine.Idle

/-- The texts that a request is about. -/
def Concerns (l : Locator) (request : Request) (text : Text) : Prop :=
  someText request.buffer = some text ∨ ∃ root, request.root = some root ∧
    l.tree.HasText text (.directory root (globsOf request.globs) l.skipDirs)

variable {l : Locator} {request : Request}

theorem searchAll_idle {engine : Engine} (hidle : engine.Idle)
    (havailable : engine.available = true) (identifier : Text) (source : Source) (run : Run) :
    ∃ why after, searchAll engine identifier source run = (.ok (.unavailable why), after) := by
  rcases hidle with hno | hsearch
  · rw [havailable] at hno
    exact absurd hno (by decide)
  · have hoff : ∀ kind pattern (run : Run), True → ∃ result after,
        engine.search kind pattern source run = (.ok result, after) ∧
          result.status = .unavailable ∧ True := by
      intro kind pattern run _
      obtain ⟨result, hresult, hstatus⟩ := hsearch kind pattern source run
      exact ⟨result, _, Prod.ext hresult rfl, hstatus, trivial⟩
    obtain ⟨why, after, hall, -⟩ := searchAll_unavailable hoff identifier trivial
    exact ⟨why, after, hall⟩

/-- The searches of an engine give only matches that hold the name. -/
theorem holdsName_of_gives (hitself : l.LooksItself) (hid : Proper identifier) {source : Source}
    {cs : List Match} (h : Gives l.engine identifier source cs) (hm : m ∈ cs) :
    HoldsName identifier m.text ∧ ∃ text, l.tree.HasText text source ∧
      HoldsName identifier text := by
  rcases hitself with ⟨timeout, hengine⟩ | hidle
  · rw [hengine] at h
    obtain ⟨_, kind, text, path, hresult, htext, hfound⟩ :=
      InProcess.exists_of_reported (reported_of_gives h hm)
    obtain rfl := Except.ok.inj hresult
    obtain ⟨hline, hholds⟩ := Catalog.holdsName_of_mem_found hid hfound
    exact ⟨hline, text, htext, hholds⟩
  · obtain ⟨havailable, now, after, hall⟩ := h
    obtain ⟨why, later, hidle⟩ := searchAll_idle hidle havailable identifier source now
    rw [hidle] at hall
    simp at hall

theorem holdsName_of_bestInText (hitself : l.LooksItself) (hid : Proper identifier)
    (h : l.BestInText identifier text m) :
    HoldsName identifier m.text ∧ HoldsName identifier text := by
  rcases h with ⟨cs, hgives, hbest⟩ | hscan
  · obtain ⟨hline, _, rfl, hholds⟩ :=
      holdsName_of_gives hitself hid hgives (Match.mem_of_best hbest)
    exact ⟨hline, hholds⟩
  · exact LineScan.holdsName_of_mem_scan hid (Match.mem_of_best hscan)

theorem holdsName_of_bestInFiles (hitself : l.LooksItself) (hid : Proper identifier) {root : Path}
    {globs : List String} {found : List Match} (h : l.BestInFiles identifier root globs found)
    (hm : m ∈ found) :
    HoldsName identifier m.text ∧ ∃ text, l.tree.HasText text (.directory root globs l.skipDirs) ∧
      HoldsName identifier text := by
  rcases h with ⟨cs, hgives, hbest⟩ | ⟨now, after, hscan⟩
  · exact holdsName_of_gives hitself hid hgives (Match.mem_of_bestPerFile hbest hm)
  · obtain ⟨p, hp, text, hread, hm⟩ := (exists_of_scanDirectory hscan).2 m hm
    obtain ⟨hline, hholds⟩ := LineScan.holdsName_of_mem_scan hid hm
    exact ⟨hline, text, ⟨p, hp, hread⟩, hholds⟩

/-- A location holds the name, and so does a text that the request is about. -/
theorem holdsName_of_origin (hitself : l.LooksItself) (hid : Proper identifier)
    {locations : List Location} (h : Origin l identifier request (.ok locations)) {a : Location}
    (ha : a ∈ locations) :
    HoldsName identifier a.text ∧ ∃ text, l.Concerns request text ∧ HoldsName identifier text := by
  cases h with
  | nothing => simp at ha
  | @buffer text m htext hbest =>
    obtain ⟨hline, hholds⟩ := holdsName_of_bestInText hitself hid hbest
    rw [List.mem_singleton.mp ha]
    exact ⟨hline, text, Or.inl htext, hholds⟩
  | @workspace root found now _ hroot hfound hresult =>
    obtain ⟨m, hm, rfl⟩ := Location.mem_of_ofMatches (mapError_eq_ok.mp hresult) ha
    obtain ⟨hline, text, htext, hholds⟩ := holdsName_of_bestInFiles hitself hid hfound hm
    exact ⟨hline, text, Or.inr ⟨root, hroot, htext⟩, hholds⟩

/-- Where no text holds the name, the only faults are that there is no workspace, that its root
cannot be asked about and that the current file has no real path. -/
theorem fault_of_origin (hitself : l.LooksItself) (hid : Proper identifier)
    (hnowhere : ∀ text, l.Concerns request text → ¬ HoldsName identifier text)
    {fault : LocateFault} (h : Origin l identifier request (.error fault)) :
    request.root = none ∧ fault = .noRoot ∨ RootUnaskable l request (.error fault) ∨ ∃ f,
      Location.leftOut l.tree request.currentFile = .error f ∧ fault = .location (.path f) := by
  cases h with
  | noRoot hroot => exact .inl ⟨hroot, rfl⟩
  | unscanned hroot hask => exact .inr (.inl ⟨_, _, hroot, hask, rfl⟩)
  | @misread source now after f havailable hsource hsearch =>
    -- What the in-process engine reports reads as a match, so only its root is left.
    rcases hitself with ⟨timeout, hengine⟩ | hidle
    · have hreports : l.engine.ReportsText := hengine ▸ InProcess.engine_reportsText l.tree timeout
      have hfails : l.engine.FailsAtRoots l.tree :=
        hengine ▸ InProcess.engine_failsAtRoots l.tree timeout
      exact .inr (.inl (rootUnaskable_of_searchAll hreports hfails hsource hsearch))
    · obtain ⟨why, later, hidle⟩ := searchAll_idle hidle havailable identifier source now
      rw [hidle] at hsearch
      simp at hsearch
  | @ungrouped root cs f hroot hgives hgroup =>
    obtain rfl : cs = [] := by
      rw [List.eq_nil_iff_forall_not_mem]
      intro m hm
      obtain ⟨-, text, htext, hholds⟩ := holdsName_of_gives hitself hid hgives hm
      exact hnowhere text (Or.inr ⟨root, hroot, htext⟩) hholds
    simp [Match.bestPerFile, Match.groupByFile, pure, Except.pure, bind, Except.bind] at hgroup
  | @workspace root found now _ hroot hfound hresult =>
    obtain rfl : found = [] := by
      rw [List.eq_nil_iff_forall_not_mem]
      intro m hm
      obtain ⟨-, text, htext, hholds⟩ := holdsName_of_bestInFiles hitself hid hfound hm
      exact hnowhere text (Or.inr ⟨root, hroot, htext⟩) hholds
    rw [Location.ofMatches_eq] at hresult
    cases hexcluded : Location.leftOut l.tree request.currentFile with
    | error f =>
      rw [hexcluded] at hresult
      exact .inr (.inr ⟨f, rfl, (Except.error.inj hresult).symm⟩)
    | ok excluded =>
      rw [hexcluded] at hresult
      simp [Location.distinct, Location.sort, Location.firstUnordered, Except.bind,
        Except.mapError] at hresult

theorem findInText_idle {engine : Engine} (hidle : engine.Idle) (hid : Proper identifier)
    (text : Text) (run : Run) : (findInText engine (some identifier) (some text) run).1 =
      .ok ((someText (some text)).bind (scanText identifier)) := by
  have hwanted : wanted (some identifier) = identifier := hid.trimmed
  have hname : identifier.isEmpty = false := by simpa using hid.ne_nil
  unfold findInText
  rw [hwanted]
  cases hsome : someText (some text) with
  | none => rfl
  | some text =>
    simp only [hname, Bool.false_eq_true, ↓reduceIte]
    cases havailable : engine.available with
    | false => rfl
    | true =>
      obtain ⟨why, after, hall⟩ := searchAll_idle hidle havailable identifier (.buffer text) run
      simp only [hall]
      rfl

/-- A look-up in a text comes to an answer, and the answer holds the name. -/
theorem exists_findInText (hitself : l.LooksItself) (hid : Proper identifier) (text : Text)
    (run : Run) : ∃ found, (findInText l.engine (some identifier) (some text) run).1 = .ok found ∧
      ∀ m ∈ found, HoldsName identifier m.text ∧ HoldsName identifier text := by
  rcases hitself with ⟨timeout, hengine⟩ | hidle
  · have hwanted : wanted (some identifier) = identifier := hid.trimmed
    rw [hengine]
    refine ⟨_, findInText_inProcess l.tree timeout (by rw [hwanted]; exact hid.ne_nil) text run, ?_⟩
    intro m hm
    rw [hwanted] at hm
    obtain ⟨kind, -, hfound⟩ := List.mem_flatMap.mp (List.mem_of_mem_head? hm)
    exact Catalog.holdsName_of_mem_found hid hfound
  · refine ⟨_, findInText_idle hidle hid text run, ?_⟩
    intro m hm
    obtain ⟨given, hgiven, hbest⟩ := Option.bind_eq_some_iff.mp hm
    obtain rfl : text = given := Option.some.inj (Option.filter_eq_some_iff.mp hgiven).1
    exact LineScan.holdsName_of_mem_scan hid (Match.mem_of_best hbest)

/-- Look-ups of a name never take a part of a longer name for it. -/
structure KeepsNamesWhole (l : Locator) (identifier : Text) : Prop where
  inText : ∀ text run, ∃ found,
    (findInText l.engine (some identifier) (some text) run).1 = .ok found ∧
      (∀ m ∈ found, HoldsName identifier m.text) ∧ (¬ HoldsName identifier text → found = none)
  located : ∀ (request : Request) run locations, request.identifier = some identifier →
    (locate l request run).1 = .ok locations → ∀ a ∈ locations, HoldsName identifier a.text
  nowhere : ∀ (request : Request) run, request.identifier = some identifier →
    (∀ text, l.Concerns request text → ¬ HoldsName identifier text) →
      (locate l request run).1 = .ok [] ∨
      request.root = none ∧ (locate l request run).1 = .error .noRoot ∨
      RootUnaskable l request (locate l request run).1 ∨
      ∃ f, Location.leftOut l.tree request.currentFile = .error f ∧
        (locate l request run).1 = .error (.location (.path f))

/-- The in-process engine and the line scan both find names as a whole. -/
theorem lookUps_keepNamesWhole (l : Locator) (hitself : l.LooksItself)
    (hname : LineScan.Name identifier) : l.KeepsNamesWhole identifier := by
  have hid := hname.proper
  have horigin : ∀ (request : Request) run, request.identifier = some identifier →
      Origin l identifier request (locate l request run).1 := by
    intro request run hrequest
    have h := origin_locate l request run
    rw [hrequest] at h
    rwa [show wanted (some identifier) = identifier from hid.trimmed] at h
  constructor
  · intro text run
    obtain ⟨found, hfound, hholds⟩ := exists_findInText hitself hid text run
    refine ⟨found, hfound, fun m hm => (hholds m hm).1, ?_⟩
    intro hnot
    rw [Option.eq_none_iff_forall_not_mem]
    exact fun m hm => hnot (hholds m hm).2
  · intro request run locations hrequest hlocate a ha
    have h := horigin request run hrequest
    rw [hlocate] at h
    exact (holdsName_of_origin hitself hid h ha).1
  · intro request run hrequest hnowhere
    have h := horigin request run hrequest
    cases hlocate : (locate l request run).1 with
    | ok locations =>
      rw [hlocate] at h
      refine Or.inl (congrArg Except.ok ?_)
      rw [List.eq_nil_iff_forall_not_mem]
      intro a ha
      obtain ⟨-, text, htext, hholds⟩ := holdsName_of_origin hitself hid h ha
      exact hnowhere text htext hholds
    | error fault =>
      rw [hlocate] at h
      rcases fault_of_origin hitself hid hnowhere h with ⟨hroot, rfl⟩ | hunaskable | ⟨f, hf, rfl⟩
      · exact .inr (.inl ⟨hroot, rfl⟩)
      · exact .inr (.inr (.inl hunaskable))
      · exact .inr (.inr (.inr ⟨f, hf, rfl⟩))

/-- A locator whose one file holds two names that are longer than the name of a leaf. -/
def longerNames : Locator where
  tree := ⟨.dir [("Main.hs", .file (Text.encode (Text.of "leaf' = 1\nnewleaf = leaf'")))], []⟩
  engine := InProcess.engine
    ⟨.dir [("Main.hs", .file (Text.encode (Text.of "leaf' = 1\nnewleaf = leaf'")))], []⟩ 10.0
  skipDirs := []

theorem lookUps_keepNamesWhole_leaf :
    longerNames.LooksItself ∧ LineScan.Name (Text.of "leaf") ∧
      longerNames.KeepsNamesWhole (Text.of "leaf") := by
  have hitself : longerNames.LooksItself := Or.inl ⟨10.0, rfl⟩
  have hname : LineScan.Name (Text.of "leaf") := ⟨by decide, List.all_eq_true.mp (by decide)⟩
  exact ⟨hitself, hname, lookUps_keepNamesWhole longerNames hitself hname⟩

end Locator
end DefinitionSite
