import DefinitionSite.Proofs.FileTree.Sources
import DefinitionSite.Proofs.Locator.Origins

/-! The shape of every answer. An engine may report what it likes, in any order and any number of
times: the locations of an answer come in the order of their file names, each of which occurs once,
every location is a single line, and none that comes from the workspace is in the current file. -/
namespace DefinitionSite
open FileLabel

namespace Match

/-- The match is a line of some text. -/
structure AtLine (m : Match) : Prop where
  index : 0 ≤ m.lineIndex
  text : '\n' ∉ m.text

theorem atLine_ofLines (kind : Kind) (path : Option FileLabel) (line : Int) (text : Text) :
    (ofLines kind path line text).AtLine := by
  refine ⟨Int.le_max_left .., ?_⟩
  simp only [ofLines, List.getD_eq_getElem?_getD]
  generalize (if kind = .constructor then text.splitLines.length - 1 else 0) = offset
  cases hline : text.splitLines[offset]? with
  | none => simp
  | some line => exact Text.not_mem_of_mem_splitLines (List.mem_of_getElem? hline)

theorem atLine_of_mem_scan {identifier text : Text} {file : FileLabel} {m : Match}
    (h : m ∈ LineScan.scan identifier text file) : m.AtLine := by
  obtain ⟨-, i, line, hline, hm, -⟩ := LineScan.mem_scan.mp h
  rw [hm]
  exact ⟨Int.natCast_nonneg i, Text.not_mem_of_mem_splitLines (List.mem_of_getElem? hline)⟩

end Match

/-- An engine that reports occurrences in files that have names, or in no file. -/
def Engine.NamesFiles (engine : Engine) : Prop :=
  ∀ kind pattern source now result, (engine.search kind pattern source now).1 = .ok result →
    ∀ event ∈ result.events, ∀ file ∈ event.path, file.IsName

namespace Locator

variable {l : Locator} {identifier : Text} {m : Match}

theorem atLine_of_reported {source : Source} (h : Reported l.engine identifier source (.ok m)) :
    m.AtLine := by
  obtain ⟨kind, now, found, -, event, -, hok⟩ := h
  unfold Match.ofEvent at hok
  split at hok
  · obtain rfl := Except.ok.inj hok
    apply Match.atLine_ofLines
  · simp at hok

theorem isName_of_reported (hengine : l.engine.NamesFiles) {source : Source}
    (h : Reported l.engine identifier source (.ok m)) : m.file.IsName := by
  obtain ⟨kind, now, found, hsearch, event, hevent, hok⟩ := h
  unfold Match.ofEvent at hok
  split at hok
  · obtain rfl := Except.ok.inj hok
    show (event.path.getD .buffer).IsName
    cases hpath : event.path with
    | none => exact isName_named "<buffer>"
    | some file => exact hengine _ _ _ _ found hsearch event hevent file hpath
  · simp at hok

theorem atLine_of_bestInText {text : Text} (h : l.BestInText identifier text m) : m.AtLine := by
  rcases h with ⟨cs, hgives, hbest⟩ | hscan
  · exact atLine_of_reported (reported_of_gives hgives (Match.mem_of_best hbest))
  · exact Match.atLine_of_mem_scan (Match.mem_of_best hscan)

theorem distinct_of_bestInFiles (hsound : l.tree.Sound) (hengine : l.engine.NamesFiles)
    {root : Path} (hroot : root.Spelled) {globs : List String} {found : List Match}
    (h : l.BestInFiles identifier root globs found) :
    (∀ m ∈ found, m.AtLine ∧ m.file.IsName) ∧ (found.map (·.file)).Nodup := by
  rcases h with ⟨cs, hgives, hbest⟩ | ⟨now, after, hscan⟩
  · have hreported := fun {m} (hm : m ∈ cs) => reported_of_gives hgives hm
    have hnames := exists_name fun m hm => isName_of_reported hengine (hreported hm)
    refine ⟨?_, Match.nodup_bestPerFile hnames hbest⟩
    intro m hm
    have hm := hreported (Match.mem_of_bestPerFile hbest hm)
    exact ⟨atLine_of_reported hm, isName_of_reported hengine hm⟩
  · obtain ⟨hsub, hmem⟩ := exists_of_scanDirectory hscan
    constructor
    · intro m hm
      obtain ⟨p, -, text, -, hm⟩ := hmem m hm
      refine ⟨Match.atLine_of_mem_scan hm, ?_⟩
      rw [LineScan.file_of_mem_scan hm]
      apply isName_named
    · have hfiles : ((l.tree.sourceFiles root globs l.skipDirs).map Path.toString).Nodup :=
        FileTree.nodup_sourceFiles hsound hroot
      have hlabels := hfiles.map fun s t h => named_inj h
      rw [List.map_map] at hlabels
      exact hsub.nodup hlabels

end Locator

/-- The location is in another file than the one with the given name. -/
def Location.Elsewhere (tree : FileTree) (file : String) (a : Location) : Prop :=
  ∃ here there, tree.resolve (.ofString file) = .ok here ∧
    Location.keyOf tree a.file = .ok there ∧ there ≠ here

theorem Location.elsewhere_of_leftOut {tree : FileTree} {file : String} {excluded : Option Path}
    (hfile : file ≠ "") (hexcluded : leftOut tree (some file) = .ok excluded) {m : Match}
    (hm : isIn tree excluded m = .ok false) : Elsewhere tree file (ofMatch m) := by
  have hempty : file.isEmpty = false := by simpa using hfile
  simp only [leftOut, hempty, Bool.false_eq_true, ↓reduceIte] at hexcluded
  cases hhere : tree.resolve (.ofString file) with
  | error f => simp [hhere, Except.map] at hexcluded
  | ok here =>
    obtain rfl : some here = excluded := by simpa [hhere, Except.map] using hexcluded
    unfold isIn at hm
    cases hthere : keyOf tree m.file with
    | error f => simp [hthere, Except.map] at hm
    | ok there => exact ⟨here, there, hhere, hthere, by simpa [hthere, Except.map] using hm⟩

namespace Locator

/-- What every answer to a request looks like. -/
structure WellShaped (l : Locator) (request : Request) (locations : List Location) : Prop where
  named : ∀ a ∈ locations, a.file.IsName
  ordered : locations.Pairwise fun a b => a.file.before b.file = true
  oneLine : ∀ a ∈ locations, 0 ≤ a.lineIndex ∧ '\n' ∉ a.text ∧ a.length = a.text.length
  elsewhere : (∃ text m, someText request.buffer = some text ∧
      l.BestInText (wanted request.identifier) text m ∧
      locations = [.ofMatchIn (bufferFile request.currentFile) m]) ∨
    ∀ file, request.currentFile = some file → file ≠ "" →
      ∀ a ∈ locations, a.Elsewhere l.tree file

theorem isName_bufferFile (currentFile : Option String) : (bufferFile currentFile).IsName := by
  unfold bufferFile
  split
  · split
    · exact isName_named "<buffer>"
    · apply isName_named
  · exact isName_named "<buffer>"

/-- Every answer to a request is in shape. -/
theorem locate_wellShaped (l : Locator) (request : Request) (run : Run) (hsound : l.tree.Sound)
    (hengine : l.engine.NamesFiles) (hroot : ∀ root ∈ request.root, root.Spelled)
    {locations : List Location} (h : (locate l request run).1 = .ok locations) :
    WellShaped l request locations := by
  have horigin := origin_locate l request run
  rw [h] at horigin
  cases horigin with
  | nothing =>
    exact ⟨by simp, by simp, by simp, Or.inr (by simp)⟩
  | @buffer text m htext hbest =>
    obtain ⟨hindex, hline⟩ := atLine_of_bestInText hbest
    refine ⟨?_, by simp, ?_, Or.inl ⟨text, m, htext, hbest, rfl⟩⟩
    · intro a ha
      rw [List.mem_singleton.mp ha]
      apply isName_bufferFile
    · intro a ha
      rw [List.mem_singleton.mp ha]
      exact ⟨hindex, hline, rfl⟩
  | @workspace root found now _ hsome hfound hresult =>
    have hlocations := mapError_eq_ok.mp hresult
    obtain ⟨hlines, hnodup⟩ := distinct_of_bestInFiles hsound hengine (hroot root hsome) hfound
    obtain ⟨hordered, excluded, hexcluded, horigin⟩ :=
      Location.ofMatches_kept (fun m hm => (hlines m hm).2) hnodup hlocations
    refine ⟨?_, hordered, ?_, Or.inr ?_⟩
    · intro a ha
      obtain ⟨m, hm, rfl, -⟩ := horigin a ha
      exact (hlines m hm).2
    · intro a ha
      obtain ⟨m, hm, rfl, -⟩ := horigin a ha
      exact ⟨(hlines m hm).1.index, (hlines m hm).1.text, rfl⟩
    · intro file hfile hne a ha
      obtain ⟨m, hm, rfl, hout⟩ := horigin a ha
      rw [hfile] at hexcluded
      exact Location.elsewhere_of_leftOut hne hexcluded hout

/-- An occurrence of three lines in a file, with a number that no line has. -/
def strayEvent (file : String) (number : Int) : Event :=
  ⟨some (named file), .number number, .text (Text.of "leaf\n\nleaf")⟩

/-- A locator whose engine reports two such occurrences and nothing else. -/
def stray : Locator where
  tree := ⟨.dir [], []⟩
  engine := ⟨"stray", true, fun kind _ _ run =>
    (.ok (if kind = .constructor then .ofEvents [strayEvent "/b" 0, strayEvent "/a" (-3)]
      else .ofEvents []), run)⟩
  skipDirs := []

/-- A request from one of the two files. -/
def strayRequest : Request :=
  ⟨some (Text.of "leaf"), none, some (.ofString "/"), none, some "/a"⟩

theorem namesFiles_stray : stray.engine.NamesFiles := by
  intro kind pattern source now result hresult event hevent file hfile
  have hevents : result.events ⊆ [strayEvent "/b" 0, strayEvent "/a" (-3)] := by
    rw [← Except.ok.inj hresult]
    split_ifs <;> simp [SearchResult.ofEvents]
  have hmem := hevents hevent
  simp only [List.mem_cons, List.not_mem_nil, or_false] at hmem
  rcases hmem with rfl | rfl
  · obtain rfl : named "/b" = file := by simpa [strayEvent] using hfile
    apply isName_named
  · obtain rfl : named "/a" = file := by simpa [strayEvent] using hfile
    apply isName_named

theorem resolve_stray {name : String} (h : name = "a" ∨ name = "b") :
    stray.tree.resolve (.absolute [name]) = .ok (.absolute [name]) := by
  rcases h with rfl | rfl <;>
    simp [FileTree.resolve, FileTree.realFrom, FileTree.node?, stray, FileTree.namesOf,
      FileTree.tidy, FileTree.start, Path.isAbsolute, Path.absolute, Path.child, Node.at?,
      FileTree.stat, FileTree.walk, Path.holdsNull, Node.child?] <;>
    split_ifs <;> rfl

/-- The matches of the two occurrences. -/
def strayMatches : List Match :=
  [⟨.constructor, named "/b", 1, Text.of "leaf"⟩, ⟨.constructor, named "/a", 0, Text.of "leaf"⟩]

theorem locate_stray : (locate stray strayRequest .fresh).1 =
    .ok [⟨named "/b", 1, 4, Text.of "leaf"⟩] := by
  have ha : Path.ofString "/a" = .absolute ["a"] := by decide
  have hb : Path.ofString "/b" = .absolute ["b"] := by decide
  have hne : (Path.absolute ["b"] == Path.absolute ["a"]) = false := by decide
  have hbest : Match.bestPerFile strayMatches = .ok strayMatches := rfl
  have hall : ∀ source message, ∃ after, after.cancelled = false ∧
      searchAll stray.engine (Text.of "leaf") source (Run.fresh.say .debug message) =
        (.ok (.found strayMatches), after) := by
    intro source message
    refine ⟨_, ?_, rfl⟩
    rfl
  have hlocations : ∀ run, (Location.ofMatches stray.tree (some "/a") strayMatches run).1 =
      .ok [⟨named "/b", 1, 4, Text.of "leaf"⟩] := by
    intro run
    simp [Location.ofMatches, Location.keyOf, Path.ofRaw, ha, hb, resolve_stray, hne,
      Location.distinct, Location.isIn, strayMatches, named, Except.map, Except.bind,
      Location.sort, Location.firstUnordered, Location.ofMatch, Location.ofMatchIn]
    rfl
  have hname : wanted strayRequest.identifier = Text.of "leaf" := rfl
  have hglobs : globsOf strayRequest.globs = defaultGlobs := rfl
  unfold locate locateByEngine inBuffer inWorkspace
  simp only [hname, hglobs, show stray.engine.available = true from rfl,
    show someText strayRequest.buffer = none from rfl,
    show strayRequest.root = some (.ofString "/") from rfl]
  generalize hsay : Run.fresh.say .debug _ = start
  obtain ⟨after, hrunning, hsearch⟩ := hall (.directory (.ofString "/") defaultGlobs []) _
  rw [hsay] at hsearch
  simp only [show stray.skipDirs = [] from rfl, hsearch, hrunning, hbest]
  show Except.mapError _ (Location.ofMatches stray.tree (some "/a") strayMatches after).1 = _
  rw [hlocations]
  rfl

theorem locate_wellShaped_stray :
    WellShaped stray strayRequest [⟨named "/b", 1, 4, Text.of "leaf"⟩] := by
  apply locate_wellShaped stray strayRequest .fresh
  · show stray.tree.top.isSound = true
    decide
  · apply namesFiles_stray
  · intro root hroot
    obtain rfl : .ofString "/" = root := by simpa [strayRequest] using hroot
    apply Path.spelled_ofString
  · exact locate_stray

end Locator
end DefinitionSite
