import Mathlib.Tactic.MkIffOfInductiveProp
import DefinitionSite.Proofs.FileTree.Sources
import DefinitionSite.Proofs.Location.Stopped
import DefinitionSite.Proofs.Locator.Cancellation
import DefinitionSite.Proofs.Locator.PartialFailure
import DefinitionSite.Proofs.Locator.Steps

/-! When a look-up needs a root that it was not given: just if the engine has to search a workspace,
which it does if it can run and the buffer was searched to its end without a match or a
cancellation. The line scan does without a root, and it fails only where it cannot ask about the
root that it was given. -/
namespace DefinitionSite

namespace Locator

variable {l : Locator} {identifier text : Text} {request : Request} {run now : Run} {root : Path}

/-- The searches of a source together are what their outcomes give. -/
theorem searchAll_eq (engine : Engine) (identifier : Text) (source : Source) (run : Run) :
    ∃ log, searchAll engine identifier source run =
      ((gather .fresh (searchKinds engine source run (Catalog.patterns identifier)).1).1,
        { (searchKinds engine source run (Catalog.patterns identifier)).2 with log }) :=
  gather_run _ _

/-- The searches of the buffer, made by a look-up. -/
def bufferSearches (l : Locator) (identifier text : Text) (run : Run) :
    List (Kind × Except SearchFault SearchResult) × Run :=
  searchKinds l.engine (.buffer text)
    (run.say .debug ("Looking for definition of '" ++ String.ofList identifier ++
      "' in current buffer"))
    (Catalog.patterns identifier)

/-- The searches of the workspace, made by a look-up behind those of the buffer. -/
def workspaceSearches (l : Locator) (identifier : Text) (request : Request) (root : Path)
    (run : Run) : List (Kind × Except SearchFault SearchResult) × Run :=
  searchKinds l.engine (.directory root (globsOf request.globs) l.skipDirs)
    (run.say .debug ("Not found in current buffer, searching " ++ root.toString ++ " in: " ++
      ", ".intercalate (globsOf request.globs)))
    (Catalog.patterns identifier)

/-- The buffer, if there is one, is searched to the end, without a match or a cancellation. -/
def BufferSilent (l : Locator) (identifier : Text) (request : Request) (run : Run) : Prop :=
  ∀ text, someText request.buffer = some text →
    (∀ pair ∈ (bufferSearches l identifier text run).1,
      ∃ result, pair.2 = .ok result ∧ result.FindsNothing) ∧
      (bufferSearches l identifier text run).2.cancelled = false

theorem inBuffer_goOn_iff :
    (inBuffer l identifier request run).1 = .goOn ↔ BufferSilent l identifier request run := by
  unfold inBuffer BufferSilent bufferSearches
  cases someText request.buffer with
  | none => simp
  | some text =>
    simp only [Option.some.injEq, forall_eq']
    generalize run.say .debug _ = start
    obtain ⟨log, hall⟩ := searchAll_eq l.engine identifier (.buffer text) start
    rw [hall, ← gather_eq_nothing_iff .fresh]
    cases (gather .fresh
        (searchKinds l.engine (.buffer text) start (Catalog.patterns identifier)).1).1 with
    | error f => simp
    | ok given =>
      cases given with
      | unavailable why => simp
      | found candidates =>
        have hbest : Match.best candidates = none ↔ candidates = [] := by
          rw [Match.best_eq_firstBest, Match.firstBest_eq_none]
        simp only
        split_ifs with hcancelled
        · simp [hcancelled]
        · simp only [hcancelled, Except.ok.injEq, Pooled.found.injEq, ← hbest]
          cases Match.best candidates <;> simp

/-- The line scan does not ask for a root. -/
theorem locateByScan_ne_noRoot : (locateByScan l identifier request run).1 ≠ .error .noRoot := by
  have hstep := scanStep l identifier request run
  generalize locateByScan l identifier request run = outcome at hstep ⊢
  cases hstep with
  | @located root log found =>
    cases (Location.ofMatches l.tree request.currentFile found .fresh).1 <;> simp [Except.mapError]
  | _ => simp

theorem inBuffer_ne_noRoot :
    (inBuffer l identifier request run).1 ≠ .answer (.error .noRoot) := by
  have hstep := bufferStep l identifier request run
  generalize inBuffer l identifier request run = outcome at hstep ⊢
  cases hstep <;> simp

theorem inWorkspace_noRoot_iff :
    (inWorkspace l identifier request run).1 = .answer (.error .noRoot) ↔
      request.root = none := by
  have hstep := workspaceStep l identifier request run
  generalize inWorkspace l identifier request run = outcome at hstep ⊢
  cases hstep with
  | noRoot hroot => simp [hroot]
  | @located root log said candidates found now hroot =>
    cases (Location.ofMatches l.tree request.currentFile found .fresh).1 <;>
      simp [Except.mapError, hroot]
  | misread hroot | unavailable hroot | cancelled hroot | ungrouped hroot => simp [hroot]

/-- The look-up comes to search a workspace with the engine, and none was given. -/
@[mk_iff]
structure NeedsRoot (l : Locator) (request : Request) (run : Run) : Prop where
  named : wanted request.identifier ≠ []
  available : l.engine.available = true
  noRoot : request.root = none
  silent : BufferSilent l (wanted request.identifier) request run

theorem locateByEngine_noRoot_iff :
    (locateByEngine l identifier request run).1 = .answer (.error .noRoot) ↔
      request.root = none ∧ BufferSilent l identifier request run := by
  rw [← inBuffer_goOn_iff]
  unfold locateByEngine
  have hanswer : (inBuffer l identifier request run).1 ≠ .answer (.error .noRoot) :=
    inBuffer_ne_noRoot
  cases hbuffer : inBuffer l identifier request run with
  | mk next now =>
    rw [hbuffer] at hanswer
    cases next with
    | goOn => simp [inWorkspace_noRoot_iff]
    | scan why => simp
    | answer result => simpa using hanswer

/-- A look-up asks for a root just if it comes to search a workspace that was not given. -/
theorem locate_noRoot_iff (l : Locator) (request : Request) (run : Run) :
    (locate l request run).1 = .error .noRoot ↔ NeedsRoot l request run := by
  rw [needsRoot_iff, ← locateByEngine_noRoot_iff]
  unfold locate
  simp only
  split_ifs with hempty havailable
  · have hnil : wanted request.identifier = [] := List.isEmpty_iff.mp hempty
    simp [hnil]
  · have hoff : l.engine.available = false := by simpa using havailable
    simp [locateByScan_ne_noRoot, hoff]
  · have hnamed : wanted request.identifier ≠ [] := by simpa using hempty
    have hon : l.engine.available = true := by simpa using havailable
    cases hengine : locateByEngine l (wanted request.identifier) request run with
    | mk next now =>
      cases next with
      | answer result => simp [hnamed, hon]
      | scan why => simp [locateByScan_ne_noRoot]
      | goOn => simp

section Degraded

/-- The file system is sound, the root is spelled by some string, and the current file has a real
path. -/
structure ValidPaths (l : Locator) (request : Request) : Prop where
  sound : l.tree.Sound
  spelled : ∀ root ∈ request.root, root.Spelled
  resolves : ∀ file ∈ request.currentFile, file ≠ "" →
    ∃ real, l.tree.resolve (.ofString file) = .ok real

/-- An answer, or that the root cannot be asked about. -/
def Answers (l : Locator) (request : Request) (result : Except LocateFault (List Location)) :
    Prop :=
  (∃ locations, result = .ok locations) ∨ RootUnaskable l request result

/-- Files that were read have real paths, so the line scan fails at its root alone. -/
theorem answers_locateByScan (hpaths : ValidPaths l request) (identifier : Text) (run : Run) :
    Answers l request (locateByScan l identifier request run).1 := by
  have hstep := scanStep l identifier request run
  generalize locateByScan l identifier request run = outcome at hstep ⊢
  cases hstep with
  | @located root log found now hroot hscan =>
    cases hlocations : (Location.ofMatches l.tree request.currentFile found .fresh).1 with
    | ok locations => exact .inl ⟨locations, rfl⟩
    | error f =>
      obtain ⟨-, hfound⟩ := exists_of_scanDirectory hscan
      have hlabel : ∀ m ∈ found, ∃ p : Path, m.file = FileLabel.named p.toString ∧
          p.Spelled ∧ ∃ real, l.tree.resolve p = .ok real := by
        intro m hm
        obtain ⟨p, hp, text, hread, hm⟩ := hfound m hm
        exact ⟨p, LineScan.file_of_mem_scan hm,
          FileTree.spelled_sourceFile hpaths.sound (hpaths.spelled root hroot) hp,
          FileTree.exists_resolve_of_readText hpaths.sound hread⟩
      cases Location.stopped_ofMatches hlocations with
      | @path file name g hfile hne hname hresolve =>
        rcases hname with rfl | ⟨m, hm, hname⟩
        · obtain ⟨real, hreal⟩ := hpaths.resolves file hfile hne
          simp [Path.ofRaw, hreal] at hresolve
        · obtain ⟨p, hp, hspelled, real, hreal⟩ := hlabel m hm
          obtain rfl := FileLabel.name.inj (hname.symm.trans hp)
          simp [Path.ofRaw, Path.ofString_toString hspelled, hreal] at hresolve
      | name hm hv =>
        obtain ⟨p, hp, -⟩ := hlabel _ hm
        cases hv.symm.trans hp
  | unscanned hroot hask => exact .inr ⟨_, _, hroot, hask, rfl⟩
  | _ => exact .inl ⟨_, rfl⟩

/-- One search whose engine cannot run ends all searches of the source, unless one of them has no
outcome. -/
theorem searchAll_of_unavailable {engine : Engine} (hreports : engine.ReportsText) {source : Source}
    {kind : Kind} {result : SearchResult}
    (hmem : (kind, .ok result) ∈ (searchKinds engine source run (Catalog.patterns identifier)).1)
    (hstatus : result.status = .unavailable) :
    ∃ after, (∃ why, searchAll engine identifier source run = (.ok (.unavailable why), after)) ∨
      ∃ f, searchAll engine identifier source run = (.error f, after) := by
  obtain ⟨log, hall⟩ := searchAll_eq engine identifier source run
  generalize Run.mk _ _ _ _ log = after at hall
  refine ⟨after, ?_⟩
  rw [hall, gather]
  cases hresults : allResults
      (searchKinds engine source run (Catalog.patterns identifier)).1 with
  | error f => exact .inr ⟨.search f, rfl⟩
  | ok results =>
    have houtcomes := eq_of_allResults hresults
    have hreadable : ∀ pair ∈ results, pair.2.success = true → ∀ event ∈ pair.2.events,
        event.Readable := by
      intro pair hpair _ event hevent
      obtain ⟨pattern, now, -, hsearch⟩ :=
        mem_searchKinds (houtcomes ▸ List.mem_map_of_mem hpair)
      exact hreports pair.1 pattern source now pair.2 hsearch event hevent
    obtain ⟨pair, hpair, heq⟩ := List.mem_map.mp (houtcomes ▸ hmem)
    obtain ⟨rfl, hresult⟩ := Prod.mk.inj heq
    obtain rfl := Except.ok.inj hresult
    obtain ⟨why, hwhy⟩ := together_unavailable hpair hstatus []
    refine .inl ⟨why, ?_⟩
    simp only [pool_readable hreadable, hwhy, Except.mapError]

/-- The engine cannot run: it says so itself, or a search that the look-up comes to make turns out
so. -/
inductive Degraded (l : Locator) (request : Request) (run : Run) : Prop
  | switchedOff (havailable : l.engine.available = false)
  | inBuffer {text : Text} {kind : Kind} {result : SearchResult}
      (htext : someText request.buffer = some text)
      (hmem : (kind, .ok result) ∈ (bufferSearches l (wanted request.identifier) text run).1)
      (hstatus : result.status = .unavailable)
  | inWorkspace {root : Path} {now : Run} {kind : Kind} {result : SearchResult}
      (hroot : request.root = some root)
      (hbuffer : inBuffer l (wanted request.identifier) request run = (.goOn, now))
      (hmem : (kind, .ok result) ∈
        (workspaceSearches l (wanted request.identifier) request root now).1)
      (hstatus : result.status = .unavailable)

/-- A look-up whose engine cannot run fails at its root alone. -/
theorem answers_locate_degraded (hpaths : ValidPaths l request) (hreports : l.engine.ReportsText)
    (hfails : l.engine.FailsAtRoots l.tree) (h : Degraded l request run) :
    Answers l request (locate l request run).1 := by
  have hscan := answers_locateByScan hpaths (wanted request.identifier)
  unfold locate
  simp only
  split_ifs with hempty havailable
  · exact .inl ⟨[], rfl⟩
  · exact hscan _
  · have hon : l.engine.available = true := by simpa using havailable
    unfold locateByEngine
    cases h with
    | switchedOff hoff => simp [hoff] at hon
    | inBuffer htext hmem hstatus =>
      obtain ⟨after, ⟨why, hall⟩ | ⟨f, hall⟩⟩ := searchAll_of_unavailable hreports hmem hstatus
      · simp only [Locator.inBuffer, htext, hall]
        exact hscan _
      · simp only [Locator.inBuffer, htext, hall]
        exact .inr (rootUnaskable_of_searchAll hreports hfails (.buffer htext) hall)
    | inWorkspace hroot hbuffer hmem hstatus =>
      obtain ⟨after, ⟨why, hall⟩ | ⟨f, hall⟩⟩ := searchAll_of_unavailable hreports hmem hstatus
      · simp only [hbuffer, Locator.inWorkspace, hroot, hall]
        exact hscan _
      · simp only [hbuffer, Locator.inWorkspace, hroot, hall]
        exact .inr (rootUnaskable_of_searchAll hreports hfails (.workspace hroot) hall)

end Degraded

end Locator
end DefinitionSite
