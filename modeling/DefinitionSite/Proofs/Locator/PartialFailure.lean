import DefinitionSite.Proofs.Locator.Directory
import DefinitionSite.Proofs.Locator.Outcomes

/-! What the failure of single searches does to a look-up that nobody cancels. A search that fails,
runs out of time or is cut short counts as one that finds nothing; one whose engine cannot run
hands the whole look-up over to the line scan, and what the other searches found is dropped. -/
namespace DefinitionSite

/-- The result as it counts: a search that did not come to its end has found nothing. -/
def SearchResult.forgiven (result : SearchResult) : SearchResult :=
  match result.status with
  | .failed | .timeout | .cancelled => ⟨.noMatches, [], ""⟩
  | _ => result

namespace Engine

/-- The engine whose failed searches have found nothing. -/
def forgiving (engine : Engine) : Engine :=
  { engine with search := fun kind pattern source run =>
      ((engine.search kind pattern source run).1.map SearchResult.forgiven,
        (engine.search kind pattern source run).2) }

/-- The engine, if it says itself that it cannot run. -/
def switchedOff (engine : Engine) : Engine := { engine with available := false }

/-- In a run that nobody cancels, the searches come out as laid down, and none cancels it. -/
def Follows (engine : Engine) (outcome : Kind → Text → Source → SearchResult) : Prop :=
  ∀ kind pattern source (run : Run), run.Undisturbed →
    ∃ after, engine.search kind pattern source run = (.ok (outcome kind pattern source), after) ∧
      after.Undisturbed

theorem Follows.settledIn {engine : Engine} {outcome : Kind → Text → Source → SearchResult}
    (h : engine.Follows outcome) (source : Source) :
    engine.SettledIn source fun kind pattern => .ok (outcome kind pattern source) :=
  fun kind pattern => h kind pattern source

theorem Follows.forgiving {engine : Engine} {outcome : Kind → Text → Source → SearchResult}
    (h : engine.Follows outcome) :
    engine.forgiving.Follows fun kind pattern source => (outcome kind pattern source).forgiven := by
  intro kind pattern source run hrun
  obtain ⟨after, hsearch, hafter⟩ := h kind pattern source run hrun
  exact ⟨after, by simp only [Engine.forgiving, hsearch, Except.map], hafter⟩

end Engine

namespace Locator

variable {engine : Engine} {outcome : Kind → Text → Source → SearchResult} {l : Locator}
  {identifier : Text} {request : Request}

/-- What the searches of a source give together, as laid down. -/
def laidDown (outcome : Kind → Text → Source → SearchResult) (identifier : Text)
    (source : Source) : Except LocationFault Pooled :=
  gathered fun kind => .ok (outcome kind (Catalog.patternText identifier kind) source)

theorem searchAll_follows (h : engine.Follows outcome) (identifier : Text) (source : Source)
    {run : Run} (hrun : run.Undisturbed) : ∃ after, after.Undisturbed ∧
      searchAll engine identifier source run = (laidDown outcome identifier source, after) :=
  searchAll_settled (h.settledIn source) identifier hrun

section Forgiven

theorem pool_forgiven (found : List Match) (run : Run) (results : List (Kind × SearchResult)) :
    (pool found run (results.map fun pair => (pair.1, pair.2.forgiven))).1 =
      (pool found run results).1 := by
  induction results generalizing found run with
  | nil => rfl
  | cons pair results ih =>
    obtain ⟨kind, status, events, error⟩ := pair
    -- Only a warning tells a failure from a search that finds nothing.
    have hquiet : ∀ level message,
        (pool found run (results.map fun pair => (pair.1, pair.2.forgiven))).1 =
          (pool found (run.say level message) results).1 := by
      intro level message
      obtain ⟨_, hleft⟩ := pool_run found run results
      obtain ⟨_, hright⟩ := pool_run found (run.say level message) results
      rw [ih, hleft, hright]
    rw [List.map_cons]
    cases status with
    | unavailable => rfl
    | failed | timeout | cancelled =>
      simpa [pool, SearchResult.forgiven, SearchResult.success, Match.ofEvents, pure, Except.pure]
        using hquiet _ _
    | ok | noMatches =>
      simp only [SearchResult.forgiven, pool]
      cases Match.ofEvents kind events with
      | error f => rfl
      | ok ms => exact ih (found ++ ms) run

theorem laidDown_forgiven (outcome : Kind → Text → Source → SearchResult) (identifier : Text)
    (source : Source) :
    laidDown (fun kind pattern source => (outcome kind pattern source).forgiven) identifier source =
      laidDown outcome identifier source := by
  have h := pool_forgiven [] .fresh (Kind.all.map fun kind =>
    (kind, outcome kind (Catalog.patternText identifier kind) source))
  rw [List.map_map] at h
  unfold laidDown
  rw [gathered_ok, gathered_ok]
  exact congrArg (Except.mapError LocationFault.shape) h

end Forgiven

/-- Two ways to go on give the same in runs that nobody cancels, and cancel none. -/
def Alike {α : Type} (f g : Run → α × Run) : Prop :=
  ∀ a b : Run, a.Undisturbed → b.Undisturbed →
    ∃ x a' b', f a = (x, a') ∧ g b = (x, b') ∧ a'.Undisturbed ∧ b'.Undisturbed

section Alike

theorem alike_searchAll {other : Engine} {source : Source}
    {outcome outcome' : Kind → Text → Except SearchFault SearchResult}
    (h : engine.SettledIn source outcome) (hother : other.SettledIn source outcome')
    (hsame : (gathered fun kind => outcome' kind (Catalog.patternText identifier kind)) =
      gathered fun kind => outcome kind (Catalog.patternText identifier kind)) :
    Alike (searchAll engine identifier source) (searchAll other identifier source) := by
  intro a b ha hb
  obtain ⟨a', ha', hleft⟩ := searchAll_settled h identifier ha
  obtain ⟨b', hb', hright⟩ := searchAll_settled hother identifier hb
  exact ⟨_, a', b', hleft, by rw [hright, hsame], ha', hb'⟩

theorem alike_scanDirectory (tree : FileTree) (identifier : Text) (root : Path)
    (globs skipDirs : List String) :
    Alike (LineScan.scanDirectory tree identifier root globs skipDirs)
      (LineScan.scanDirectory tree identifier root globs skipDirs) := by
  intro a b ha hb
  unfold LineScan.scanDirectory
  split
  · exact ⟨_, a, b, rfl, rfl, ha, hb⟩
  · exact ⟨_, a, b, rfl, rfl, ha, hb⟩
  · obtain ⟨a', hleft, ha'⟩ :=
      scanFiles_readable tree identifier [] ha (tree.sourceFiles root globs skipDirs)
    obtain ⟨b', hright, hb'⟩ :=
      scanFiles_readable tree identifier [] hb (tree.sourceFiles root globs skipDirs)
    exact ⟨_, a', b', by rw [hleft], by rw [hright], ha', hb'⟩

theorem alike_ofMatches (tree : FileTree) (currentFile : Option String) (ms : List Match) :
    Alike (Location.ofMatches tree currentFile ms) (Location.ofMatches tree currentFile ms) := by
  intro a b ha hb
  obtain ⟨log, hleft⟩ := Location.ofMatches_run tree currentFile ms a
  obtain ⟨log', hright⟩ := Location.ofMatches_run tree currentFile ms b
  exact ⟨_, _, _, hleft, hright, ha.withLog log, hb.withLog log'⟩

/-- The line scan does not ask the engine. -/
theorem alike_locateByScan (l : Locator) (identifier : Text) (request : Request) :
    Alike (locateByScan l identifier request) (locateByScan l identifier request) := by
  intro a b ha hb
  unfold locateByScan
  simp only [ha.running, hb.running, Bool.and_false, Bool.false_eq_true, ↓reduceIte]
  cases (someText request.buffer).bind fun text =>
      Match.best (LineScan.scan identifier text .buffer) with
  | some m => exact ⟨_, a, b, rfl, rfl, ha, hb⟩
  | none =>
    cases request.root with
    | none => exact ⟨_, _, _, rfl, rfl, ha.say _ _, hb.say _ _⟩
    | some root =>
      obtain ⟨scanned, a', b', hleft, hright, ha', hb'⟩ := alike_scanDirectory l.tree identifier
        root (globsOf request.globs) l.skipDirs a b ha hb
      simp only [hleft, hright]
      cases scanned with
      | error e =>
        cases e with
        | unaskable e => exact ⟨_, a', b', rfl, rfl, ha', hb'⟩
        | notDirectory root => exact ⟨_, _, _, rfl, rfl, ha'.say _ _, hb'.say _ _⟩
      | ok found =>
        obtain ⟨result, a'', b'', hleft, hright, ha'', hb''⟩ :=
          alike_ofMatches l.tree request.currentFile found a' b' ha' hb'
        simp only [ha'.running, hb'.running, hleft, hright]
        exact ⟨_, a'', b'', rfl, rfl, ha'', hb''⟩

variable {other : Engine}

theorem alike_inBuffer (request : Request) (hsearch : ∀ source,
      Alike (searchAll l.engine identifier source) (searchAll other identifier source)) :
    Alike (inBuffer l identifier request)
      (inBuffer { l with engine := other } identifier request) := by
  intro a b ha hb
  unfold inBuffer
  cases someText request.buffer with
  | none => exact ⟨_, a, b, rfl, rfl, ha, hb⟩
  | some text =>
    simp only
    generalize hasay : a.say .debug _ = start
    generalize hbsay : b.say .debug _ = start'
    obtain ⟨given, a', b', hleft, hright, ha', hb'⟩ :=
      hsearch (.buffer text) start start' (hasay ▸ ha.say _ _) (hbsay ▸ hb.say _ _)
    simp only [hleft, hright]
    cases given with
    | error f => exact ⟨_, a', b', rfl, rfl, ha', hb'⟩
    | ok pooled =>
      cases pooled with
      | unavailable why => exact ⟨_, a', b', rfl, rfl, ha', hb'⟩
      | found candidates =>
        simp only [ha'.running, hb'.running]
        cases Match.best candidates with
        | none => exact ⟨_, a', b', rfl, rfl, ha', hb'⟩
        | some m => exact ⟨_, _, _, rfl, rfl, ha'.say _ _, hb'.say _ _⟩

theorem alike_inWorkspace (request : Request) (hsearch : ∀ source,
      Alike (searchAll l.engine identifier source) (searchAll other identifier source)) :
    Alike (inWorkspace l identifier request)
      (inWorkspace { l with engine := other } identifier request) := by
  intro a b ha hb
  unfold inWorkspace
  cases request.root with
  | none => exact ⟨_, a, b, rfl, rfl, ha, hb⟩
  | some root =>
    simp only
    generalize hasay : a.say .debug _ = start
    generalize hbsay : b.say .debug _ = start'
    obtain ⟨given, a', b', hleft, hright, ha', hb'⟩ :=
      hsearch (.directory root (globsOf request.globs) l.skipDirs) start start'
        (hasay ▸ ha.say _ _) (hbsay ▸ hb.say _ _)
    simp only [hleft, hright]
    cases given with
    | error f => exact ⟨_, a', b', rfl, rfl, ha', hb'⟩
    | ok pooled =>
      cases pooled with
      | unavailable why => exact ⟨_, a', b', rfl, rfl, ha', hb'⟩
      | found candidates =>
        simp only [ha'.running, hb'.running]
        cases Match.bestPerFile candidates with
        | error f => exact ⟨_, a', b', rfl, rfl, ha', hb'⟩
        | ok found =>
          obtain ⟨result, a'', b'', hleft, hright, ha'', hb''⟩ :=
            alike_ofMatches l.tree request.currentFile found a' b' ha' hb'
          simp only [hleft, hright]
          exact ⟨_, a'', b'', rfl, rfl, ha'', hb''⟩

theorem alike_locateByEngine (request : Request) (hsearch : ∀ source,
      Alike (searchAll l.engine identifier source) (searchAll other identifier source)) :
    Alike (locateByEngine l identifier request)
      (locateByEngine { l with engine := other } identifier request) := by
  intro a b ha hb
  obtain ⟨next, a', b', hleft, hright, ha', hb'⟩ := alike_inBuffer request hsearch a b ha hb
  unfold locateByEngine
  simp only [hleft, hright]
  cases next with
  | goOn => exact alike_inWorkspace request hsearch a' b' ha' hb'
  | answer result => exact ⟨_, a', b', rfl, rfl, ha', hb'⟩
  | scan why => exact ⟨_, a', b', rfl, rfl, ha', hb'⟩

/-- Engines whose searches give the same together lead to the same answer. -/
theorem alike_locate (request : Request) (havailable : other.available = l.engine.available)
    (hsearch : ∀ source, Alike (searchAll l.engine (wanted request.identifier) source)
      (searchAll other (wanted request.identifier) source)) :
    Alike (locate l request) (locate { l with engine := other } request) := by
  intro a b ha hb
  unfold locate
  simp only [havailable]
  split_ifs
  · exact ⟨_, a, b, rfl, rfl, ha, hb⟩
  · exact alike_locateByScan l _ request _ _ (ha.say _ _) (hb.say _ _)
  · obtain ⟨next, a', b', hleft, hright, ha', hb'⟩ :=
      alike_locateByEngine request hsearch a b ha hb
    simp only [hleft, hright]
    cases next with
    | answer result => exact ⟨_, a', b', rfl, rfl, ha', hb'⟩
    | scan why => exact alike_locateByScan l _ request _ _ (ha'.say _ _) (hb'.say _ _)
    | goOn => exact ⟨_, a', b', rfl, rfl, ha', hb'⟩

end Alike

section Unavailable

/-- The occurrences that are laid down for a source can be read. -/
def Readable (outcome : Kind → Text → Source → SearchResult) (source : Source) : Prop :=
  ∀ kind pattern, ∀ event ∈ (outcome kind pattern source).events, event.Readable

theorem laidDown_nothing (h : ∀ kind,
      (outcome kind (Catalog.patternText identifier kind) source).FindsNothing) :
    laidDown outcome identifier source = .ok (.found []) := by
  refine (gather_eq_nothing_iff .fresh _).mpr fun pair hpair => ?_
  obtain ⟨kind, -, rfl⟩ := List.mem_map.mp hpair
  exact ⟨_, rfl, h kind⟩

variable {run : Run} {source : Source}

/-- A source that a look-up with the engine comes to search. -/
def Reaches (l : Locator) (outcome : Kind → Text → Source → SearchResult) (request : Request) :
    Source → Prop
  | .buffer text => someText request.buffer = some text
  | .directory root globs skipDirs =>
    request.root = some root ∧ globs = globsOf request.globs ∧ skipDirs = l.skipDirs ∧
      ∀ text, someText request.buffer = some text → ∀ kind,
        (outcome kind (Catalog.patternText (wanted request.identifier) kind)
          (.buffer text)).FindsNothing

theorem inBuffer_nothing (h : l.engine.Follows outcome) (hrun : run.Undisturbed)
    (hgiven : ∀ text, someText request.buffer = some text →
      laidDown outcome identifier (.buffer text) = .ok (.found [])) :
    ∃ after, inBuffer l identifier request run = (.goOn, after) ∧ after.Undisturbed := by
  unfold inBuffer
  cases htext : someText request.buffer with
  | none => exact ⟨run, rfl, hrun⟩
  | some text =>
    simp only
    generalize hsay : run.say .debug _ = start
    obtain ⟨after, hafter, hall⟩ :=
      searchAll_follows h identifier (.buffer text) (hsay ▸ hrun.say _ _)
    refine ⟨after, ?_, hafter⟩
    simp only [hall, hgiven text htext, hafter.running]
    rfl

theorem inWorkspace_scan (h : l.engine.Follows outcome) (hrun : run.Undisturbed) {root : Path}
    (hroot : request.root = some root) {why : String}
    (hgiven : laidDown outcome identifier (.directory root (globsOf request.globs) l.skipDirs) =
      .ok (.unavailable why)) :
    ∃ after, inWorkspace l identifier request run = (.scan why, after) ∧ after.Undisturbed := by
  unfold inWorkspace
  simp only [hroot]
  generalize hsay : run.say .debug _ = start
  obtain ⟨after, hafter, hall⟩ := searchAll_follows h identifier
    (.directory root (globsOf request.globs) l.skipDirs) (hsay ▸ hrun.say _ _)
  exact ⟨after, by simp only [hall, hgiven], hafter⟩

/-- One search whose engine cannot run hands the look-up over to the line scan. -/
theorem locateByEngine_scan (h : l.engine.Follows outcome) (hrun : run.Undisturbed)
    (hreached : l.Reaches outcome request source) (hreadable : Readable outcome source)
    {kind : Kind}
    (hkind : (outcome kind (Catalog.patternText (wanted request.identifier) kind) source).status =
      .unavailable) :
    ∃ why after, locateByEngine l (wanted request.identifier) request run = (.scan why, after) ∧
      after.Undisturbed := by
  obtain ⟨why, hgiven⟩ := gathered_unavailable (fun kind => hreadable kind _) hkind
  unfold locateByEngine
  cases source with
  | buffer text =>
    obtain ⟨after, hbuffer, hafter⟩ := inBuffer_scan (h.settledIn _) hrun hreached hgiven
    exact ⟨why, after, by rw [hbuffer], hafter⟩
  | directory root globs skipDirs =>
    obtain ⟨hroot, rfl, rfl, hsilent⟩ := hreached
    obtain ⟨now, hbuffer, hnow⟩ := inBuffer_nothing h hrun fun text htext =>
      laidDown_nothing (hsilent text htext)
    obtain ⟨after, hworkspace, hafter⟩ := inWorkspace_scan h hnow hroot hgiven
    exact ⟨why, after, by rw [hbuffer]; exact hworkspace, hafter⟩

/-- Without the engine a look-up is the line scan. -/
theorem exists_locate_switchedOff (l : Locator) (hname : wanted request.identifier ≠ [])
    (hrun : run.Undisturbed) : ∃ start, start.Undisturbed ∧
      locate { l with engine := l.engine.switchedOff } request run =
        locateByScan l (wanted request.identifier) request start := by
  have hempty : (wanted request.identifier).isEmpty = false := by simpa using hname
  unfold locate
  simp only [hempty]
  exact ⟨_, hrun.say _ _, rfl⟩

theorem locate_eq_switchedOff (h : l.engine.Follows outcome) (hrun : run.Undisturbed)
    (hreached : l.Reaches outcome request source) (hreadable : Readable outcome source)
    {kind : Kind}
    (hkind : (outcome kind (Catalog.patternText (wanted request.identifier) kind) source).status =
      .unavailable) : (locate l request run).1 =
        (locate { l with engine := l.engine.switchedOff } request run).1 := by
  by_cases hname : wanted request.identifier = []
  · unfold locate
    simp only [hname]
    rfl
  · obtain ⟨start, hstart, hoff⟩ := exists_locate_switchedOff l hname hrun
    have hempty : (wanted request.identifier).isEmpty = false := by simpa using hname
    have hscan : ∀ now : Run, now.Undisturbed →
        (locateByScan l (wanted request.identifier) request now).1 =
          (locateByScan l (wanted request.identifier) request start).1 := by
      intro now hnow
      obtain ⟨x, _, _, hleft, hright, -, -⟩ :=
        alike_locateByScan l (wanted request.identifier) request now start hnow hstart
      rw [hleft, hright]
    rw [hoff]
    unfold locate
    simp only [hempty]
    cases havailable : l.engine.available with
    | false => exact hscan _ (hrun.say _ _)
    | true =>
      obtain ⟨why, after, hengine, hafter⟩ := locateByEngine_scan h hrun hreached hreadable hkind
      simp only [hengine]
      exact hscan _ (hafter.say _ _)

end Unavailable

section Text

variable {given text : Option Text} {run : Run}

theorem findInText_forgiving (h : engine.Follows outcome) (hrun : run.Undisturbed) :
    (findInText engine given text run).1 = (findInText engine.forgiving given text run).1 := by
  rw [findInText_eq, findInText_eq]
  cases someText text with
  | none => rfl
  | some text =>
    obtain ⟨_, -, hall⟩ := searchAll_follows h (wanted given) (.buffer text) hrun
    obtain ⟨_, -, hforgiving⟩ := searchAll_follows h.forgiving (wanted given) (.buffer text) hrun
    rw [laidDown_forgiven] at hforgiving
    simp only [hall, hforgiving]
    rfl

theorem findInText_switchedOff (h : engine.Follows outcome) (hrun : run.Undisturbed)
    {content : Text} (htext : someText text = some content)
    (hreadable : Readable outcome (.buffer content)) {kind : Kind}
    (hkind : (outcome kind (Catalog.patternText (wanted given) kind) (.buffer content)).status =
      .unavailable) :
    (findInText engine given text run).1 = (findInText engine.switchedOff given text run).1 := by
  obtain ⟨why, hgiven⟩ := gathered_unavailable (fun kind => hreadable kind _) hkind
  obtain ⟨_, -, hall⟩ := searchAll_follows h (wanted given) (.buffer content) hrun
  have hanswer : answerFrom (wanted given) content
      (searchAll engine (wanted given) (.buffer content) run).1 =
        .ok (scanText (wanted given) content) := by
    rw [hall, laidDown, hgiven]
    rfl
  rw [findInText_eq, findInText_eq, htext]
  simp only [hanswer, Engine.switchedOff, ite_self, Bool.false_eq_true, ↓reduceIte]

end Text

/-- What failures of single searches do to the look-ups of a request. -/
structure WithstandsFailures (l : Locator) (outcome : Kind → Text → Source → SearchResult)
    (request : Request) (run : Run) : Prop where
  forgiving : (locate l request run).1 =
    (locate { l with engine := l.engine.forgiving } request run).1
  forgivingInText : (findInText l.engine request.identifier request.buffer run).1 =
    (findInText l.engine.forgiving request.identifier request.buffer run).1
  unavailable : ∀ source kind, l.Reaches outcome request source → Readable outcome source →
    (outcome kind (Catalog.patternText (wanted request.identifier) kind) source).status =
      .unavailable →
    (locate l request run).1 = (locate { l with engine := l.engine.switchedOff } request run).1
  unavailableInText : ∀ text kind, someText request.buffer = some text →
    Readable outcome (.buffer text) →
    (outcome kind (Catalog.patternText (wanted request.identifier) kind) (.buffer text)).status =
      .unavailable →
    (findInText l.engine request.identifier request.buffer run).1 =
      (findInText l.engine.switchedOff request.identifier request.buffer run).1

/-- However the searches come out, a look-up that nobody cancels withstands their failures. -/
theorem lookUps_withstandFailures (l : Locator) (outcome : Kind → Text → Source → SearchResult)
    (hengine : l.engine.Follows outcome) (request : Request) (run : Run)
    (hrun : run.Undisturbed) : WithstandsFailures l outcome request run := by
  constructor
  · have havailable : l.engine.forgiving.available = l.engine.available := rfl
    have hsearch : ∀ source, Alike (searchAll l.engine (wanted request.identifier) source)
        (searchAll l.engine.forgiving (wanted request.identifier) source) := fun source =>
      alike_searchAll (hengine.settledIn source) (hengine.forgiving.settledIn source)
        (laidDown_forgiven outcome _ source)
    obtain ⟨_, _, _, hleft, hright, -, -⟩ :=
      alike_locate request havailable hsearch run run hrun hrun
    rw [hleft, hright]
  · exact findInText_forgiving hengine hrun
  · intro source kind hreached hreadable hkind
    exact locate_eq_switchedOff hengine hrun hreached hreadable hkind
  · intro text kind htext hreadable hkind
    exact findInText_switchedOff hengine hrun htext hreadable hkind

/-- Searches of which one finds an assignment, one cannot run its engine and the others fail. -/
def unsteadyOutcome (kind : Kind) (_ : Text) (_ : Source) : SearchResult :=
  match kind with
  | .assignment => .ofEvents [⟨none, .number 1, .text (Text.of "leaf = 1")⟩]
  | .constructor => .fail .unavailable "rg: not found"
  | .typeDecl => .fail .timeout "rg timed out after 5.0s"
  | .classDecl => .fail .cancelled "Search cancelled"
  | _ => .fail .failed "rg exited with code 2: "

/-- A locator whose searches come out so. -/
def unsteady : Locator where
  tree := ⟨.dir [], []⟩
  engine := ⟨"rg", true, fun kind pattern source run =>
    (.ok (unsteadyOutcome kind pattern source), run)⟩
  skipDirs := []

/-- A request for a leaf from a buffer that has none. -/
def unsteadyRequest : Request :=
  ⟨some (Text.of "leaf"), some (Text.of "tree = 2"), none, none, none⟩

/-- The assignment that one search reports is not in the answer, since another hands over to the
line scan. -/
theorem lookUps_withstandFailures_unsteady :
    unsteady.engine.Follows unsteadyOutcome ∧ Run.fresh.Undisturbed ∧
      WithstandsFailures unsteady unsteadyOutcome unsteadyRequest .fresh ∧
      (locate unsteady unsteadyRequest .fresh).1 = (locate
        { unsteady with engine := unsteady.engine.switchedOff } unsteadyRequest .fresh).1 := by
  have hfollows : unsteady.engine.Follows unsteadyOutcome := fun _ _ _ run hrun => ⟨run, rfl, hrun⟩
  have hfresh : Run.fresh.Undisturbed := ⟨rfl, rfl⟩
  have hwithstands := lookUps_withstandFailures unsteady unsteadyOutcome hfollows unsteadyRequest
    .fresh hfresh
  have hreadable : Readable unsteadyOutcome (.buffer (Text.of "tree = 2")) := by
    intro kind pattern event hevent
    cases kind <;>
      simp [unsteadyOutcome, SearchResult.ofEvents, SearchResult.fail] at hevent
    exact ⟨Text.of "leaf = 1", by rw [hevent]⟩
  exact ⟨hfollows, hfresh, hwithstands,
    hwithstands.unavailable (.buffer (Text.of "tree = 2")) .constructor rfl hreadable rfl⟩

end Locator
end DefinitionSite
