import DefinitionSite.Proofs.InProcess.Files
import DefinitionSite.Proofs.LineScan.Agreement
import DefinitionSite.Proofs.Location.Ordered
import DefinitionSite.Proofs.Locator.Outcomes
import DefinitionSite.Proofs.Locator.Steps

/-! Where the result of a look-up comes from. Whatever the engine does and whenever the run is
cancelled, locations are those of the best match in the buffer or of the best matches in the files
of the workspace; and every match that counts was reported by a search of the engine that came to
its end, or by the line scan. A fault is that of a search, of what it reported, or of the root. -/
namespace DefinitionSite

/-- The occurrences that the engine reports can be read. -/
def Engine.ReportsText (engine : Engine) : Prop :=
  ∀ kind pattern source run result, (engine.search kind pattern source run).1 = .ok result →
    ∀ event ∈ result.events, event.Readable

/-- A search of the catalog has no outcome only where its root cannot be asked about. -/
def Engine.FailsAtRoots (engine : Engine) (tree : FileTree) : Prop :=
  ∀ identifier kind source run f,
    (engine.search kind (Catalog.patternText identifier kind) source run).1 = .error f →
      RootFault tree source f

theorem InProcess.engine_failsAtRoots (tree : FileTree) (timeout : Float) :
    (engine tree timeout).FailsAtRoots tree := fun identifier kind _ _ _ h =>
  InProcess.rootFault_of_compile (Catalog.compile_patternText identifier kind) h

namespace Locator

variable {engine : Engine} {identifier : Text} {source : Source}

/-- Some search for a kind reported an occurrence that reads as the given result. -/
def Reported (engine : Engine) (identifier : Text) (source : Source)
    (result : Except ShapeFault Match) : Prop :=
  ∃ (kind : Kind) (now : Run) (found : SearchResult),
    (engine.search kind (Catalog.patternText identifier kind) source now).1 = .ok found ∧
      ∃ event ∈ found.events, Match.ofEvent kind event = result

/-- Some search for a kind has no outcome but this fault. -/
def Raised (engine : Engine) (identifier : Text) (source : Source) (f : SearchFault) : Prop :=
  ∃ (kind : Kind) (now : Run),
    (engine.search kind (Catalog.patternText identifier kind) source now).1 = .error f

/-- What searches give together comes from them: every match was reported, and so was what keeps
them from being put together, if it is no fault of a search itself. -/
def Traced (raised : SearchFault → Prop) (reported : Except ShapeFault Match → Prop) :
    Except LocationFault Pooled → Prop
  | .error (.search f) => raised f
  | .error (.shape f) => reported (.error f)
  | .error (.path _) => False
  | .ok (.unavailable _) => True
  | .ok (.found cs) => ∀ m ∈ cs, reported (.ok m)

theorem mem_searchKinds {patterns : List (Kind × Text)} {run : Run}
    {pair : Kind × Except SearchFault SearchResult}
    (h : pair ∈ (searchKinds engine source run patterns).1) :
    ∃ pattern now, (pair.1, pattern) ∈ patterns ∧
      (engine.search pair.1 pattern source now).1 = pair.2 := by
  induction patterns generalizing run with
  | nil => simp [searchKinds] at h
  | cons first patterns ih =>
    obtain ⟨kind, pattern⟩ := first
    unfold searchKinds at h
    rcases List.mem_cons.mp h with rfl | h
    · exact ⟨pattern, run, List.mem_cons_self, rfl⟩
    · obtain ⟨pattern, now, hmem, hsearch⟩ := ih h
      exact ⟨pattern, now, List.mem_cons_of_mem _ hmem, hsearch⟩

section Traced

variable {raised : SearchFault → Prop} {reported : Except ShapeFault Match → Prop}

theorem reported_of_ofEvents {kind : Kind} {events : List Event}
    (h : ∀ event ∈ events, reported (Match.ofEvent kind event)) :
    match Match.ofEvents kind events with
    | .error f => reported (.error f)
    | .ok ms => ∀ m ∈ ms, reported (.ok m) := by
  unfold Match.ofEvents
  induction events with
  | nil => simp [pure, Except.pure]
  | cons event events ih =>
    obtain ⟨hevent, hevents⟩ := List.forall_mem_cons.mp h
    have ih := ih hevents
    rw [List.mapM_cons]
    cases hfirst : Match.ofEvent kind event with
    | error f => simpa [bind, Except.bind, hfirst] using hevent
    | ok first =>
      cases hrest : events.mapM (Match.ofEvent kind) with
      | error f => simpa [bind, Except.bind, hrest] using ih
      | ok rest =>
        simp only [hrest] at ih
        simpa [bind, Except.bind, pure, Except.pure, hfirst] using ⟨hfirst ▸ hevent, ih⟩

/-- Putting results together adds nothing to what they report. -/
theorem traced_pool {results : List (Kind × SearchResult)} {before : List Match}
    (hresults : ∀ pair ∈ results, ∀ event ∈ pair.2.events,
      reported (Match.ofEvent pair.1 event))
    (hbefore : ∀ m ∈ before, reported (.ok m)) (run : Run) :
    Traced raised reported ((pool before run results).1.mapError .shape) := by
  induction results generalizing before run with
  | nil => exact hbefore
  | cons pair results ih =>
    obtain ⟨kind, result⟩ := pair
    obtain ⟨hresult, hresults⟩ := List.forall_mem_cons.mp hresults
    have hms := reported_of_ofEvents hresult
    unfold pool
    split_ifs
    · trivial
    · exact ih hresults hbefore _
    · exact ih hresults hbefore _
    · cases hread : Match.ofEvents kind result.events with
      | error f =>
        rw [hread] at hms
        exact hms
      | ok ms =>
        rw [hread] at hms
        apply ih hresults
        intro m hm
        rcases List.mem_append.mp hm with hm | hm
        · exact hbefore m hm
        · exact hms m hm

theorem traced_gather {outcomes : List (Kind × Except SearchFault SearchResult)}
    (hraised : ∀ kind f, (kind, .error f) ∈ outcomes → raised f)
    (hreported : ∀ kind result, (kind, .ok result) ∈ outcomes → ∀ event ∈ result.events,
      reported (Match.ofEvent kind event))
    (run : Run) : Traced raised reported (gather run outcomes).1 := by
  unfold gather
  cases hall : allResults outcomes with
  | error f =>
    obtain ⟨kind, hmem⟩ := mem_of_allResults hall
    exact hraised kind f hmem
  | ok results =>
    refine traced_pool (fun pair hpair => hreported pair.1 pair.2 ?_) (by simp) run
    rw [eq_of_allResults hall]
    exact List.mem_map.mpr ⟨pair, hpair, rfl⟩

end Traced

/-- What the searches of all kinds give comes from one of them. -/
theorem traced_searchAll (engine : Engine) (identifier : Text) (source : Source) (run : Run) :
    Traced (Raised engine identifier source) (Reported engine identifier source)
      (searchAll engine identifier source run).1 := by
  have hmade : ∀ {kind outcome}, (kind, outcome) ∈
      (searchKinds engine source run (Catalog.patterns identifier)).1 → ∃ now,
        (engine.search kind (Catalog.patternText identifier kind) source now).1 = outcome := by
    intro kind outcome hmem
    obtain ⟨pattern, now, hpattern, hsearch⟩ := mem_searchKinds hmem
    obtain ⟨_, -, heq⟩ := List.mem_map.mp hpattern
    obtain ⟨rfl, rfl⟩ := Prod.mk.inj heq
    exact ⟨now, hsearch⟩
  refine traced_gather (fun kind f hmem => ?_) (fun kind result hmem event hevent => ?_) _
  · obtain ⟨now, hsearch⟩ := hmade hmem
    exact ⟨kind, now, hsearch⟩
  · obtain ⟨now, hsearch⟩ := hmade hmem
    exact ⟨kind, now, result, hsearch, event, hevent, rfl⟩

section Scan
open FileLabel

variable {tree : FileTree} {m : Match} {run after : Run}

theorem exists_of_scanFile {p : Path}
    (h : LineScan.scanFile tree identifier p run = (some m, after)) :
    ∃ text, tree.readText p = .ok text ∧ m ∈ LineScan.scan identifier text (named p.toString) := by
  unfold LineScan.scanFile at h
  cases hread : tree.readText p with
  | error e => simp [hread] at h
  | ok text =>
    simp only [hread] at h
    exact ⟨text, rfl, Match.mem_of_best (Prod.mk.inj h).1⟩

/-- A scan of files finds nothing, if it is cancelled, or else a match in some of them, each in the
text of its file. -/
theorem exists_of_scanFiles {before found : List Match} {files : List Path}
    (h : LineScan.scanFiles tree identifier before run files = (found, after)) :
    found = [] ∨ ∃ more, found = before ++ more ∧
      (more.map (·.file)).Sublist (files.map fun p => named p.toString) ∧
      ∀ m ∈ more, ∃ p ∈ files, ∃ text, tree.readText p = .ok text ∧
        m ∈ LineScan.scan identifier text (named p.toString) := by
  induction files generalizing before run with
  | nil =>
    obtain rfl : before = found := (Prod.mk.inj h).1
    exact Or.inr ⟨[], by simp, by simp, by simp⟩
  | cons p files ih =>
    unfold LineScan.scanFiles at h
    split_ifs at h
    · exact Or.inl (Prod.mk.inj h).1.symm
    · split at h
      · rcases ih h with hnil | ⟨more, heq, hsub, hmore⟩
        · exact Or.inl hnil
        · refine Or.inr ⟨more, heq, hsub.cons _, ?_⟩
          intro m hm
          obtain ⟨q, hq, htext⟩ := hmore m hm
          exact ⟨q, List.mem_cons_of_mem _ hq, htext⟩
      · rename_i m now hfile
        obtain ⟨text, hread, hscan⟩ := exists_of_scanFile hfile
        have hlabel := LineScan.file_of_mem_scan hscan
        rcases ih h with hnil | ⟨more, heq, hsub, hmore⟩
        · exact Or.inl hnil
        · refine Or.inr ⟨m :: more, by simp [heq], ?_, ?_⟩
          · rw [List.map_cons, List.map_cons, hlabel]
            exact hsub.cons_cons _
          · refine List.forall_mem_cons.mpr ⟨⟨p, by simp, text, hread, hscan⟩, ?_⟩
            intro m hm
            obtain ⟨q, hq, htext⟩ := hmore m hm
            exact ⟨q, List.mem_cons_of_mem _ hq, htext⟩

/-- The same for the files below a directory. -/
theorem exists_of_scanDirectory {found : List Match} {root : Path} {globs skipDirs : List String}
    (h : LineScan.scanDirectory tree identifier root globs skipDirs run = (.ok found, after)) :
    (found.map (·.file)).Sublist
        ((tree.sourceFiles root globs skipDirs).map fun p => named p.toString) ∧
      ∀ m ∈ found, ∃ p ∈ tree.sourceFiles root globs skipDirs, ∃ text,
        tree.readText p = .ok text ∧ m ∈ LineScan.scan identifier text (named p.toString) := by
  unfold LineScan.scanDirectory at h
  split at h
  · simp at h
  · simp at h
  · cases hscan : LineScan.scanFiles tree identifier [] run
        (tree.sourceFiles root globs skipDirs) with
    | mk ms now =>
      rw [hscan] at h
      obtain rfl := Except.ok.inj (Prod.mk.inj h).1
      rcases exists_of_scanFiles hscan with rfl | ⟨more, rfl, hsub, hmore⟩
      · simp
      · exact ⟨hsub, hmore⟩

end Scan

/-- The engine's searches of a source give these matches together. -/
def Gives (engine : Engine) (identifier : Text) (source : Source) (cs : List Match) : Prop :=
  engine.available = true ∧ ∃ now after,
    searchAll engine identifier source now = (.ok (.found cs), after)

theorem reported_of_gives {cs : List Match} (h : Gives engine identifier source cs) {m : Match}
    (hm : m ∈ cs) : Reported engine identifier source (.ok m) := by
  obtain ⟨-, now, after, hall⟩ := h
  have htraced := traced_searchAll engine identifier source now
  rw [hall] at htraced
  exact htraced m hm

/-- The best match in a text, by the engine or by the line scan. -/
def BestInText (l : Locator) (identifier text : Text) (m : Match) : Prop :=
  (∃ cs, Gives l.engine identifier (.buffer text) cs ∧ Match.best cs = some m) ∨
    scanText identifier text = some m

/-- The best matches in the files below a directory, by the engine or by the line scan. -/
def BestInFiles (l : Locator) (identifier : Text) (root : Path) (globs : List String)
    (found : List Match) : Prop :=
  (∃ cs, Gives l.engine identifier (.directory root globs l.skipDirs) cs ∧
    Match.bestPerFile cs = .ok found) ∨
    ∃ now after, LineScan.scanDirectory l.tree identifier root globs l.skipDirs now =
      (.ok found, after)

/-- The sources in which the engine searches for a request: its buffer and its workspace. -/
inductive Searches (l : Locator) (request : Request) : Source → Prop
  | buffer {text : Text} (htext : someText request.buffer = some text) :
      Searches l request (.buffer text)
  | workspace {root : Path} (hroot : request.root = some root) :
      Searches l request (.directory root (globsOf request.globs) l.skipDirs)

/-- What the result of a look-up comes from. -/
inductive Origin (l : Locator) (identifier : Text) (request : Request) :
    Except LocateFault (List Location) → Prop
  | nothing : Origin l identifier request (.ok [])
  | noRoot (hroot : request.root = none) : Origin l identifier request (.error .noRoot)
  | misread {source : Source} {now after : Run} {f : LocationFault}
      (havailable : l.engine.available = true) (hsource : l.Searches request source)
      (hsearch : searchAll l.engine identifier source now = (.error f, after)) :
      Origin l identifier request (.error (.location f))
  | unscanned {root : Path} {e : FileError} (hroot : request.root = some root)
      (hask : l.tree.askDir root = .error e) :
      Origin l identifier request (.error (.location (.search (.unaskable e))))
  | ungrouped {root : Path} {cs : List Match} {f : ShapeFault} (hroot : request.root = some root)
      (hgives : Gives l.engine identifier
        (.directory root (globsOf request.globs) l.skipDirs) cs)
      (hgroup : Match.bestPerFile cs = .error f) :
      Origin l identifier request (.error (.location (.shape f)))
  | buffer {text : Text} {m : Match} (htext : someText request.buffer = some text)
      (hbest : l.BestInText identifier text m) :
      Origin l identifier request (.ok [.ofMatchIn (bufferFile request.currentFile) m])
  | workspace {root : Path} {found : List Match} {now : Run}
      {result : Except LocateFault (List Location)} (hroot : request.root = some root)
      (hfound : l.BestInFiles identifier root (globsOf request.globs) found)
      (hresult : (Location.ofMatches l.tree request.currentFile found now).1.mapError .location =
        result) : Origin l identifier request result

variable {l : Locator} {request : Request} {run after : Run}
  {result : Except LocateFault (List Location)}

theorem mapError_eq_ok {α β γ : Type} {f : α → β} {x : Except α γ} {y : γ} :
    x.mapError f = .ok y ↔ x = .ok y := by
  cases x <;> simp [Except.mapError]

theorem origin_locateByScan (l : Locator) (identifier : Text) (request : Request) (run : Run) :
    Origin l identifier request (locateByScan l identifier request run).1 := by
  unfold locateByScan
  simp only
  split_ifs
  · exact .nothing
  · split
    · rename_i m hbest
      obtain ⟨text, htext, hbest⟩ := Option.bind_eq_some_iff.mp hbest
      exact .buffer htext (Or.inr hbest)
    · split
      · exact .nothing
      · rename_i root hroot
        split
        · rename_i e after hscan
          exact .unscanned hroot (LineScan.askDir_of_scanDirectory hscan).1
        · exact .nothing
        · rename_i found after hscan
          split_ifs
          · exact .nothing
          · exact .workspace hroot (Or.inr ⟨_, _, hscan⟩) rfl

theorem origin_inBuffer (havailable : l.engine.available = true)
    (h : inBuffer l identifier request run = (.answer result, after)) :
    Origin l identifier request result := by
  unfold inBuffer at h
  cases htext : someText request.buffer with
  | none => simp [htext] at h
  | some text =>
    simp only [htext] at h
    split at h
    · rename_i f now hall
      obtain rfl := Next.answer.inj (Prod.mk.inj h).1
      exact .misread havailable (.buffer htext) hall
    · simp at h
    · rename_i cs now hall
      split_ifs at h
      · obtain rfl := Next.answer.inj (Prod.mk.inj h).1
        exact .nothing
      · split at h
        · simp at h
        · rename_i m hbest
          obtain rfl := Next.answer.inj (Prod.mk.inj h).1
          exact .buffer htext (Or.inl ⟨cs, ⟨havailable, _, _, hall⟩, hbest⟩)

theorem origin_inWorkspace (havailable : l.engine.available = true)
    (h : inWorkspace l identifier request run = (.answer result, after)) :
    Origin l identifier request result := by
  unfold inWorkspace at h
  cases hroot : request.root with
  | none =>
    simp only [hroot] at h
    obtain rfl := Next.answer.inj (Prod.mk.inj h).1
    exact .noRoot hroot
  | some root =>
    simp only [hroot] at h
    split at h
    · rename_i f now hall
      obtain rfl := Next.answer.inj (Prod.mk.inj h).1
      exact .misread havailable (.workspace hroot) hall
    · simp at h
    · rename_i cs now hall
      have hgives : Gives l.engine identifier (.directory root (globsOf request.globs) l.skipDirs)
          cs := ⟨havailable, _, _, hall⟩
      split_ifs at h
      · obtain rfl := Next.answer.inj (Prod.mk.inj h).1
        exact .nothing
      · split at h
        · rename_i f hgroup
          obtain rfl := Next.answer.inj (Prod.mk.inj h).1
          exact .ungrouped hroot hgives hgroup
        · rename_i found hbest
          have hanswer := Next.answer.inj (Prod.mk.inj h).1
          exact .workspace hroot (Or.inl ⟨cs, hgives, hbest⟩) hanswer

/-- Where the result of a look-up comes from, whatever the engine does. -/
theorem origin_locate (l : Locator) (request : Request) (run : Run) :
    Origin l (wanted request.identifier) request (locate l request run).1 := by
  unfold locate
  simp only
  split_ifs with hempty havailable
  · exact .nothing
  · apply origin_locateByScan
  · have havailable : l.engine.available = true := by simpa using havailable
    unfold locateByEngine
    -- The buffer answers, hands over to the scan, or leaves the request to the workspace.
    cases hbuffer : inBuffer l (wanted request.identifier) request run with
    | mk next now =>
      cases next with
      | answer result => exact origin_inBuffer havailable hbuffer
      | scan why => apply origin_locateByScan
      | goOn =>
        simp only
        cases hworkspace : inWorkspace l (wanted request.identifier) request now with
        | mk next later =>
          cases next with
          | answer result => exact origin_inWorkspace havailable hworkspace
          | scan why => apply origin_locateByScan
          | goOn => exact .nothing

/-- The root of a request cannot be asked about, and the look-up says so. -/
def RootUnaskable (l : Locator) (request : Request)
    (result : Except LocateFault (List Location)) : Prop :=
  ∃ root e, request.root = some root ∧ l.tree.askDir root = .error e ∧
    result = .error (.location (.search (.unaskable e)))

/-- Searches that cannot be put together tell that their root cannot be asked about, if their engine
reports what can be read. -/
theorem rootUnaskable_of_searchAll (hreports : l.engine.ReportsText)
    (hfails : l.engine.FailsAtRoots l.tree) (hsource : l.Searches request source)
    {f : LocationFault} (h : searchAll l.engine identifier source run = (.error f, after)) :
    RootUnaskable l request (.error (.location f)) := by
  have htraced := traced_searchAll l.engine identifier source run
  rw [h] at htraced
  cases f with
  | search f =>
    obtain ⟨kind, now, hsearch⟩ := htraced
    cases hfails identifier kind source now f hsearch with
    | unaskable hask =>
      cases hsource with
      | workspace hroot => exact ⟨_, _, hroot, hask, rfl⟩
  | shape f =>
    obtain ⟨kind, now, found, hsearch, event, hevent, hfault⟩ := htraced
    obtain ⟨m, hm⟩ :=
      Match.ofEvent_readable kind (hreports kind _ source now found hsearch event hevent)
    rw [hm] at hfault
    cases hfault
  | path f => exact htraced.elim

/-- A root that cannot be asked about ends a look-up that comes to it without the engine. -/
theorem locate_unaskable {root : Path} {e : FileError} (hname : wanted request.identifier ≠ [])
    (habsent : l.engine.available = false)
    (hmissed : ∀ text, someText request.buffer = some text →
      run.cancelled = false ∧ scanText (wanted request.identifier) text = none)
    (hroot : request.root = some root) (hask : l.tree.askDir root = .error e) :
    (locate l request run).1 = .error (.location (.search (.unaskable e))) := by
  have hscan : ∀ now : Run, LineScan.scanDirectory l.tree (wanted request.identifier) root
      (globsOf request.globs) l.skipDirs now = (.error (.unaskable e), now) := by
    intro now
    simp only [LineScan.scanDirectory, hask]
  have hname : (wanted request.identifier).isEmpty = false := by simpa using hname
  unfold locate locateByScan
  simp only [hname, habsent, Bool.false_eq_true, ↓reduceIte, Bool.not_false, hroot]
  cases hbuffer : someText request.buffer with
  | none => simp only [hscan, Option.bind_none, Option.isSome_none, Bool.false_and,
      Bool.false_eq_true, ↓reduceIte]
  | some text =>
    obtain ⟨hrun, hnone⟩ := hmissed text hbuffer
    have hbest : Match.best (LineScan.scan (wanted request.identifier) text .buffer) = none := hnone
    simp only [hscan, hbest, hrun, Run.say, Option.bind_some, Option.isSome_some, Bool.and_false,
      Bool.false_eq_true, ↓reduceIte]

end Locator
end DefinitionSite
