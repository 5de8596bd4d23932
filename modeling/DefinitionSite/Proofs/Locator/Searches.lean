import DefinitionSite.InProcess
import DefinitionSite.Locator
import DefinitionSite.Proofs.Catalog.Found
import DefinitionSite.Proofs.Catalog.Reading
import DefinitionSite.Proofs.Match.Best

/-! What the searches of all kinds give together, when each of them comes to its end: the matches of
every kind, in order of preference. -/
namespace DefinitionSite

/-- The matches of all kinds in a text, in order of preference. -/
def Catalog.foundAll (identifier text : Text) (path : Option FileLabel) : List Match :=
  Kind.all.flatMap fun kind => found identifier kind text path

/-- A run that nobody cancels. -/
structure Run.Undisturbed (run : Run) : Prop where
  running : run.cancelled = false
  never : run.cancelAt = none

namespace Run.Undisturbed

variable {run : Run}

theorem withLog (h : run.Undisturbed) (log : Log) : { run with log }.Undisturbed :=
  ⟨h.running, h.never⟩

theorem say (h : run.Undisturbed) (level : LogLevel) (message : RawText) :
    (run.say level message).Undisturbed := h.withLog _

theorem tick (h : run.Undisturbed) : run.tick.Undisturbed := by
  constructor
  · simp [Run.tick, h.running, h.never]
  · exact h.never

end Run.Undisturbed

namespace Locator

variable {identifier : Text} {source : Source} {engine : Engine}

theorem mem_all (kind : Kind) : kind ∈ Kind.all := by
  cases kind <;> decide

theorem success_ofEvents (events : List Event) :
    (SearchResult.ofEvents events).success = true ∧
      (SearchResult.ofEvents events).events = events := by
  unfold SearchResult.ofEvents
  split
  · rename_i h
    exact ⟨rfl, (List.isEmpty_iff.mp h).symm⟩
  · exact ⟨rfl, rfl⟩

/-- Searches that come to their end are all put together. -/
theorem pool_ofEvents {events : Kind → List Event} {ms : Kind → List Match}
    (hms : ∀ kind, Match.ofEvents kind (events kind) = .ok (ms kind)) (before : List Match)
    (run : Run) (kinds : List Kind) :
    pool before run (kinds.map fun kind => (kind, .ofEvents (events kind))) =
      (.ok (.found (before ++ kinds.flatMap ms)), run) := by
  induction kinds generalizing before with
  | nil => simp [pool]
  | cons kind kinds ih =>
    obtain ⟨hsuccess, hevents⟩ := success_ofEvents (events kind)
    have hstatus : (SearchResult.ofEvents (events kind)).status = .ok ∨
        (SearchResult.ofEvents (events kind)).status = .noMatches := by
      simpa [SearchResult.success] using hsuccess
    rw [List.map_cons, pool, hsuccess, hevents, hms]
    rcases hstatus with h | h <;> simp [h, ih]

/-- The searches of all kinds, each of which comes out as given and keeps what the next one
needs. -/
theorem searchKinds_outcomes {P : Run → Prop} {outcome : Kind → Except SearchFault SearchResult}
    (hsearch : ∀ kind run, P run → ∃ after,
      engine.search kind (Catalog.patternText identifier kind) source run = (outcome kind, after) ∧
        P after.tick)
    (kinds : List Kind) {run : Run} (hrun : P run) :
    ∃ after, searchKinds engine source run
        (kinds.map fun kind => (kind, Catalog.patternText identifier kind)) =
        (kinds.map fun kind => (kind, outcome kind), after) ∧ P after := by
  induction kinds generalizing run with
  | nil => exact ⟨run, rfl, hrun⟩
  | cons kind kinds ih =>
    obtain ⟨after, hkind, hafter⟩ := hsearch kind run hrun
    obtain ⟨last, hrest, hlast⟩ := ih hafter
    exact ⟨last, by simp only [List.map_cons, searchKinds, hkind, hrest], hlast⟩

/-- Where every search has a result, there is nothing else to put together. -/
theorem allResults_ok (results : List (Kind × SearchResult)) :
    allResults (results.map fun pair => (pair.1, .ok pair.2)) = .ok results := by
  induction results with
  | nil => rfl
  | cons pair results ih =>
    rw [List.map_cons, allResults, ih]
    rfl

theorem eq_of_allResults {outcomes : List (Kind × Except SearchFault SearchResult)}
    {results : List (Kind × SearchResult)} (h : allResults outcomes = .ok results) :
    outcomes = results.map fun pair => (pair.1, .ok pair.2) := by
  induction outcomes generalizing results with
  | nil =>
    obtain rfl : [] = results := Except.ok.inj h
    rfl
  | cons pair outcomes ih =>
    obtain ⟨kind, outcome⟩ := pair
    cases outcome with
    | error f => simp [allResults] at h
    | ok result =>
      cases hrest : allResults outcomes with
      | error f => simp [allResults, hrest, Except.map] at h
      | ok rest =>
        obtain rfl : (kind, result) :: rest = results := by
          simpa [allResults, hrest, Except.map] using h
        rw [List.map_cons, ← ih hrest]

/-- What keeps searches from being put together became of one of them. -/
theorem mem_of_allResults {outcomes : List (Kind × Except SearchFault SearchResult)}
    {f : SearchFault} (h : allResults outcomes = .error f) :
    ∃ kind, (kind, .error f) ∈ outcomes := by
  induction outcomes with
  | nil => simp [allResults] at h
  | cons pair outcomes ih =>
    obtain ⟨kind, outcome⟩ := pair
    cases outcome with
    | error g =>
      obtain rfl : g = f := by simpa [allResults] using h
      exact ⟨kind, List.mem_cons_self⟩
    | ok result =>
      cases hrest : allResults outcomes with
      | ok rest => simp [allResults, hrest, Except.map] at h
      | error g =>
        obtain rfl : g = f := by simpa [allResults, hrest, Except.map] using h
        obtain ⟨other, hmem⟩ := ih hrest
        exact ⟨other, List.mem_cons_of_mem _ hmem⟩

theorem gather_ok (run : Run) (results : List (Kind × SearchResult)) :
    gather run (results.map fun pair => (pair.1, .ok pair.2)) =
      ((pool [] run results).1.mapError .shape, (pool [] run results).2) := by
  simp only [gather, allResults_ok]

theorem searchAll_ofEvents {P : Run → Prop} {events : Kind → List Event} {ms : Kind → List Match}
    (hsearch : ∀ kind run, P run → ∃ after,
      engine.search kind (Catalog.patternText identifier kind) source run =
        (.ok (.ofEvents (events kind)), after) ∧ P after.tick)
    (hms : ∀ kind, Match.ofEvents kind (events kind) = .ok (ms kind)) (run : Run)
    (hrun : P run) : ∃ after, searchAll engine identifier source run =
      (.ok (.found (Kind.all.flatMap ms)), after) ∧ P after := by
  obtain ⟨after, hkinds, hafter⟩ := searchKinds_outcomes hsearch Kind.all hrun
  have hgather := gather_ok after (Kind.all.map fun kind => (kind, .ofEvents (events kind)))
  rw [pool_ofEvents hms, List.map_map] at hgather
  refine ⟨after, ?_, hafter⟩
  rw [searchAll, Catalog.patterns, hkinds]
  exact hgather

variable (tree : FileTree) (timeout : Float)

/-- The in-process engine searches a text for every kind, and disturbs the run as little as the
ticks between the searches do. -/
theorem searchAll_buffer {P : Run → Prop} (htick : ∀ run, P run → P run.tick)
    (identifier text : Text) (run : Run) (hrun : P run) :
    ∃ after, searchAll (InProcess.engine tree timeout) identifier (.buffer text) run =
      (.ok (.found (Catalog.foundAll identifier text none)), after) ∧ P after := by
  have hsearch : ∀ kind run, P run → ∃ after, (InProcess.engine tree timeout).search kind
      (Catalog.patternText identifier kind) (.buffer text) run =
        (.ok (.ofEvents (Event.find (Catalog.regex identifier kind) text none)), after) ∧
      P after.tick := by
    intro kind run hrun
    refine ⟨run, ?_, htick run hrun⟩
    simp only [InProcess.engine, InProcess.search, InProcess.searchWith,
      Catalog.compile_patternText, Event.find]
  have hms := fun kind => Match.ofEvents_find kind (Catalog.regex identifier kind) text none
  exact searchAll_ofEvents hsearch hms run hrun

/-- The kinds are searched in the order in which they are preferred. -/
theorem strict_priority : Kind.all.Pairwise fun a b => a.priority < b.priority := by decide

theorem kind_of_mem_found {kind : Kind} {text : Text} {path : Option FileLabel} {m : Match}
    (h : m ∈ Catalog.found identifier kind text path) : m.kind = kind := by
  obtain ⟨span, -, rfl⟩ := List.mem_map.mp h
  rfl

theorem best_foundAll (identifier text : Text) (path : Option FileLabel) :
    Match.best (Catalog.foundAll identifier text path) =
      (Catalog.foundAll identifier text path).head? := by
  refine Match.best_eq_head? (List.pairwise_flatMap.mpr ⟨?_, ?_⟩)
  · intro kind _
    refine List.pairwise_of_forall_mem_list fun a ha b hb => ?_
    exact Nat.le_of_eq (by rw [kind_of_mem_found ha, kind_of_mem_found hb])
  · refine strict_priority.imp fun {k l} hlt a ha b hb => ?_
    rw [kind_of_mem_found ha, kind_of_mem_found hb]
    exact Nat.le_of_lt hlt

/-- An empty text holds no match. -/
theorem foundAll_nil (hne : identifier ≠ []) (path : Option FileLabel) :
    Catalog.foundAll identifier [] path = [] := by
  refine List.flatMap_eq_nil_iff.mpr fun kind _ => ?_
  rw [Catalog.found, List.map_eq_nil_iff, List.eq_nil_iff_forall_not_mem]
  intro span hspan
  have hconsumes := Catalog.consumes_regex hne kind
  obtain ⟨before, word, after, heq, -, hword, -⟩ := Regex.mem_findAll hconsumes hspan
  have hnil : word = [] := by
    rw [List.nil_eq_append_iff, List.append_eq_nil_iff] at heq
    exact heq.2.1
  exact hconsumes before word after hword hnil

/-- The in-process engine finds the first match of the most authoritative kind. -/
theorem findInText_inProcess {given : Option Text} (hne : wanted given ≠ []) (text : Text)
    (run : Run) : (findInText (InProcess.engine tree timeout) given (some text) run).1 =
      .ok (Catalog.foundAll (wanted given) text none).head? := by
  by_cases htext : text = []
  · subst htext
    rw [foundAll_nil hne]
    rfl
  · have hsome : someText (some text) = some text := by
      simp [someText, Option.filter, htext]
    obtain ⟨after, hall, -⟩ := searchAll_buffer tree timeout (P := fun _ => True) (fun _ => id)
      (wanted given) text run trivial
    have hname : (wanted given).isEmpty = false := by simpa using hne
    have havailable : (InProcess.engine tree timeout).available = true := rfl
    simp only [findInText, hsome, hname, havailable, hall, best_foundAll]
    rfl

end Locator
end DefinitionSite
