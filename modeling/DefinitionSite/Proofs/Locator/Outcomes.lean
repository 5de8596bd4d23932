import DefinitionSite.Proofs.Locator.Searches

/-! What the outcomes of the searches of all kinds amount to: the first fault, in order of
preference, or else the first search whose engine cannot run, or else the matches of all searches
that came to their end. Whatever else became of the run has no part in it. -/
namespace DefinitionSite

/-- The lines of the occurrence are a text, and no other value. -/
def Event.Readable (event : Event) : Prop := ∃ text, event.text = .text text

/-- The matches that a search for a kind adds: none, unless it came to its end. -/
def SearchResult.matchesOf (kind : Kind) (result : SearchResult) : List Match :=
  if result.success then
    result.events.filterMap fun event => (Match.ofEvent kind event).toOption
  else []

theorem Match.ofEvent_readable (kind : Kind) {event : Event} (h : event.Readable) :
    ∃ m, Match.ofEvent kind event = .ok m := by
  obtain ⟨text, htext⟩ := h
  exact ⟨.ofLines kind event.path event.line.toInt text, by simp only [Match.ofEvent, htext]⟩

theorem Match.ofEvents_readable {kind : Kind} {events : List Event}
    (h : ∀ event ∈ events, event.Readable) :
    Match.ofEvents kind events =
      .ok (events.filterMap fun event => (Match.ofEvent kind event).toOption) := by
  unfold Match.ofEvents
  induction events with
  | nil => rfl
  | cons event events ih =>
    obtain ⟨hevent, hrest⟩ := List.forall_mem_cons.mp h
    obtain ⟨m, hfirst⟩ := Match.ofEvent_readable kind hevent
    rw [List.mapM_cons, ih hrest, List.filterMap_cons, hfirst]
    rfl

/-- The search came to an end that leaves the look-up to what follows. -/
def SearchResult.FindsNothing (result : SearchResult) : Prop :=
  result.status ≠ .unavailable ∧ (result.success = true → result.events = [])

theorem Match.ofEvents_nil_iff {kind : Kind} {events : List Event} {ms : List Match}
    (h : ofEvents kind events = .ok ms) : ms = [] ↔ events = [] := by
  unfold ofEvents at h
  cases events with
  | nil =>
    obtain rfl : [] = ms := Except.ok.inj h
    simp
  | cons event events =>
    rw [List.mapM_cons] at h
    cases hfirst : ofEvent kind event with
    | error f => simp [hfirst, bind, Except.bind] at h
    | ok first =>
      cases hrest : events.mapM (ofEvent kind) with
      | error f => simp [hfirst, hrest, bind, Except.bind] at h
      | ok rest =>
        obtain rfl : first :: rest = ms := by
          simpa [hfirst, hrest, bind, Except.bind, pure, Except.pure] using h
        simp

/-- In a run that nobody cancels, the searches of the source come out as laid down, and none cancels
it. -/
def Engine.SettledIn (engine : Engine) (source : Source)
    (outcome : Kind → Text → Except SearchFault SearchResult) : Prop :=
  ∀ kind pattern (run : Run), run.Undisturbed →
    ∃ after, engine.search kind pattern source run = (outcome kind pattern, after) ∧
      after.Undisturbed

namespace Locator

/-- What results give together, apart from the matches of those before. -/
def together (found : List Match) (results : List (Kind × SearchResult)) : Pooled :=
  match results.find? fun pair => pair.2.status == .unavailable with
  | some pair => .unavailable pair.2.error
  | none => .found (found ++ results.flatMap fun pair => pair.2.matchesOf pair.1)

theorem together_skip {kind : Kind} {result : SearchResult}
    (havailable : result.status ≠ .unavailable) (found : List Match)
    (rest : List (Kind × SearchResult)) :
    together found ((kind, result) :: rest) = together (found ++ result.matchesOf kind) rest := by
  have hstatus : (result.status == .unavailable) = false := by simpa using havailable
  unfold together
  simp only [List.find?_cons, hstatus, List.flatMap_cons, List.append_assoc]

/-- One search whose engine cannot run ends them all. -/
theorem together_unavailable {results : List (Kind × SearchResult)} {pair : Kind × SearchResult}
    (hmem : pair ∈ results) (hstatus : pair.2.status = .unavailable) (found : List Match) :
    ∃ why, together found results = .unavailable why := by
  have hsome : (results.find? fun pair => pair.2.status == .unavailable).isSome = true := by
    rw [List.find?_isSome]
    exact ⟨pair, hmem, by simpa using hstatus⟩
  obtain ⟨first, hfirst⟩ := Option.isSome_iff_exists.mp hsome
  exact ⟨first.2.error, by simp only [together, hfirst]⟩

/-- Putting results together only adds to what was said, and nothing that was said before counts. -/
theorem pool_run (found : List Match) (run : Run) (results : List (Kind × SearchResult)) :
    ∃ log, pool found run results = ((pool found .fresh results).1, { run with log }) := by
  induction results generalizing found run with
  | nil => exact ⟨run.log, rfl⟩
  | cons pair results ih =>
    obtain ⟨kind, result⟩ := pair
    have hsay : ∀ level message, ∃ log, pool found (run.say level message) results =
        ((pool found (Run.fresh.say level message) results).1, { run with log }) := by
      intro level message
      obtain ⟨log, hlog⟩ := ih found (run.say level message)
      obtain ⟨_, hfresh⟩ := ih found (Run.fresh.say level message)
      exact ⟨log, by rw [hlog, hfresh]; rfl⟩
    unfold pool
    split_ifs
    · exact ⟨run.log, rfl⟩
    · apply hsay
    · apply hsay
    · cases Match.ofEvents kind result.events with
      | error f => exact ⟨run.log, rfl⟩
      | ok ms => apply ih

/-- Results whose occurrences can be read are put together without a fault. -/
theorem pool_readable {results : List (Kind × SearchResult)}
    (h : ∀ pair ∈ results, pair.2.success = true → ∀ event ∈ pair.2.events, event.Readable)
    (found : List Match) (run : Run) :
    (pool found run results).1 = .ok (together found results) := by
  induction results generalizing found run with
  | nil => simp [pool, together]
  | cons pair results ih =>
    obtain ⟨kind, result⟩ := pair
    obtain ⟨hresult, hresults⟩ := List.forall_mem_cons.mp h
    unfold pool
    split_ifs with hunavailable hcancelled hfailed
    · simp [together, hunavailable]
    · have hstatus : result.status = .cancelled := by simpa using hcancelled
      have hnone : result.matchesOf kind = [] := by
        simp [SearchResult.matchesOf, SearchResult.success, hstatus]
      rw [ih hresults, together_skip (by simpa using hunavailable), hnone, List.append_nil]
    · have hnone : result.matchesOf kind = [] := by
        simpa [SearchResult.matchesOf] using fun h => absurd h (by simpa using hfailed)
      rw [ih hresults, together_skip (by simpa using hunavailable), hnone, List.append_nil]
    · have hsuccess : result.success = true := by simpa using hfailed
      have hms : result.matchesOf kind =
          result.events.filterMap fun event => (Match.ofEvent kind event).toOption := by
        simp only [SearchResult.matchesOf, hsuccess, ↓reduceIte]
      rw [Match.ofEvents_readable (hresult hsuccess), ← hms]
      simp only
      rw [ih hresults, together_skip (by simpa using hunavailable)]

/-- Results give no match together just if each of them finds nothing. -/
theorem pool_eq_nothing_iff (found : List Match) (run : Run)
    (results : List (Kind × SearchResult)) :
    (pool found run results).1 = .ok (.found []) ↔
      found = [] ∧ ∀ pair ∈ results, pair.2.FindsNothing := by
  induction results generalizing found run with
  | nil => simp [pool]
  | cons pair results ih =>
    obtain ⟨kind, result⟩ := pair
    rw [List.forall_mem_cons]
    unfold pool
    split_ifs with hunavailable hcancelled hfailed
    · have hstatus : result.status = .unavailable := by simpa using hunavailable
      simp [SearchResult.FindsNothing, hstatus]
    · have hstatus : result.status = .cancelled := by simpa using hcancelled
      simp [ih, SearchResult.FindsNothing, SearchResult.success, hstatus]
    · have hstatus : result.status ≠ .unavailable := by simpa using hunavailable
      have hfailed : result.success = false := by simpa using hfailed
      simp [ih, SearchResult.FindsNothing, hfailed, hstatus]
    · have hstatus : result.status ≠ .unavailable := by simpa using hunavailable
      have hsuccess : result.success = true := by simpa using hfailed
      have hnothing : result.FindsNothing ↔ result.events = [] := by
        simp [SearchResult.FindsNothing, hstatus, hsuccess]
      rw [hnothing]
      cases hread : Match.ofEvents kind result.events with
      | error f =>
        have hne : result.events ≠ [] := by
          rintro hnil
          simp [hnil, Match.ofEvents, pure, Except.pure] at hread
        simp [hne]
      | ok ms =>
        simp only [ih, List.append_eq_nil_iff, Match.ofEvents_nil_iff hread, and_assoc]

/-- Gathering outcomes only adds to what was said, too. -/
theorem gather_run (run : Run) (outcomes : List (Kind × Except SearchFault SearchResult)) :
    ∃ log, gather run outcomes = ((gather .fresh outcomes).1, { run with log }) := by
  unfold gather
  cases allResults outcomes with
  | error f => exact ⟨run.log, rfl⟩
  | ok results =>
    obtain ⟨log, hlog⟩ := pool_run [] run results
    exact ⟨log, by simp only [hlog]⟩

/-- Outcomes give no match together just if each of them is a result that finds nothing. -/
theorem gather_eq_nothing_iff (run : Run)
    (outcomes : List (Kind × Except SearchFault SearchResult)) :
    (gather run outcomes).1 = .ok (.found []) ↔
      ∀ pair ∈ outcomes, ∃ result, pair.2 = .ok result ∧ result.FindsNothing := by
  unfold gather
  cases hall : allResults outcomes with
  | error f =>
    obtain ⟨kind, hmem⟩ := mem_of_allResults hall
    constructor
    · simp
    · intro h
      obtain ⟨result, hresult, -⟩ := h _ hmem
      cases hresult
  | ok results =>
    have hpool : (pool [] run results).1.mapError LocationFault.shape = .ok (.found []) ↔
        (pool [] run results).1 = .ok (.found []) := by
      cases (pool [] run results).1 <;> simp [Except.mapError]
    rw [eq_of_allResults hall, List.forall_mem_map]
    simp [hpool, pool_eq_nothing_iff]

/-- What the searches of all kinds give when they come out as given. -/
def gathered (outcome : Kind → Except SearchFault SearchResult) : Except LocationFault Pooled :=
  (gather .fresh (Kind.all.map fun kind => (kind, outcome kind))).1

section Gathered

theorem gathered_ok (result : Kind → SearchResult) :
    gathered (fun kind => .ok (result kind)) =
      (pool [] .fresh (Kind.all.map fun kind => (kind, result kind))).1.mapError .shape := by
  have hgather := gather_ok .fresh (Kind.all.map fun kind => (kind, result kind))
  rw [List.map_map] at hgather
  exact congrArg Prod.fst hgather

variable {result : Kind → SearchResult}

theorem gathered_readable (h : ∀ kind, ∀ event ∈ (result kind).events, event.Readable) :
    gathered (fun kind => .ok (result kind)) =
      .ok (together [] (Kind.all.map fun kind => (kind, result kind))) := by
  rw [gathered_ok, pool_readable]
  · rfl
  · intro pair hpair
    obtain ⟨kind, -, rfl⟩ := List.mem_map.mp hpair
    exact fun _ => h kind

theorem gathered_unavailable (h : ∀ kind, ∀ event ∈ (result kind).events, event.Readable)
    {kind : Kind} (hkind : (result kind).status = .unavailable) :
    ∃ why, gathered (fun kind => .ok (result kind)) = .ok (.unavailable why) := by
  obtain ⟨why, hwhy⟩ := together_unavailable
    (List.mem_map_of_mem (f := fun kind => (kind, result kind)) (mem_all kind)) hkind []
  exact ⟨why, by rw [gathered_readable h, hwhy]⟩

end Gathered

variable {engine : Engine} {identifier : Text} {source : Source}

theorem searchAll_outcomes {P : Run → Prop} {outcome : Kind → Except SearchFault SearchResult}
    (hsearch : ∀ kind run, P run → ∃ after,
      engine.search kind (Catalog.patternText identifier kind) source run = (outcome kind, after) ∧
        P after.tick)
    {run : Run} (hrun : P run) : ∃ after log, P after ∧
      searchAll engine identifier source run = (gathered outcome, { after with log }) := by
  obtain ⟨after, hkinds, hafter⟩ := searchKinds_outcomes hsearch Kind.all hrun
  obtain ⟨log, hlog⟩ := gather_run after (Kind.all.map fun kind => (kind, outcome kind))
  refine ⟨after, log, hafter, ?_⟩
  rw [searchAll, Catalog.patterns, hkinds]
  exact hlog

section Settled

variable {outcome : Kind → Text → Except SearchFault SearchResult} {run : Run}

theorem searchAll_settled (h : engine.SettledIn source outcome) (identifier : Text)
    (hrun : run.Undisturbed) : ∃ after, after.Undisturbed ∧
      searchAll engine identifier source run =
        (gathered fun kind => outcome kind (Catalog.patternText identifier kind), after) := by
  have hsearch : ∀ kind run, Run.Undisturbed run → ∃ after,
      engine.search kind (Catalog.patternText identifier kind) source run =
        (outcome kind (Catalog.patternText identifier kind), after) ∧ after.tick.Undisturbed := by
    intro kind run hrun
    obtain ⟨after, hkind, hafter⟩ := h kind (Catalog.patternText identifier kind) run hrun
    exact ⟨after, hkind, hafter.tick⟩
  obtain ⟨after, log, hafter, hall⟩ := searchAll_outcomes hsearch hrun
  exact ⟨_, hafter.withLog log, hall⟩

theorem inBuffer_scan {l : Locator} {request : Request} {text : Text}
    (h : l.engine.SettledIn (.buffer text) outcome) (hrun : run.Undisturbed)
    (htext : someText request.buffer = some text) {why : String}
    (hgiven : (gathered fun kind => outcome kind (Catalog.patternText identifier kind)) =
      .ok (.unavailable why)) :
    ∃ after, inBuffer l identifier request run = (.scan why, after) ∧ after.Undisturbed := by
  unfold inBuffer
  simp only [htext]
  generalize hsay : run.say .debug _ = start
  obtain ⟨after, hafter, hall⟩ := searchAll_settled h identifier (hsay ▸ hrun.say _ _)
  exact ⟨after, by simp only [hall, hgiven], hafter⟩

end Settled

/-- The answer in a text: the line scan stands in for an engine that cannot run. -/
def answerFrom (identifier text : Text) :
    Except LocationFault Pooled → Except LocationFault (Option Match)
  | .error f => .error f
  | .ok (.found candidates) => .ok (Match.best candidates)
  | .ok (.unavailable _) => .ok (scanText identifier text)

theorem findInText_eq (engine : Engine) (given text : Option Text) (run : Run) :
    (findInText engine given text run).1 =
      match someText text with
      | none => .ok none
      | some text =>
        if (wanted given).isEmpty then .ok none
        else if engine.available then
          answerFrom (wanted given) text (searchAll engine (wanted given) (.buffer text) run).1
        else .ok (scanText (wanted given) text) := by
  unfold findInText
  cases someText text with
  | none => rfl
  | some text =>
    simp only
    cases List.isEmpty (wanted given) with
    | true => rfl
    | false =>
      cases havailable : engine.available with
      | false => simp only [Bool.not_false, Bool.false_eq_true, ↓reduceIte]
      | true =>
        simp only [Bool.not_true, Bool.false_eq_true, ↓reduceIte]
        obtain ⟨pooled, after⟩ := searchAll engine (wanted given) (.buffer text) run
        cases pooled with
        | error f => rfl
        | ok pooled => cases pooled <;> rfl

end Locator
end DefinitionSite
