import DefinitionSite.Proofs.Locator.Searches

/-! Look-ups without an engine: whether it is known beforehand that the engine cannot run or comes
out at its first search, the line scan stands in. -/
namespace DefinitionSite

/-- An engine that cannot run, which it says itself or answers to every search. -/
def Engine.Absent (engine : Engine) : Prop :=
  engine.available = false ∨ ∀ kind pattern source (run : Run), run.Undisturbed →
    ∃ result after, engine.search kind pattern source run = (.ok result, after) ∧
      result.status = .unavailable ∧ after.Undisturbed

namespace Locator

variable {engine : Engine} {run : Run}

/-- Searches whose engine cannot run all have a result, and it says so. -/
theorem searchKinds_unavailable {P : Run → Prop} {source : Source}
    (hsearch : ∀ kind pattern run, P run → ∃ result after,
      engine.search kind pattern source run = (.ok result, after) ∧
        result.status = .unavailable ∧ P after.tick)
    (patterns : List (Kind × Text)) (hrun : P run) :
    ∃ (results : List (Kind × SearchResult)) (after : Run),
      searchKinds engine source run patterns =
        (results.map fun pair => (pair.1, .ok pair.2), after) ∧
      results.map (·.1) = patterns.map (·.1) ∧
      (∀ pair ∈ results, pair.2.status = .unavailable) ∧ P after := by
  induction patterns generalizing run with
  | nil => exact ⟨[], run, rfl, rfl, by simp, hrun⟩
  | cons pattern patterns ih =>
    obtain ⟨result, now, hfirst, hstatus, hnow⟩ := hsearch pattern.1 pattern.2 run hrun
    obtain ⟨results, after, hrest, hkinds, hall, hafter⟩ := ih hnow
    refine ⟨(pattern.1, result) :: results, after, ?_, by simp [hkinds],
      List.forall_mem_cons.mpr ⟨hstatus, hall⟩, hafter⟩
    simp only [searchKinds, hfirst, hrest, List.map_cons]

/-- The first search of an engine that cannot run ends them all. -/
theorem searchAll_unavailable {P : Run → Prop} {source : Source}
    (hsearch : ∀ kind pattern run, P run → ∃ result after,
      engine.search kind pattern source run = (.ok result, after) ∧
        result.status = .unavailable ∧ P after.tick)
    (identifier : Text) (hrun : P run) : ∃ why after,
      searchAll engine identifier source run = (.ok (.unavailable why), after) ∧ P after := by
  obtain ⟨results, after, hsearches, hkinds, hall, hafter⟩ :=
    searchKinds_unavailable hsearch (Catalog.patterns identifier) hrun
  cases results with
  | nil => simp [Catalog.patterns, Kind.all] at hkinds
  | cons pair results =>
    obtain ⟨hstatus, -⟩ := List.forall_mem_cons.mp hall
    refine ⟨pair.2.error, after, ?_, hafter⟩
    rw [searchAll, hsearches]
    simp only [gather_ok, pool, hstatus, beq_self_eq_true, ↓reduceIte, Except.mapError]

theorem searchAll_absent (habsent : engine.Absent) (havailable : engine.available = true)
    (identifier : Text) (source : Source) (hrun : run.Undisturbed) :
    ∃ why after, searchAll engine identifier source run = (.ok (.unavailable why), after) ∧
      after.Undisturbed := by
  rcases habsent with hno | hsearch
  · rw [havailable] at hno
    exact absurd hno (by decide)
  · refine searchAll_unavailable (fun kind pattern run hrun => ?_) identifier hrun
    obtain ⟨result, after, hresult, hstatus, hafter⟩ := hsearch kind pattern source run hrun
    exact ⟨result, after, hresult, hstatus, hafter.tick⟩

/-- Without an engine the look-up in a text is the line scan. -/
theorem findInText_absent (habsent : engine.Absent) {given : Option Text} (hne : wanted given ≠ [])
    (text : Option Text) (hrun : run.Undisturbed) :
    (findInText engine given text run).1 =
      .ok ((someText text).bind (scanText (wanted given))) := by
  have hname : (wanted given).isEmpty = false := by simpa using hne
  unfold findInText
  cases hsome : someText text with
  | none => rfl
  | some text =>
    simp only [hname, Bool.false_eq_true, ↓reduceIte]
    cases havailable : engine.available with
    | false => rfl
    | true =>
      obtain ⟨why, after, hall, -⟩ :=
        searchAll_absent habsent havailable (wanted given) (.buffer text) hrun
      simp only [hall]
      rfl

end Locator
end DefinitionSite
