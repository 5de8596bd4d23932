import DefinitionSite.Proofs.Regex.Matches

/-! How a run goes on: what follows is asked only at places behind a beginning of the text, and a
sequence is run one part after the other. -/
namespace DefinitionSite.Regex
open Cursor

/-- The step asks what follows only at places at or behind its own. -/
def StepLocal {α : Type} (step : Cursor → (Cursor → Option α) → Option α) : Prop :=
  ∀ before text next next', (∀ word after, text = word ++ after →
    next (between (before ++ word) after) = next' (between (before ++ word) after)) →
      step (between before text) next = step (between before text) next'

theorem repeatFrom_local {α : Type} {step : Cursor → (Cursor → Option α) → Option α}
    (hstep : StepLocal step) (greedy : Bool) : StepLocal (repeatFrom step greedy) := by
  intro before text next next' h
  induction hn : text.length using Nat.strongRecOn generalizing before text with
  | ind n ih =>
    have hhere : next (between before text) = next' (between before text) := by
      simpa using h [] text rfl
    have hround : step (between before text) (nextRound step greedy (between before text) next) =
        step (between before text) (nextRound step greedy (between before text) next') := by
      apply hstep
      rintro word after rfl
      by_cases hlt : after.length < (word ++ after).length
      · simp only [nextRound, between_left, hlt, ↓reduceIte]
        refine ih after.length (by omega) (before ++ word) after ?_ rfl
        rintro u rest rfl
        simpa using h (word ++ u) rest (by simp)
      · simp only [nextRound, between_left, hlt, ↓reduceIte, hhere]
    cases greedy with
    | true => rw [repeatFrom_greedy, repeatFrom_greedy, hround, hhere]
    | false => rw [repeatFrom_lazy, repeatFrom_lazy, hround, hhere]

/-- A run asks what follows only at places behind a beginning of the text. -/
theorem run_local {α : Type} (r : Regex) : StepLocal (α := α) r.run := by
  induction r with
  | empty =>
    intro before text next next' h
    simpa [run] using h [] text rfl
  | char c =>
    intro before text next next' h
    cases text with
    | nil => rfl
    | cons d text =>
      simp only [run, step?_between_cons]
      split
      · exact h [d] text rfl
      · rfl
  | set s =>
    intro before text next next' h
    cases text with
    | nil => rfl
    | cons d text =>
      simp only [run, step?_between_cons]
      split
      · exact h [d] text rfl
      · rfl
  | lineStart | lineEnd =>
    intro before text next next' h
    have hhere : next (between before text) = next' (between before text) := by
      simpa using h [] text rfl
    simp only [run, hhere]
  | seq a b iha ihb =>
    intro before text next next' h
    apply iha
    rintro word after rfl
    apply ihb
    rintro u rest rfl
    simpa using h (word ++ u) rest (by simp)
  | alt a b iha ihb =>
    intro before text next next' h
    simp only [run, iha before text next next' h, ihb before text next next' h]
  | star greedy a ih => exact repeatFrom_local ih greedy

theorem matchEnd?_false (r : Regex) (c : Cursor) : r.matchEnd? false c = r.run c some := rfl

theorem run_seqAll_append {α : Type} (rs qs : List Regex) (c : Cursor) (next : Cursor → Option α) :
    (seqAll (rs ++ qs)).run c next =
      (seqAll rs).run c fun e => (seqAll qs).run e next := by
  induction rs generalizing c with
  | nil => rfl
  | cons r rs ih => simp only [List.cons_append, seqAll, run, ih]

theorem run_literal {α : Type} (letters before rest : Text) (next : Cursor → Option α) :
    (seqAll (letters.map .char)).run (between before (letters ++ rest)) next =
      next (between (before ++ letters) rest) := by
  induction letters generalizing before with
  | nil => simp [seqAll, run]
  | cons c letters ih =>
    simp only [List.map_cons, seqAll, run, List.cons_append, step?_between_cons, beq_self_eq_true,
      ↓reduceIte, Option.bind_some, ih]
    simp

end DefinitionSite.Regex
