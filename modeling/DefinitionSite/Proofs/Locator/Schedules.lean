import DefinitionSite.Proofs.Locator.Outcomes
import Mathlib.Data.List.Nodup
import Mathlib.Data.List.Perm.Basic
import Mathlib.Data.List.Perm.Subperm
import Mathlib.Data.Set.List

/-! The searches of all kinds as workers make them: as many as are allowed run at once, each starts
when a worker is free and ends at any time, and the outcomes are put together when all have ended.
The order in which that happens has no part in what they give. -/
namespace DefinitionSite.Locator

/-- A search that was handed to the workers. -/
inductive Future where
  | waiting
  | running
  | done (outcome : Except SearchFault SearchResult)

/-- Whether a worker is making the search. -/
def Future.isRunning : Future → Bool
  | .running => true
  | _ => false

/-- What became of the search, once it is over. -/
def Future.outcome? : Future → Option (Except SearchFault SearchResult)
  | .done outcome => some outcome
  | _ => none

/-- What a worker does: it takes up the search of a number, or ends it. A search may have seen the
run at any moment. -/
inductive Move where
  | start (i : Nat)
  | finish (i : Nat) (seen : Run)

/-- The search that is taken up. -/
def Move.started? : Move → Option Nat
  | .start i => some i
  | .finish .. => none

/-- The search that is ended. -/
def Move.finished? : Move → Option Nat
  | .start _ => none
  | .finish i _ => some i

/-- Searches of a source for several kinds, and how many workers make them. -/
structure FanOut where
  engine : Engine
  source : Source
  patterns : List (Kind × Text)
  workers : Nat

namespace FanOut

/-- The searches for the definitions of an identifier. -/
def ofIdentifier (engine : Engine) (identifier : Text) (source : Source) (maxWorkers : Int) :
    FanOut where
  engine
  source
  patterns := Catalog.patterns identifier
  workers := (max 1 maxWorkers).toNat

/-- The searches as they were handed over. -/
def submitted (p : FanOut) : List Future := List.replicate p.patterns.length .waiting

/-- The searches after a move, if a worker can make it. -/
def step (p : FanOut) (futures : List Future) : Move → Option (List Future)
  | .start i =>
    match futures[i]? with
    | some .waiting =>
      if futures.countP Future.isRunning < p.workers then some (futures.set i .running) else none
    | _ => none
  | .finish i seen =>
    match futures[i]?, p.patterns[i]? with
    | some .running, some (kind, pattern) =>
      some (futures.set i (.done (p.engine.search kind pattern p.source seen).1))
    | _, _ => none

/-- The searches after the moves of a schedule. -/
def play (p : FanOut) (futures : List Future) (schedule : List Move) : Option (List Future) :=
  schedule.foldlM p.step futures

/-- The outcomes by kind, in the order in which the searches were handed over, if a schedule brings
all of them to their end. -/
def outcomes? (p : FanOut) (schedule : List Move) :
    Option (List (Kind × Except SearchFault SearchResult)) := do
  let futures ← p.play p.submitted schedule
  let outcomes ← futures.mapM Future.outcome?
  return (p.patterns.map (·.1)).zip outcomes

variable {p : FanOut} {futures after : List Future} {schedule : List Move} {move : Move}

/-- All that a move can do. -/
theorem step_cases (h : p.step futures move = some after) :
    (∃ i, move = .start i ∧ futures[i]? = some .waiting ∧
      futures.countP Future.isRunning < p.workers ∧ after = futures.set i .running) ∨
    ∃ i seen kind pattern, move = .finish i seen ∧ futures[i]? = some .running ∧
      p.patterns[i]? = some (kind, pattern) ∧
      after = futures.set i (.done (p.engine.search kind pattern p.source seen).1) := by
  cases move with
  | start i =>
    simp only [step] at h
    split at h
    · rename_i hwaiting
      split_ifs at h with hfree
      exact .inl ⟨i, rfl, hwaiting, hfree, (Option.some.inj h).symm⟩
    · cases h
  | finish i seen =>
    simp only [step] at h
    split at h
    · rename_i kind pattern hrunning hpattern
      exact .inr ⟨i, seen, kind, pattern, rfl, hrunning, hpattern, (Option.some.inj h).symm⟩
    · cases h

/-- What holds of the searches after the moves of a schedule: each was taken up once at most and
ended once at most, and an outcome is that of the search in its place. -/
structure Consistent (p : FanOut) (schedule : List Move) (futures : List Future) : Prop where
  length : futures.length = p.patterns.length
  attributed : ∀ (i : Nat) outcome, futures[i]? = some (Future.done outcome) → ∃ kind pattern seen,
    p.patterns[i]? = some (kind, pattern) ∧ (p.engine.search kind pattern p.source seen).1 = outcome
  startedOnce : (schedule.filterMap Move.started?).Nodup
  started : ∀ i : Nat, i ∈ schedule.filterMap Move.started? ↔
    futures[i]? = some Future.running ∨ ∃ outcome, futures[i]? = some (Future.done outcome)
  finishedOnce : (schedule.filterMap Move.finished?).Nodup
  finished : ∀ i : Nat, i ∈ schedule.filterMap Move.finished? ↔
    ∃ outcome, futures[i]? = some (Future.done outcome)

theorem consistent_submitted (p : FanOut) : p.Consistent [] p.submitted := by
  have hwaiting : ∀ i : Nat, p.submitted[i]? = none ∨ p.submitted[i]? = some Future.waiting := by
    intro i
    unfold submitted
    rw [List.getElem?_replicate]
    split_ifs
    · exact Or.inr rfl
    · exact Or.inl rfl
  constructor
  · simp [submitted]
  · intro i outcome hdone
    rcases hwaiting i with h | h <;> rw [h] at hdone <;> cases hdone
  · exact List.nodup_nil
  · intro i
    rcases hwaiting i with h | h <;> simp [h]
  · exact List.nodup_nil
  · intro i
    rcases hwaiting i with h | h <;> simp [h]

theorem getElem?_set_of_some {i : Nat} {f : Future} (h : futures[i]? = some f) (g : Future)
    (j : Nat) : (futures.set i g)[j]? = if i = j then some g else futures[j]? := by
  have hlt : i < futures.length := (List.getElem?_eq_some_iff.mp h).1
  simp [List.getElem?_set, hlt]

theorem Consistent.start (h : p.Consistent schedule futures) {i : Nat}
    (hwaiting : futures[i]? = some Future.waiting) :
    p.Consistent (schedule ++ [.start i]) (futures.set i .running) := by
  have hset := getElem?_set_of_some hwaiting .running
  have hnew : i ∉ schedule.filterMap Move.started? := by
    rw [h.started, hwaiting]
    simp
  have hstarts : (schedule ++ [Move.start i]).filterMap Move.started? =
      schedule.filterMap Move.started? ++ [i] := by simp [Move.started?]
  have hfinishes : (schedule ++ [Move.start i]).filterMap Move.finished? =
      schedule.filterMap Move.finished? := by simp [Move.finished?]
  constructor
  · rw [List.length_set, h.length]
  · intro j outcome hdone
    rw [hset] at hdone
    split_ifs at hdone
    · cases hdone
    · exact h.attributed j outcome hdone
  · rw [hstarts, ← List.concat_eq_append]
    exact .concat hnew h.startedOnce
  · intro j
    rw [hstarts, hset, List.mem_append, h.started, List.mem_singleton]
    split_ifs with hij
    · simp [hij]
    · simp [Ne.symm hij]
  · rw [hfinishes]
    exact h.finishedOnce
  · intro j
    rw [hfinishes, hset, h.finished]
    split_ifs with hij
    · subst hij
      simp [hwaiting]
    · rfl

theorem Consistent.finish (h : p.Consistent schedule futures) {i : Nat} {kind : Kind}
    {pattern : Text} (hrunning : futures[i]? = some Future.running)
    (hpattern : p.patterns[i]? = some (kind, pattern)) (seen : Run) :
    p.Consistent (schedule ++ [.finish i seen])
      (futures.set i (.done (p.engine.search kind pattern p.source seen).1)) := by
  have hset := getElem?_set_of_some hrunning
    (.done (p.engine.search kind pattern p.source seen).1)
  have hnew : i ∉ schedule.filterMap Move.finished? := by
    rw [h.finished, hrunning]
    simp
  have hstarts : (schedule ++ [Move.finish i seen]).filterMap Move.started? =
      schedule.filterMap Move.started? := by simp [Move.started?]
  have hfinishes : (schedule ++ [Move.finish i seen]).filterMap Move.finished? =
      schedule.filterMap Move.finished? ++ [i] := by simp [Move.finished?]
  constructor
  · rw [List.length_set, h.length]
  · intro j outcome hdone
    rw [hset] at hdone
    split_ifs at hdone with hij
    · subst hij
      cases hdone
      exact ⟨kind, pattern, seen, hpattern, rfl⟩
    · exact h.attributed j outcome hdone
  · rw [hstarts]
    exact h.startedOnce
  · intro j
    rw [hstarts, hset, h.started]
    split_ifs with hij
    · subst hij
      simp [hrunning]
    · rfl
  · rw [hfinishes, ← List.concat_eq_append]
    exact .concat hnew h.finishedOnce
  · intro j
    rw [hfinishes, hset, List.mem_append, h.finished, List.mem_singleton]
    split_ifs with hij
    · simp [hij]
    · simp [Ne.symm hij]

theorem Consistent.step (h : p.Consistent schedule futures)
    (hstep : p.step futures move = some after) : p.Consistent (schedule ++ [move]) after := by
  rcases step_cases hstep with ⟨i, rfl, hwaiting, -, rfl⟩ |
    ⟨i, seen, kind, pattern, rfl, hrunning, hpattern, rfl⟩
  · exact h.start hwaiting
  · exact h.finish hrunning hpattern seen

theorem Consistent.play (h : p.Consistent schedule futures) {more : List Move}
    (hplay : p.play futures more = some after) : p.Consistent (schedule ++ more) after := by
  induction more generalizing schedule futures with
  | nil =>
    obtain rfl : futures = after := Option.some.inj hplay
    rw [List.append_nil]
    exact h
  | cons move more ih =>
    unfold FanOut.play at hplay
    rw [List.foldlM_cons] at hplay
    obtain ⟨now, hstep, hplay⟩ := Option.bind_eq_some_iff.mp hplay
    have hmore := ih (h.step hstep) hplay
    rwa [List.append_assoc] at hmore

section Progress

theorem length_moves (schedule : List Move) : schedule.length =
    (schedule.filterMap Move.started?).length + (schedule.filterMap Move.finished?).length := by
  induction schedule with
  | nil => rfl
  | cons move schedule ih =>
    cases move <;>
      simp only [List.length_cons, List.filterMap_cons, Move.started?, Move.finished?, ih] <;> omega

/-- No schedule is longer than two moves for each search. -/
theorem Consistent.length_le (h : p.Consistent schedule futures) :
    schedule.length ≤ 2 * p.patterns.length := by
  have hbound : ∀ numbers : List Nat, numbers.Nodup →
      (∀ i ∈ numbers, ∃ f, futures[i]? = some f) → numbers.length ≤ p.patterns.length := by
    intro numbers hnodup hnumbers
    have hsubset : numbers ⊆ List.range p.patterns.length := by
      intro i hi
      obtain ⟨f, hf⟩ := hnumbers i hi
      rw [List.mem_range, ← h.length]
      exact (List.getElem?_eq_some_iff.mp hf).1
    simpa using (List.subperm_of_subset hnodup hsubset).length_le
  have hstarts := hbound _ h.startedOnce fun i hi => by
    rcases (h.started i).mp hi with hrunning | ⟨outcome, hdone⟩
    · exact ⟨_, hrunning⟩
    · exact ⟨_, hdone⟩
  have hfinishes := hbound _ h.finishedOnce fun i hi => by
    obtain ⟨outcome, hdone⟩ := (h.finished i).mp hi
    exact ⟨_, hdone⟩
  rw [length_moves]
  omega

/-- While a search is not done, a worker can go on. -/
theorem Consistent.exists_step (h : p.Consistent schedule futures) (hworkers : 0 < p.workers)
    (hopen : ¬ ∀ f ∈ futures, ∃ outcome, f = Future.done outcome) :
    ∃ move after, p.step futures move = some after := by
  by_cases hrunning : Future.running ∈ futures
  · obtain ⟨i, hi⟩ := List.mem_iff_getElem?.mp hrunning
    have hlt : i < p.patterns.length := h.length ▸ (List.getElem?_eq_some_iff.mp hi).1
    exact ⟨.finish i .fresh, _, by simp [FanOut.step, hi, hlt]; rfl⟩
  · have hidle : futures.countP Future.isRunning = 0 := by
      rw [List.countP_eq_zero]
      intro f hf
      cases f with
      | running => exact absurd hf hrunning
      | waiting => simp [Future.isRunning]
      | done outcome => simp [Future.isRunning]
    push Not at hopen
    obtain ⟨f, hf, hnot⟩ := hopen
    obtain ⟨i, hi⟩ := List.mem_iff_getElem?.mp hf
    cases f with
    | waiting => exact ⟨.start i, _, by simp [FanOut.step, hi, hidle, hworkers]; rfl⟩
    | running => exact absurd hf hrunning
    | done outcome => exact absurd rfl (hnot outcome)

theorem exists_outcomes (h : ∀ f ∈ futures, ∃ outcome, f = Future.done outcome) :
    ∃ outcomes : List (Except SearchFault SearchResult), futures = outcomes.map Future.done := by
  have hrange : futures ∈ Set.range (List.map Future.done) := by
    rw [Set.range_list_map]
    intro f hf
    obtain ⟨outcome, rfl⟩ := h f hf
    exact ⟨outcome, rfl⟩
  obtain ⟨outcomes, rfl⟩ := hrange
  exact ⟨outcomes, rfl⟩

/-- Every schedule that workers can follow leads on to one that brings all searches to their end. -/
theorem Consistent.exists_completion (h : p.Consistent schedule futures)
    (hworkers : 0 < p.workers) :
    ∃ (more : List Move) (outcomes : List (Except SearchFault SearchResult)),
      p.play futures more = some (outcomes.map Future.done) := by
  -- Each move leaves fewer moves that can follow.
  induction hleft : 2 * p.patterns.length - schedule.length using Nat.strong_induction_on
    generalizing schedule futures with
  | _ left ih =>
    by_cases hall : ∀ f ∈ futures, ∃ outcome, f = Future.done outcome
    · obtain ⟨outcomes, rfl⟩ := exists_outcomes hall
      exact ⟨[], outcomes, rfl⟩
    · obtain ⟨move, after, hstep⟩ := h.exists_step hworkers hall
      have hlength := (h.step hstep).length_le
      rw [List.length_append, List.length_singleton] at hlength
      obtain ⟨more, outcomes, hplay⟩ := ih _
        (by rw [List.length_append, List.length_singleton]; omega) (h.step hstep) rfl
      refine ⟨move :: more, outcomes, ?_⟩
      unfold FanOut.play at hplay ⊢
      rw [List.foldlM_cons, hstep]
      exact hplay

end Progress

section Results

variable {found : List (Kind × Except SearchFault SearchResult)}

theorem mapM_outcome? {outcomes : List (Except SearchFault SearchResult)} :
    futures.mapM Future.outcome? = some outcomes ↔ futures = outcomes.map Future.done := by
  induction futures generalizing outcomes with
  | nil => cases outcomes <;> simp
  | cons f futures ih =>
    rw [List.mapM_cons]
    cases f with
    | waiting => cases outcomes <;> simp [Future.outcome?]
    | running => cases outcomes <;> simp [Future.outcome?]
    | done outcome =>
      cases outcomes <;> simp [Future.outcome?, Option.bind_eq_some_iff, ih, and_comm]

theorem outcomes?_eq_some : p.outcomes? schedule = some found ↔
    ∃ outcomes : List (Except SearchFault SearchResult),
      p.play p.submitted schedule = some (outcomes.map Future.done) ∧
        (p.patterns.map (·.1)).zip outcomes = found := by
  simp [outcomes?, Option.bind_eq_some_iff, mapM_outcome?]

/-- Workers that have begun can go on until all searches are done. -/
def Completes (p : FanOut) : Prop :=
  ∀ schedule futures, p.play p.submitted schedule = some futures →
    ∃ more outcomes, p.outcomes? (schedule ++ more) = some outcomes

theorem completes_of_workers (hworkers : 0 < p.workers) : p.Completes := by
  intro schedule futures hplay
  obtain ⟨more, outcomes, hmore⟩ :=
    ((consistent_submitted p).play hplay).exists_completion hworkers
  refine ⟨more, _, outcomes?_eq_some.mpr ⟨outcomes, ?_, rfl⟩⟩
  unfold FanOut.play at hplay hmore ⊢
  rw [List.foldlM_append, hplay]
  exact hmore

/-- Each search is taken up once and ended once. -/
theorem perm_of_outcomes? (h : p.outcomes? schedule = some found) :
    (schedule.filterMap Move.started?).Perm (List.range p.patterns.length) ∧
      (schedule.filterMap Move.finished?).Perm (List.range p.patterns.length) := by
  obtain ⟨outcomes, hplay, -⟩ := outcomes?_eq_some.mp h
  have hend := (consistent_submitted p).play hplay
  rw [List.nil_append] at hend
  have hdone : ∀ i : Nat, (∃ outcome, (outcomes.map Future.done)[i]? = some (Future.done outcome)) ↔
      i < p.patterns.length := by
    intro i
    rw [← hend.length, List.length_map]
    simp only [List.getElem?_map, Option.map_eq_some_iff]
    constructor
    · intro hsome
      obtain ⟨_, outcome, houtcome, -⟩ := hsome
      exact (List.getElem?_eq_some_iff.mp houtcome).1
    · intro hlt
      exact ⟨_, _, List.getElem?_eq_getElem hlt, rfl⟩
  constructor
  · apply (List.perm_ext_iff_of_nodup hend.startedOnce List.nodup_range).mpr
    intro i
    rw [hend.started, List.mem_range, ← hdone]
    simp
  · apply (List.perm_ext_iff_of_nodup hend.finishedOnce List.nodup_range).mpr
    intro i
    rw [hend.finished, List.mem_range, hdone]

/-- An outcome stands by the kind whose search gave it. -/
theorem outcomes?_settled {outcome : Kind → Text → Except SearchFault SearchResult}
    (hsettled : ∀ kind pattern now, (p.engine.search kind pattern p.source now).1 =
      outcome kind pattern) (h : p.outcomes? schedule = some found) :
    found = p.patterns.map fun pair => (pair.1, outcome pair.1 pair.2) := by
  obtain ⟨outcomes, hplay, rfl⟩ := outcomes?_eq_some.mp h
  have hend := (consistent_submitted p).play hplay
  have hlength : outcomes.length = p.patterns.length := by simpa using hend.length
  have houtcomes : outcomes = p.patterns.map fun pair => outcome pair.1 pair.2 := by
    apply List.ext_getElem
    · rw [hlength, List.length_map]
    · intro i hi hi'
      obtain ⟨kind, pattern, seen, hpattern, hsearch⟩ :=
        hend.attributed i outcomes[i] (by simp [hi])
      obtain ⟨_, heq⟩ := List.getElem?_eq_some_iff.mp hpattern
      rw [List.getElem_map, heq, ← hsearch, hsettled]
  rw [houtcomes, List.zip_map']

end Results

section InOrder

/-- One search after another is a schedule, too. -/
theorem exists_play_searchKinds (hworkers : 0 < p.workers)
    {before : List (Except SearchFault SearchResult)}
    {front rest : List (Kind × Text)} (hpatterns : p.patterns = front ++ rest)
    (hbefore : before.length = front.length) (run : Run) : ∃ schedule,
      p.play (before.map Future.done ++ List.replicate rest.length .waiting) schedule = some
        ((before ++ (searchKinds p.engine p.source run rest).1.map (·.2)).map Future.done) := by
  induction rest generalizing before front run with
  | nil => exact ⟨[], by simp [play, searchKinds]⟩
  | cons pair rest ih =>
    obtain ⟨kind, pattern⟩ := pair
    have hidle : (before.map Future.done).countP Future.isRunning = 0 := by
      simp [List.countP_map, Function.comp_def, Future.isRunning]
    have hothers : (List.replicate rest.length Future.waiting).countP Future.isRunning = 0 := by
      simp [List.countP_replicate, Future.isRunning]
    have hstart : p.step
        (before.map Future.done ++ Future.waiting :: List.replicate rest.length .waiting)
          (.start before.length) = some
        (before.map Future.done ++ Future.running :: List.replicate rest.length .waiting) := by
      simp [step, List.countP_append, hidle, hothers, Future.isRunning, hworkers]
    have hfinish : p.step
        (before.map Future.done ++ Future.running :: List.replicate rest.length .waiting)
          (.finish before.length run) = some
        ((before ++ [(p.engine.search kind pattern p.source run).1]).map Future.done ++
          List.replicate rest.length .waiting) := by
      simp [step, hpatterns, hbefore]
    have hnext : p.patterns = (front ++ [(kind, pattern)]) ++ rest := by
      rw [hpatterns, List.append_assoc, List.singleton_append]
    have hlength : (before ++ [(p.engine.search kind pattern p.source run).1]).length =
        (front ++ [(kind, pattern)]).length := by
      rw [List.length_append, List.length_append, hbefore]
      rfl
    obtain ⟨more, hmore⟩ := ih hnext hlength (p.engine.search kind pattern p.source run).2.tick
    refine ⟨.start before.length :: .finish before.length run :: more, ?_⟩
    unfold play at hmore ⊢
    rw [List.length_cons, List.replicate_succ, List.foldlM_cons, hstart, Option.bind_eq_bind,
      Option.bind_some, List.foldlM_cons, hfinish, Option.bind_eq_bind, Option.bind_some, hmore,
      searchKinds, List.append_assoc]
    rfl

theorem kinds_searchKinds (engine : Engine) (source : Source) (patterns : List (Kind × Text))
    (run : Run) : (searchKinds engine source run patterns).1.map (·.1) = patterns.map (·.1) := by
  induction patterns generalizing run with
  | nil => rfl
  | cons pair patterns ih =>
    obtain ⟨kind, pattern⟩ := pair
    rw [searchKinds, List.map_cons, List.map_cons, ih]

/-- What one search after another gives is what some schedule gives. -/
theorem exists_outcomes?_searchKinds (hworkers : 0 < p.workers) (run : Run) :
    ∃ schedule, p.outcomes? schedule = some (searchKinds p.engine p.source run p.patterns).1 := by
  have hempty : ([] : List (Except SearchFault SearchResult)).length =
      ([] : List (Kind × Text)).length := rfl
  obtain ⟨schedule, hplay⟩ := exists_play_searchKinds hworkers (List.nil_append p.patterns).symm
    hempty run
  refine ⟨schedule, outcomes?_eq_some.mpr ⟨_, hplay, ?_⟩⟩
  exact (List.zip_of_prod (kinds_searchKinds p.engine p.source p.patterns run) rfl).symm

end InOrder

end FanOut

/-- What every schedule of the searches for an identifier comes to. -/
structure AnySchedule (engine : Engine) (identifier : Text) (source : Source)
    (outcome : Kind → Text → Except SearchFault SearchResult) (schedule : List Move)
    (outcomes : List (Kind × Except SearchFault SearchResult)) : Prop where
  attributed : outcomes = Kind.all.map fun kind =>
    (kind, outcome kind (Catalog.patternText identifier kind))
  startedOnce : (schedule.filterMap Move.started?).Perm (List.range Kind.all.length)
  finishedOnce : (schedule.filterMap Move.finished?).Perm (List.range Kind.all.length)
  pooled : ∀ results : List (Kind × SearchResult),
    outcomes = results.map (fun pair => (pair.1, .ok pair.2)) →
    (∀ pair ∈ results, pair.2.success = true → ∀ event ∈ pair.2.events, event.Readable) →
    ∀ now, (gather now outcomes).1 = .ok (together [] results)
  sameInOrder : ∀ now other,
    (gather now outcomes).1 = (searchAll engine identifier source other).1

/-- Searches that come out as the pattern and the source alone make them can be brought to their
end by every number of workers, and give the same together in whatever order that happens. -/
theorem searches_anySchedule (engine : Engine) (source : Source)
    (outcome : Kind → Text → Except SearchFault SearchResult)
    (hsettled : ∀ kind pattern now,
      (engine.search kind pattern source now).1 = outcome kind pattern)
    (identifier : Text) (maxWorkers : Int) :
    (FanOut.ofIdentifier engine identifier source maxWorkers).Completes ∧
      ∀ schedule outcomes,
        (FanOut.ofIdentifier engine identifier source maxWorkers).outcomes? schedule =
          some outcomes →
        AnySchedule engine identifier source outcome schedule outcomes := by
  have hworkers : 0 < (FanOut.ofIdentifier engine identifier source maxWorkers).workers := by
    simp only [FanOut.ofIdentifier]
    omega
  constructor
  · exact FanOut.completes_of_workers hworkers
  · intro schedule outcomes houtcomes
    have hattributed : ∀ {schedule outcomes}, (FanOut.ofIdentifier engine identifier source
        maxWorkers).outcomes? schedule = some outcomes → outcomes =
          Kind.all.map fun kind => (kind, outcome kind (Catalog.patternText identifier kind)) := by
      intro schedule outcomes houtcomes
      rw [FanOut.outcomes?_settled hsettled houtcomes, FanOut.ofIdentifier, Catalog.patterns,
        List.map_map]
      rfl
    obtain ⟨hstarts, hfinishes⟩ := FanOut.perm_of_outcomes? houtcomes
    constructor
    · exact hattributed houtcomes
    · exact hstarts
    · exact hfinishes
    · intro results hall hreadable now
      rw [hall, gather_ok, pool_readable hreadable]
      rfl
    · intro now other
      obtain ⟨inOrder, hinOrder⟩ := FanOut.exists_outcomes?_searchKinds hworkers other
      obtain ⟨_, hleft⟩ := gather_run now outcomes
      obtain ⟨_, hright⟩ := gather_run (searchKinds engine source other
        (Catalog.patterns identifier)).2 outcomes
      have hsame : (searchKinds engine source other (Catalog.patterns identifier)).1 = outcomes :=
        (hattributed hinOrder).trans (hattributed houtcomes).symm
      unfold searchAll
      simp only [hsame, hleft, hright]

/-- A schedule of two workers: one makes the first search all the time, and the other makes the rest
from the last to the second. -/
def lastFirst : List Move :=
  [.start 0] ++
    ((List.range 10).reverse.flatMap fun i => [.start (i + 1), .finish (i + 1) .fresh]) ++
      [.finish 0 .fresh]

/-- Two workers make the searches of a buffer by the in-process engine in that order. -/
theorem searches_anySchedule_lastFirst : ∃ outcomes,
    (FanOut.ofIdentifier (InProcess.engine ⟨.dir [], []⟩ 5.0) (Text.of "leaf")
      (.buffer (Text.of "leaf = 1")) 2).outcomes? lastFirst = some outcomes ∧
      AnySchedule (InProcess.engine ⟨.dir [], []⟩ 5.0) (Text.of "leaf")
        (.buffer (Text.of "leaf = 1"))
        (fun _ pattern => (InProcess.search ⟨.dir [], []⟩ 5.0 pattern
          (.buffer (Text.of "leaf = 1")) .fresh).1) lastFirst outcomes := by
  have hsettled : ∀ (kind : Kind) (pattern : Text) (now : Run),
      ((InProcess.engine ⟨.dir [], []⟩ 5.0).search kind pattern (.buffer (Text.of "leaf = 1"))
        now).1 = (InProcess.search ⟨.dir [], []⟩ 5.0 pattern (.buffer (Text.of "leaf = 1"))
          .fresh).1 := by
    intro kind pattern now
    simp only [InProcess.engine, InProcess.search, InProcess.searchWith]
    cases Regex.compile pattern with
    | ok find => rfl
    | error fault => cases fault <;> rfl
  exact ⟨_, rfl, (searches_anySchedule (InProcess.engine ⟨.dir [], []⟩ 5.0) _ _ hsettled _ 2).2
    lastFirst _ rfl⟩

end DefinitionSite.Locator
