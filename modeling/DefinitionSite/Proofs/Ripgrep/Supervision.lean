import DefinitionSite.Proofs.Ripgrep.Attending

/-! What a search does to its process. The buffer is handed over once; the process is killed and
drained just if the search is cancelled or runs out of time; and whatever else a search tells of a
process that was started is told by the exit of that process. -/
namespace DefinitionSite.Ripgrep

variable {τ : Type} {p : Behaviour} {source : Source}

section Calls

@[simp] theorem round?_call (r : Round τ) : r.call.round? = some r := rfl

@[simp] theorem isKill_call (r : Round τ) : r.call.isKill = false := rfl

@[simp] theorem round?_killing : (killing : List (Call τ)).filterMap Call.round? = [] := rfl

@[simp] theorem isKill_killing : (killing : List (Call τ)).any Call.isKill = true := rfl

/-- The rounds with a process are all the waiting that has a limit. -/
@[simp] theorem rounds_calls (piped : Bool) (done : Attended τ) :
    (Trace.mk piped done.calls).rounds = done.rounds := by
  unfold Trace.rounds Attended.calls
  rw [List.filterMap_append, List.filterMap_map]
  cases done.outcome <;> simp [Function.comp_def]

/-- Only a process that has returned is not killed. -/
@[simp] theorem killed_calls (piped : Bool) (done : Attended τ) :
    (Trace.mk piped done.calls).killed = (done.outcome != .returned) := by
  unfold Trace.killed Attended.calls
  rw [List.any_append, List.any_map]
  cases done.outcome <;> simp [Function.comp_def]

/-- A process that is killed is drained behind that, and nothing else is done to it. -/
theorem calls_eq (piped : Bool) (done : Attended τ) : done.calls =
    (Trace.mk piped done.calls).rounds.map Round.call ++
      if (Trace.mk piped done.calls).killed then [.kill, .communicate none none] else [] := by
  rw [rounds_calls, killed_calls, Attended.calls]
  cases done.outcome <;> rfl

end Calls

section Results

theorem events_ofEvents (events : List Event) :
    (SearchResult.ofEvents events).events ≠ [] ↔ (SearchResult.ofEvents events).status = .ok := by
  unfold SearchResult.ofEvents
  split_ifs with hempty
  · simp
  · simpa using hempty

/-- The ways in which the exit of a process can be told. -/
theorem status_resultOf (p : Behaviour) (fromBuffer : Bool) :
    (resultOf p fromBuffer).status = .ok ∨ (resultOf p fromBuffer).status = .noMatches ∨
      (resultOf p fromBuffer).status = .failed := by
  unfold resultOf SearchResult.ofEvents
  split_ifs <;> simp [SearchResult.fail]

theorem events_resultOf (p : Behaviour) (fromBuffer : Bool) :
    (resultOf p fromBuffer).events ≠ [] ↔ (resultOf p fromBuffer).status = .ok := by
  unfold resultOf
  split
  · exact events_ofEvents _
  · split <;> simp [SearchResult.fail]

/-- A program that is missing, or that may not be run. -/
theorem isUnavailable_iff (e : StartError) :
    e.isUnavailable = true ↔ e.code = 2 ∨ e.code = 1 ∨ e.code = 13 := by
  simp only [StartError.isUnavailable, Bool.or_eq_true, beq_iff_eq]
  tauto

end Results

/-- What a search that has ended and its process have to do with each other. -/
structure Conduct [TimeScale τ] (p : Behaviour) (source : Source) (deadline : Deadline τ)
    (done : Searched τ) : Prop where
  /-- There is something to tell of a process just if it could be started. -/
  started : done.trace.isSome = true ↔ p.startError = none
  /-- The engine is unavailable just if its program is missing or may not be run. -/
  unavailable : done.result.status = .unavailable ↔
    ∃ e, p.startError = some e ∧ (e.code = 2 ∨ e.code = 1 ∨ e.code = 13)
  /-- The buffer is handed over in the first round, and nothing in any later one. -/
  input : ∀ t ∈ done.trace, t.piped = (inputOf source).isSome ∧ HandsOver (inputOf source) t.rounds
  /-- Behind the rounds a process is killed and drained, or left alone. -/
  calls : ∀ t ∈ done.trace,
    t.calls = t.rounds.map Round.call ++ if t.killed then [.kill, .communicate none none] else []
  killed : (∃ t ∈ done.trace, t.killed = true) ↔
    done.result.status = .cancelled ∨ done.result.status = .timeout
  /-- A process that is killed has outlasted every round, and there is a reason to kill it. -/
  running : ∀ t ∈ done.trace, t.killed = true → Outlasts p 1 t.rounds.length
  cancelled : done.result.status = .cancelled → done.cancelled = true
  timedOut : done.result.status = .timeout → deadline.expired done.now = true
  /-- Any other search with a process that was started tells how the process exited: it returned in
  its last round, and was not killed. -/
  returned : p.startError = none → done.result.status = .ok ∨ done.result.status = .noMatches ∨
      done.result.status = .failed →
    done.result = resultOf p (inputOf source).isSome ∧ ∃ t ∈ done.trace, t.killed = false ∧
      ∃ n, t.rounds.length = n + 1 ∧ Outlasts p 1 n ∧ p.outlasts (1 + n) = false
  events : done.result.events ≠ [] ↔ done.result.status = .ok

/-- What a search comes to, which may have taken all its rounds without an end. -/
def Supervised [TimeScale τ] (p : Behaviour) (source : Source) (limit now : τ) (cancelled : Bool)
    (rounds : Nat) : Option (Searched τ) → Prop
  | none => p.startError = none ∧ Waits p (.startingAt now limit) 1 now cancelled rounds
  | some done => Conduct p source (.startingAt now limit) done

variable [TimeScale τ] {executable shownLimit : String} {limit now : τ} {cancelled : Bool}

/-- A process that could not be started leaves nothing to look after. -/
theorem conduct_notStarted {e : StartError} (hstart : p.startError = some e)
    (deadline : Deadline τ) {status : SearchStatus}
    (hstatus : status = if e.isUnavailable then .unavailable else .failed) (message : String) :
    Conduct p source deadline ⟨.fail status message, none, now, cancelled⟩ := by
  have hcode : status = .unavailable ↔ e.code = 2 ∨ e.code = 1 ∨ e.code = 13 := by
    rw [hstatus, ← isUnavailable_iff]
    split_ifs with hun <;> simp [hun]
  have hne : status ≠ .cancelled ∧ status ≠ .timeout ∧ status ≠ .ok := by
    rw [hstatus]
    split_ifs <;> simp
  obtain ⟨hcancelled, htimeout, hok⟩ := hne
  exact {
    started := by simp [hstart]
    unavailable := by simpa [SearchResult.fail, hstart] using hcode
    input := by simp
    calls := by simp
    killed := by simp [SearchResult.fail, hcancelled, htimeout]
    running := by simp
    cancelled := fun h => absurd h hcancelled
    timedOut := fun h => absurd h htimeout
    returned := by simp [hstart]
    events := by simp [SearchResult.fail, hok] }

/-- A process that returned is left alone, and its exit is told. -/
theorem conduct_returned (hstart : p.startError = none) (deadline : Deadline τ)
    {done : Attended τ} (houtcome : done.outcome = .returned)
    (hinput : HandsOver (inputOf source) done.rounds) {n : Nat}
    (hlength : done.rounds.length = n + 1) (hlasts : Outlasts p 1 n)
    (hover : p.outlasts (1 + n) = false) : Conduct p source deadline
      ⟨resultOf p (inputOf source).isSome, some ⟨(inputOf source).isSome, done.calls⟩, done.now,
        done.cancelled⟩ := by
  have hstatus := status_resultOf p (inputOf source).isSome
  have hne : (resultOf p (inputOf source).isSome).status ≠ .unavailable ∧
      (resultOf p (inputOf source).isSome).status ≠ .cancelled ∧
      (resultOf p (inputOf source).isSome).status ≠ .timeout := by
    rcases hstatus with h | h | h <;> simp [h]
  obtain ⟨hunavailable, hcancelled, htimeout⟩ := hne
  exact {
    started := by simp [hstart]
    unavailable := by simp [hstart, hunavailable]
    input := by simpa using hinput
    calls := fun t ht => Option.mem_some_iff.mp ht ▸ calls_eq _ _
    killed := by simp [houtcome, hcancelled, htimeout]
    running := by simp [houtcome]
    cancelled := fun h => absurd h hcancelled
    timedOut := fun h => absurd h htimeout
    returned := fun _ _ =>
      ⟨rfl, _, rfl, by simp [houtcome], n, by simpa using hlength, hlasts, hover⟩
    events := events_resultOf p _ }

/-- A process that is not waited for any longer is killed. -/
theorem conduct_killed (hstart : p.startError = none) {deadline : Deadline τ} {done : Attended τ}
    (houtcome : done.outcome ≠ .returned) (hinput : HandsOver (inputOf source) done.rounds)
    (hlasts : Outlasts p 1 done.rounds.length) {status : SearchStatus}
    (hstatus : status = .cancelled ∧ done.cancelled = true ∨
      status = .timeout ∧ deadline.expired done.now = true) (message : String) :
    Conduct p source deadline ⟨.fail status message, some ⟨(inputOf source).isSome, done.calls⟩,
      done.now, done.cancelled⟩ := by
  have hkilled : (done.outcome != .returned) = true := by simpa using houtcome
  exact {
    started := by simp [hstart]
    unavailable := by rcases hstatus with ⟨rfl, -⟩ | ⟨rfl, -⟩ <;> simp [SearchResult.fail, hstart]
    input := by simpa using hinput
    calls := fun t ht => Option.mem_some_iff.mp ht ▸ calls_eq _ _
    killed := by rcases hstatus with ⟨rfl, -⟩ | ⟨rfl, -⟩ <;> simp [SearchResult.fail, hkilled]
    running := by simpa using fun _ => hlasts
    cancelled := by rcases hstatus with ⟨rfl, h⟩ | ⟨rfl, h⟩ <;> simp [SearchResult.fail, h]
    timedOut := by rcases hstatus with ⟨rfl, h⟩ | ⟨rfl, h⟩ <;> simp [SearchResult.fail, h]
    returned := by rcases hstatus with ⟨rfl, -⟩ | ⟨rfl, -⟩ <;> simp [SearchResult.fail]
    events := by rcases hstatus with ⟨rfl, -⟩ | ⟨rfl, -⟩ <;> simp [SearchResult.fail] }

/-- A process that was looked after to its end. -/
theorem conduct_attended (hstart : p.startError = none) {deadline : Deadline τ}
    {done : Attended τ} (hinput : HandsOver (inputOf source) done.rounds)
    (hends : Ends p deadline 1 done) (shownLimit : String) : Conduct p source deadline
      ⟨concluded p (inputOf source).isSome shownLimit done.outcome,
        some ⟨(inputOf source).isSome, done.calls⟩, done.now, done.cancelled⟩ := by
  unfold Ends at hends
  cases houtcome : done.outcome with
  | returned =>
    rw [houtcome] at hends
    obtain ⟨n, hlength, hlasts, hover⟩ := hends
    exact conduct_returned hstart deadline houtcome hinput hlength hlasts hover
  | cancelled =>
    rw [houtcome] at hends
    exact conduct_killed hstart (by simp [houtcome]) hinput hends.1 (.inl ⟨rfl, hends.2⟩) _
  | timedOut =>
    rw [houtcome] at hends
    exact conduct_killed hstart (by simp [houtcome]) hinput hends.1 (.inr ⟨rfl, hends.2⟩) _

/-- Whatever a process does, whenever the search is cancelled and whatever the clock shows, the
process is looked after as it should be. -/
theorem searchWith_supervised (p : Behaviour) (executable shownLimit : String) (source : Source)
    (limit now : τ) (cancelled : Bool) (rounds : Nat) :
    Supervised p source limit now cancelled rounds
      (searchWith p executable shownLimit source limit now cancelled rounds) := by
  unfold searchWith
  cases hstart : p.startError with
  | some e => exact conduct_notStarted hstart _ rfl _
  | none =>
    cases hattend : attend p (.startingAt now limit) 1 (inputOf source) now cancelled rounds with
    | none => exact ⟨hstart, attend_waits hattend⟩
    | some done =>
      obtain ⟨hinput, hends⟩ := attend_ends hattend
      exact conduct_attended hstart hinput hends shownLimit

end DefinitionSite.Ripgrep
