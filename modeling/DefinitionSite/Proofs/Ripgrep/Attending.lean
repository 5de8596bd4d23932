import Mathlib.Tactic.Common
import DefinitionSite.Ripgrep.Running

/-! Looking after a running process: what one look can come to, and what that makes of all looks at
it. No law of the scale of time is used, so the clock may show anything at any look. -/
namespace DefinitionSite.Ripgrep

variable {τ : Type} {p : Behaviour} {input : Option Text}

/-- The first round hands the input over, and none behind it hands over any. -/
def HandsOver (input : Option Text) (rounds : List (Round τ)) : Prop :=
  ∀ i r, rounds[i]? = some r → r.input = if i = 0 then input else none

theorem handsOver_nil : HandsOver input ([] : List (Round τ)) := by
  intro i r h
  simp at h

theorem HandsOver.cons {more : List (Round τ)} (h : HandsOver none more) (wait : τ) :
    HandsOver input (⟨input, wait⟩ :: more) := by
  intro i r hr
  cases i with
  | zero =>
    obtain rfl : ⟨input, wait⟩ = r := by simpa using hr
    rfl
  | succ i => simpa using h i r (by simpa using hr)

/-- The process outlasts so many rounds, counted from one of them. -/
def Outlasts (p : Behaviour) (round n : Nat) : Prop := ∀ i < n, p.outlasts (round + i) = true

theorem outlasts_zero (round : Nat) : Outlasts p round 0 := fun _ h => absurd h (Nat.not_lt_zero _)

theorem Outlasts.cons {round n : Nat} (hnow : p.outlasts round = true)
    (h : Outlasts p (round + 1) n) : Outlasts p round (n + 1) := by
  intro i hi
  cases i with
  | zero => exact hnow
  | succ i => simpa [Nat.add_right_comm, Nat.add_assoc] using h i (by omega)

variable [TimeScale τ] {deadline : Deadline τ} {round rounds : Nat} {now : τ} {cancelled : Bool}

/-- All that one look at a process can come to, with so many rounds left. -/
inductive Look (p : Behaviour) (deadline : Deadline τ) (round : Nat) (input : Option Text)
    (now : τ) : Bool → Nat → Option (Attended τ) → Prop
  | outOfRounds {cancelled : Bool} : Look p deadline round input now cancelled 0 none
  | cancelled {rounds : Nat} :
      Look p deadline round input now true (rounds + 1) (some ⟨.cancelled, [], now, true⟩)
  | timedOut {rounds : Nat} (hexpired : deadline.expired now = true) :
      Look p deadline round input now false (rounds + 1) (some ⟨.timedOut, [], now, false⟩)
  | returned {rounds : Nat} (hleft : deadline.expired now = false)
      (hover : p.outlasts round = false) : Look p deadline round input now false (rounds + 1)
        (some ⟨.returned, [⟨input, deadline.nextWait now⟩], now, p.cancelAfter == some round⟩)
  | waited {rounds : Nat} {rest? : Option (Attended τ)} (hleft : deadline.expired now = false)
      (hlasts : p.outlasts round = true)
      (hrest : attend p deadline (round + 1) none (TimeScale.add now (deadline.nextWait now))
        (p.cancelAfter == some round) rounds = rest?) :
      Look p deadline round input now false (rounds + 1)
        (rest?.map fun rest =>
          { rest with rounds := ⟨input, deadline.nextWait now⟩ :: rest.rounds })

theorem look (p : Behaviour) (deadline : Deadline τ) (round : Nat) (input : Option Text) (now : τ)
    (cancelled : Bool) (rounds : Nat) : Look p deadline round input now cancelled rounds
      (attend p deadline round input now cancelled rounds) := by
  cases rounds with
  | zero => exact .outOfRounds
  | succ rounds =>
    rw [attend]
    cases cancelled with
    | true => exact .cancelled
    | false =>
      cases hexpired : deadline.expired now with
      | true => exact .timedOut hexpired
      | false =>
        cases hlasts : p.outlasts round with
        | true => exact .waited hexpired hlasts rfl
        | false => exact .returned hexpired hlasts

/-- What the rounds with a process and its end have to do with each other. -/
def Ends (p : Behaviour) (deadline : Deadline τ) (round : Nat) (done : Attended τ) : Prop :=
  match done.outcome with
  | .returned => ∃ n, done.rounds.length = n + 1 ∧ Outlasts p round n ∧
      p.outlasts (round + n) = false
  | .cancelled => Outlasts p round done.rounds.length ∧ done.cancelled = true
  | .timedOut => Outlasts p round done.rounds.length ∧ deadline.expired done.now = true

/-- One more round before the others changes nothing about the end. -/
theorem Ends.cons {rest : Attended τ} (hnow : p.outlasts round = true)
    (h : Ends p deadline (round + 1) rest) (first : Round τ) :
    Ends p deadline round { rest with rounds := first :: rest.rounds } := by
  unfold Ends at h ⊢
  cases houtcome : rest.outcome with
  | returned =>
    obtain ⟨n, hlength, hlasts, hover⟩ := houtcome ▸ h
    refine ⟨n + 1, by simp [hlength], hlasts.cons hnow, ?_⟩
    rwa [Nat.add_right_comm] at hover
  | cancelled =>
    rw [houtcome] at h
    exact ⟨h.1.cons hnow, h.2⟩
  | timedOut =>
    rw [houtcome] at h
    exact ⟨h.1.cons hnow, h.2⟩

/-- However often a process is looked at, its input is handed over once, and it is left alone when
it has returned, when the search is cancelled or when the limit is reached. -/
theorem attend_ends {done : Attended τ}
    (h : attend p deadline round input now cancelled rounds = some done) :
    HandsOver input done.rounds ∧ Ends p deadline round done := by
  induction rounds generalizing round input now cancelled done with
  | zero => cases h
  | succ rounds ih =>
    have hlook := look p deadline round input now cancelled (rounds + 1)
    rw [h] at hlook
    generalize hsome : some done = result at hlook
    cases hlook with
    | cancelled =>
      obtain rfl := Option.some.inj hsome
      exact ⟨handsOver_nil, outlasts_zero _, rfl⟩
    | timedOut hexpired =>
      obtain rfl := Option.some.inj hsome
      exact ⟨handsOver_nil, outlasts_zero _, hexpired⟩
    | returned hleft hover =>
      obtain rfl := Option.some.inj hsome
      exact ⟨handsOver_nil.cons _, 0, rfl, outlasts_zero _, hover⟩
    | waited hleft hlasts hrest =>
      obtain ⟨rest, rfl, rfl⟩ := Option.map_eq_some_iff.mp hsome.symm
      obtain ⟨hinput, hends⟩ := ih hrest
      exact ⟨hinput.cons _, hends.cons hlasts _⟩

/-- What the clock shows at a look if every round before it was waited out. -/
def clockAt (deadline : Deadline τ) (now : τ) : Nat → τ
  | 0 => now
  | n + 1 => clockAt deadline (TimeScale.add now (deadline.nextWait now)) n

/-- After so many rounds nothing has ended the process: it did not return, the search was not
cancelled before the last of them, and no look found the limit reached. -/
structure Waits (p : Behaviour) (deadline : Deadline τ) (round : Nat) (now : τ) (cancelled : Bool)
    (rounds : Nat) : Prop where
  outlasts : Outlasts p round rounds
  uncancelled : 0 < rounds → cancelled = false
  undisturbed : ∀ i, i + 1 < rounds → p.cancelAfter ≠ some (round + i)
  unlimited : ∀ i < rounds, deadline.expired (clockAt deadline now i) = false

/-- Looking after a process has no end only if nothing ends the process. -/
theorem attend_waits (h : attend p deadline round input now cancelled rounds = none) :
    Waits p deadline round now cancelled rounds := by
  induction rounds generalizing round input now cancelled with
  | zero => exact ⟨outlasts_zero _, by simp, by simp, by simp⟩
  | succ rounds ih =>
    have hlook := look p deadline round input now cancelled (rounds + 1)
    rw [h] at hlook
    generalize hnone : none = result at hlook
    cases hlook with
    | cancelled => cases hnone
    | timedOut => cases hnone
    | returned => cases hnone
    | waited hleft hlasts hrest =>
      rw [Option.map_eq_none_iff.mp hnone.symm] at hrest
      obtain ⟨houtlasts, huncancelled, hundisturbed, hunlimited⟩ := ih hrest
      refine ⟨houtlasts.cons hlasts, fun _ => rfl, ?_, ?_⟩
      · intro i hi
        cases i with
        | zero => simpa using huncancelled (by omega)
        | succ i => simpa [Nat.add_right_comm, Nat.add_assoc] using hundisturbed i (by omega)
      · intro i hi
        cases i with
        | zero => exact hleft
        | succ i => exact hunlimited i (by omega)

end DefinitionSite.Ripgrep
