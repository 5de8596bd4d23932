import Mathlib.Algebra.Order.Floor.Semiring
import Mathlib.Data.Rat.Floor
import Mathlib.Tactic.Linarith
import Mathlib.Tactic.NormNum
import Mathlib.Tactic.Ring
import DefinitionSite.Proofs.Ripgrep.Supervision

/-! Waiting in exact time. With a clock that moves by what is waited and by nothing else, the rounds
with a process fill its limit and never more than that: each look that finds time left is followed
by a round that takes at least some of it, and the last round takes what is left. -/
namespace DefinitionSite

/-- Seconds as exact numbers; a round is a twentieth of a second. -/
instance : TimeScale ℚ where
  zero := 0
  add := (· + ·)
  sub := (· - ·)
  before a b := decide (a < b)
  reached a b := decide (b ≤ a)
  round := 1 / 20
  rounds limit := ⌈limit / (1 / 20)⌉₊

namespace Deadline

variable {d : Deadline ℚ} {now : ℚ}

theorem expires_startingAt (now limit : ℚ) : (startingAt now limit).expires - now = limit :=
  add_sub_cancel_left now limit

/-- What is left behind a wait. -/
theorem expires_sub_add (d : Deadline ℚ) (now wait : ℚ) :
    d.expires - TimeScale.add now wait = d.expires - now - wait :=
  sub_add_eq_sub_sub d.expires now wait

theorem expired_iff : d.expired now = true ↔ d.expires - now ≤ 0 := by
  rw [sub_nonpos]
  exact decide_eq_true_iff

theorem expired_eq_false_iff : d.expired now = false ↔ 0 < d.expires - now := by
  rw [← Bool.not_eq_true, expired_iff, not_le]

/-- While there is time left, a round waits for all of it or for its full length. -/
theorem nextWait_eq (h : 0 < d.expires - now) :
    d.nextWait now = min (1 / 20) (d.expires - now) := by
  have hleft : d.remaining now = d.expires - now := if_pos (decide_eq_true h)
  have hwait : d.nextWait now = if decide (d.expires - now < 1 / 20) = true
      then d.expires - now else 1 / 20 := by
    rw [← hleft]
    rfl
  rw [hwait, min_def']
  split_ifs <;> simp_all <;> linarith

end Deadline

namespace Ripgrep

/-- The number of rounds in which so much time is waited out. -/
def roundsIn (left : ℚ) : ℕ := ⌈left / (1 / 20)⌉₊

theorem roundsIn_of_nonpos {left : ℚ} (h : left ≤ 0) : roundsIn left = 0 :=
  Nat.ceil_eq_zero.mpr (div_nonpos_of_nonpos_of_nonneg h (by norm_num))

/-- Every round is one of the rounds that are left. -/
theorem roundsIn_wait {left : ℚ} (h : 0 < left) :
    roundsIn left = roundsIn (left - min (1 / 20) left) + 1 := by
  rcases le_total left (1 / 20) with hshort | hlong
  · have hone : roundsIn left = 1 := by
      refine (Nat.ceil_eq_iff one_ne_zero).mpr ⟨?_, ?_⟩
      · simpa using h
      · rw [div_le_iff₀ (by norm_num)]
        simpa using hshort
    rw [hone, min_eq_right hshort, sub_self, roundsIn_of_nonpos le_rfl]
  · have hmore : left / (1 / 20) = (left - 1 / 20) / (1 / 20) + 1 := by ring
    have hnonneg : 0 ≤ (left - 1 / 20) / (1 / 20) := div_nonneg (by linarith) (by norm_num)
    rw [min_eq_left hlong, roundsIn, roundsIn, hmore, Nat.ceil_add_one hnonneg]

/-- The time that rounds may take. -/
def waited (rounds : List (Round ℚ)) : ℚ := (rounds.map Round.wait).sum

/-- The rounds share the time that is left, and each takes some of it. -/
def InTime (left : ℚ) (rounds : List (Round ℚ)) : Prop :=
  (∀ r ∈ rounds, 0 < r.wait ∧ r.wait ≤ 1 / 20) ∧ waited rounds ≤ max 0 left

/-- The limit was reached, and by waiting for all the time there was. -/
def RunsOut (left : ℚ) (done : Attended ℚ) : Prop :=
  done.outcome = .timedOut ∧ done.rounds.length = roundsIn left ∧ waited done.rounds = max 0 left

theorem inTime_nil (left : ℚ) : InTime left [] := by
  simp [InTime, waited]

section Wait
variable {left : ℚ} (hleft : 0 < left)
include hleft

theorem waited_cons (input : Option Text) (more : List (Round ℚ)) :
    waited (⟨input, min (1 / 20) left⟩ :: more) = max 0 left ↔
      waited more = max 0 (left - min (1 / 20) left) := by
  have hwait : min (1 / 20) left ≤ left := min_le_right _ _
  rw [max_eq_right hleft.le, max_eq_right (sub_nonneg.mpr hwait), eq_sub_iff_add_eq']
  rfl

/-- The time that is left behind a round is what the round did not take. -/
theorem InTime.cons {more : List (Round ℚ)} (h : InTime (left - min (1 / 20) left) more)
    (input : Option Text) : InTime left (⟨input, min (1 / 20) left⟩ :: more) := by
  have hwait : min (1 / 20) left ≤ left := min_le_right _ _
  obtain ⟨heach, htotal⟩ := h
  refine ⟨List.forall_mem_cons.mpr ⟨⟨lt_min (by norm_num) hleft, min_le_left _ _⟩, heach⟩, ?_⟩
  rw [max_eq_right (sub_nonneg.mpr hwait), le_sub_iff_add_le'] at htotal
  rw [max_eq_right hleft.le]
  exact htotal

theorem RunsOut.cons {rest : Attended ℚ} (h : RunsOut (left - min (1 / 20) left) rest)
    (input : Option Text) :
    RunsOut left { rest with rounds := ⟨input, min (1 / 20) left⟩ :: rest.rounds } := by
  obtain ⟨houtcome, hlength, htotal⟩ := h
  refine ⟨houtcome, ?_, (waited_cons hleft input _).mpr htotal⟩
  rw [roundsIn_wait hleft, ← hlength, List.length_cons]

end Wait

/-- What a process that is looked after in exact time comes to, with so much time left: there are
rounds enough if there are more than fit in that time, all waiting together fits in it, and it is
used up if nothing ends the process. -/
def OnTime (p : Behaviour) (cancelled : Bool) (left : ℚ) (rounds : ℕ) :
    Option (Attended ℚ) → Prop
  | none => rounds ≤ roundsIn left
  | some done => InTime left done.rounds ∧
      (p.hang = none → p.cancelAfter = none → cancelled = false → RunsOut left done)

theorem attend_onTime (p : Behaviour) (deadline : Deadline ℚ) (round : ℕ) (input : Option Text)
    (now : ℚ) (cancelled : Bool) (rounds : ℕ) :
    OnTime p cancelled (deadline.expires - now) rounds
      (attend p deadline round input now cancelled rounds) := by
  induction rounds generalizing round input now cancelled with
  | zero => exact Nat.zero_le _
  | succ rounds ih =>
    have hlook := look p deadline round input now cancelled (rounds + 1)
    generalize attend p deadline round input now cancelled (rounds + 1) = result at hlook ⊢
    cases hlook with
    | cancelled => exact ⟨inTime_nil _, by simp⟩
    | timedOut hexpired =>
      have hnone := Deadline.expired_iff.mp hexpired
      exact ⟨inTime_nil _, fun _ _ _ => ⟨rfl, (roundsIn_of_nonpos hnone).symm,
        (max_eq_left hnone).symm⟩⟩
    | returned hleft hover =>
      have hpos := Deadline.expired_eq_false_iff.mp hleft
      rw [Deadline.nextWait_eq hpos]
      refine ⟨(inTime_nil _).cons hpos input, fun hhang => ?_⟩
      simp [Behaviour.outlasts, hhang] at hover
    | @waited _ rest? hleft hlasts hrest =>
      have hpos := Deadline.expired_eq_false_iff.mp hleft
      have hmore := ih (round + 1) none (TimeScale.add now (deadline.nextWait now))
        (p.cancelAfter == some round)
      rw [hrest, Deadline.expires_sub_add, Deadline.nextWait_eq hpos] at hmore
      rw [Deadline.nextWait_eq hpos]
      cases rest? with
      | none =>
        have hle : rounds + 1 ≤ roundsIn (deadline.expires - now) := by
          rw [roundsIn_wait hpos]
          exact Nat.succ_le_succ hmore
        exact hle
      | some rest =>
        refine ⟨hmore.1.cons hpos input, fun hhang hcancel _ => ?_⟩
        exact (hmore.2 hhang hcancel (by simp [hcancel])).cons hpos input

/-- A process that returns is looked after in no more rounds than it outlasts, and any other one in
no more than its limit allows. -/
theorem exists_attend (p : Behaviour) (limit now : ℚ) (input : Option Text) (cancelled : Bool) :
    ∃ done, attend p (.startingAt now limit) 1 input now cancelled (p.roundsFor limit) =
      some done := by
  cases h : attend p (.startingAt now limit) 1 input now cancelled (p.roundsFor limit) with
  | some done => exact ⟨done, rfl⟩
  | none =>
    exfalso
    have hlasts := (attend_waits h).outlasts
    have hlimit := attend_onTime p (.startingAt now limit) 1 input now cancelled (p.roundsFor limit)
    rw [h, Deadline.expires_startingAt] at hlimit
    cases hhang : p.hang with
    | some n =>
      have hover := hlasts n (by simp [Behaviour.roundsFor, hhang])
      simp [Behaviour.outlasts, hhang] at hover
    | none =>
      have hmore : roundsIn limit < p.roundsFor limit := by
        have hrounds : TimeScale.rounds limit = roundsIn limit := rfl
        unfold Behaviour.roundsFor
        rw [hhang, hrounds]
        cases p.cancelAfter with
        | none => simp
        | some n =>
          have := le_max_right n (roundsIn limit)
          simp only
          omega
      exact absurd hlimit (not_le.mpr hmore)

/-- A search always ends in time: no more is waited than the limit, and a process that nothing ends
is waited for in as many rounds as the limit needs, for all of the limit. -/
theorem searchWith_onTime (p : Behaviour) (executable shownLimit : String) (source : Source)
    (limit now : ℚ) (cancelled : Bool) :
    ∃ done, searchWith p executable shownLimit source limit now cancelled (p.roundsFor limit) =
        some done ∧
      (∀ t ∈ done.trace, (∀ r ∈ t.rounds, 0 < r.wait ∧ r.wait ≤ 1 / 20) ∧
        (t.rounds.map Round.wait).sum ≤ max 0 limit) ∧
      (p.startError = none → p.hang = none → p.cancelAfter = none → cancelled = false →
        done.result.status = .timeout ∧ ∃ t, done.trace = some t ∧
          t.rounds.length = ⌈limit / (1 / 20)⌉₊ ∧ (t.rounds.map Round.wait).sum = max 0 limit) := by
  obtain ⟨done, hattend⟩ := exists_attend p limit now (inputOf source) cancelled
  have hlimit := attend_onTime p (.startingAt now limit) 1 (inputOf source) now cancelled
    (p.roundsFor limit)
  rw [hattend, Deadline.expires_startingAt] at hlimit
  obtain ⟨hinTime, hrunsOut⟩ := hlimit
  unfold searchWith
  cases hstart : p.startError with
  | some e => exact ⟨_, rfl, by simp, by simp⟩
  | none =>
    rw [hattend]
    refine ⟨_, rfl, ?_, fun _ hhang hcancel hnow => ?_⟩
    · intro t ht
      obtain rfl := Option.some.inj ht
      rw [rounds_calls]
      exact hinTime
    · obtain ⟨houtcome, hlength, htotal⟩ := hrunsOut hhang hcancel hnow
      refine ⟨by simp [concluded, houtcome, SearchResult.fail], _, rfl, ?_⟩
      rw [rounds_calls]
      exact ⟨hlength, htotal⟩

/-- A process that hangs. -/
def hanging : Behaviour := ⟨none, none, none, 0, [], []⟩

/-- A limit of 0.24 seconds is waited out in five rounds, the last of which is a short one. -/
theorem searchWith_onTime_hanging :
    hanging.startError = none ∧ hanging.hang = none ∧ hanging.cancelAfter = none ∧
    ∃ done t, searchWith hanging "rg" "0.24" (.buffer []) (6 / 25 : ℚ) 0 false
        (hanging.roundsFor (6 / 25 : ℚ)) = some done ∧
      done.result.status = .timeout ∧ done.trace = some t ∧ t.rounds.length = 5 ∧
      (t.rounds.map Round.wait).sum = 6 / 25 := by
  obtain ⟨done, hdone, -, hends⟩ :=
    searchWith_onTime hanging "rg" "0.24" (.buffer []) (6 / 25) 0 false
  obtain ⟨hstatus, t, htrace, hlength, htotal⟩ := hends rfl rfl rfl rfl
  refine ⟨rfl, rfl, rfl, done, t, hdone, hstatus, htrace, ?_, ?_⟩
  · rw [hlength, Nat.ceil_eq_iff (by norm_num)]
    norm_num
  · rw [htotal]
    norm_num

end Ripgrep
end DefinitionSite
