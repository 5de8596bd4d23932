/-! Time limits over any scale of time: floating-point seconds when the program runs, exact numbers
when it is reasoned about. -/
namespace DefinitionSite

/-- A scale of time: what is needed to set a limit, to ask whether it is reached, and to wait in
short rounds. -/
class TimeScale (τ : Type) where
  zero : τ
  add : τ → τ → τ
  sub : τ → τ → τ
  before : τ → τ → Bool
  /-- Whether the first moment is the second or a later one. -/
  reached : τ → τ → Bool
  /-- The longest wait between two looks at a running process. -/
  round : τ
  /-- At least as many rounds as a limit allows. -/
  rounds : τ → Nat

/-- Seconds as floating-point numbers; a round is a twentieth of a second. -/
instance : TimeScale Float where
  zero := 0.0
  add := (· + ·)
  sub := (· - ·)
  before a b := a < b
  reached a b := b ≤ a
  round := 0.05
  rounds limit := (limit / 0.05).toUInt64.toNat + 4

structure Deadline (τ : Type) where
  limit : τ
  expires : τ
  deriving Repr

namespace Deadline

variable {τ : Type} [TimeScale τ]

def startingAt (now limit : τ) : Deadline τ := ⟨limit, TimeScale.add now limit⟩

def expired (d : Deadline τ) (now : τ) : Bool := TimeScale.reached now d.expires

/-- The time that is left, or none. -/
def remaining (d : Deadline τ) (now : τ) : τ :=
  let left := TimeScale.sub d.expires now
  if TimeScale.before TimeScale.zero left then left else TimeScale.zero

/-- How long the next round may wait: what is left, but no longer than a round. -/
def nextWait (d : Deadline τ) (now : τ) : τ :=
  if TimeScale.before (d.remaining now) TimeScale.round then d.remaining now else TimeScale.round

end Deadline
end DefinitionSite
