/-! The fewest decimal digits that read back as a given binary floating-point number, in exact
natural arithmetic. -/
namespace DefinitionSite.Decimal

/-- A finite positive number `significand * 2 ^ exponent`; `lowest` marks the first number of a
binade, whose lower neighbour is half as far away as its upper one. -/
structure Binary where
  significand : Nat
  exponent : Int
  lowest : Bool
  deriving Repr, DecidableEq

/-- Digits after the point and the power of ten before it: `0.digits * 10 ^ point`. -/
structure Digits where
  digits : List Nat
  point : Int
  deriving Repr, DecidableEq

/-- A power of ten as a numerator and a denominator. -/
def tenTo (e : Int) : Nat × Nat :=
  if 0 ≤ e then (Nat.pow 10 e.toNat, 1) else (1, Nat.pow 10 (-e).toNat)

def digitsOf (n : Nat) : List Nat := (Nat.toDigits 10 n).map fun c => c.toNat - 48

/-- How many zeros follow the point of `num / den`, a number below one. -/
def leadingZeros (num den : Nat) : Nat → Nat
  | 0 => 0
  | fuel + 1 => if den ≤ num * 10 then 0 else leadingZeros (num * 10) den fuel + 1

/-- The point of `num / den`: the number lies between the powers of ten below and at it. -/
def pointOf (num den : Nat) : Int :=
  if den ≤ num then ((digitsOf (num / den)).length : Int) else -(leadingZeros num den 400 : Int)

/-- The interval of the numbers that read back as `b`, as numerators over one denominator: the value
itself, its lower end, its upper end, and the denominator. -/
def Binary.interval (b : Binary) : Nat × Nat × Nat × Nat :=
  let mid := 4 * b.significand
  let low := if b.lowest then mid - 1 else mid - 2
  let scale := b.exponent - 2
  if 0 ≤ scale then
    let k := Nat.pow 2 scale.toNat
    (mid * k, low * k, (mid + 2) * k, 1)
  else (mid, low, mid + 2, Nat.pow 2 (-scale).toNat)

/-- The multiple of the grid `10 ^ grid` nearest to `b` that reads back as `b`, if there is one: its
count of grid steps. Of two equally near the even one is taken. -/
def Binary.onGrid? (b : Binary) (grid : Int) : Option Nat :=
  let (mid, low, high, den) := b.interval
  let (up, down) := tenTo grid
  let steps := mid * down / (den * up)
  let inside := fun k =>
    let v := k * up * den
    let even := b.significand % 2 == 0
    if even then low * down ≤ v && v ≤ high * down else low * down < v && v < high * down
  let below := mid * down - steps * up * den
  let above := (steps + 1) * up * den - mid * down
  match inside steps, inside (steps + 1) with
  | true, true =>
    if below < above then some steps
    else if above < below then some (steps + 1)
    else if steps % 2 == 0 then some steps else some (steps + 1)
  | true, false => some steps
  | false, true => some (steps + 1)
  | false, false => none

/-- The first digit count, from `count` on, at which some decimal reads back. -/
def Binary.search (b : Binary) (point : Int) (count : Nat) : Nat → Option (Nat × Int)
  | 0 => none
  | fuel + 1 =>
    match b.onGrid? (point - count) with
    | some k => some (k, point - count)
    | none => b.search point (count + 1) fuel

def dropTrailingZeros (digits : List Nat) : List Nat :=
  (digits.reverse.dropWhile (· == 0)).reverse

/-- The fewest digits that read back as `b`, the nearest of them. -/
def Binary.shortest (b : Binary) : Digits :=
  let (mid, _, _, den) := b.interval
  match b.search (pointOf mid den) 1 17 with
  | some (k, grid) =>
    let ds := digitsOf k
    ⟨dropTrailingZeros ds, grid + ds.length⟩
  | none => ⟨[], 0⟩

end DefinitionSite.Decimal
