import DefinitionSite.Decimal.Shortest

/-! How floating-point numbers are written: the fewest digits that read back, positional from
`0.0001` up to below `1e16` and with an exponent of at least two digits outside. -/
namespace DefinitionSite.Decimal

inductive Parts where
  | notANumber
  | infinite (negative : Bool)
  | zero (negative : Bool)
  | finite (negative : Bool) (b : Binary)
  deriving Repr, DecidableEq

def Parts.ofFloat (x : Float) : Parts :=
  let bits := x.toBits.toNat
  let unit := Nat.pow 2 52
  let negative := bits / Nat.pow 2 63 == 1
  let exponent : Nat := bits / unit % 2048
  let fraction : Nat := bits % unit
  if exponent == 2047 then if fraction == 0 then .infinite negative else .notANumber
  else if exponent == 0 then
    if fraction == 0 then .zero negative else .finite negative ⟨fraction, -1074, false⟩
  else .finite negative ⟨unit + fraction, (exponent : Int) - 1075, fraction == 0 && 1 < exponent⟩

def digitChars (digits : List Nat) : String :=
  String.ofList (digits.map fun d => Char.ofNat (48 + d))

def positional (d : Digits) : String :=
  let n : Int := d.digits.length
  if d.point ≤ 0 then "0." ++ digitChars (List.replicate (-d.point).toNat 0 ++ d.digits)
  else if n ≤ d.point then
    digitChars (d.digits ++ List.replicate (d.point - n).toNat 0) ++ ".0"
  else digitChars (d.digits.take d.point.toNat) ++ "." ++ digitChars (d.digits.drop d.point.toNat)

def scientific (d : Digits) : String :=
  let e := d.point - 1
  let size := toString e.natAbs
  let padded := if e.natAbs < 10 then "0" ++ size else size
  let tail := if d.digits.length ≤ 1 then "" else "." ++ digitChars (d.digits.drop 1)
  digitChars (d.digits.take 1) ++ tail ++ "e" ++ (if e < 0 then "-" else "+") ++ padded

/-- A positive number's digits in the notation that its size calls for. -/
def written (d : Digits) : String :=
  if d.point ≤ -4 || 16 < d.point then scientific d else positional d

def Parts.text : Parts → String
  | .notANumber => "nan"
  | .infinite negative => if negative then "-inf" else "inf"
  | .zero negative => if negative then "-0.0" else "0.0"
  | .finite negative b => (if negative then "-" else "") ++ written b.shortest

def text (x : Float) : String := (Parts.ofFloat x).text

/-- The whole part of a number, toward zero. -/
def Parts.whole? : Parts → Option Int
  | .notANumber => none
  | .infinite _ => none
  | .zero _ => some 0
  | .finite negative b =>
    let n : Int :=
      if 0 ≤ b.exponent then (b.significand * Nat.pow 2 b.exponent.toNat : Nat)
      else (b.significand / Nat.pow 2 (-b.exponent).toNat : Nat)
    some (if negative then -n else n)

end DefinitionSite.Decimal
