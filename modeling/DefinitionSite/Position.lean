import DefinitionSite.Decimal.Numeral

/-! A position in a text, as a user gives it: a line and a column, both counted from 1. -/
namespace DefinitionSite

/-- A line and a column, both counted from 0. -/
structure Position where
  line : Int
  column : Int
  deriving Repr, DecidableEq

inductive PositionFault where
  | malformed (given : String)
  | belowOne
  deriving Repr, DecidableEq

def PositionFault.message : PositionFault → String
  | .malformed given => "expected LINE:COL, got '" ++ given ++ "'"
  | .belowOne => "LINE and COL start at 1"

namespace Position

def pair? (text : Text) : Option (Int × Int) := do
  let (line, column) ← Text.cut? ':' text
  let line ← (Decimal.readInt line).toOption
  let column ← (Decimal.readInt column).toOption
  return (line, column)

def read (given : String) : Except PositionFault Position :=
  match pair? given.toList with
  | none => .error (.malformed given)
  | some (line, column) =>
    if line < 1 || column < 1 then .error .belowOne else .ok ⟨line - 1, column - 1⟩

end Position
end DefinitionSite
