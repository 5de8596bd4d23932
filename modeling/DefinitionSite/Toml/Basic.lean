import DefinitionSite.Decimal.Numeral
import DefinitionSite.Decimal.Written
import DefinitionSite.Moment
import DefinitionSite.Text.Quoted

/-! The values of a configuration file, and how they are shown. -/
namespace DefinitionSite.Toml

/-- A value. A table keeps its entries in the order in which their keys first appeared. -/
inductive Value where
  | string (s : String)
  | bool (b : Bool)
  | int (n : Int)
  | float (x : Float)
  | date (d : Date)
  | clock (c : Clock)
  | moment (m : Moment)
  | array (items : List Value)
  | table (entries : List (String × Value))

abbrev Table := List (String × Value)

namespace Value

instance : Inhabited Value := ⟨.table []⟩

def typeName : Value → String
  | .string _ => "str"
  | .bool _ => "bool"
  | .int _ => "int"
  | .float _ => "float"
  | .date _ => "datetime.date"
  | .clock _ => "datetime.time"
  | .moment _ => "datetime.datetime"
  | .array _ => "list"
  | .table _ => "dict"

/-- Whether a value counts as set: false, zero and empty values do not. -/
def isTruthy : Value → Bool
  | .string s => !s.isEmpty
  | .bool b => b
  | .int n => n != 0
  | .float x => !(x == 0.0)
  | .array items => !items.isEmpty
  | .table entries => !entries.isEmpty
  | _ => true

def numbers (ns : List Nat) : String := ", ".intercalate (ns.map toString)

/-- The parts of a time that are shown: seconds and their fractions only as far as they count. -/
def clockParts (c : Clock) : List Nat :=
  if c.micros != 0 then [c.hour, c.minute, c.second, c.micros]
  else if c.second != 0 then [c.hour, c.minute, c.second]
  else [c.hour, c.minute]

def zoneText (offset : Int) : String :=
  if offset == 0 then "datetime.timezone.utc" else "datetime.timezone(" ++ spanText offset ++ ")"

mutual

def nested : Value → String
  | .string s => Text.quotedString s
  | .bool b => if b then "True" else "False"
  | .int n => toString n
  | .float x => Decimal.text x
  | .date d => "datetime.date(" ++ numbers [d.year, d.month, d.day] ++ ")"
  | .clock c => "datetime.time(" ++ numbers (clockParts c) ++ ")"
  | .moment m =>
    "datetime.datetime(" ++
      numbers ([m.date.year, m.date.month, m.date.day] ++ clockParts m.clock) ++
      (m.offset.map fun o => ", tzinfo=" ++ zoneText o).getD "" ++ ")"
  | .array items => "[" ++ ", ".intercalate (nestedAll items) ++ "]"
  | .table entries => "\x7b" ++ ", ".intercalate (nestedEntries entries) ++ "\x7d"

def nestedAll : List Value → List String
  | [] => []
  | v :: rest => nested v :: nestedAll rest

def nestedEntries : List (String × Value) → List String
  | [] => []
  | (key, v) :: rest => (Text.quotedString key ++ ": " ++ nested v) :: nestedEntries rest

end

mutual

def isShowable : Value → Bool
  | .int n => Decimal.isWritable n
  | .array items => allShowable items
  | .table entries => entriesShowable entries
  | _ => true

def allShowable : List Value → Bool
  | [] => true
  | v :: rest => isShowable v && allShowable rest

def entriesShowable : List (String × Value) → Bool
  | [] => true
  | (_, v) :: rest => isShowable v && entriesShowable rest

end

def text : Value → String
  | .string s => s
  | .date d => d.text
  | .clock c => c.text
  | .moment m => m.textWith " "
  | v => nested v

def shown (v : Value) : Except Decimal.TooManyDigits String :=
  if v.isShowable then .ok v.text else .error ⟨⟩

end Value
end DefinitionSite.Toml
