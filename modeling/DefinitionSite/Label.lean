import DefinitionSite.Json.Basic
import DefinitionSite.Text.Raw

/-! The name under which a search reports a file. A record of an external engine may hold any value
there, so a label is a name or such a value; the faults are what a value that is no name leads to.
-/
namespace DefinitionSite

inductive FileLabel where
  | name (t : RawText)
  | value (v : Json)

/-- What goes wrong when a record's field does not hold the kind of value it should. -/
inductive ShapeFault where
  | textNeeded (v : Json)
  | keyNeeded (v : Json)
  | pathNeeded (v : Json)
  | orderNeeded (later earlier : String)

def ShapeFault.message : ShapeFault → String
  | .textNeeded v => "'" ++ v.typeName ++ "' object has no attribute 'endswith'"
  | .keyNeeded v => "unhashable type: '" ++ v.typeName ++ "'"
  | .pathNeeded v => "expected str, bytes or os.PathLike object, not " ++ v.typeName
  | .orderNeeded later earlier =>
    "'<' not supported between instances of '" ++ later ++ "' and '" ++ earlier ++ "'"

namespace FileLabel

instance : Inhabited FileLabel := ⟨.name default⟩

def buffer : FileLabel := .name (.text "<buffer>")

/-- A number's exact value, true and false being one and zero. -/
def number? : FileLabel → Option (Int ⊕ Float)
  | .value (.bool b) => some (.inl (if b then 1 else 0))
  | .value (.int n) => some (.inl n)
  | .value (.float x) => some (.inr x)
  | _ => none

/-- Whether two labels are the same key of a group. Equal numbers are the same key, whatever their
types, and a number that is not one is the same key as itself. -/
def same (a b : FileLabel) : Bool :=
  match a, b with
  | .name s, .name t => s == t
  | a, b =>
    match a.number?, b.number? with
    | some (.inl m), some (.inl n) => m == n
    | some (.inl m), some (.inr y) => Float.ofInt m == y
    | some (.inr x), some (.inl n) => x == Float.ofInt n
    | some (.inr x), some (.inr y) => x == y || (x.isNaN && y.isNaN)
    | _, _ => false

/-- A label can be the key of a group unless it is a list or an object. -/
def checkKey : FileLabel → Except ShapeFault Unit
  | .value (.arr items) => .error (.keyNeeded (.arr items))
  | .value (.obj fields) => .error (.keyNeeded (.obj fields))
  | _ => .ok ()

def typeName : FileLabel → String
  | .name _ => "str"
  | .value v => v.typeName

def before (a b : FileLabel) : Bool :=
  match a, b with
  | .name s, .name t => s.before t
  | a, b =>
    match a.number?, b.number? with
    | some (.inl m), some (.inl n) => m < n
    | some (.inl m), some (.inr y) => Float.ofInt m < y
    | some (.inr x), some (.inl n) => x < Float.ofInt n
    | some (.inr x), some (.inr y) => x < y
    | _, _ => false

/-- Whether two labels have an order: both are names or both are numbers. -/
def comparable (a b : FileLabel) : Bool :=
  match a, b with
  | .name _, .name _ => true
  | a, b => a.number?.isSome && b.number?.isSome

end FileLabel
end DefinitionSite
