import DefinitionSite.Text.Utf8

/-! Names that came from bytes. A file name is any string of bytes; most are text, and those that
are not keep their bytes, so that nothing is lost between a report and its reader. -/
namespace DefinitionSite

inductive RawText where
  | text (s : String)
  | bytes (b : List UInt8)
  deriving Repr, DecidableEq

namespace RawText

instance : Inhabited RawText := ⟨.text ""⟩

instance : Coe String RawText := ⟨.text⟩

def toBytes : RawText → List UInt8
  | .text s => Text.encode s.toList
  | .bytes b => b

/-- Valid bytes are read as text, and others are kept. -/
def ofBytes (b : List UInt8) : RawText :=
  match Text.decode? b with
  | some t => .text (String.ofList t)
  | none => .bytes b

def append : RawText → RawText → RawText
  | .text s, .text t => .text (s ++ t)
  | s, t => .bytes (s.toBytes ++ t.toBytes)

instance : Append RawText := ⟨append⟩

/-- The code points by which names are ordered; a byte that is no text counts as `0xDC00` plus its
value. -/
def points : RawText → List Nat
  | .text s => s.toList.map Char.toNat
  | .bytes b => Text.escapedPoints b

def before (s t : RawText) : Bool := decide (s.points < t.points)

end RawText
end DefinitionSite
