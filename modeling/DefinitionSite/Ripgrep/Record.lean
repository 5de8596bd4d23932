import DefinitionSite.Event
import DefinitionSite.Json.Reader
import DefinitionSite.Text.Base64
import DefinitionSite.Text.Blank

/-! The output of the external engine: one JSON record a line, of which the records of matches
count. A line that is no such record is dropped. -/
namespace DefinitionSite.Ripgrep

def bytesOf? : Json → Option (List UInt8)
  | .str s => Text.base64? s.toList
  | _ => none

/-- The lines of a record: text as it is, or bytes read as text. A missing or empty value is empty
text, and bytes that cannot be read make no event. -/
def linesOf? (field : Option Json) : Option EventText :=
  let value : Option Json :=
    match field with
    | some (.obj fields) =>
      match Json.field? "text" (.obj fields), Json.field? "bytes" (.obj fields) with
      | some v, _ => some v
      | none, some b =>
        (bytesOf? b).map fun bytes => .str (String.ofList (Text.decodeReplacing bytes))
      | none, none => some .null
    | _ => some .null
  value.map fun
    | .str s => .text s.toList
    | v => if v.isTruthy then .value v else .text []

/-- The file of a record: raw bytes if it gives them, or else its text. -/
def pathOf? (field : Option Json) : Option (Option FileLabel) :=
  match field with
  | some (.obj fields) =>
    match Json.field? "bytes" (.obj fields), Json.field? "text" (.obj fields) with
    | some b, _ => (bytesOf? b).map fun bytes => some (.name (.ofBytes bytes))
    | none, some .null => some none
    | none, some (.str s) => some (some (.name (.text s)))
    | none, some v => some (some (.value v))
    | none, none => some none
  | _ => some none

def lineOf? : Json → Option LineNumber
  | .int n => some (.number n)
  | .bool b => some (.flag b)
  | _ => none

def eventOf? (fromBuffer : Bool) (record : Json) : Option Event := do
  let .str "match" ← record.field? "type" | none
  let data ← record.field? "data"
  let line ← lineOf? (← data.field? "line_number")
  let text ← linesOf? (data.field? "lines")
  let path ← if fromBuffer then some none else pathOf? (data.field? "path")
  return { path, line, text }

def parse (output : Text) (fromBuffer : Bool) : List Event :=
  (Text.recordLines output).filterMap fun line =>
    if line.all Text.isBlank then none else (Json.read? line).bind (eventOf? fromBuffer)

end DefinitionSite.Ripgrep
