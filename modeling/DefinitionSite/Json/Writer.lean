import DefinitionSite.Decimal.Written
import DefinitionSite.Json.Basic
import DefinitionSite.Text.Quoted

/-! Writing JSON in ASCII: other characters are escaped, those beyond 16 bits as two halves. Items
and fields stand on lines of their own, two blanks further in than their bracket. -/
namespace DefinitionSite.Json

def unitEscape (n : Nat) : Text := Text.of "\\u" ++ Text.hexDigits 4 n

def writtenChar (c : Char) : Text :=
  let n := c.toNat
  if c == '"' then Text.of "\\\""
  else if c == '\\' then Text.of "\\\\"
  else if c == '\n' then Text.of "\\n"
  else if c == '\r' then Text.of "\\r"
  else if c == '\t' then Text.of "\\t"
  else if n == 12 then Text.of "\\f"
  else if n == 8 then Text.of "\\b"
  else if 32 ≤ n && n ≤ 126 then [c]
  else if n < 0x10000 then unitEscape n
  else unitEscape (0xD800 + (n - 0x10000) / 0x400) ++ unitEscape (0xDC00 + (n - 0x10000) % 0x400)

def writtenString (s : String) : String :=
  String.ofList (['"'] ++ s.toList.flatMap writtenChar ++ ['"'])

def writtenFloat (x : Float) : String :=
  match Decimal.Parts.ofFloat x with
  | .notANumber => "NaN"
  | .infinite negative => if negative then "-Infinity" else "Infinity"
  | parts => parts.text

def newLine (depth : Nat) : String := "\n" ++ String.ofList (List.replicate (2 * depth) ' ')

def bracketed (depth : Nat) (opening closing : String) : List String → String
  | [] => opening ++ closing
  | items =>
    opening ++ newLine (depth + 1) ++ ("," ++ newLine (depth + 1)).intercalate items ++
      newLine depth ++ closing

mutual

def writtenAt (depth : Nat) : Json → String
  | .null => "null"
  | .bool b => if b then "true" else "false"
  | .int n => toString n
  | .float x => writtenFloat x
  | .str s => writtenString s
  | .arr items => bracketed depth "[" "]" (writtenItems (depth + 1) items)
  | .obj fields => bracketed depth "\x7b" "\x7d" (writtenFields (depth + 1) fields)

def writtenItems (depth : Nat) : List Json → List String
  | [] => []
  | v :: rest => writtenAt depth v :: writtenItems depth rest

def writtenFields (depth : Nat) : List (String × Json) → List String
  | [] => []
  | (name, v) :: rest =>
    (writtenString name ++ ": " ++ writtenAt depth v) :: writtenFields depth rest

end

def written (v : Json) : String := writtenAt 0 v

end DefinitionSite.Json
