import DefinitionSite.Decimal.Numeral
import DefinitionSite.Json.Basic

/-! Reading a JSON value that fills a whole text. Beside standard JSON the words `NaN`, `Infinity`
and `-Infinity` are numbers, a string holds no raw control character, and a whole number has a
bounded number of digits. Reading a part gives the part and the text after it. -/
namespace DefinitionSite.Json

def isGap (c : Char) : Bool := c == ' ' || c == '\t' || c == '\n' || c == '\r'

def skipGaps (text : Text) : Text := text.dropWhile isGap

def hexValue? (c : Char) : Option Nat :=
  if c.isDigit then some (c.toNat - 48)
  else if 'a' ≤ c && c ≤ 'f' then some (c.toNat - 87)
  else if 'A' ≤ c && c ≤ 'F' then some (c.toNat - 55)
  else none

def hexUnit? : Text → Option (Nat × Text)
  | a :: b :: c :: d :: rest => do
    let a ← hexValue? a
    let b ← hexValue? b
    let c ← hexValue? c
    let d ← hexValue? d
    return (((a * 16 + b) * 16 + c) * 16 + d, rest)
  | _ => none

def shortEscape? : Char → Option Char
  | '"' => some '"'
  | '\\' => some '\\'
  | '/' => some '/'
  | 'b' => some '\x08'
  | 'f' => some '\x0c'
  | 'n' => some '\n'
  | 'r' => some '\r'
  | 't' => some '\t'
  | _ => none

/-- The character of a numbered escape, read after its `\u`. Two escapes that form a surrogate pair
are one character. A surrogate that stands alone is no character of a text: other readers keep it as
it is, and here the replacement character stands for it. -/
def numberedChar? (text : Text) : Option (Char × Text) := do
  let (unit, rest) ← hexUnit? text
  if 0xD800 ≤ unit && unit ≤ 0xDBFF then
    match rest with
    | '\\' :: 'u' :: more =>
      match hexUnit? more with
      | some (low, after) =>
        if 0xDC00 ≤ low && low ≤ 0xDFFF then
          return (Char.ofNat (0x10000 + (unit - 0xD800) * 1024 + (low - 0xDC00)), after)
        else return ('\uFFFD', rest)
      | none => none
    | _ => return ('\uFFFD', rest)
  else if 0xDC00 ≤ unit && unit ≤ 0xDFFF then return ('\uFFFD', rest)
  else return (Char.ofNat unit, rest)

def stringBody : Nat → Text → Option (Text × Text)
  | 0, _ => none
  | _ + 1, [] => none
  | _ + 1, '"' :: rest => some ([], rest)
  | fuel + 1, '\\' :: 'u' :: rest => do
    let (c, rest) ← numberedChar? rest
    let (cs, rest) ← stringBody fuel rest
    return (c :: cs, rest)
  | fuel + 1, '\\' :: e :: rest => do
    let c ← shortEscape? e
    let (cs, rest) ← stringBody fuel rest
    return (c :: cs, rest)
  | fuel + 1, c :: rest =>
    if c.toNat < 0x20 || c == '\\' then none
    else do
      let (cs, rest) ← stringBody fuel rest
      return (c :: cs, rest)

/-- The digits of a whole part: a lone zero, or digits that do not start with one. -/
def wholeDigits? (text : Text) : Option (Text × Text) :=
  match text with
  | '0' :: rest => some (['0'], rest)
  | text =>
    match text.takeWhile Char.isDigit with
    | [] => none
    | digits => some (digits, text.dropWhile Char.isDigit)

def fractionDigits (text : Text) : Text × Text :=
  match text with
  | '.' :: d :: rest =>
    if d.isDigit then
      ('.' :: d :: rest.takeWhile Char.isDigit, rest.dropWhile Char.isDigit)
    else ([], text)
  | _ => ([], text)

def exponentDigits (text : Text) : Text × Text :=
  match text with
  | e :: rest =>
    if e == 'e' || e == 'E' then
      let (mark, body) :=
        match rest with
        | '+' :: body => (['+'], body)
        | '-' :: body => (['-'], body)
        | body => ([], body)
      match body.takeWhile Char.isDigit with
      | [] => ([], text)
      | digits => (e :: mark ++ digits, body.dropWhile Char.isDigit)
    else ([], text)
  | [] => ([], text)

def unsignedNumber (negative : Bool) (text : Text) : Option (Json × Text) := do
  let (whole, rest) ← wholeDigits? text
  let (fraction, rest) := fractionDigits rest
  let (exponent, rest) := exponentDigits rest
  if fraction.isEmpty && exponent.isEmpty then
    if Decimal.maxDigits < whole.length then none
    else
      let n : Int := Decimal.natOf whole
      return (.int (if negative then -n else n), rest)
  else
    let x ← Decimal.readDecimal? (whole ++ fraction ++ exponent)
    return (.float (if negative then -x else x), rest)

def afterWord? (word : String) (text : Text) : Option Text :=
  if word.toList.isPrefixOf text then some (text.drop word.length) else none

def scalar (text : Text) : Option (Json × Text) :=
  match text with
  | '-' :: rest =>
    match afterWord? "Infinity" rest with
    | some rest => some (.float (-1.0 / 0.0), rest)
    | none => unsignedNumber true rest
  | text =>
    match afterWord? "null" text, afterWord? "true" text, afterWord? "false" text,
      afterWord? "NaN" text, afterWord? "Infinity" text with
    | some rest, _, _, _, _ => some (.null, rest)
    | _, some rest, _, _, _ => some (.bool true, rest)
    | _, _, some rest, _, _ => some (.bool false, rest)
    | _, _, _, some rest, _ => some (.float (0.0 / 0.0), rest)
    | _, _, _, _, some rest => some (.float (1.0 / 0.0), rest)
    | _, _, _, _, _ => unsignedNumber false text

mutual

def value : Nat → Text → Option (Json × Text)
  | 0, _ => none
  | fuel + 1, text =>
    match text with
    | '"' :: rest => do
      let (cs, rest) ← stringBody (rest.length + 1) rest
      return (.str (String.ofList cs), rest)
    | '[' :: rest =>
      match skipGaps rest with
      | ']' :: rest => some (.arr [], rest)
      | rest => do
        let (vs, rest) ← elements fuel rest
        return (.arr vs, rest)
    | '{' :: rest =>
      match skipGaps rest with
      | '}' :: rest => some (.obj [], rest)
      | rest => members fuel [] rest
    | text => scalar text

def elements : Nat → Text → Option (List Json × Text)
  | 0, _ => none
  | fuel + 1, text => do
    let (v, rest) ← value fuel text
    match skipGaps rest with
    | ']' :: rest => return ([v], rest)
    | ',' :: rest =>
      let (vs, rest) ← elements fuel (skipGaps rest)
      return (v :: vs, rest)
    | _ => none

/-- The fields of an object up to its closing brace, added to those before. -/
def members : Nat → List (String × Json) → Text → Option (Json × Text)
  | 0, _, _ => none
  | fuel + 1, fields, text =>
    match text with
    | '"' :: rest => do
      let (name, rest) ← stringBody (rest.length + 1) rest
      match skipGaps rest with
      | ':' :: rest =>
        let (v, rest) ← value fuel (skipGaps rest)
        let fields := putField fields (String.ofList name) v
        match skipGaps rest with
        | '}' :: rest => return (.obj fields, rest)
        | ',' :: rest => members fuel fields (skipGaps rest)
        | _ => none
      | _ => none
    | _ => none

end

def read? (text : Text) : Option Json :=
  match value (text.length + 1) (skipGaps text) with
  | some (v, rest) => if (skipGaps rest).isEmpty then some v else none
  | none => none

end DefinitionSite.Json
