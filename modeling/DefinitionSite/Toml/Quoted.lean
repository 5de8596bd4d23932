import DefinitionSite.Json.Reader
import DefinitionSite.Toml.Basic

/-! The strings and keys of a configuration file, and the blanks and comments between them. A reader
of a part gives the part and the text after it. -/
namespace DefinitionSite.Toml

inductive ReadFault where
  | notText
  | malformed
  | numberTooLong (digits : Nat)
  deriving Repr, DecidableEq

def isGap (c : Char) : Bool := c == ' ' || c == '\t'

def skipGaps (text : Text) : Text := text.dropWhile isGap

def isBare (c : Char) : Bool := c.isAlphanum || c == '-' || c == '_'

def isControl (c : Char) : Bool := (c.toNat < 32 && c != '\t') || c.toNat == 127

def isControlInBlock (c : Char) : Bool := isControl c && c != '\n'

/-- The text after a comment, if one starts there: where its line ends. -/
def skipComment (text : Text) : Except ReadFault Text :=
  match text with
  | '#' :: rest =>
    if (rest.takeWhile (· != '\n')).any isControl then .error .malformed
    else .ok (rest.dropWhile (· != '\n'))
  | text => .ok text

def literalBody : Text → Except ReadFault (Text × Text)
  | [] => .error .malformed
  | c :: rest =>
    if c == '\'' then .ok ([], rest)
    else if isControl c then .error .malformed
    else (literalBody rest).map fun (cs, after) => (c :: cs, after)

def literalBlock : Text → Except ReadFault (Text × Text)
  | [] => .error .malformed
  | '\'' :: '\'' :: '\'' :: rest => .ok ([], rest)
  | c :: rest =>
    if isControlInBlock c then .error .malformed
    else (literalBlock rest).map fun (cs, after) => (c :: cs, after)

def hexChar (width : Nat) (text : Text) : Except ReadFault (Char × Text) :=
  match (text.take width).mapM Json.hexValue? with
  | none => .error .malformed
  | some digits =>
    let n := digits.foldl (fun n d => n * 16 + d) 0
    if digits.length != width || 0x10FFFF < n || (0xD800 ≤ n && n ≤ 0xDFFF) then .error .malformed
    else .ok (Char.ofNat n, text.drop width)

def shortEscape? : Char → Option Char
  | 'b' => some '\x08'
  | 't' => some '\t'
  | 'n' => some '\n'
  | 'f' => some '\x0c'
  | 'r' => some '\r'
  | '"' => some '"'
  | '\\' => some '\\'
  | _ => none

/-- The text after a backslash at the end of a line: the line break and all blanks after it are
skipped. The text starts with the blank that followed the backslash. -/
def skipFold (text : Text) : Except ReadFault Text :=
  match skipGaps text with
  | [] => .ok []
  | '\n' :: rest => .ok (rest.dropWhile fun c => isGap c || c == '\n')
  | _ => .error .malformed

/-- A string with escapes, read after its quotes; a block ends at three quotes. -/
def basicBody (block : Bool) : Nat → Text → Except ReadFault (Text × Text)
  | 0, _ => .error .malformed
  | fuel + 1, text =>
    match text with
    | [] => .error .malformed
    | '"' :: rest =>
      if !block then .ok ([], rest)
      else
        match rest with
        | '"' :: '"' :: rest => .ok ([], rest)
        | rest => (basicBody block fuel rest).map fun (cs, after) => ('"' :: cs, after)
    | '\\' :: e :: rest =>
      if block && (isGap e || e == '\n') then do
        basicBody block fuel (← skipFold (e :: rest))
      else if e == 'u' || e == 'U' then do
        let (c, rest) ← hexChar (if e == 'u' then 4 else 8) rest
        let (cs, after) ← basicBody block fuel rest
        return (c :: cs, after)
      else
        match shortEscape? e with
        | none => .error .malformed
        | some c => (basicBody block fuel rest).map fun (cs, after) => (c :: cs, after)
    | c :: rest =>
      if c == '\\' || (if block then isControlInBlock c else isControl c) then .error .malformed
      else (basicBody block fuel rest).map fun (cs, after) => (c :: cs, after)

/-- Up to two more quotes that belong to a block before its end. -/
def extraQuotes (quote : Char) (body : Text) : Text → Text × Text
  | a :: b :: rest =>
    if a == quote then
      if b == quote then (body ++ [quote, quote], rest) else (body ++ [quote], b :: rest)
    else (body, a :: b :: rest)
  | [a] => if a == quote then (body ++ [quote], []) else (body, [a])
  | [] => (body, [])

def dropFeed : Text → Text
  | '\n' :: rest => rest
  | text => text

def readString (text : Text) : Except ReadFault (Text × Text) :=
  match text with
  | '"' :: '"' :: '"' :: rest => do
    let (body, after) ← basicBody true (rest.length + 1) (dropFeed rest)
    return extraQuotes '"' body after
  | '"' :: rest => basicBody false (rest.length + 1) rest
  | '\'' :: '\'' :: '\'' :: rest => do
    let (body, after) ← literalBlock (dropFeed rest)
    return extraQuotes '\'' body after
  | '\'' :: rest => literalBody rest
  | _ => .error .malformed

def keyPart (text : Text) : Except ReadFault (String × Text) :=
  match text with
  | [] => .error .malformed
  | '"' :: rest =>
    (basicBody false (rest.length + 1) rest).map fun (cs, after) => (String.ofList cs, after)
  | '\'' :: rest => (literalBody rest).map fun (cs, after) => (String.ofList cs, after)
  | c :: rest =>
    if isBare c then
      .ok (String.ofList (c :: rest.takeWhile isBare), rest.dropWhile isBare)
    else .error .malformed

/-- A key: parts with dots between them. The text after it has no blanks in front. -/
def readKey : Nat → Text → Except ReadFault (List String × Text)
  | 0, _ => .error .malformed
  | fuel + 1, text => do
    let (part, rest) ← keyPart text
    match skipGaps rest with
    | '.' :: rest =>
      let (parts, after) ← readKey fuel (skipGaps rest)
      return (part :: parts, after)
    | rest => return ([part], rest)

end DefinitionSite.Toml
