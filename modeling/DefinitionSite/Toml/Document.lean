import DefinitionSite.Text.Utf8
import DefinitionSite.Toml.Scalar

/-! Reading a configuration file. It is read statement by statement; beside its tables a document
keeps marks that say which of them may still be opened or extended. -/
namespace DefinitionSite.Toml

def skipLines : Nat → Text → Except ReadFault Text
  | 0, text => .ok text
  | fuel + 1, text =>
    match text.dropWhile fun c => isGap c || c == '\n' with
    | '#' :: rest => do skipLines fuel (← skipComment ('#' :: rest))
    | rest => .ok rest

def entry? (key : String) (table : Table) : Option Value := (table.find? (·.1 == key)).map (·.2)

def putEntry (table : Table) (key : String) (v : Value) : Table :=
  if table.any (·.1 == key) then table.map fun e => if e.1 == key then (key, v) else e
  else table ++ [(key, v)]

/-- A table with the table below a list of keys changed; missing tables are made. With `lists`, an
array stands for its last element. There is no result if something on the way is no table. -/
def changeAt (lists : Bool) (change : Table → Option Table) : List String → Table → Option Table
  | [], table => change table
  | key :: keys, table =>
    match entry? key table with
    | none => (changeAt lists change keys []).map fun t => putEntry table key (.table t)
    | some (.table t) => (changeAt lists change keys t).map fun t => putEntry table key (.table t)
    | some (.array items) =>
      match lists, items.getLast? with
      | true, some (.table t) =>
        (changeAt lists change keys t).map fun t =>
          putEntry table key (.array (items.dropLast ++ [.table t]))
      | _, _ => none
    | some _ => none

def addEntry (key : String) (v : Value) (table : Table) : Option Table :=
  if table.any (·.1 == key) then none else some (table ++ [(key, v)])

def startsKey (short long : List String) : Bool := short.isPrefixOf long

mutual

def readValue : Nat → Text → Except ReadFault (Value × Text)
  | 0, _ => .error .malformed
  | fuel + 1, text =>
    match text with
    | '"' :: rest =>
      (readString ('"' :: rest)).map fun (cs, after) => (.string (String.ofList cs), after)
    | '\'' :: rest =>
      (readString ('\'' :: rest)).map fun (cs, after) => (.string (String.ofList cs), after)
    | 't' :: 'r' :: 'u' :: 'e' :: rest => .ok (.bool true, rest)
    | 'f' :: 'a' :: 'l' :: 's' :: 'e' :: rest => .ok (.bool false, rest)
    | '[' :: rest => do
      let rest ← skipLines (rest.length + 1) rest
      match rest with
      | ']' :: rest => return (.array [], rest)
      | rest =>
        let (vs, after) ← readItems fuel rest
        return (.array vs, after)
    | '{' :: rest =>
      match skipGaps rest with
      | '}' :: rest => .ok (.table [], rest)
      | rest => do
        let (t, after) ← readEntries fuel [] [] rest
        return (.table t, after)
    | text => readScalar text

def readItems : Nat → Text → Except ReadFault (List Value × Text)
  | 0, _ => .error .malformed
  | fuel + 1, text => do
    let (v, rest) ← readValue fuel text
    match (← skipLines (rest.length + 1) rest) with
    | ']' :: rest => return ([v], rest)
    | ',' :: rest =>
      match (← skipLines (rest.length + 1) rest) with
      | ']' :: rest => return ([v], rest)
      | rest =>
        let (vs, after) ← readItems fuel rest
        return (v :: vs, after)
    | _ => .error .malformed

/-- The entries of an inline table up to its closing brace; those under `frozen` keys are complete
values already. -/
def readEntries : Nat → List (List String) → Table → Text → Except ReadFault (Table × Text)
  | 0, _, _, _ => .error .malformed
  | fuel + 1, frozen, table, text => do
    let (key, v, rest) ← readPair fuel text
    if frozen.any (startsKey · key) then .error .malformed
    else
      match changeAt false (addEntry (key.getLastD "") v) key.dropLast table with
      | none => .error .malformed
      | some table =>
        let frozen :=
          match v with
          | .array _ | .table _ => key :: frozen
          | _ => frozen
        match skipGaps rest with
        | '}' :: rest => return (table, rest)
        | ',' :: rest => readEntries fuel frozen table (skipGaps rest)
        | _ => .error .malformed

def readPair : Nat → Text → Except ReadFault (List String × Value × Text)
  | 0, _ => .error .malformed
  | fuel + 1, text => do
    let (key, rest) ← readKey (text.length + 1) text
    match rest with
    | '=' :: rest =>
      let (v, after) ← readValue fuel (skipGaps rest)
      return (key, v, after)
    | _ => .error .malformed

end

structure Mark where
  key : List String
  /-- The value at the key and all below it are complete. -/
  frozen : Bool
  deriving Repr, DecidableEq

/-- A document being read: its tables, the header in force, the marks, and the marks that count from
the next header on. -/
structure Document where
  root : Table
  header : List String
  marks : List Mark
  pending : List (List String)

namespace Document

def isOpened (d : Document) (key : List String) : Bool :=
  d.marks.any fun m => !m.frozen && m.key == key

def isFrozen (d : Document) (key : List String) : Bool :=
  !key.isEmpty && d.marks.any fun m => m.frozen && startsKey m.key key

/-- The marks that were waiting count now. -/
def settle (d : Document) : Document :=
  { d with marks := d.marks ++ d.pending.map (⟨·, false⟩), pending := [] }

def openTable (d : Document) (key : List String) : Except ReadFault Document :=
  if d.isOpened key || d.isFrozen key then .error .malformed
  else
    match changeAt true some key d.root with
    | none => .error .malformed
    | some root => .ok { d with root, header := key, marks := ⟨key, false⟩ :: d.marks }

def appendTable (key : String) (table : Table) : Option Table :=
  match entry? key table with
  | none => some (table ++ [(key, .array [.table []])])
  | some (.array items) => some (putEntry table key (.array (items ++ [.table []])))
  | some _ => none

/-- Opens the next table of an array of tables; what was said about the one before is forgotten. -/
def openItem (d : Document) (key : List String) : Except ReadFault Document :=
  if d.isFrozen key then .error .malformed
  else
    match changeAt true (appendTable (key.getLastD "")) key.dropLast d.root with
    | none => .error .malformed
    | some root =>
      let marks := d.marks.filter fun m => !startsKey key m.key
      .ok { d with root, header := key, marks := ⟨key, false⟩ :: marks }

def innerKeys (header key : List String) : List (List String) :=
  ((List.range key.length).drop 1).map fun n => header ++ key.take n

def add (d : Document) (key : List String) (v : Value) : Except ReadFault Document :=
  let inner := innerKeys d.header key
  let parent := d.header ++ key.dropLast
  if inner.any d.isOpened || d.isFrozen parent then .error .malformed
  else
    match changeAt true (addEntry (key.getLastD "") v) parent d.root with
    | none => .error .malformed
    | some root =>
      let marks :=
        match v with
        | .array _ | .table _ => ⟨d.header ++ key, true⟩ :: d.marks
        | _ => d.marks
      .ok { d with root, marks, pending := d.pending ++ inner }

end Document

def readStatement (d : Document) (text : Text) : Except ReadFault (Document × Text) :=
  match text with
  | '[' :: '[' :: rest => do
    let d := d.settle
    let (key, rest) ← readKey (rest.length + 1) (skipGaps rest)
    let d ← d.openItem key
    match rest with
    | ']' :: ']' :: rest => return (d, rest)
    | _ => .error .malformed
  | '[' :: rest => do
    let d := d.settle
    let (key, rest) ← readKey (rest.length + 1) (skipGaps rest)
    let d ← d.openTable key
    match rest with
    | ']' :: rest => return (d, rest)
    | _ => .error .malformed
  | text => do
    let (key, v, rest) ← readPair (text.length + 2) text
    return (← d.add key v, rest)

/-- The statements of a document, a line each; `fuel` bounds the lines. -/
def readLines : Nat → Document → Text → Except ReadFault Document
  | 0, _, _ => .error .malformed
  | fuel + 1, d, text =>
    match skipGaps text with
    | [] => .ok d
    | '\n' :: rest => readLines fuel d rest
    | '#' :: rest => do
      match (← skipComment ('#' :: rest)) with
      | '\n' :: rest => readLines fuel d rest
      | _ => return d
    | c :: rest =>
      if isBare c || c == '"' || c == '\'' || c == '[' then do
        let (d, rest) ← readStatement d (c :: rest)
        match (← skipComment (skipGaps rest)) with
        | [] => return d
        | '\n' :: rest => readLines fuel d rest
        | _ => .error .malformed
      else .error .malformed

/-- Line breaks of two characters become line feeds; a lone carriage return stays. -/
def joinBreaks : Text → Text
  | [] => []
  | '\r' :: '\n' :: rest => '\n' :: joinBreaks rest
  | c :: rest => c :: joinBreaks rest

def read (text : Text) : Except ReadFault Table := do
  let text := joinBreaks text
  let d ← readLines (text.length + 1) ⟨[], [], [], []⟩ text
  return d.root

def readBytes (bytes : List UInt8) : Except ReadFault Table :=
  match Text.decode? bytes with
  | none => .error .notText
  | some text => read text

end DefinitionSite.Toml
