import DefinitionSite.Text.Basic

/-! File name patterns: `*` for any run of characters, `?` for one character, and sets in brackets,
which may be negated by `!` and hold spans. -/
namespace DefinitionSite

inductive GlobItem where
  | char (c : Char)
  | span (lo hi : Char)
  deriving Repr, DecidableEq

inductive GlobPiece where
  | anyRun
  | anyChar
  | char (c : Char)
  | oneOf (items : List GlobItem)
  | noneOf (items : List GlobItem)
  deriving Repr, DecidableEq

namespace Glob

def covers (c : Char) : GlobItem → Bool
  | .char d => c == d
  | .span lo hi => lo ≤ c && c ≤ hi

def hyphen? (skip : Nat) (text : Text) : Option Nat :=
  (text.drop skip).idxOf? '-' |>.map (· + skip)

/-- The chunks of a set's text between the hyphens that form spans. A hyphen forms a span from the
character before it to the one after it, so the next such hyphen is at least two characters on. -/
def chunks (skip : Nat) (text : Text) : List Text :=
  match hyphen? skip text with
  | none => [text]
  | some k => if k < text.length then text.take k :: chunks 2 (text.drop (k + 1)) else [text]
termination_by text.length
decreasing_by simp only [List.length_drop]; omega

/-- A hyphen at the end of a set forms no span and belongs to the chunk before it. -/
def closeLast : List Text → List Text
  | [] => []
  | [c] => [c]
  | [c, []] => [c ++ ['-']]
  | c :: rest => c :: closeLast rest

/-- A span whose end comes before its start is empty: it is dropped with both its ends. -/
def dropEmptySpan (c : Text) (rest : List Text) : List Text :=
  match rest with
  | [] => [c]
  | d :: ds =>
    match c.getLast?, d.head? with
    | some lo, some hi => if hi < lo then (c.dropLast ++ d.tail) :: ds else c :: d :: ds
    | _, _ => c :: d :: ds

/-- The members that chunks stand for: each hyphen between chunks spans from the last character
before it to the first one after it. -/
def membersOf : List Text → List GlobItem
  | [] => []
  | [c] => c.map .char
  | c :: rest =>
    match c.getLast?, rest.head?.bind List.head? with
    | some lo, some hi =>
      c.dropLast.map .char ++ .span lo hi :: (membersOf rest).drop 1
    | _, _ => c.map .char ++ membersOf rest

/-- The members of a set of which a `!` was taken off. A hyphen that followed it directly spans
nothing and is a member itself. -/
def negatedMembers : List Text → List GlobItem
  | [] :: c :: rest => .char '-' :: membersOf (c :: rest)
  | pieces => membersOf pieces

/-- The piece that a set's text stands for. A set without members matches nothing, a negated one
every character. -/
def setPiece (text : Text) : GlobPiece :=
  let pieces :=
    if text.contains '-' then
      (closeLast (chunks (if text.head? == some '!' then 2 else 1) text)).foldr dropEmptySpan []
    else [text]
  match pieces with
  | ('!' :: first) :: rest =>
    if first.isEmpty && rest.isEmpty then .anyChar else .noneOf (negatedMembers (first :: rest))
  | pieces => .oneOf (membersOf pieces)

/-- The text of a set up to its closing bracket, which may not come first. -/
def setText? (text : Text) : Option (Text × Text) :=
  let offset := match text with
    | '!' :: ']' :: _ => 2
    | '!' :: _ => 1
    | ']' :: _ => 1
    | _ => 0
  match (text.drop offset).idxOf? ']' with
  | none => none
  | some k => some (text.take (offset + k), text.drop (offset + k + 1))

/-- The pieces of a pattern. A bracket that is never closed stands for itself. -/
def pieces : Text → List GlobPiece
  | [] => []
  | '*' :: rest => .anyRun :: pieces rest
  | '?' :: rest => .anyChar :: pieces rest
  | '[' :: rest =>
    match setText? rest with
    | none => .char '[' :: pieces rest
    | some (text, after) =>
      setPiece text :: if _h : after.length ≤ rest.length then pieces after else []
  | c :: rest => .char c :: pieces rest
termination_by text => text.length

def suffixes : Text → List Text
  | [] => [[]]
  | c :: rest => (c :: rest) :: suffixes rest

def covered : List GlobPiece → Text → Bool
  | [], name => name.isEmpty
  | .anyRun :: ps, name => (suffixes name).any (covered ps)
  | .anyChar :: ps, name =>
    match name with
    | [] => false
    | _ :: rest => covered ps rest
  | .char c :: ps, name =>
    match name with
    | [] => false
    | d :: rest => d == c && covered ps rest
  | .oneOf items :: ps, name =>
    match name with
    | [] => false
    | d :: rest => items.any (covers d) && covered ps rest
  | .noneOf items :: ps, name =>
    match name with
    | [] => false
    | d :: rest => !items.any (covers d) && covered ps rest

end Glob

def globMatches (pattern name : String) : Bool :=
  Glob.covered (Glob.pieces pattern.toList) name.toList

end DefinitionSite
