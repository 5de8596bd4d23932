import DefinitionSite.Regex.Basic

/-! Reading an expression from its text: the text is cut into tokens, and the tokens build the tree
on a stack of open groups. What is wrong with a text is reported where the first fault stands.

The syntax that is read is that of characters, escapes for characters and classes, sets, anchors of
lines, greedy and lazy repetitions and groups without names. Other syntax is no fault of the text,
and is told apart: positions such as word bounds, codes of characters, references, look-around,
flags, named and atomic groups, possessive repetitions. -/
namespace DefinitionSite.Regex

inductive ReadFault where
  | missingClose
  | unbalanced
  | unterminatedSet
  | nothingToRepeat
  | multipleRepeat
  | escapeAtEnd
  | badEscape (c : Char)
  | missingGroupName
  | unterminatedGroupName
  | unknownExtension (c : Text)
  | patternEnds
  | flagsNotFirst
  | minAboveMax
  | badSpan (lo hi : Text)
  | tooManyTimes
  | otherSyntax (piece : Text)
  deriving Repr, DecidableEq

structure ReadError where
  fault : ReadFault
  offset : Nat
  deriving Repr, DecidableEq

def ReadFault.message : ReadFault → String
  | .missingClose => "missing ), unterminated subpattern"
  | .unbalanced => "unbalanced parenthesis"
  | .unterminatedSet => "unterminated character set"
  | .nothingToRepeat => "nothing to repeat"
  | .multipleRepeat => "multiple repeat"
  | .escapeAtEnd => "bad escape (end of pattern)"
  | .badEscape c => "bad escape \\" ++ c.toString
  | .missingGroupName => "missing group name"
  | .unterminatedGroupName => "missing >, unterminated name"
  | .unknownExtension c => "unknown extension ?" ++ String.ofList c
  | .patternEnds => "unexpected end of pattern"
  | .flagsNotFirst => "global flags not at the start of the expression"
  | .minAboveMax => "min repeat greater than max repeat"
  | .badSpan lo hi => "bad character range " ++ String.ofList lo ++ "-" ++ String.ofList hi
  | .tooManyTimes => "the repetition number is too large"
  | .otherSyntax piece => "syntax that is not read: " ++ String.ofList piece

def ReadError.message (e : ReadError) : String :=
  e.fault.message ++ " at position " ++ toString e.offset

inductive Token where
  | char (c : Char)
  | set (s : CharSet)
  | lineStart
  | lineEnd
  | opening
  | closing
  | bar
  | times (greedy : Bool) (least : Nat) (most : Option Nat)
  | flags
  | fault (e : ReadError)
  deriving Repr, DecidableEq

def escaped? (c : Char) : Option SetItem :=
  match c with
  | 'w' => some .word
  | 'W' => some .notWord
  | 'd' => some .digit
  | 'D' => some .notDigit
  | 's' => some .blank
  | 'S' => some .notBlank
  | 'a' => some (.char '\x07')
  | 'f' => some (.char '\x0c')
  | 'n' => some (.char '\n')
  | 'r' => some (.char '\r')
  | 't' => some (.char '\t')
  | 'v' => some (.char '\x0b')
  | _ => if c.isAlphanum then none else some (.char c)

def escapeFault (c : Char) : ReadFault :=
  if (Text.of "AbBZxuUN0123456789").contains c then .otherSyntax ['\\', c] else .badEscape c

def numberOf (digits : Text) : Nat := digits.foldl (fun n d => n * 10 + (d.toNat - 48)) 0

/-- One member of a set, or one end of a span: what it is, how it was written, and what follows. -/
def setMember (offset : Nat) : Text → Except ReadError (SetItem × Text × Text)
  | [] => .error ⟨.unterminatedSet, offset⟩
  | ['\\'] => .error ⟨.escapeAtEnd, offset⟩
  | '\\' :: c :: rest =>
    if c = 'b' then .ok (.char '\x08', ['\\', c], rest)
    else
      match escaped? c with
      | some item => .ok (item, ['\\', c], rest)
      | none => .error ⟨escapeFault c, offset⟩
  | c :: rest => .ok (.char c, [c], rest)

/-- The members of a set up to its closing bracket. The set opens at `opened`; `fuel` bounds the
members by the length of the text. -/
def setMembers (opened : Nat) : Nat → Bool → Nat → Text → Except ReadError (List SetItem × Text)
  | 0, _, _, _ => .error ⟨.unterminatedSet, opened⟩
  | fuel + 1, first, offset, text =>
    match text with
    | [] => .error ⟨.unterminatedSet, opened⟩
    | ']' :: rest => if first then member fuel offset (']' :: rest) else .ok ([], rest)
    | text => member fuel offset text
where
  member (fuel offset : Nat) (text : Text) : Except ReadError (List SetItem × Text) := do
    match setMember offset text with
    | .error ⟨.unterminatedSet, _⟩ => .error ⟨.unterminatedSet, opened⟩
    | .error e => .error e
    | .ok (lo, loText, rest) =>
      match rest with
      | ['-'] => .error ⟨.unterminatedSet, opened⟩
      | '-' :: ']' :: rest => return ([lo, .char '-'], rest)
      | '-' :: rest =>
        match setMember (offset + loText.length + 1) rest with
        | .error ⟨.unterminatedSet, _⟩ => .error ⟨.unterminatedSet, opened⟩
        | .error e => .error e
        | .ok (hi, hiText, rest) =>
          let next := offset + loText.length + 1 + hiText.length
          match lo, hi with
          | .char a, .char b =>
            if b < a then .error ⟨.badSpan loText hiText, offset⟩
            else
              let (items, rest) ← setMembers opened fuel false next rest
              return (.span a b :: items, rest)
          | _, _ => .error ⟨.badSpan loText hiText, offset⟩
      | rest =>
        let (items, rest) ← setMembers opened fuel false (offset + loText.length) rest
        return (lo :: items, rest)

def readSet (opened : Nat) (text : Text) : Except ReadError (CharSet × Text) := do
  match text with
  | '^' :: rest =>
    let (items, rest) ← setMembers opened (rest.length + 1) true (opened + 2) rest
    return (⟨true, items⟩, rest)
  | text =>
    let (items, rest) ← setMembers opened (text.length + 1) true (opened + 1) text
    return (⟨false, items⟩, rest)

/-- A repetition count in braces, read after the opening brace: least, most and what follows. Other
text after a brace is no count. -/
def readCount (text : Text) : Option (Nat × Option Nat × Text) :=
  let lo := text.takeWhile Char.isDigit
  let rest := text.dropWhile Char.isDigit
  let least := numberOf lo
  match rest with
  | '}' :: rest => if lo.isEmpty then none else some (least, some least, rest)
  | ',' :: rest =>
    let hi := rest.takeWhile Char.isDigit
    match rest.dropWhile Char.isDigit with
    | '}' :: rest => some (least, if hi.isEmpty then none else some (numberOf hi), rest)
    | _ => none
  | _ => none

def countLimit : Nat := 4294967295

def lazily (least : Nat) (most : Option Nat) : Text → Token × Text
  | '?' :: rest => (.times false least most, rest)
  | rest => (.times true least most, rest)

/-- The first token of a text that starts with `c` at `offset`, and the text after it. A fault ends
the text. -/
def firstToken (offset : Nat) (c : Char) (rest : Text) : Token × Text :=
  match c with
  | '^' => (.lineStart, rest)
  | '$' => (.lineEnd, rest)
  | '|' => (.bar, rest)
  | ')' => (.closing, rest)
  | '.' => (.set ⟨true, [.char '\n']⟩, rest)
  | '*' => lazily 0 none rest
  | '+' => lazily 1 none rest
  | '?' => lazily 0 (some 1) rest
  | '{' =>
    match readCount rest with
    | none => (.char c, rest)
    | some (least, most, rest) =>
      if countLimit ≤ least || most.any (countLimit ≤ ·) then (.fault ⟨.tooManyTimes, offset⟩, [])
      else if most.any (· < least) then (.fault ⟨.minAboveMax, offset + 1⟩, [])
      else lazily least most rest
  | '[' =>
    match readSet offset rest with
    | .ok (s, rest) => (.set s, rest)
    | .error e => (.fault e, [])
  | '\\' =>
    match rest with
    | [] => (.fault ⟨.escapeAtEnd, offset⟩, [])
    | d :: rest =>
      match escaped? d with
      | some (.char e) => (.char e, rest)
      | some item => (.set ⟨false, [item]⟩, rest)
      | none => (.fault ⟨escapeFault d, offset⟩, [])
  | '(' =>
    match rest with
    | '?' :: ':' :: rest => (.opening, rest)
    | '?' :: 'm' :: ')' :: rest =>
      if offset = 0 then (.flags, rest) else (.fault ⟨.flagsNotFirst, offset⟩, [])
    | '?' :: 'P' :: '<' :: rest =>
      match rest.takeWhile (· != '>'), rest.dropWhile (· != '>') with
      | [], _ => (.fault ⟨.missingGroupName, offset + 4⟩, [])
      | _, _ :: _ => (.fault ⟨.otherSyntax (Text.of "(?P<"), offset⟩, [])
      | _, [] => (.fault ⟨.unterminatedGroupName, offset + 4⟩, [])
    | ['?'] => (.fault ⟨.patternEnds, offset + 2⟩, [])
    | '?' :: d :: _ =>
      if (Text.of "P#=!<(>-aiLmsux").contains d then
        (.fault ⟨.otherSyntax ['(', '?', d], offset⟩, [])
      else (.fault ⟨.unknownExtension [d], offset + 1⟩, [])
    | rest => (.opening, rest)
  | _ => (.char c, rest)

/-- The tokens of a text from an offset on, each with its own offset. A token that would not leave
a shorter text ends the list. -/
def tokens (offset : Nat) : Text → List (Nat × Token)
  | [] => []
  | c :: rest =>
    match firstToken offset c rest with
    | (token, after) =>
      (offset, token) ::
        if _h : after.length ≤ rest.length then
          tokens (offset + 1 + (rest.length - after.length)) after
        else []
termination_by text => text.length
decreasing_by simp; omega

/-- An item of a sequence: what a repetition behind it would repeat. -/
inductive Item where
  | plain (r : Regex)
  | anchor (r : Regex)
  | repeated (r : Regex)
  deriving Repr, DecidableEq

def Item.regex : Item → Regex
  | .plain r => r
  | .anchor r => r
  | .repeated r => r

/-- A group being read: where it opened, its finished branches and the items of the current branch,
latest first. -/
structure Group where
  opened : Nat
  branches : List Regex
  items : List Item
  deriving Repr, DecidableEq

def Group.branch (g : Group) : Regex := seqAll (g.items.reverse.map Item.regex)

def Group.regex (g : Group) : Regex := altAll ((g.branch :: g.branches).reverse)

def Group.push (g : Group) (item : Item) : Group := { g with items := item :: g.items }

/-- The group being read and those it stands in, innermost first. -/
abbrev Groups := Group × List Group

def Groups.read : Groups → Nat × Token → Except ReadError Groups
  | (g, outer), (_, .char c) => .ok (g.push (.plain (.char c)), outer)
  | (g, outer), (_, .set s) => .ok (g.push (.plain (.set s)), outer)
  | (g, outer), (_, .lineStart) => .ok (g.push (.anchor .lineStart), outer)
  | (g, outer), (_, .lineEnd) => .ok (g.push (.anchor .lineEnd), outer)
  | (g, outer), (offset, .opening) => .ok (⟨offset, [], []⟩, g :: outer)
  | (g, outer), (offset, .closing) =>
    match outer with
    | [] => .error ⟨.unbalanced, offset⟩
    | parent :: outer => .ok (parent.push (.plain g.regex), outer)
  | (g, outer), (_, .bar) => .ok ({ g with branches := g.branch :: g.branches, items := [] }, outer)
  | (g, outer), (offset, .times greedy least most) =>
    match g.items with
    | .plain r :: items =>
      .ok ({ g with items := .repeated (r.times greedy least most) :: items }, outer)
    | .repeated _ :: _ =>
      if greedy && least == 1 && most.isNone then .error ⟨.otherSyntax ['+'], offset⟩
      else .error ⟨.multipleRepeat, offset⟩
    | _ => .error ⟨.nothingToRepeat, offset⟩
  | gs, (_, .flags) => .ok gs
  | _, (_, .fault e) => .error e

def read (text : Text) : Except ReadError Regex := do
  let (g, outer) ← (tokens 0 text).foldlM Groups.read (⟨0, [], []⟩, [])
  match outer with
  | [] => return g.regex
  | _ :: _ => throw ⟨.missingClose, g.opened⟩

/-- What keeps a text from being compiled: it is refused for what is wrong with it, or the compiler
breaks down. -/
inductive CompileFault where
  | refused (why : String)
  | broken (why : String)
  deriving Repr, DecidableEq

/-- A compiler: what finds the matches of an expression, given by its text, in other texts. -/
abbrev Compiler := Text → Except CompileFault (Text → List Span)

def ReadFault.isRefusal : ReadFault → Bool
  | .tooManyTimes => false
  | .otherSyntax _ => false
  | _ => true

def compile : Compiler := fun text =>
  match read text with
  | .ok r => .ok r.findAll
  | .error e => .error (if e.fault.isRefusal then .refused e.message else .broken e.fault.message)

def isSpecial (c : Char) : Bool := (Text.of "()[]\x7b\x7d?*+-|^$\\.&~# \t\n\r\x0b\x0c").contains c

def escape (text : Text) : Text := text.flatMap fun c => if isSpecial c then ['\\', c] else [c]

end DefinitionSite.Regex
