import DefinitionSite.Text.Blank
import DefinitionSite.Text.Digit
import DefinitionSite.Text.Word

/-! Regular expressions over lines of text, and what one matches: a backtracking search that hands
each way to match, best first, to the rest of the expression. -/
namespace DefinitionSite

inductive SetItem where
  | char (c : Char)
  | span (lo hi : Char)
  | word
  | notWord
  | digit
  | notDigit
  | blank
  | notBlank
  deriving Repr, DecidableEq

namespace SetItem

def covers (c : Char) : SetItem → Bool
  | .char d => c == d
  | .span lo hi => lo ≤ c && c ≤ hi
  | .word => Text.isWord c
  | .notWord => !Text.isWord c
  | .digit => (Text.digitValue? c).isSome
  | .notDigit => (Text.digitValue? c).isNone
  | .blank => Text.isBlank c
  | .notBlank => !Text.isBlank c

end SetItem

structure CharSet where
  negated : Bool
  items : List SetItem
  deriving Repr, DecidableEq

namespace CharSet

def has (s : CharSet) (c : Char) : Bool := s.items.any (·.covers c) != s.negated

end CharSet

/-- A regular expression; anchors are those of multi-line mode. -/
inductive Regex where
  | empty
  | char (c : Char)
  | set (s : CharSet)
  | lineStart
  | lineEnd
  | seq (a b : Regex)
  | alt (a b : Regex)
  | star (greedy : Bool) (a : Regex)
  deriving Repr, DecidableEq

/-- A place in a text: the character before it, how many characters are left, and those. -/
structure Cursor where
  prev : Option Char
  left : Nat
  rest : Text
  deriving Repr, DecidableEq

namespace Cursor

def start (text : Text) : Cursor := ⟨none, text.length, text⟩

def atLineStart (c : Cursor) : Bool := c.prev.all (· == '\n')

def atLineEnd (c : Cursor) : Bool := c.rest.head?.all (· == '\n')

def step? (ok : Char → Bool) (c : Cursor) : Option Cursor :=
  match c.rest with
  | [] => none
  | d :: rest => if ok d then some ⟨some d, c.left - 1, rest⟩ else none

end Cursor

namespace Regex

def seqAll : List Regex → Regex
  | [] => .empty
  | r :: rs => .seq r (seqAll rs)

def altAll : List Regex → Regex
  | [] => .empty
  | [r] => r
  | r :: rs => .alt r (altAll rs)

def literal (text : Text) : Regex := seqAll (text.map .char)

def opt (greedy : Bool) (r : Regex) : Regex := if greedy then .alt r .empty else .alt .empty r

def upTo (greedy : Bool) (r : Regex) : Nat → Regex
  | 0 => .empty
  | n + 1 => opt greedy (.seq r (upTo greedy r n))

/-- Between `least` and `most` times, or without an upper bound. -/
def times (greedy : Bool) (least : Nat) (most : Option Nat) (r : Regex) : Regex :=
  match least, most with
  | 0, none => .star greedy r
  | 0, some m => upTo greedy r m
  | n, none => .seq (seqAll (List.replicate n r)) (.star greedy r)
  | n, some m => .seq (seqAll (List.replicate n r)) (upTo greedy r (m - n))

/-- The ways to repeat a step any number of times, in order. A round that consumes nothing is the
last one. -/
def repeatFrom {α : Type} (step : Cursor → (Cursor → Option α) → Option α) (greedy : Bool)
    (c : Cursor) (next : Cursor → Option α) : Option α :=
  let more := fun (_ : Unit) =>
    step c fun e => if _h : e.left < c.left then repeatFrom step greedy e next else next c
  if greedy then
    match more () with
    | some found => some found
    | none => next c
  else
    match next c with
    | some found => some found
    | none => more ()
termination_by c.left

/-- Tries the ways in which an expression matches from a place, best first, until what follows
succeeds. -/
def run {α : Type} : Regex → Cursor → (Cursor → Option α) → Option α
  | .empty, c, next => next c
  | .char d, c, next => (c.step? (· == d)).bind next
  | .set s, c, next => (c.step? s.has).bind next
  | .lineStart, c, next => if c.atLineStart then next c else none
  | .lineEnd, c, next => if c.atLineEnd then next c else none
  | .seq a b, c, next => run a c fun e => run b e next
  | .alt a b, c, next =>
    match run a c next with
    | some found => some found
    | none => run b c next
  | .star greedy a, c, next => repeatFrom (run a) greedy c next

/-- Where the best match from a place ends; with `advance` it may not be empty. -/
def matchEnd? (r : Regex) (advance : Bool) (c : Cursor) : Option Cursor :=
  r.run c fun e => if advance && e.left == c.left then none else some e

/-- The first place at or after the given one where the expression matches, and where that match
ends. Only a match at the given place itself may be asked not to be empty. -/
def searchFrom (r : Regex) (advance : Bool) (prev : Option Char) (left : Nat) :
    Text → Option (Cursor × Cursor)
  | [] => (r.matchEnd? advance ⟨prev, left, []⟩).map fun e => (⟨prev, left, []⟩, e)
  | d :: rest =>
    match r.matchEnd? advance ⟨prev, left, d :: rest⟩ with
    | some e => some (⟨prev, left, d :: rest⟩, e)
    | none => searchFrom r false (some d) (left - 1) rest

def occursIn (r : Regex) (text : Text) : Bool :=
  (r.searchFrom false none text.length text).isSome

/-- The matches at and after a place, leftmost first and without overlap. A match may be empty, also
right behind another match, but not where an empty one was just found. -/
def matchesFrom (r : Regex) (advance : Bool) (c : Cursor) : List (Cursor × Cursor) :=
  match r.searchFrom advance c.prev c.left c.rest with
  | none => []
  | some (s, e) =>
    (s, e) ::
      if _h : e.left < c.left then matchesFrom r (s.left == e.left) e
      else if _h : advance = false ∧ e.left = c.left then matchesFrom r true e
      else []
termination_by (c.left, if advance then 0 else 1)
decreasing_by
  · exact Prod.Lex.left _ _ _h
  · obtain ⟨h₁, h₂⟩ := _h
    rw [h₂]
    exact Prod.Lex.right _ (by simp [h₁])

structure Span where
  start : Nat
  stop : Nat
  deriving Repr, DecidableEq

def findAll (r : Regex) (text : Text) : List Span :=
  (r.matchesFrom false (.start text)).map fun (s, e) =>
    ⟨text.length - s.left, text.length - e.left⟩

end Regex
end DefinitionSite
