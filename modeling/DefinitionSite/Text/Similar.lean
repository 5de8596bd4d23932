import DefinitionSite.Text.Basic

/-! How similar two texts are: how many of their characters lie in blocks that both have, when the
longest block is taken first and the parts before and after it are compared in turn. -/
namespace DefinitionSite.Text

def commonLength : Text → Text → Nat
  | a :: as, b :: bs => if a == b then commonLength as bs + 1 else 0
  | _, _ => 0

/-- A block that two texts have: where it starts in each of them, and its size. -/
structure Block where
  left : Nat
  right : Nat
  size : Nat
  deriving Repr, DecidableEq

/-- Every pair of starting points with the block there, by the first text and then the second. -/
def blocks (a b : Text) : List Block :=
  (List.range a.length).flatMap fun i =>
    (List.range b.length).map fun j => ⟨i, j, commonLength (a.drop i) (b.drop j)⟩

def longestBlock (a b : Text) : Block :=
  (blocks a b).foldl (fun best x => if best.size < x.size then x else best) ⟨0, 0, 0⟩

/-- How many characters lie in blocks that both texts have; `fuel` bounds the number of blocks. -/
def sharedWithin : Nat → Text → Text → Nat
  | 0, _, _ => 0
  | fuel + 1, a, b =>
    let block := longestBlock a b
    if block.size == 0 then 0
    else
      sharedWithin fuel (a.take block.left) (b.take block.right) + block.size +
        sharedWithin fuel (a.drop (block.left + block.size)) (b.drop (block.right + block.size))

def shared (a b : Text) : Nat := sharedWithin (a.length + 1) a b

structure Likeness where
  text : Text
  shared : Nat
  total : Nat
  deriving Repr, DecidableEq

namespace Likeness

def of (word text : Text) : Likeness := ⟨text, Text.shared text word, text.length + word.length⟩

def isClose (l : Likeness) : Bool := 3 * l.total ≤ 5 * (2 * l.shared)

/-- Whether one likeness comes before another: the greater first, and of equal ones the text that is
later in order. -/
def before (a b : Likeness) : Bool :=
  if a.shared * b.total == b.shared * a.total then
    !decide (a.text.map Char.toNat < b.text.map Char.toNat)
  else b.shared * a.total < a.shared * b.total

end Likeness

def closest (word : Text) (texts : List Text) : List Text :=
  (((texts.map (Likeness.of word)).filter Likeness.isClose).mergeSort Likeness.before
    |>.take 3).map (·.text)

end DefinitionSite.Text
