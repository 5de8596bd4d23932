/-! Text as a list of characters, and the few list operations on it that the library shares. -/
namespace DefinitionSite

abbrev Text := List Char

namespace Text

abbrev of (s : String) : Text := s.toList

/-- Whether a code point lies in one of the spans, which are inclusive and sorted. -/
def inSpans (n : Nat) : List (Nat × Nat) → Bool
  | [] => false
  | (lo, hi) :: rest => if n < lo then false else n ≤ hi || inSpans n rest

def cut? (sep : Char) : Text → Option (Text × Text)
  | [] => none
  | c :: rest => if c = sep then some ([], rest) else (cut? sep rest).map fun (a, b) => (c :: a, b)

def splitAt (sep : Char) : Text → List Text
  | [] => [[]]
  | c :: rest =>
    match splitAt sep rest with
    | [] => [[c]]
    | piece :: pieces => if c = sep then [] :: piece :: pieces else (c :: piece) :: pieces

def after? (c : Char) : Text → Option Text
  | d :: rest => if c = d then some rest else none
  | [] => none

def startsWith (text letters : Text) : Bool := letters.isPrefixOf text

def endsWith (text letters : Text) : Bool := letters.isSuffixOf text

def holds (letters : Text) : Text → Bool
  | [] => letters.isEmpty
  | c :: rest => letters.isPrefixOf (c :: rest) || holds letters rest

end Text
end DefinitionSite
