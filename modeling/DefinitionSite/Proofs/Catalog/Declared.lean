import DefinitionSite.Catalog
import DefinitionSite.LineScan
import DefinitionSite.Proofs.Text.Lines
import DefinitionSite.Proofs.Text.Trim

/-! When a line defines an identifier, said of the lines of a text alone: how a definition on one
line begins and what may follow it, a signature that goes on in the next line, and a constructor in
the lines of a data declaration. -/
namespace DefinitionSite.Declared

/-- An identifier to look for: not empty, without blanks around it and on one line. -/
structure Proper (identifier : Text) : Prop where
  ne_nil : identifier ≠ []
  trimmed : Text.trim identifier = identifier
  one_line : '\n' ∉ identifier

/-- Spaces and tabs only. -/
def Gaps (text : Text) : Prop := ∀ c ∈ text, Text.isGap c = true

/-- The text behind a name does not continue the name. -/
def Boundary (rest : Text) : Prop := ∀ c ∈ rest.head?, Text.isWord c = false ∧ c ≠ '\''

/-- A class context: what implies the class. -/
def Context (text : Text) : Prop :=
  ∃ constraint gap, '=' ∉ constraint ∧ Gaps gap ∧ text = constraint ++ Text.of "=>" ++ gap

/-- A keyword, gaps and the identifier. -/
def Keyword (keyword : String) (identifier front : Text) : Prop :=
  ∃ gap, gap ≠ [] ∧ Gaps gap ∧ front = Text.of keyword ++ gap ++ identifier

/-- How the line of a definition begins, for the kinds that stand on one line. -/
def Front (identifier front : Text) : Kind → Prop
  | .signatureSameLine => ∃ gap, Gaps gap ∧ front = identifier ++ gap ++ Text.of "::"
  | .assignment => ∃ gap, Gaps gap ∧ front = identifier ++ gap ++ Text.of "="
  | .dataDecl => Keyword "data" identifier front
  | .typeDecl => Keyword "type" identifier front
  | .newtypeDecl => Keyword "newtype" identifier front
  | .classDecl => ∃ gap context, gap ≠ [] ∧ Gaps gap ∧ (context = [] ∨ Context context) ∧
      front = Text.of "class" ++ gap ++ context ++ identifier
  | .typeFamily => ∃ gap name, gap ≠ [] ∧ Gaps gap ∧ Keyword "family" identifier name ∧
      front = Text.of "type" ++ gap ++ name
  | .dataFamily => ∃ gap name, gap ≠ [] ∧ Gaps gap ∧ Keyword "family" identifier name ∧
      front = Text.of "data" ++ gap ++ name
  | .patternSynonym => ∃ gap name, Keyword "pattern" identifier name ∧ Gaps gap ∧
      front = name ++ gap ++ Text.of "::"
  | .signatureNextLine | .constructor => False

/-- What may follow the beginning of a definition. -/
def Closes (rest : Text) : Kind → Prop
  | .signatureSameLine | .patternSynonym => True
  | .assignment => rest.head? ≠ some '='
  | _ => Boundary rest

/-- The line is a definition of the kind. -/
def OnLine (identifier line : Text) (kind : Kind) : Prop :=
  ∃ front rest, line = front ++ rest ∧ Front identifier front kind ∧ Closes rest kind

/-- The line is the identifier alone, and the next one starts with its type. -/
def OverTwoLines (identifier line next : Text) : Prop :=
  (∃ gap, Gaps gap ∧ line = identifier ++ gap) ∧
    ∃ gap rest, Gaps gap ∧ next = gap ++ Text.of "::" ++ rest

/-- The sign before a constructor. -/
def Sign (c : Char) : Prop := c = '=' ∨ c = '|'

/-- The identifier stands on the line behind a sign. -/
def BehindSign (identifier line : Text) : Prop :=
  ∃ front sign gap rest, Sign sign ∧ Gaps gap ∧ Boundary rest ∧
    line = front ++ sign :: (gap ++ identifier ++ rest)

/-- The identifier starts the line behind gaps, and a sign ends the line before. -/
def BehindBreak (identifier previous line : Text) : Prop :=
  (∃ front sign gap, Sign sign ∧ Gaps gap ∧ previous = front ++ sign :: gap) ∧
    ∃ gap rest, gap ≠ [] ∧ Gaps gap ∧ Boundary rest ∧ line = gap ++ identifier ++ rest

/-- The line opens a data declaration. -/
def OpensData (line : Text) : Prop :=
  ∃ c rest, Text.isGap c = true ∧ line = Text.of "data" ++ c :: rest

/-- The line is indented by a space or a tab. -/
def Indented (line : Text) : Prop := ∃ c rest, Text.isGap c = true ∧ line = c :: rest

/-- A data declaration runs from one line to another: the first opens it, the others are
indented. -/
def InBlock (lines : List Text) (first i : Nat) : Prop :=
  first ≤ i ∧ (∃ line, lines[first]? = some line ∧ OpensData line) ∧
    ∀ j, first < j → j ≤ i → ∃ line, lines[j]? = some line ∧ Indented line

/-- The line with an index is a definition of the kind. -/
def Defines (identifier : Text) (lines : List Text) (i : Nat) : Kind → Prop
  | .signatureNextLine => ∃ line next, lines[i]? = some line ∧ lines[i + 1]? = some next ∧
      OverTwoLines identifier line next
  | .constructor => ∃ first line, InBlock lines first i ∧ lines[i]? = some line ∧
      (BehindSign identifier line ∨ first < i ∧ ∃ previous, lines[i - 1]? = some previous ∧
        BehindBreak identifier previous line)
  | kind => ∃ line, lines[i]? = some line ∧ OnLine identifier line kind

end DefinitionSite.Declared
