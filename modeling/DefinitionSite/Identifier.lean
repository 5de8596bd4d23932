import DefinitionSite.Text.Lines
import DefinitionSite.Text.Word

/-! The identifier under a cursor, and the value names that a text uses. -/
namespace DefinitionSite.Identifier

def keywords : List String :=
  ["as", "case", "class", "data", "default", "deriving", "do", "else", "family", "forall",
    "foreign", "hiding", "if", "import", "in", "infix", "infixl", "infixr", "instance", "let",
    "module", "newtype", "of", "pattern", "qualified", "then", "type", "where"]

def isNameStart (c : Char) : Bool := c.isAlpha || c == '_'

/-- The run of name characters around a place of a line. -/
def runAround (line : Text) (column : Nat) : Text :=
  ((line.take column).reverse.takeWhile Text.isNameChar).reverse ++
    (line.drop column).takeWhile Text.isNameChar

/-- The identifier at a column of a line; a column just past an identifier still selects it. -/
def inLine (line : Text) (column : Nat) : Option Text :=
  if line.length < column then none
  else
    match (runAround line column).dropWhile (!isNameStart ·) with
    | [] => none
    | word => some word

def at? (text : Text) (line column : Int) : Option Text :=
  if text.isEmpty || line < 0 || column < 0 then none
  else
    match (text.splitLines)[line.toNat]? with
    | none => none
    | some current => inLine current column.toNat

/-- The names that start with a small letter and do not continue a word, in text order. `inside`
says whether the character before is one of a name. -/
def valueNames (inside : Bool) : Text → List Text
  | [] => []
  | c :: rest =>
    if !inside && c.isLower then
      (c :: rest.takeWhile Text.isNameChar) ::
        valueNames true (rest.dropWhile Text.isNameChar)
    else valueNames (Text.isWord c || c == '\'') rest
termination_by text => text.length
decreasing_by
  · have := (List.dropWhile_suffix (p := Text.isNameChar) (l := rest)).length_le
    simp only [List.length_cons]
    omega
  · simp

def distinct (seen : List Text) : List Text → List Text
  | [] => []
  | x :: rest => if seen.contains x then distinct seen rest else x :: distinct (x :: seen) rest

def used (text : Text) (skipKeywords : Bool) : List Text :=
  distinct [] ((valueNames false text).filter fun name =>
    !(skipKeywords && keywords.contains (String.ofList name)))

end DefinitionSite.Identifier
