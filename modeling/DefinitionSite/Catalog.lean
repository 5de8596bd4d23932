import DefinitionSite.Kind
import DefinitionSite.Regex.Reader

/-! The catalog of definition sites: for each kind, the expression that finds the definitions of an
identifier, as text for an external engine and as a tree. The texts use only what both engines read
alike: no look-around, multi-line mode, and `\r?\n` for line breaks. -/
namespace DefinitionSite.Catalog

open Regex

def gaps : Regex := .star true (.set ⟨false, [.char ' ', .char '\t']⟩)

def someGaps : Regex := Regex.times true 1 none (.set ⟨false, [.char ' ', .char '\t']⟩)

/-- A line break: a line feed, with or without a carriage return before it. -/
def lineBreak : List Regex := [Regex.times true 0 (some 1) (.char '\r'), .char '\n']

def inLine : Regex := .set ⟨true, [.char '\n']⟩

/-- The end of an identifier: a character that can continue no name, or the end of the line. -/
def boundary : Regex :=
  .alt (seqAll [.set ⟨true, [.word, .char '\'', .char '\n']⟩]) (seqAll [.lineEnd])

/-- The lines of a data declaration: the `data` line and the indented lines after it, as few as
lead to a match. -/
def dataBody : List Regex :=
  [.lineStart] ++ (Text.of "data").map .char ++
    [.set ⟨false, [.char ' ', .char '\t']⟩, .star false inLine,
      .star false (seqAll (lineBreak ++
        [.set ⟨false, [.char ' ', .char '\t']⟩, .star false inLine]))]

/-- The items of a declaration: a keyword at the start of a line, gaps, the identifier and its
boundary. -/
def declaration (keyword : String) (identifier : Text) : List Regex :=
  [.lineStart] ++ (Text.of keyword).map .char ++ [someGaps] ++ identifier.map .char ++ [boundary]

def family (keyword : String) (identifier : Text) : List Regex :=
  [.lineStart] ++ (Text.of keyword).map .char ++ [someGaps] ++ (Text.of "family").map .char ++
    [someGaps] ++ identifier.map .char ++ [boundary]

def items (identifier : Text) : Kind → List Regex
  | .signatureSameLine =>
    [.lineStart] ++ identifier.map .char ++ [gaps, .char ':', .char ':']
  | .signatureNextLine =>
    [.lineStart] ++ identifier.map .char ++ [gaps] ++ lineBreak ++ [gaps, .char ':', .char ':']
  | .assignment =>
    [.lineStart] ++ identifier.map .char ++ [gaps, .char '=',
      .alt (seqAll [.set ⟨true, [.char '=', .char '\n']⟩]) (seqAll [.lineEnd])]
  | .dataDecl => declaration "data" identifier
  | .typeDecl => declaration "type" identifier
  | .newtypeDecl => declaration "newtype" identifier
  | .classDecl =>
    [.lineStart] ++ (Text.of "class").map .char ++ [someGaps,
      Regex.times true 0 (some 1) (seqAll [.star true (.set ⟨true, [.char '\n', .char '=']⟩),
        .char '=', .char '>', gaps])] ++ identifier.map .char ++ [boundary]
  | .constructor =>
    dataBody ++ [.set ⟨false, [.char '=', .char '|']⟩, gaps,
      Regex.times true 0 (some 1) (seqAll (lineBreak ++ [someGaps]))] ++
      identifier.map .char ++ [boundary]
  | .typeFamily => family "type" identifier
  | .dataFamily => family "data" identifier
  | .patternSynonym =>
    [.lineStart] ++ (Text.of "pattern").map .char ++ [someGaps] ++ identifier.map .char ++
      [gaps, .char ':', .char ':']

def regex (identifier : Text) (kind : Kind) : Regex := seqAll (items identifier kind)

def boundaryText : String := "(?:[^\\w'\\n]|$)"

/-- The text around the identifier in the expression of a kind: what stands before it and what
stands after it. -/
def around : Kind → String × String
  | .signatureSameLine => ("^", "[ \\t]*::")
  | .signatureNextLine => ("^", "[ \\t]*\\r?\\n[ \\t]*::")
  | .assignment => ("^", "[ \\t]*=(?:[^=\\n]|$)")
  | .dataDecl => ("^data[ \\t]+", boundaryText)
  | .typeDecl => ("^type[ \\t]+", boundaryText)
  | .newtypeDecl => ("^newtype[ \\t]+", boundaryText)
  | .classDecl => ("^class[ \\t]+(?:[^\\n=]*=>[ \\t]*)?", boundaryText)
  | .constructor =>
    ("^data[ \\t][^\\n]*?(?:\\r?\\n[ \\t][^\\n]*?)*?[=|][ \\t]*(?:\\r?\\n[ \\t]+)?", boundaryText)
  | .typeFamily => ("^type[ \\t]+family[ \\t]+", boundaryText)
  | .dataFamily => ("^data[ \\t]+family[ \\t]+", boundaryText)
  | .patternSynonym => ("^pattern[ \\t]+", "[ \\t]*::")

/-- The text of the expression that finds the definitions of one kind, in multi-line mode. -/
def patternText (identifier : Text) (kind : Kind) : Text :=
  Text.of "(?m)" ++ Text.of (around kind).1 ++ escape identifier ++ Text.of (around kind).2

/-- Every kind with the text of its expression, in order of preference. -/
def patterns (identifier : Text) : List (Kind × Text) :=
  Kind.all.map fun kind => (kind, patternText identifier kind)

end DefinitionSite.Catalog
