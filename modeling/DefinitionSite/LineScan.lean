import DefinitionSite.Catalog
import DefinitionSite.Match

/-! The scan that stands in when no search engine can run. It looks at one line at a time: the kinds
that fit on a line use the catalog, and the other two are judged by neighbouring lines. -/
namespace DefinitionSite.LineScan

open Regex

def onDataLine (identifier : Text) : Regex :=
  seqAll ([.set ⟨false, [.char '=', .char '|']⟩, Catalog.gaps] ++ identifier.map .char ++
    [Catalog.boundary])

def onContinuation (identifier : Text) : Regex :=
  seqAll ([.lineStart, Catalog.someGaps,
    Regex.times true 0 (some 1) (seqAll [.set ⟨false, [.char '=', .char '|']⟩, Catalog.gaps])] ++
    identifier.map .char ++ [Catalog.boundary])

def opensData (line : Text) : Bool :=
  line.startsWith (Text.of "data ") || line.startsWith (Text.of "data\t")

def isIndented (line : Text) : Bool := line.head?.any Text.isGap

/-- Whether a constructor may start the line: it opens with `=` or `|`, or the line before ends in
`=`. -/
def opensConstructor (previous line : Text) : Bool :=
  line.trimLeft.head?.any (fun c => c == '=' || c == '|') || previous.trimRight.endsWith ['=']

/-- Whether the scan is inside a data declaration after the line. -/
def inDataAfter (inData : Bool) (line : Text) : Bool :=
  opensData line || (inData && isIndented line)

def declaresConstructor (identifier : Text) (inData : Bool) (previous line : Text) : Bool :=
  if opensData line then (onDataLine identifier).occursIn line
  else
    inData && isIndented line && opensConstructor previous line &&
      (onContinuation identifier).occursIn line

/-- Whether the line is the identifier alone and the next one starts its type. -/
def startsSignature (identifier line : Text) (following : List Text) : Bool :=
  line.trimRight == identifier && following.head?.any fun next =>
    next.trimLeft.startsWith (Text.of "::")

def kindsOf (identifier : Text) (inData : Bool) (previous line : Text) (following : List Text) :
    List Kind :=
  (Kind.all.filter fun kind =>
    kind.isSingleLine && (Catalog.regex identifier kind).occursIn line) ++
    (if startsSignature identifier line following then [.signatureNextLine] else []) ++
    (if declaresConstructor identifier inData previous line then [.constructor] else [])

/-- The definitions in a list of lines, the first of which has the given index. -/
def scanLines (identifier : Text) (file : FileLabel) (index : Nat) (inData : Bool)
    (previous : Text) : List Text → List Match
  | [] => []
  | line :: rest =>
    (kindsOf identifier inData previous line rest).map (fun kind => ⟨kind, file, index, line⟩) ++
      scanLines identifier file (index + 1) (inDataAfter inData line) line rest

/-- Every line of a text that could define the identifier, in line order. -/
def scan (identifier : Text) (text : Text) (file : FileLabel) : List Match :=
  if text.isEmpty then [] else scanLines identifier file 0 false [] text.splitLines

end DefinitionSite.LineScan
