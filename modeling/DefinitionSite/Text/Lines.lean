import DefinitionSite.Text.Basic

/-! Three ways in which a text falls into lines. `splitLines` knows the two physical line breaks of
a source file, `recordLines` every character that may end a line of a program's output, and
`normalizeBreaks` is what reading a file as text does to its line breaks. -/
namespace DefinitionSite.Text

def dropReturn (text : Text) : Text :=
  if text.endsWith ['\r'] then text.dropLast else text

def dropBreak (text : Text) : Text :=
  if text.endsWith ['\n'] then dropReturn text.dropLast else text

/-- The pieces between line breaks, a line break being `\n` or `\r\n`. -/
def breakLines : Text → List Text
  | [] => [[]]
  | '\r' :: '\n' :: rest => [] :: breakLines rest
  | '\n' :: rest => [] :: breakLines rest
  | c :: rest =>
    match breakLines rest with
    | [] => [[c]]
    | line :: lines => (c :: line) :: lines

/-- The physical lines of a span, one line break at its end not counting. -/
def splitLines (text : Text) : List Text := breakLines (dropBreak text)

/-- The characters that end a line of output, besides `\r\n`. -/
def endsRecord (c : Char) : Bool :=
  c == '\n' || c == '\r' || c == '\x0b' || c == '\x0c' || c == '\x1c' || c == '\x1d' ||
    c == '\x1e' || c == '\u0085' || c == '\u2028' || c == '\u2029'

/-- The lines of a program's output; text after the last line end is a line unless it is empty. -/
def recordLines : Text → List Text
  | [] => []
  | '\r' :: '\n' :: rest => [] :: recordLines rest
  | c :: rest =>
    if endsRecord c then [] :: recordLines rest
    else
      match recordLines rest with
      | [] => [[c]]
      | line :: lines => (c :: line) :: lines

/-- Every line break becomes a line feed: `\r\n` and a lone `\r` alike. -/
def normalizeBreaks : Text → Text
  | [] => []
  | '\r' :: '\n' :: rest => '\n' :: normalizeBreaks rest
  | '\r' :: rest => '\n' :: normalizeBreaks rest
  | c :: rest => c :: normalizeBreaks rest

end DefinitionSite.Text
