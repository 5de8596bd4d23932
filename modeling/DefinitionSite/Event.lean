import DefinitionSite.Label
import DefinitionSite.Regex.Basic
import DefinitionSite.Text.Lines

/-! Occurrences as a search reports them: the whole lines that a match touches, and the number of
the first. -/
namespace DefinitionSite

/-- A line number as reported: counted from 1, or a truth value that a record put in its place. -/
inductive LineNumber where
  | number (n : Int)
  | flag (b : Bool)
  deriving Repr, DecidableEq

def LineNumber.toInt : LineNumber → Int
  | .number n => n
  | .flag b => if b then 1 else 0

/-- The lines of an occurrence: text, or another value that a record put in their place. -/
inductive EventText where
  | text (t : Text)
  | value (v : Json)

/-- One occurrence. A search of a buffer names no file. -/
structure Event where
  path : Option FileLabel
  line : LineNumber
  text : EventText

namespace Event

/-- The offset after the last line feed before `stop`. -/
def lineStart (content : Text) (stop : Nat) : Nat :=
  stop - ((content.take stop).reverse.takeWhile (· != '\n')).length

/-- The offset of the first line feed at or after `start`, or the end. -/
def lineStop (content : Text) (start : Nat) : Nat :=
  start + ((content.drop start).takeWhile (· != '\n')).length

/-- The occurrence of a span: every line it touches. A span that ends on a line feed does not reach
into the next line. -/
def ofSpan (content : Text) (path : Option FileLabel) (span : Regex.Span) : Event :=
  let last :=
    if span.start < span.stop && content[span.stop - 1]? == some '\n' then span.stop - 1
    else span.stop
  let first := lineStart content span.start
  { path
    line := .number ((content.take span.start).count '\n' + 1)
    text := .text ((content.drop first).take (lineStop content last - first) ++ ['\n']) }

def ofSpans (spans : List Regex.Span) (content : Text) (path : Option FileLabel) : List Event :=
  spans.map (ofSpan content path)

def find (regex : Regex) (content : Text) (path : Option FileLabel) : List Event :=
  ofSpans (regex.findAll content) content path

end Event
end DefinitionSite
