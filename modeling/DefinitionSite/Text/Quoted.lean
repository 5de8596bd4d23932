import DefinitionSite.Text.Basic
import DefinitionSite.Text.PrintableTable

/-! Texts quoted in messages: in single quotes, or in double quotes where that saves escaping, with
every character that is not printable escaped. -/
namespace DefinitionSite.Text

def isPrintable (c : Char) : Bool := inSpans c.toNat printableSpans

def hexDigit (n : Nat) : Char := (of "0123456789abcdef").getD n '0'

def hexDigits : Nat → Nat → Text
  | 0, _ => []
  | width + 1, n => hexDigits width (n / 16) ++ [hexDigit (n % 16)]

/-- The shortest of the three numbered escapes that holds the character. -/
def numberedEscape (c : Char) : Text :=
  if c.toNat < 0x100 then of "\\x" ++ hexDigits 2 c.toNat
  else if c.toNat < 0x10000 then of "\\u" ++ hexDigits 4 c.toNat
  else of "\\U" ++ hexDigits 8 c.toNat

def quotedChar (quote c : Char) : Text :=
  if c == quote || c == '\\' then ['\\', c]
  else if c == '\n' then of "\\n"
  else if c == '\r' then of "\\r"
  else if c == '\t' then of "\\t"
  else if isPrintable c then [c]
  else numberedEscape c

/-- The quote for a text: single, unless the text holds single quotes and no double ones. -/
def quoteFor (text : Text) : Char :=
  if text.contains '\'' && !text.contains '"' then '"' else '\''

def quoted (text : Text) : Text :=
  let quote := quoteFor text
  [quote] ++ text.flatMap (quotedChar quote) ++ [quote]

def quotedString (s : String) : String := String.ofList (quoted s.toList)

end DefinitionSite.Text
