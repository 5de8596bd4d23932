import DefinitionSite.Text.Basic

/-! Blank characters, and trimming them from the ends of a text. -/
namespace DefinitionSite.Text

/-- Blank characters of every script: tab to carriage return, the four ASCII separators, the space,
next line, no-break space and the Unicode spaces and separators. -/
def blankSpans : List (Nat × Nat) := [
  (0x9, 0xD), (0x1C, 0x20), (0x85, 0x85), (0xA0, 0xA0), (0x1680, 0x1680), (0x2000, 0x200A),
  (0x2028, 0x2029), (0x202F, 0x202F), (0x205F, 0x205F), (0x3000, 0x3000)]

def isBlank (c : Char) : Bool := inSpans c.toNat blankSpans

def trimLeft (text : Text) : Text := text.dropWhile isBlank

def dropEndWhile (test : Char → Bool) : Text → Text
  | [] => []
  | c :: rest =>
    match dropEndWhile test rest with
    | [] => if test c then [] else [c]
    | kept => c :: kept

def trimRight (text : Text) : Text := text.dropEndWhile isBlank

def trim (text : Text) : Text := trimRight (trimLeft text)

def isGap (c : Char) : Bool := c == ' ' || c == '\t'

end DefinitionSite.Text
