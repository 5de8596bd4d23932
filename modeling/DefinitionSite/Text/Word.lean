import DefinitionSite.Text.Basic
import DefinitionSite.Text.WordTable

/-! Word characters, and the narrower class of characters a cursor selects. -/
namespace DefinitionSite.Text

def isWord (c : Char) : Bool := inSpans c.toNat wordSpans

def isNameChar (c : Char) : Bool := c.isAlphanum || c == '_' || c == '\''

end DefinitionSite.Text
