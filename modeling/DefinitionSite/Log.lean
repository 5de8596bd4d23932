import DefinitionSite.Text.Raw

/-! What the library has to say about its work: lines with a level, in the order they were said. -/
namespace DefinitionSite

inductive LogLevel where
  | debug
  | info
  | warning
  deriving Repr, DecidableEq

structure LogLine where
  level : LogLevel
  message : RawText
  deriving Repr, DecidableEq

abbrev Log := List LogLine

end DefinitionSite
