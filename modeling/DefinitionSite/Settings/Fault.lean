import DefinitionSite.EngineChoice
import DefinitionSite.FileTree.Basic
import DefinitionSite.Toml.Document

/-! What can be wrong with a configuration file, and the words for it. -/
namespace DefinitionSite

inductive Overflow where
  | wholeToFloat
  | infinityToWhole
  deriving Repr, DecidableEq

def Overflow.message : Overflow → String
  | .wholeToFloat => "int too large to convert to float"
  | .infinityToWhole => "cannot convert float infinity to integer"

inductive SettingsFault where
  | unreadable (e : FileError)
  | document (f : Toml.ReadFault)
  | unknownEngine (e : UnknownEngine)
  /-- Settings were looked for in a value that holds nothing. -/
  | noMembers (typeName : String)
  | stringIndexed
  | arrayIndexed
  | floatText (s : String)
  | floatType (typeName : String)
  | wholeText (s : String)
  | wholeTooLong (digits : Nat)
  | unwritable (e : Decimal.TooManyDigits)
  | wholeType (typeName : String)
  | wholeOfNaN
  | noEntries (typeName : String)
  | noItems (typeName : String)
  | overflow (o : Overflow)

def digitLimitMessage (found : String) : String :=
  "Exceeds the limit (" ++ toString Decimal.maxDigits ++
    " digits) for integer string conversion" ++ found ++
    "; use sys.set_int_max_str_digits() to increase the limit"

def tooLongMessage (digits : Nat) : String :=
  digitLimitMessage (": value has " ++ toString digits ++ " digits")

def Decimal.TooManyDigits.message (_ : Decimal.TooManyDigits) : String := digitLimitMessage ""

def Toml.ReadFault.message : Toml.ReadFault → String
  | .notText => "<UnicodeDecodeError>"
  | .malformed => "<TOMLDecodeError>"
  | .numberTooLong digits => tooLongMessage digits

namespace SettingsFault

def message : SettingsFault → String
  | .unreadable e => e.message
  | .document f => f.message
  | .unknownEngine e => e.message
  | .noMembers typeName => "argument of type '" ++ typeName ++ "' is not iterable"
  | .stringIndexed => "string indices must be integers, not 'str'"
  | .arrayIndexed => "list indices must be integers or slices, not str"
  | .floatText s => "could not convert string to float: " ++ Text.quotedString s
  | .floatType typeName =>
    "float() argument must be a string or a real number, not '" ++ typeName ++ "'"
  | .wholeText s =>
    "invalid literal for int() with base 10: " ++ String.ofList ((Text.quoted s.toList).take 200)
  | .wholeTooLong digits => tooLongMessage digits
  | .unwritable e => e.message
  | .wholeType typeName =>
    "int() argument must be a string, a bytes-like object or a real number, not '" ++
      typeName ++ "'"
  | .wholeOfNaN => "cannot convert float NaN to integer"
  | .noEntries typeName => "'" ++ typeName ++ "' object has no attribute 'items'"
  | .noItems typeName => "'" ++ typeName ++ "' object is not iterable"
  | .overflow o => o.message

end SettingsFault
end DefinitionSite
