import DefinitionSite.Text.Blank
import DefinitionSite.Text.Digit

/-! Numbers read from text: whole numbers and floating-point numbers, with blanks around them,
digits of any script and single underscores between digits. A whole number is read and written with
a bounded number of digits. -/
namespace DefinitionSite.Decimal

/-- The most digits a whole number may be written with. -/
def maxDigits : Nat := 4300

structure TooManyDigits where
  deriving Repr, DecidableEq

def isWritable (n : Int) : Bool := decide (n.natAbs < Nat.pow 10 maxDigits)

def writeInt (n : Int) : Except TooManyDigits String :=
  if isWritable n then .ok (toString n) else .error ⟨⟩

inductive NumeralFault where
  | malformed
  | tooLong (digits : Nat)
  deriving Repr, DecidableEq

/-- Whether a character may stand around a number: a blank other than the four ASCII separators. -/
def isMargin (c : Char) : Bool := Text.isBlank c && !(0x1C ≤ c.toNat && c.toNat ≤ 0x1F)

def trimmed (text : Text) : Text := Text.dropEndWhile isMargin (text.dropWhile isMargin)

/-- Digits of any script as ASCII digits. -/
def plainDigits (text : Text) : Text :=
  text.map fun c =>
    match Text.digitValue? c with
    | some d => Char.ofNat (48 + d)
    | none => c

/-- The text without its underscores, if each stands between two digits. -/
def dropUnderscores? (prev : Char) : Text → Option Text
  | [] => if prev == '_' then none else some []
  | c :: rest =>
    if c == '_' then if prev.isDigit then dropUnderscores? '_' rest else none
    else if prev == '_' && !c.isDigit then none
    else (dropUnderscores? c rest).map (c :: ·)

/-- A sign, if there is one: whether it is a minus, and the rest. -/
def sign : Text → Bool × Text
  | '-' :: rest => (true, rest)
  | '+' :: rest => (false, rest)
  | text => (false, text)

def natOf (digits : Text) : Nat := digits.foldl (fun n d => n * 10 + (d.toNat - 48)) 0

/-- So many ASCII digits, as a number, and the text after them. -/
def fixedDigits (width : Nat) (text : Text) : Option (Nat × Text) :=
  let digits := text.take width
  if digits.length == width && digits.all Char.isDigit then some (natOf digits, text.drop width)
  else none

/-- Reads a whole number. The digits that stand at its start are counted before it matters whether
anything follows them. -/
def readInt (text : Text) : Except NumeralFault Int :=
  let (negative, body) := sign (plainDigits (trimmed text))
  let isPart := fun (c : Char) => c.isDigit || c == '_'
  match dropUnderscores? ' ' (body.takeWhile isPart) with
  | none => .error .malformed
  | some digits =>
    if maxDigits < digits.length then .error (.tooLong digits.length)
    else if digits.isEmpty || !body.all isPart then .error .malformed
    else .ok (if negative then -(natOf digits : Int) else natOf digits)

/-- A decimal `mantissa * 10 ^ exponent`, whose mantissa has so many digits, rounded to the nearest
floating-point number. Decimals far outside the range are not computed. -/
def round (mantissa : Nat) (digits : Nat) (exponent : Int) : Float :=
  if mantissa == 0 then 0.0
  else if 400 < exponent + digits then 1.0 / 0.0
  else if exponent + digits < -400 then 0.0
  else Float.ofScientific mantissa (exponent < 0) exponent.natAbs

/-- An exponent and nothing after it. -/
def readExponent? : Text → Option Int
  | [] => some 0
  | c :: rest =>
    if c == 'e' || c == 'E' then
      let (negative, digits) := sign rest
      if digits.isEmpty || !digits.all Char.isDigit then none
      else some (if negative then -(natOf digits : Int) else natOf digits)
    else none

/-- Reads an unsigned decimal: digits with at most one point, then perhaps an exponent. -/
def readDecimal? (text : Text) : Option Float :=
  let whole := text.takeWhile Char.isDigit
  let rest := text.dropWhile Char.isDigit
  let (fraction, rest) :=
    match rest with
    | '.' :: rest => (rest.takeWhile Char.isDigit, rest.dropWhile Char.isDigit)
    | rest => ([], rest)
  if whole.isEmpty && fraction.isEmpty then none
  else
    (readExponent? rest).map fun e =>
      let digits := (whole ++ fraction).dropWhile (· == '0')
      round (natOf digits) digits.length (e - fraction.length)

def readFloat? (text : Text) : Option Float :=
  match dropUnderscores? ' ' (plainDigits (trimmed text)) with
  | none => none
  | some body =>
    let (negative, body) := sign body
    let lower := String.ofList (body.map Char.toLower)
    let size :=
      if lower == "inf" || lower == "infinity" then some (1.0 / 0.0)
      else if lower == "nan" then some (0.0 / 0.0)
      else readDecimal? body
    size.map fun x => if negative then -x else x

/-- The floating-point number nearest to a whole number, if it is finite. -/
def ofInt? (n : Int) : Option Float :=
  let x := Float.ofInt n
  if x.isInf then none else some x

end DefinitionSite.Decimal
