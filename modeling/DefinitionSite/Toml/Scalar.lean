import DefinitionSite.Decimal.Numeral
import DefinitionSite.Toml.Quoted

/-! The dates, times and numbers of a configuration file. -/
namespace DefinitionSite.Toml

/-- The fraction of a second: six digits count. -/
def fraction (text : Text) : Nat × Text :=
  match text with
  | '.' :: rest =>
    match rest.takeWhile Char.isDigit with
    | [] => (0, text)
    | digits =>
      let six := digits.take 6 ++ List.replicate (6 - digits.length) '0'
      (Decimal.natOf six, rest.dropWhile Char.isDigit)
  | text => (0, text)

def readClock? (text : Text) : Option (Clock × Text) := do
  let (hour, rest) ← Decimal.fixedDigits 2 text
  let (minute, rest) ← Decimal.fixedDigits 2 (← Text.after? ':' rest)
  let (second, rest) ← Decimal.fixedDigits 2 (← Text.after? ':' rest)
  if hour ≤ 23 && minute ≤ 59 && second ≤ 59 then
    let (micros, rest) := fraction rest
    return (⟨hour, minute, second, micros⟩, rest)
  else none

def readOffset (text : Text) : Option Int × Text :=
  match text with
  | c :: rest =>
    if c == 'Z' || c == 'z' then (some 0, rest)
    else if c == '+' || c == '-' then
      let zone : Option (Int × Text) := do
        let (hour, rest) ← Decimal.fixedDigits 2 rest
        let (minute, rest) ← Decimal.fixedDigits 2 (← Text.after? ':' rest)
        if hour ≤ 23 && minute ≤ 59 then
          let size : Int := (hour * 3600 + minute * 60) * 1000000
          return (if c == '-' then -size else size, rest)
        else none
      match zone with
      | some (offset, rest) => (some offset, rest)
      | none => (none, text)
    else (none, text)
  | [] => (none, text)

def readDate? (text : Text) : Option (Date × Text) := do
  let (year, rest) ← Decimal.fixedDigits 4 text
  let (month, rest) ← Decimal.fixedDigits 2 (← Text.after? '-' rest)
  let (day, rest) ← Decimal.fixedDigits 2 (← Text.after? '-' rest)
  if 1 ≤ month && month ≤ 12 && 1 ≤ day && day ≤ 31 then return (⟨year, month, day⟩, rest)
  else none

/-- A date, alone or with a time of day and a zone. The calendar has to have it. -/
def readMoment? (text : Text) : Option (Except ReadFault (Value × Text)) := do
  let (date, rest) ← readDate? text
  let clock : Option (Clock × Text) :=
    match rest with
    | c :: more => if c == 'T' || c == 't' || c == ' ' then readClock? more else none
    | [] => none
  if !date.isValid then return .error .malformed
  match clock with
  | none => return .ok (.date date, rest)
  | some (clock, rest) =>
    let (offset, rest) := readOffset rest
    return .ok (.moment ⟨date, clock, offset⟩, rest)

def spacedDigits (isDigit : Char → Bool) (text : Text) : Text × Text :=
  match text with
  | c :: '_' :: d :: rest =>
    if isDigit c && isDigit d then
      let (more, after) := spacedDigits isDigit (d :: rest)
      (c :: '_' :: more, after)
    else if isDigit c then ([c], '_' :: d :: rest)
    else ([], text)
  | c :: rest =>
    if isDigit c then
      let (more, after) := spacedDigits isDigit rest
      (c :: more, after)
    else ([], text)
  | [] => ([], text)

def valueIn (base : Nat) (digits : Text) : Nat :=
  (digits.filterMap Json.hexValue?).foldl (fun n d => n * base + d) 0

def readBased? (text : Text) : Option (Value × Text) :=
  let based := fun (base : Nat) (isDigit : Char → Bool) (rest : Text) =>
    match spacedDigits isDigit rest with
    | ([], _) => none
    | (digits, after) => some (Value.int (valueIn base digits), after)
  match text with
  | '0' :: 'x' :: rest => based 16 (fun c => (Json.hexValue? c).isSome) rest
  | '0' :: 'b' :: rest => based 2 (fun c => c == '0' || c == '1') rest
  | '0' :: 'o' :: rest => based 8 (fun c => '0' ≤ c && c ≤ '7') rest
  | _ => none

def pointDigits (text : Text) : Text × Text :=
  match text with
  | '.' :: rest =>
    match spacedDigits Char.isDigit rest with
    | ([], _) => ([], text)
    | (digits, after) => ('.' :: digits, after)
  | text => ([], text)

def exponentDigits (text : Text) : Text × Text :=
  match text with
  | e :: rest =>
    if e == 'e' || e == 'E' then
      let (mark, body) :=
        match rest with
        | '+' :: body => (['+'], body)
        | '-' :: body => (['-'], body)
        | body => ([], body)
      match spacedDigits Char.isDigit body with
      | ([], _) => ([], text)
      | (digits, after) => (e :: mark ++ digits, after)
    else ([], text)
  | [] => ([], text)

/-- The whole part of a decimal number: a lone zero, or digits that do not start with one. -/
def wholeDigits? (text : Text) : Option (Text × Text) :=
  match text with
  | '0' :: rest => some (['0'], rest)
  | text =>
    match spacedDigits Char.isDigit text with
    | ([], _) => none
    | (digits, rest) => some (digits, rest)

def readDecimal? (text : Text) : Option (Except ReadFault (Value × Text)) := do
  let (mark, body) :=
    match text with
    | '+' :: body => (['+'], body)
    | '-' :: body => (['-'], body)
    | body => ([], body)
  let (whole, rest) ← wholeDigits? body
  let (fraction, rest) := pointDigits rest
  let (exponent, rest) := exponentDigits rest
  if fraction.isEmpty && exponent.isEmpty then
    let digits := whole.filter (· != '_')
    if Decimal.maxDigits < digits.length then return .error (.numberTooLong digits.length)
    let n : Int := Decimal.natOf digits
    return .ok (.int (if mark == ['-'] then -n else n), rest)
  else
    match Decimal.readFloat? (mark ++ whole ++ fraction ++ exponent) with
    | some x => return .ok (.float x, rest)
    | none => return .error .malformed

def readWord? (text : Text) : Option (Value × Text) :=
  let sized := fun (width : Nat) =>
    (Decimal.readFloat? (text.take width)).map fun x => (Value.float x, text.drop width)
  if ["inf", "nan"].contains (String.ofList (text.take 3)) then sized 3
  else if ["-inf", "+inf", "-nan", "+nan"].contains (String.ofList (text.take 4)) then sized 4
  else none

def readScalar (text : Text) : Except ReadFault (Value × Text) :=
  match readMoment? text with
  | some reading => reading
  | none =>
    match readClock? text with
    | some (clock, rest) => .ok (.clock clock, rest)
    | none =>
      match readBased? text with
      | some reading => .ok reading
      | none =>
        match readDecimal? text with
        | some reading => reading
        | none =>
          match readWord? text with
          | some reading => .ok reading
          | none => .error .malformed

end DefinitionSite.Toml
