import DefinitionSite.Text.Basic

/-! Base64, read leniently: characters outside the alphabet do not count. -/
namespace DefinitionSite.Text

def base64Value? (c : Char) : Option Nat :=
  if 'A' ≤ c && c ≤ 'Z' then some (c.toNat - 65)
  else if 'a' ≤ c && c ≤ 'z' then some (c.toNat - 71)
  else if '0' ≤ c && c ≤ '9' then some (c.toNat + 4)
  else if c == '+' then some 62
  else if c == '/' then some 63
  else none

/-- The bytes of Base64 text. `held` is how many characters of the current group of four were read,
`bits` what the last of them left over, and `pads` how many padding characters followed them. A
group that is padded to its full length ends the text; one that is cut short is an error. -/
def base64From (held bits pads : Nat) : Text → Option (List UInt8)
  | [] => if held = 0 then some [] else none
  | '=' :: rest =>
    if 2 ≤ held && 4 ≤ held + (pads + 1) then some []
    else base64From held bits (if 2 ≤ held then pads + 1 else pads) rest
  | c :: rest =>
    match base64Value? c with
    | none => base64From held bits pads rest
    | some v =>
      match held with
      | 0 => base64From 1 v 0 rest
      | 1 => (base64From 2 (v % 16) 0 rest).map ((bits * 4 + v / 16).toUInt8 :: ·)
      | 2 => (base64From 3 (v % 4) 0 rest).map ((bits * 16 + v / 4).toUInt8 :: ·)
      | _ => (base64From 0 0 0 rest).map ((bits * 64 + v).toUInt8 :: ·)

def base64? (text : Text) : Option (List UInt8) :=
  if text.all (·.toNat < 128) then base64From 0 0 0 text else none

end DefinitionSite.Text
