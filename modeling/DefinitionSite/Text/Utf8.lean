import DefinitionSite.Text.Basic

/-! Reading UTF-8 bytes that need not be valid. A byte string is cut into characters and maximal
invalid pieces; what becomes of an invalid piece is the reader's choice. -/
namespace DefinitionSite.Text

/-- A piece of a byte string: a character, or bytes that start none. -/
inductive Utf8Piece where
  | char (c : Char)
  | invalid (bytes : List UInt8)
  deriving Repr, DecidableEq

def isTail (b : UInt8) : Bool := 0x80 ≤ b && b ≤ 0xBF

/-- The range of the second byte of a character, by its first byte; it excludes overlong forms,
surrogates and points past the last plane. -/
def secondOk (first second : UInt8) : Bool :=
  if first == 0xE0 then 0xA0 ≤ second && second ≤ 0xBF
  else if first == 0xED then 0x80 ≤ second && second ≤ 0x9F
  else if first == 0xF0 then 0x90 ≤ second && second ≤ 0xBF
  else if first == 0xF4 then 0x80 ≤ second && second ≤ 0x8F
  else isTail second

def tailBits (b : UInt8) : Nat := b.toNat % 64

/-- The first piece of a byte string and the bytes after it. An invalid piece is the longest start
of a character that the bytes hold, or else one byte. -/
def firstPiece (a : UInt8) (rest : List UInt8) : Utf8Piece × List UInt8 :=
  if a < 0x80 then (.char (Char.ofNat a.toNat), rest)
  else if 0xC2 ≤ a && a ≤ 0xDF then
    match rest with
    | b :: rest₁ =>
      if isTail b then (.char (Char.ofNat (a.toNat % 32 * 64 + tailBits b)), rest₁)
      else (.invalid [a], rest)
    | [] => (.invalid [a], [])
  else if 0xE0 ≤ a && a ≤ 0xEF then
    match rest with
    | b :: rest₁ =>
      if secondOk a b then
        match rest₁ with
        | c :: rest₂ =>
          if isTail c then
            (.char (Char.ofNat (a.toNat % 16 * 4096 + tailBits b * 64 + tailBits c)), rest₂)
          else (.invalid [a, b], rest₁)
        | [] => (.invalid [a, b], [])
      else (.invalid [a], rest)
    | [] => (.invalid [a], [])
  else if 0xF0 ≤ a && a ≤ 0xF4 then
    match rest with
    | b :: rest₁ =>
      if secondOk a b then
        match rest₁ with
        | c :: rest₂ =>
          if isTail c then
            match rest₂ with
            | d :: rest₃ =>
              if isTail d then
                (.char (Char.ofNat (a.toNat % 8 * 262144 + tailBits b * 4096 + tailBits c * 64 +
                  tailBits d)), rest₃)
              else (.invalid [a, b, c], rest₂)
            | [] => (.invalid [a, b, c], [])
          else (.invalid [a, b], rest₁)
        | [] => (.invalid [a, b], [])
      else (.invalid [a], rest)
    | [] => (.invalid [a], [])
  else (.invalid [a], rest)

theorem firstPiece_length (a : UInt8) (rest : List UInt8) :
    (firstPiece a rest).2.length ≤ rest.length := by
  unfold firstPiece
  repeat' split
  all_goals simp_all <;> omega

def utf8Pieces : List UInt8 → List Utf8Piece
  | [] => []
  | a :: rest =>
    have := firstPiece_length a rest
    (firstPiece a rest).1 :: utf8Pieces (firstPiece a rest).2
termination_by bytes => bytes.length
decreasing_by simp; omega

def decodeDropping (bytes : List UInt8) : Text :=
  (utf8Pieces bytes).filterMap fun
    | .char c => some c
    | .invalid _ => none

def decodeReplacing (bytes : List UInt8) : Text :=
  (utf8Pieces bytes).map fun
    | .char c => c
    | .invalid _ => '\uFFFD'

def decode? (bytes : List UInt8) : Option Text :=
  (utf8Pieces bytes).mapM fun
    | .char c => some c
    | .invalid _ => none

/-- The code points of the bytes, a byte of an invalid piece standing as the point `0xDC00` plus
its value, where no character is. -/
def escapedPoints (bytes : List UInt8) : List Nat :=
  (utf8Pieces bytes).flatMap fun
    | .char c => [c.toNat]
    | .invalid bs => bs.map fun b => 0xDC00 + b.toNat

def encodeChar (c : Char) : List UInt8 :=
  let n := c.toNat
  if n < 0x80 then [n.toUInt8]
  else if n < 0x800 then [(0xC0 + n / 64).toUInt8, (0x80 + n % 64).toUInt8]
  else if n < 0x10000 then
    [(0xE0 + n / 4096).toUInt8, (0x80 + n / 64 % 64).toUInt8, (0x80 + n % 64).toUInt8]
  else
    [(0xF0 + n / 262144).toUInt8, (0x80 + n / 4096 % 64).toUInt8, (0x80 + n / 64 % 64).toUInt8,
      (0x80 + n % 64).toUInt8]

def encode (text : Text) : List UInt8 := text.flatMap encodeChar

end DefinitionSite.Text
