import Mathlib
import DefinitionSite.Text.Raw

/-! Names and their code points. No byte is lost when bytes are cut into pieces, so the code points
of a name spell its bytes, and two names with the same code points are the same. -/
namespace DefinitionSite

namespace Text

/-- The bytes of a piece. -/
def Utf8Piece.bytes : Utf8Piece → List UInt8
  | .char c => encodeChar c
  | .invalid bytes => bytes

/-- The code points that a piece stands for. -/
def Utf8Piece.points : Utf8Piece → List Nat
  | .char c => [c.toNat]
  | .invalid bytes => bytes.map fun b => 0xDC00 + b.toNat

section Encoding

variable {a b c d : UInt8}

theorem isTail_iff : isTail b = true ↔ 128 ≤ b.toNat ∧ b.toNat ≤ 191 := by
  simp [isTail, UInt8.le_iff_toNat_le]

/-- The second byte keeps the character in range: it is long enough, no surrogate and no point past
the last plane. -/
theorem secondOk_bounds (h : secondOk a b = true) :
    (128 ≤ b.toNat ∧ b.toNat ≤ 191) ∧ (a.toNat = 224 → 160 ≤ b.toNat) ∧
      (a.toNat = 237 → b.toNat ≤ 159) ∧ (a.toNat = 240 → 144 ≤ b.toNat) ∧
      (a.toNat = 244 → b.toNat ≤ 143) := by
  simp only [secondOk, beq_iff_eq, ← UInt8.toNat_inj] at h
  split_ifs at h <;> simp_all [UInt8.le_iff_toNat_le, isTail_iff] <;> omega

theorem encodeChar_one (ha : a.toNat < 128) : encodeChar (Char.ofNat a.toNat) = [a] := by
  unfold encodeChar
  rw [Char.toNat_ofNat, if_pos (Or.inl (by omega))]
  simp [ha]

theorem encodeChar_two (ha : 194 ≤ a.toNat ∧ a.toNat ≤ 223) (hb : isTail b = true) :
    encodeChar (Char.ofNat (a.toNat % 32 * 64 + tailBits b)) = [a, b] := by
  have hb := isTail_iff.mp hb
  unfold encodeChar tailBits
  rw [Char.toNat_ofNat, if_pos (Or.inl (by omega))]
  simp only
  rw [if_neg (by omega), if_pos (by omega)]
  simp only [List.cons.injEq, and_true, ← UInt8.toNat_inj, Nat.toUInt8_eq, UInt8.toNat_ofNat']
  omega

theorem encodeChar_three (ha : 224 ≤ a.toNat ∧ a.toNat ≤ 239) (hb : secondOk a b = true)
    (hc : isTail c = true) :
    encodeChar (Char.ofNat (a.toNat % 16 * 4096 + tailBits b * 64 + tailBits c)) = [a, b, c] := by
  obtain ⟨hb, hlong, hsurrogate, -, -⟩ := secondOk_bounds hb
  have hc := isTail_iff.mp hc
  have hvalid : (a.toNat % 16 * 4096 + b.toNat % 64 * 64 + c.toNat % 64).isValidChar := by
    unfold Nat.isValidChar
    omega
  unfold encodeChar tailBits
  rw [Char.toNat_ofNat, if_pos hvalid]
  simp only
  rw [if_neg (by omega), if_neg (by omega), if_pos (by omega)]
  simp only [List.cons.injEq, and_true, ← UInt8.toNat_inj, Nat.toUInt8_eq, UInt8.toNat_ofNat']
  omega

theorem encodeChar_four (ha : 240 ≤ a.toNat ∧ a.toNat ≤ 244) (hb : secondOk a b = true)
    (hc : isTail c = true) (hd : isTail d = true) :
    encodeChar (Char.ofNat (a.toNat % 8 * 262144 + tailBits b * 4096 + tailBits c * 64 +
      tailBits d)) = [a, b, c, d] := by
  obtain ⟨hb, -, -, hlong, hlast⟩ := secondOk_bounds hb
  have hc := isTail_iff.mp hc
  have hd := isTail_iff.mp hd
  have hvalid : (a.toNat % 8 * 262144 + b.toNat % 64 * 4096 + c.toNat % 64 * 64 +
      d.toNat % 64).isValidChar := by
    unfold Nat.isValidChar
    omega
  unfold encodeChar tailBits
  rw [Char.toNat_ofNat, if_pos hvalid]
  simp only
  rw [if_neg (by omega), if_neg (by omega), if_neg (by omega)]
  simp only [List.cons.injEq, and_true, ← UInt8.toNat_inj, Nat.toUInt8_eq, UInt8.toNat_ofNat']
  omega

end Encoding

/-- The first piece takes some bytes and leaves the others. -/
theorem firstPiece_bytes (a : UInt8) (rest : List UInt8) :
    (firstPiece a rest).1.bytes ≠ [] ∧
      (firstPiece a rest).1.bytes ++ (firstPiece a rest).2 = a :: rest := by
  have hchar : ∀ {c : Char} {used left : List UInt8}, encodeChar c = used → used ≠ [] →
      used ++ left = a :: rest → encodeChar c ≠ [] ∧ encodeChar c ++ left = a :: rest := by
    rintro c _ left rfl hne heq
    exact ⟨hne, heq⟩
  simp only [firstPiece, UInt8.lt_iff_toNat_lt, UInt8.le_iff_toNat_le, Bool.and_eq_true,
    decide_eq_true_eq, UInt8.reduceToNat]
  split_ifs with h1 h2 h3 h4
  · exact hchar (encodeChar_one h1) (by simp) rfl
  · split
    · split_ifs with hb
      · exact hchar (encodeChar_two h2 hb) (by simp) rfl
      · simp [Utf8Piece.bytes]
    · simp [Utf8Piece.bytes]
  · split
    · split_ifs with hb
      · split
        · split_ifs with hc
          · exact hchar (encodeChar_three h3 hb hc) (by simp) rfl
          · simp [Utf8Piece.bytes]
        · simp [Utf8Piece.bytes]
      · simp [Utf8Piece.bytes]
    · simp [Utf8Piece.bytes]
  · split
    · split_ifs with hb
      · split
        · split_ifs with hc
          · split
            · split_ifs with hd
              · exact hchar (encodeChar_four h4 hb hc hd) (by simp) rfl
              · simp [Utf8Piece.bytes]
            · simp [Utf8Piece.bytes]
          · simp [Utf8Piece.bytes]
        · simp [Utf8Piece.bytes]
      · simp [Utf8Piece.bytes]
    · simp [Utf8Piece.bytes]
  · simp [Utf8Piece.bytes]

/-- The pieces of a byte string hold its bytes. -/
theorem flatMap_utf8Pieces (bytes : List UInt8) :
    (utf8Pieces bytes).flatMap Utf8Piece.bytes = bytes := by
  fun_induction utf8Pieces bytes with
  | case1 => rfl
  | case2 a rest _ ih => rw [List.flatMap_cons, ih, (firstPiece_bytes a rest).2]

theorem bytes_ne_nil {bytes : List UInt8} {piece : Utf8Piece} (h : piece ∈ utf8Pieces bytes) :
    piece.bytes ≠ [] := by
  fun_induction utf8Pieces bytes with
  | case1 => simp at h
  | case2 a rest _ ih =>
    rcases List.mem_cons.mp h with rfl | h
    · exact (firstPiece_bytes a rest).1
    · exact ih h

/-- Bytes that are no text have an invalid piece. -/
theorem exists_invalid_of_decode? {bytes : List UInt8} (h : decode? bytes = none) :
    ∃ piece, Utf8Piece.invalid piece ∈ utf8Pieces bytes := by
  unfold decode? at h
  generalize utf8Pieces bytes = pieces at h
  induction pieces with
  | nil => simp at h
  | cons piece pieces ih =>
    cases piece with
    | invalid piece => exact ⟨piece, List.mem_cons_self⟩
    | char c =>
      obtain ⟨piece, hpiece⟩ := ih (by
        rw [Option.eq_none_iff_forall_ne_some]
        simpa [List.mapM_cons] using h)
      exact ⟨piece, List.mem_cons_of_mem _ hpiece⟩

/-- The bytes that a code point stands for. -/
def bytesOfPoint (n : Nat) : List UInt8 :=
  if 0xDC00 ≤ n && n < 0xE000 then [(n - 0xDC00).toUInt8] else encodeChar (Char.ofNat n)

theorem not_surrogate (c : Char) : c.toNat < 0xD800 ∨ 0xDFFF < c.toNat := by
  have hvalid : c.toNat.isValidChar := c.valid
  unfold Nat.isValidChar at hvalid
  omega

theorem bytesOfPoint_char (c : Char) : bytesOfPoint c.toNat = encodeChar c := by
  have hplain := not_surrogate c
  have hrange : (decide (0xDC00 ≤ c.toNat) && decide (c.toNat < 0xE000)) = false := by
    simp only [Bool.and_eq_false_iff, decide_eq_false_iff_not]
    omega
  rw [bytesOfPoint, hrange, Char.ofNat_toNat]
  rfl

theorem bytesOfPoint_byte (b : UInt8) : bytesOfPoint (0xDC00 + b.toNat) = [b] := by
  have hlt := b.toNat_lt
  unfold bytesOfPoint
  rw [if_pos (by simp; omega)]
  simp

theorem flatMap_points (piece : Utf8Piece) : piece.points.flatMap bytesOfPoint = piece.bytes := by
  cases piece with
  | char c => simp [Utf8Piece.points, Utf8Piece.bytes, bytesOfPoint_char]
  | invalid bytes =>
    simp [Utf8Piece.points, Utf8Piece.bytes, List.flatMap_map, bytesOfPoint_byte]

end Text

namespace RawText
open Text

/-- A name that is either text or bytes that are none. -/
def Canonical : RawText → Prop
  | .text _ => True
  | .bytes b => decode? b = none

theorem points_bytes (b : List UInt8) :
    (RawText.bytes b).points = (utf8Pieces b).flatMap Utf8Piece.points := by
  unfold points escapedPoints
  congr 1

/-- The code points of a name spell its bytes. -/
theorem flatMap_bytesOfPoint (s : RawText) : s.points.flatMap bytesOfPoint = s.toBytes := by
  cases s with
  | text s =>
    simp only [points, toBytes, encode, List.flatMap_map]
    simp only [bytesOfPoint_char]
  | bytes b =>
    rw [points_bytes, List.flatMap_assoc]
    simp only [flatMap_points, flatMap_utf8Pieces]
    rfl

/-- A name that is no text has a code point that no character has. -/
theorem points_ne_of_decode? {b : List UInt8} (h : decode? b = none) (s : String) :
    (RawText.text s).points ≠ (RawText.bytes b).points := by
  intro heq
  obtain ⟨piece, hpiece⟩ := exists_invalid_of_decode? h
  obtain ⟨first, rest, rfl⟩ := List.exists_cons_of_ne_nil (bytes_ne_nil hpiece)
  have hmem : 0xDC00 + first.toNat ∈ (RawText.text s).points := by
    rw [heq, points_bytes]
    exact List.mem_flatMap.mpr ⟨_, hpiece, by simp [Utf8Piece.points]⟩
  obtain ⟨c, -, hc⟩ := List.mem_map.mp hmem
  have hplain := not_surrogate c
  have hlt := first.toNat_lt
  omega

/-- Names with the same code points are the same. -/
theorem points_injective {s t : RawText} (hs : s.Canonical) (ht : t.Canonical)
    (h : s.points = t.points) : s = t := by
  have hbytes : s.toBytes = t.toBytes := by
    rw [← flatMap_bytesOfPoint, ← flatMap_bytesOfPoint, h]
  cases s with
  | text s =>
    cases t with
    | text t =>
      have hinj : Function.Injective Char.toNat := fun a b hab => Char.toNat_inj.mp hab
      rw [String.toList_inj.mp (hinj.list_map h)]
    | bytes b => exact absurd h (points_ne_of_decode? ht s)
  | bytes a =>
    cases t with
    | text t => exact absurd h.symm (points_ne_of_decode? hs t)
    | bytes b => exact congrArg RawText.bytes hbytes

end RawText
end DefinitionSite
