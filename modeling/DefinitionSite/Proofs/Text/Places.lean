import DefinitionSite.Proofs.Text.Lines

/-! The places of a text and the lines that hold them. A line feed belongs to the line that it ends,
so the line of a place has as many lines before it as there are line feeds before the place. -/
namespace DefinitionSite.Text

/-- The offset at which a line starts: behind the lines before it and their line feeds. -/
def lineOffset (text : Text) (i : Nat) : Nat :=
  (((splitAt '\n' text).take i).flatMap fun line => line ++ ['\n']).length

/-- The line holds the place: one of its characters stands there, or its line feed, or the end of
the text. -/
def LineHolds (text : Text) (i place : Nat) : Prop :=
  ∃ line, (splitAt '\n' text)[i]? = some line ∧
    lineOffset text i ≤ place ∧ place ≤ lineOffset text i + line.length

@[simp] theorem lineOffset_zero (text : Text) : lineOffset text 0 = 0 := rfl

theorem lineOffset_append {line : Text} (h : '\n' ∉ line) (rest : Text) (i : Nat) :
    lineOffset (line ++ '\n' :: rest) (i + 1) = line.length + 1 + lineOffset rest i := by
  simp only [lineOffset, splitAt_append h, List.take_succ_cons, List.flatMap_cons,
    List.length_append, List.length_singleton]

theorem lineHolds_last {line : Text} (h : '\n' ∉ line) {i place : Nat} :
    LineHolds line i place ↔ i = 0 ∧ place ≤ line.length := by
  unfold LineHolds
  rw [splitAt_of_not_mem h]
  cases i <;> simp

theorem lineHolds_append_zero {line : Text} (h : '\n' ∉ line) {rest : Text} {place : Nat} :
    LineHolds (line ++ '\n' :: rest) 0 place ↔ place ≤ line.length := by
  simp [LineHolds, splitAt_append h]

theorem lineHolds_append_succ {line : Text} (h : '\n' ∉ line) {rest : Text} {i place : Nat} :
    LineHolds (line ++ '\n' :: rest) (i + 1) place ↔
      line.length + 1 ≤ place ∧ LineHolds rest i (place - (line.length + 1)) := by
  unfold LineHolds
  rw [splitAt_append h, lineOffset_append h]
  simp only [List.getElem?_cons_succ]
  constructor
  · rintro ⟨piece, hpiece, hle, hlt⟩
    exact ⟨by omega, piece, hpiece, by omega, by omega⟩
  · rintro ⟨hle, piece, hpiece, hoffset, hlt⟩
    exact ⟨piece, hpiece, by omega, by omega⟩

theorem count_take_of_not_mem {line : Text} (h : '\n' ∉ line) (n : Nat) :
    (line.take n).count '\n' = 0 :=
  List.count_eq_zero.mpr fun hmem => h (List.mem_of_mem_take hmem)

/-- Each place is on one line, whose number is that of the line feeds before the place. -/
theorem lineHolds_iff {text : Text} {i place : Nat} (h : place ≤ text.length) :
    LineHolds text i place ↔ (text.take place).count '\n' = i := by
  induction text using line_induction generalizing i place with
  | last line hline =>
    rw [lineHolds_last hline, count_take_of_not_mem hline]
    omega
  | more line rest hline ih =>
    by_cases hle : place ≤ line.length
    · rw [List.take_append_of_le_length hle, count_take_of_not_mem hline]
      cases i with
      | zero => simpa [lineHolds_append_zero hline] using hle
      | succ i =>
        rw [lineHolds_append_succ hline]
        omega
    · obtain ⟨q, rfl⟩ : ∃ q, place = line.length + 1 + q :=
        ⟨place - (line.length + 1), by omega⟩
      have hq : q ≤ rest.length := by
        simp only [List.length_append, List.length_cons] at h
        omega
      have htake : (line ++ '\n' :: rest).take (line.length + 1 + q) =
          line ++ '\n' :: rest.take q := by
        rw [Nat.add_assoc, List.take_length_add_append, Nat.add_comm 1 q, List.take_succ_cons]
      have hcount : (line ++ '\n' :: rest.take q).count '\n' = (rest.take q).count '\n' + 1 := by
        simp [List.count_eq_zero.mpr hline]
      rw [htake, hcount]
      cases i with
      | zero =>
        rw [lineHolds_append_zero hline]
        omega
      | succ i =>
        rw [lineHolds_append_succ hline, Nat.add_sub_cancel_left, ih hq]
        omega

end DefinitionSite.Text
