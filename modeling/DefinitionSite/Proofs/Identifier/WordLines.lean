import DefinitionSite.Proofs.Identifier.Words
import DefinitionSite.Proofs.Text.Lines

/-! Words and lines. No line break is a name character, so every word of a text is a word of one of
its lines: cutting a text between the words, or dropping a carriage return, loses none of them. -/
namespace DefinitionSite.Identifier

open Text (dropReturn isNameChar splitLines)

variable {text front back line rest : Text} {s e : Nat}

section Parts

theorem NameRun.append (h : NameRun front s e) (back : Text) : NameRun (front ++ back) s e where
  nonempty := h.nonempty
  chars := by
    intro i hs he
    obtain ⟨c, hc, hname⟩ := h.chars i hs he
    exact ⟨c, by rw [List.getElem?_append_left (List.getElem?_eq_some_iff.mp hc).1, hc], hname⟩

theorem NameRun.of_append (h : NameRun (front ++ back) s e) (he : e ≤ front.length) :
    NameRun front s e where
  nonempty := h.nonempty
  chars := by
    intro i hs hlt
    obtain ⟨c, hc, hname⟩ := h.chars i hs hlt
    rw [List.getElem?_append_left (by omega)] at hc
    exact ⟨c, hc, hname⟩

/-- A word that ends in the first part of a text is a word of that part. -/
theorem IsWord.of_append (h : IsWord (front ++ back) s e) (he : e ≤ front.length) :
    IsWord front s e where
  toNameRun := h.toNameRun.of_append he
  maximal s' e' hrun := h.maximal s' e' (hrun.append back)

theorem between_of_append (he : e ≤ front.length) :
    between (front ++ back) s e = between front s e := by
  rw [between, List.take_append_of_le_length he, between]

theorem NameRun.behind (h : NameRun back s e) (front : Text) :
    NameRun (front ++ back) (front.length + s) (front.length + e) where
  nonempty := Nat.add_lt_add_left h.nonempty _
  chars := by
    intro i hs he
    obtain ⟨c, hc, hname⟩ := h.chars (i - front.length) (by omega) (by omega)
    exact ⟨c, by rw [List.getElem?_append_right (by omega), hc], hname⟩

/-- A word that starts in the last part of a text is a word of that part. -/
theorem IsWord.of_behind (h : IsWord (front ++ back) (front.length + s) (front.length + e)) :
    IsWord back s e where
  nonempty := Nat.lt_of_add_lt_add_left h.nonempty
  chars := by
    intro i hs he
    obtain ⟨c, hc, hname⟩ := h.chars (front.length + i) (by omega) (by omega)
    rw [List.getElem?_append_right (by omega), Nat.add_sub_cancel_left] at hc
    exact ⟨c, hc, hname⟩
  maximal := by
    intro s' e' hrun hs he
    have hsame := h.maximal _ _ (hrun.behind front) (by omega) (by omega)
    omega

theorem between_behind :
    between (front ++ back) (front.length + s) (front.length + e) = between back s e := by
  rw [between, List.take_length_add_append, List.drop_length_add_append, between]

end Parts

section Lines

/-- A word of a text has no character in common with what is no name character. -/
theorem IsWord.apart (h : IsWord text s e) {i : Nat} {c : Char} (hc : text[i]? = some c)
    (hname : isNameChar c = false) : e ≤ i ∨ i < s := by
  by_contra hin
  obtain ⟨d, hd, hdname⟩ := h.chars i (by omega) (by omega)
  rw [Option.some.inj (hc.symm.trans hd), hdname] at hname
  cases hname

/-- A carriage return behind a line is part of no word. -/
theorem IsWord.dropReturn (h : IsWord line s e) :
    IsWord (dropReturn line) s e ∧ between (dropReturn line) s e = between line s e := by
  obtain ⟨cr, hcr, hline⟩ := Text.exists_eq_dropReturn_append line
  generalize Text.dropReturn line = kept at hline ⊢
  subst hline
  have hend : e ≤ kept.length := by
    have hle := h.le_length
    rcases hcr with rfl | rfl
    · simpa using hle
    · have hapart := h.apart (i := kept.length) (c := '\r') (by simp) (by decide)
      have hlt := h.nonempty
      simp only [List.length_append, List.length_singleton] at hle
      omega
  exact ⟨h.of_append hend, (between_of_append hend).symm⟩

/-- Every word of a text is a word of one of its lines. -/
theorem IsWord.exists_line (h : IsWord text s e) :
    ∃ (i : Nat) (current : Text) (s' e' : Nat), (splitLines text)[i]? = some current ∧
      IsWord current s' e' ∧ between current s' e' = between text s e := by
  induction text using Text.line_induction generalizing s e with
  | last line hline => exact ⟨0, line, s, e, by rw [Text.splitLines_last hline]; rfl, h, rfl⟩
  | more line rest hline ih =>
    rw [Text.splitLines_break hline]
    rcases h.apart (i := line.length) (c := '\n') (by simp) (by decide) with hend | hstart
    · obtain ⟨hword, hbetween⟩ := (h.of_append hend).dropReturn
      exact ⟨0, _, s, e, rfl, hword, hbetween.trans (between_of_append hend).symm⟩
    · have hlt := h.nonempty
      have hfront : (line ++ ['\n']).length = line.length + 1 := by simp
      have htext : line ++ '\n' :: rest = line ++ ['\n'] ++ rest := by simp
      obtain ⟨s, rfl⟩ : ∃ s', s = (line ++ ['\n']).length + s' := ⟨s - (line.length + 1), by omega⟩
      obtain ⟨e, rfl⟩ : ∃ e', e = (line ++ ['\n']).length + e' := ⟨e - (line.length + 1), by omega⟩
      rw [htext] at h ⊢
      rw [between_behind]
      have hword := h.of_behind
      have hrest : rest ≠ [] := by
        rintro rfl
        exact not_isWord_nil hword
      obtain ⟨i, current, s', e', hcurrent, hword', hbetween⟩ := ih hword
      exact ⟨i + 1, current, s', e', by rw [if_neg hrest]; exact hcurrent, hword', hbetween⟩

end Lines

end DefinitionSite.Identifier
