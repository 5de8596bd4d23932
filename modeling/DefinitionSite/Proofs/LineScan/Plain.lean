import DefinitionSite.Proofs.LineScan.Agreement
import DefinitionSite.Text.Word

/-! Texts and names that raise no doubt about blanks: names of name characters, and texts in which
the only blanks are spaces, tabs and line breaks. On such a text the scan and the search see the
same lines. -/
namespace DefinitionSite.LineScan
open Declared

/-- A name made of name characters. -/
structure Name (identifier : Text) : Prop where
  ne_nil : identifier ≠ []
  chars : ∀ c ∈ identifier, Text.isNameChar c = true

/-- The only blanks of the text are spaces, tabs, line feeds, and carriage returns right before
line feeds. -/
structure PlainBlanks (text : Text) : Prop where
  blanks : ∀ c ∈ text, Text.isBlank c = true → c = ' ' ∨ c = '\t' ∨ c = '\n' ∨ c = '\r'
  returns : ∀ i < text.length, text[i]? = some '\r' → text[i + 1]? = some '\n'

theorem toNat_of_isNameChar {c : Char} (h : Text.isNameChar c = true) :
    48 ≤ c.toNat ∧ c.toNat ≤ 57 ∨ 65 ≤ c.toNat ∧ c.toNat ≤ 90 ∨ 97 ≤ c.toNat ∧ c.toNat ≤ 122 ∨
      c.toNat = 95 ∨ c.toNat = 39 := by
  unfold Text.isNameChar Char.isAlphanum Char.isAlpha Char.isUpper Char.isLower Char.isDigit at h
  simp only [Bool.or_eq_true, Bool.and_eq_true, decide_eq_true_eq, beq_iff_eq] at h
  rcases h with (((h | h) | h) | rfl) | rfl
  · exact Or.inr (Or.inl h)
  · exact Or.inr (Or.inr (Or.inl h))
  · exact Or.inl h
  · decide
  · decide

theorem exists_of_inSpans {n : Nat} {spans : List (Nat × Nat)} (h : Text.inSpans n spans = true) :
    ∃ span ∈ spans, span.1 ≤ n ∧ n ≤ span.2 := by
  induction spans with
  | nil => simp [Text.inSpans] at h
  | cons span spans ih =>
    obtain ⟨lo, hi⟩ := span
    rw [Text.inSpans] at h
    split at h
    · simp at h
    · rcases (Bool.or_eq_true _ _).mp h with h | h
      · exact ⟨(lo, hi), List.mem_cons_self, by omega, by simpa using h⟩
      · obtain ⟨span, hspan, hin⟩ := ih h
        exact ⟨span, List.mem_cons_of_mem _ hspan, hin⟩

theorem not_isBlank_of_isNameChar {c : Char} (h : Text.isNameChar c = true) :
    Text.isBlank c = false := by
  have hc := toNat_of_isNameChar h
  by_contra hblank
  obtain ⟨span, hspan, hlo, hhi⟩ := exists_of_inSpans (Bool.not_eq_false _ ▸ hblank)
  simp only [Text.blankSpans, List.mem_cons, List.not_mem_nil, or_false] at hspan
  rcases hspan with rfl | rfl | rfl | rfl | rfl | rfl | rfl | rfl | rfl | rfl <;> omega

theorem Name.proper {identifier : Text} (h : Name identifier) : Proper identifier where
  ne_nil := h.ne_nil
  trimmed := Text.trim_eq_self fun c hc => not_isBlank_of_isNameChar (h.chars c hc)
  one_line := by
    intro hmem
    exact absurd (h.chars _ hmem) (by decide)

/-- A name starts with a name character. -/
theorem Name.exists_cons {identifier : Text} (h : Name identifier) :
    ∃ c rest, identifier = c :: rest ∧ Text.isNameChar c = true := by
  obtain ⟨c, rest, rfl⟩ := List.exists_cons_of_ne_nil h.ne_nil
  exact ⟨c, rest, rfl, h.chars c List.mem_cons_self⟩

theorem PlainBlanks.head?_of_return {u v : Text} (h : PlainBlanks (u ++ '\r' :: v)) :
    v.head? = some '\n' := by
  have hnext := h.returns u.length (by simp) (by simp)
  rw [List.getElem?_append_right (by omega)] at hnext
  simpa [List.head?_eq_getElem?] using hnext

theorem PlainBlanks.of_append {front text : Text} (h : PlainBlanks (front ++ text)) :
    PlainBlanks text where
  blanks c hc := h.blanks c (List.mem_append_right _ hc)
  returns i hi hreturn := by
    have hnext := h.returns (front.length + i) (by simpa using hi)
    rw [List.getElem?_append_right (by omega), List.getElem?_append_right (by omega),
      Nat.add_sub_cancel_left, show front.length + i + 1 - front.length = i + 1 by omega] at hnext
    exact hnext hreturn

/-- The blanks of a line of a plain text are gaps. -/
theorem PlainBlanks.dropReturn {line rest : Text} (h : PlainBlanks (line ++ '\n' :: rest))
    (hline : '\n' ∉ line) : ∀ c ∈ Text.dropReturn line, Text.isBlank c = true →
      Text.isGap c = true := by
  intro c hc hblank
  obtain ⟨cr, hcr, hraw⟩ := Text.exists_eq_dropReturn_append line
  have hmem : c ∈ line := by
    rw [hraw]
    exact List.mem_append_left _ hc
  rcases h.blanks c (List.mem_append_left _ hmem) hblank with rfl | rfl | rfl | rfl
  · rfl
  · rfl
  · exact absurd hmem hline
  · obtain ⟨u, v, hdrop⟩ := List.append_of_mem hc
    have htext : line ++ '\n' :: rest = u ++ '\r' :: (v ++ cr ++ '\n' :: rest) := by
      rw [hraw, hdrop]
      simp
    have hnext := PlainBlanks.head?_of_return (htext ▸ h)
    cases v with
    | cons d v =>
      obtain rfl : d = '\n' := by simpa using hnext
      exact absurd (by rw [hraw, hdrop]; simp) hline
    | nil =>
      rcases hcr with rfl | rfl
      · rw [hdrop, List.append_nil] at hraw
        rw [hraw, Text.dropReturn_append_return] at hdrop
        simp at hdrop
      · simp at hnext

/-- Both ways to cut a plain text into lines agree, but for an empty last line; and the blanks of
a line are gaps. -/
theorem PlainBlanks.splitLines {text : Text} (h : PlainBlanks text) :
    (∃ tail, (tail = [] ∨ tail = [[]]) ∧ Text.physicalLines text = Text.splitLines text ++ tail) ∧
      ∀ line ∈ Text.splitLines text, ∀ c ∈ line, Text.isBlank c = true → Text.isGap c = true := by
  induction text using Text.line_induction with
  | last line hline =>
    have hreturn : '\r' ∉ line := by
      intro hmem
      obtain ⟨u, v, rfl⟩ := List.append_of_mem hmem
      have hnext := List.mem_of_mem_head? h.head?_of_return
      exact hline (by simp [hnext])
    have hkeep : Text.dropReturn line = line :=
      Text.dropReturn_of_getLast? fun hlast => hreturn (List.mem_of_getLast? hlast)
    rw [Text.physicalLines_last hline, Text.splitLines_last hline, hkeep]
    refine ⟨⟨[], Or.inl rfl, rfl⟩, ?_⟩
    simp only [List.mem_singleton, forall_eq]
    intro c hc hblank
    rcases h.blanks c hc hblank with rfl | rfl | rfl | rfl
    · rfl
    · rfl
    · exact absurd hc hline
    · exact absurd hc hreturn
  | more line rest hline ih =>
    have hfirst := h.dropReturn hline
    rw [Text.physicalLines_append hline]
    by_cases hrest : rest = []
    · subst hrest
      rw [Text.splitLines_append_break, Text.physicalLines_last hline]
      exact ⟨⟨[[]], Or.inr rfl, rfl⟩, by simpa using hfirst⟩
    · have htext : PlainBlanks ((line ++ ['\n']) ++ rest) := by simpa using h
      obtain ⟨⟨tail, htail, hlines⟩, hgaps⟩ := ih htext.of_append
      rw [Text.splitLines_append hline hrest, hlines]
      exact ⟨⟨tail, htail, rfl⟩, List.forall_mem_cons.mpr ⟨hfirst, hgaps⟩⟩

theorem PlainBlanks.getElem? {text line : Text} (h : PlainBlanks text) {i : Nat}
    (hget : (Text.splitLines text)[i]? = some line) :
    (Text.physicalLines text)[i]? = some line := by
  obtain ⟨⟨tail, -, hlines⟩, -⟩ := h.splitLines
  rw [hlines, List.getElem?_append_left (List.getElem?_eq_some_iff.mp hget).1, hget]

/-- Trimmed from a line of a plain text are gaps only. -/
theorem trimRight_eq_iff {line kept : Text}
    (hgaps : ∀ c ∈ line, Text.isBlank c = true → Text.isGap c = true)
    (hkept : ∀ c ∈ kept.getLast?, Text.isBlank c = false) :
    Text.trimRight line = kept ↔ ∃ gap, Gaps gap ∧ line = kept ++ gap := by
  rw [Text.trimRight, Text.dropEndWhile_eq_iff, and_iff_left hkept]
  constructor
  · rintro ⟨gap, rfl, hblank⟩
    exact ⟨gap, fun c hc => hgaps c (List.mem_append_right _ hc) (hblank c hc), rfl⟩
  · rintro ⟨gap, hgap, rfl⟩
    exact ⟨gap, rfl, fun c hc => Catalog.isBlank_of_isGap (hgap c hc)⟩

end DefinitionSite.LineScan
