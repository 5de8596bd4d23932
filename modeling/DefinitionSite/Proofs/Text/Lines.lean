import Mathlib.Data.List.Basic
import Mathlib.Tactic.Common
import DefinitionSite.Text.Lines
import DefinitionSite.Proofs.Regex.Spelling

/-! The lines of a text: its pieces between line feeds, without one carriage return at their end.
Every other way to cut a text into lines is compared with this one, by an induction that takes off
one line at a time. -/
namespace DefinitionSite.Text
open Regex (StartsLine)

/-- The lines of a text: split at line feeds, one carriage return dropped from the end of each. -/
def physicalLines (text : Text) : List Text := (splitAt '\n' text).map dropReturn

theorem splitAt_ne_nil (sep : Char) (text : Text) : splitAt sep text ≠ [] := by
  induction text with
  | nil => simp [splitAt]
  | cons c text ih =>
    rw [splitAt]
    cases h : splitAt sep text with
    | nil => exact absurd h ih
    | cons piece pieces =>
      by_cases hc : c = sep <;> simp [hc]

theorem splitAt_of_not_mem {sep : Char} {line : Text} (h : sep ∉ line) :
    splitAt sep line = [line] := by
  induction line with
  | nil => rfl
  | cons c line ih =>
    obtain ⟨hc, hline⟩ : sep ≠ c ∧ sep ∉ line := by simpa using h
    simp [splitAt, ih hline, Ne.symm hc]

theorem splitAt_append {sep : Char} {line : Text} (h : sep ∉ line) (rest : Text) :
    splitAt sep (line ++ sep :: rest) = line :: splitAt sep rest := by
  induction line with
  | nil =>
    cases hs : splitAt sep rest with
    | nil => exact absurd hs (splitAt_ne_nil sep rest)
    | cons piece pieces => simp [splitAt, hs]
  | cons c line ih =>
    obtain ⟨hc, hline⟩ : sep ≠ c ∧ sep ∉ line := by simpa using h
    simp [splitAt, ih hline, Ne.symm hc]

theorem not_mem_of_mem_splitAt {sep : Char} {text piece : Text}
    (h : piece ∈ splitAt sep text) : sep ∉ piece := by
  induction text generalizing piece with
  | nil =>
    obtain rfl : piece = [] := by simpa [splitAt] using h
    exact List.not_mem_nil
  | cons c text ih =>
    rw [splitAt] at h
    cases hs : splitAt sep text with
    | nil => exact absurd hs (splitAt_ne_nil sep text)
    | cons first pieces =>
      have hfirst : sep ∉ first := ih (by simp [hs])
      have hmore : ∀ p ∈ pieces, sep ∉ p := fun p hp => ih (by simp [hs, hp])
      simp only [hs] at h
      split at h
      · rcases List.mem_cons.mp h with rfl | h
        · exact List.not_mem_nil
        · exact ih (hs ▸ h)
      · rename_i hc
        rcases List.mem_cons.mp h with rfl | h
        · simpa [Ne.symm hc] using hfirst
        · exact hmore piece h

theorem splitAt_intercalate {sep : Char} {pieces : List Text} (hne : pieces ≠ [])
    (h : ∀ piece ∈ pieces, sep ∉ piece) :
    splitAt sep (List.intercalate [sep] pieces) = pieces := by
  induction pieces with
  | nil => exact absurd rfl hne
  | cons piece pieces ih =>
    obtain ⟨hpiece, hrest⟩ := List.forall_mem_cons.mp h
    cases pieces with
    | nil => simpa [List.intercalate] using splitAt_of_not_mem hpiece
    | cons next pieces =>
      have hjoin : List.intercalate [sep] (piece :: next :: pieces) =
          piece ++ sep :: List.intercalate [sep] (next :: pieces) := by
        simp [List.intercalate, List.intersperse]
      rw [hjoin, splitAt_append hpiece, ih (by simp) hrest]

/-- A text is its last line, or a line, a line feed and the rest. -/
theorem line_induction {P : Text → Prop} (last : ∀ line, '\n' ∉ line → P line)
    (more : ∀ line rest, '\n' ∉ line → P rest → P (line ++ '\n' :: rest)) (text : Text) :
    P text := by
  induction hn : text.length using Nat.strongRecOn generalizing text with
  | ind n ih =>
    by_cases h : '\n' ∈ text
    · obtain ⟨line, rest, rfl, hline⟩ := List.eq_append_cons_of_mem h
      refine more line rest hline (ih rest.length ?_ rest rfl)
      simp only [← hn, List.length_append, List.length_cons]
      omega
    · exact last text h

theorem physicalLines_last {line : Text} (h : '\n' ∉ line) :
    physicalLines line = [dropReturn line] := by
  simp [physicalLines, splitAt_of_not_mem h]

theorem physicalLines_append {line : Text} (h : '\n' ∉ line) (rest : Text) :
    physicalLines (line ++ '\n' :: rest) = dropReturn line :: physicalLines rest := by
  simp [physicalLines, splitAt_append h]

theorem length_splitAt (text : Text) : (splitAt '\n' text).length = text.count '\n' + 1 := by
  induction text using line_induction with
  | last line h => simp [splitAt_of_not_mem h, List.count_eq_zero.mpr h]
  | more line rest h ih => simp [splitAt_append h, ih, List.count_eq_zero.mpr h]

theorem length_physicalLines (text : Text) :
    (physicalLines text).length = text.count '\n' + 1 := by
  rw [physicalLines, List.length_map, length_splitAt]

/-- Text behind the end of a line does not touch the pieces before. -/
theorem exists_splitAt_append {tail : Text} (h : Regex.EndsLine tail) (text : Text) :
    ∃ more, splitAt '\n' (text ++ tail) = splitAt '\n' text ++ more := by
  cases tail with
  | nil => exact ⟨[], by simp⟩
  | cons c tail =>
    obtain rfl : c = '\n' := h c rfl
    refine ⟨splitAt '\n' tail, ?_⟩
    induction text using line_induction with
    | last line hline => simp [splitAt_append hline, splitAt_of_not_mem hline]
    | more line rest hline ih =>
      rw [List.append_assoc, List.cons_append, splitAt_append hline, splitAt_append hline, ih]
      rfl

/-- Text behind the end of a line does not touch the lines before. -/
theorem exists_physicalLines_append {tail : Text} (h : Regex.EndsLine tail) (text : Text) :
    ∃ more, physicalLines (text ++ tail) = physicalLines text ++ more := by
  obtain ⟨more, hmore⟩ := exists_splitAt_append h text
  exact ⟨more.map dropReturn, by simp [physicalLines, hmore]⟩

/-- The pieces joined again are the text. -/
theorem intercalate_splitAt (text : Text) : List.intercalate ['\n'] (splitAt '\n' text) = text := by
  induction text using line_induction with
  | last line h => simp [splitAt_of_not_mem h, List.intercalate]
  | more line rest h ih =>
    cases hs : splitAt '\n' rest with
    | nil => exact absurd hs (splitAt_ne_nil '\n' rest)
    | cons next more =>
      rw [hs] at ih
      rw [splitAt_append h, hs, ← ih]
      simp [List.intercalate, List.intersperse]

theorem startsLine_nil : StartsLine [] := by simp [StartsLine]

theorem startsLine_append_break (text : Text) : StartsLine (text ++ ['\n']) := by
  simp [StartsLine]

theorem startsLine_iff {before : Text} :
    StartsLine before ↔ before = [] ∨ ∃ u, before = u ++ ['\n'] := by
  constructor
  · intro h
    rcases List.eq_nil_or_concat before with rfl | ⟨u, c, rfl⟩
    · exact Or.inl rfl
    · exact Or.inr ⟨u, by rw [List.concat_eq_append, h c (by simp)]⟩
  · rintro (rfl | ⟨u, rfl⟩)
    · exact startsLine_nil
    · exact startsLine_append_break u

/-- A text without a line feed at its end starts no line. -/
theorem not_startsLine_append {before word : Text} (hne : word ≠ []) (h : '\n' ∉ word) :
    ¬ StartsLine (before ++ word) := by
  intro hs
  have hlast := hs (word.getLast hne)
    (by simp [List.getLast?_append, List.getLast?_eq_some_getLast hne])
  exact h (hlast ▸ List.getLast_mem hne)

/-- A text has one line start for each number of line feeds before it. -/
theorem eq_of_startsLine {before before' rest rest' : Text}
    (heq : before ++ rest = before' ++ rest') (h : StartsLine before) (h' : StartsLine before')
    (hcount : before.count '\n' = before'.count '\n') : before = before' := by
  have hnil : ∀ front word : Text, StartsLine (front ++ word) →
      front.count '\n' = (front ++ word).count '\n' → word = [] := by
    intro front word hstart hsame
    rw [List.count_append] at hsame
    by_contra hne
    exact not_startsLine_append hne (List.count_eq_zero.mp (by omega)) hstart
  rcases List.append_eq_append_iff.mp heq with ⟨word, rfl, -⟩ | ⟨word, rfl, -⟩
  · rw [hnil before word h' hcount, List.append_nil]
  · rw [hnil before' word h hcount.symm, List.append_nil]

/-- The lines behind a line start are those that are left when the lines before it are dropped. -/
theorem drop_splitAt {before : Text} (h : StartsLine before) (rest : Text) :
    (splitAt '\n' (before ++ rest)).drop (before.count '\n') = splitAt '\n' rest := by
  rcases startsLine_iff.mp h with rfl | ⟨u, rfl⟩
  · simp
  induction u using line_induction with
  | last line hline =>
    simp [splitAt_append hline, List.count_eq_zero.mpr hline]
  | more line u hline ih =>
    have hu := ih (startsLine_append_break u)
    simp only [List.count_append, List.count_cons_self, List.count_nil, List.append_assoc,
      List.cons_append, List.nil_append] at hu ⊢
    rw [splitAt_append hline, List.count_eq_zero.mpr hline]
    have hcount : 0 + (u.count '\n' + (0 + 1) + 1) = u.count '\n' + (0 + 1) + 1 := by omega
    rw [hcount]
    simpa using hu

theorem drop_physicalLines {before : Text} (h : StartsLine before) (rest : Text) :
    (physicalLines (before ++ rest)).drop (before.count '\n') = physicalLines rest := by
  rw [physicalLines, ← List.map_drop, drop_splitAt h, physicalLines]

theorem getElem?_physicalLines {before : Text} (h : StartsLine before) (rest : Text) (k : Nat) :
    (physicalLines (before ++ rest))[before.count '\n' + k]? = (physicalLines rest)[k]? := by
  rw [← List.getElem?_drop, drop_physicalLines h]

/-- Every line of a text stands behind a line start. -/
theorem exists_line_start {text line : Text} {i : Nat} (h : (physicalLines text)[i]? = some line) :
    ∃ before rest, text = before ++ rest ∧ StartsLine before ∧ before.count '\n' = i := by
  induction text using line_induction generalizing i with
  | last l hl =>
    rw [physicalLines_last hl] at h
    have hi : i = 0 := by
      have := (List.getElem?_eq_some_iff.mp h).1
      simpa using this
    exact ⟨[], l, rfl, startsLine_nil, by simp [hi]⟩
  | more l rest hl ih =>
    cases i with
    | zero => exact ⟨[], l ++ '\n' :: rest, rfl, startsLine_nil, rfl⟩
    | succ i =>
      rw [physicalLines_append hl, List.getElem?_cons_succ] at h
      obtain ⟨before, after, rfl, hs, hcount⟩ := ih h
      refine ⟨l ++ '\n' :: before, after, by simp, ?_, ?_⟩
      · rcases startsLine_iff.mp hs with rfl | ⟨u, rfl⟩
        · exact startsLine_append_break l
        · simpa using startsLine_append_break (l ++ '\n' :: u)
      · simp [hcount, List.count_eq_zero.mpr hl]

/-! Carriage returns, and the two other ways to cut a text into lines. -/

theorem dropReturn_append_return (text : Text) : dropReturn (text ++ ['\r']) = text := by
  simp [dropReturn, endsWith]

theorem dropReturn_of_getLast? {text : Text} (h : text.getLast? ≠ some '\r') :
    dropReturn text = text := by
  rcases List.eq_nil_or_concat text with rfl | ⟨u, c, rfl⟩
  · rfl
  · have hc : c ≠ '\r' := by simpa using h
    simp [dropReturn, endsWith, Ne.symm hc]

theorem dropReturn_cases (text : Text) :
    text = dropReturn text ++ ['\r'] ∨ text = dropReturn text := by
  by_cases h : text.getLast? = some '\r'
  · obtain ⟨u, rfl⟩ := List.getLast?_eq_some_iff.mp h
    exact Or.inl (by rw [dropReturn_append_return])
  · exact Or.inr (dropReturn_of_getLast? h).symm

theorem not_mem_dropReturn {text : Text} (h : '\n' ∉ text) : '\n' ∉ dropReturn text := by
  rcases dropReturn_cases text with ht | ht
  · intro hmem
    rw [ht] at h
    exact h (List.mem_append_left _ hmem)
  · exact ht ▸ h

theorem dropReturn_append {text : Text} (front : Text) (h : text ≠ []) :
    dropReturn (front ++ text) = front ++ dropReturn text := by
  rcases List.eq_nil_or_concat text with rfl | ⟨u, c, rfl⟩
  · exact absurd rfl h
  rw [List.concat_eq_append, ← List.append_assoc]
  by_cases hc : c = '\r'
  · subst hc
    rw [dropReturn_append_return, dropReturn_append_return]
  · rw [dropReturn_of_getLast? (by simpa using hc), dropReturn_of_getLast? (by simpa using hc)]
    simp

theorem dropReturn_cons {c : Char} {text : Text} (h : ¬ (c = '\r' ∧ text = [])) :
    dropReturn (c :: text) = c :: dropReturn text := by
  by_cases ht : text = []
  · subst ht
    exact dropReturn_of_getLast? (by simpa using h)
  · exact dropReturn_append [c] ht

theorem dropReturn_append_break (line rest : Text) :
    dropReturn (line ++ '\n' :: rest) = line ++ '\n' :: dropReturn rest := by
  rw [dropReturn_append line (by simp), dropReturn_cons (by simp)]

/-- A line is cut off at either line break. -/
theorem physicalLines_append_break {line br : Text} (hline : '\n' ∉ line)
    (hlast : line.getLast? ≠ some '\r') (hbr : br = ['\n'] ∨ br = ['\r', '\n']) (rest : Text) :
    physicalLines (line ++ (br ++ rest)) = line :: physicalLines rest := by
  rcases hbr with rfl | rfl
  · rw [List.singleton_append, physicalLines_append hline, dropReturn_of_getLast? hlast]
  · have hraw : '\n' ∉ line ++ ['\r'] := by simp [hline]
    have h := physicalLines_append hraw rest
    rw [dropReturn_append_return] at h
    simpa using h

theorem breakLines_of_not_mem {line : Text} (h : '\n' ∉ line) : breakLines line = [line] := by
  induction line with
  | nil => rfl
  | cons c line ih =>
    obtain ⟨hc, hline⟩ : '\n' ≠ c ∧ '\n' ∉ line := by simpa using h
    rw [breakLines, ih hline]
    · intro rest hcr hl
      simp [hl] at hline
    · exact fun hn => hc hn.symm

theorem breakLines_append {line : Text} (h : '\n' ∉ line) (rest : Text) :
    breakLines (line ++ '\n' :: rest) = dropReturn line :: breakLines rest := by
  induction line with
  | nil => rfl
  | cons c line ih =>
    obtain ⟨hc, hline⟩ : '\n' ≠ c ∧ '\n' ∉ line := by simpa using h
    by_cases hr : c = '\r' ∧ line = []
    · obtain ⟨rfl, rfl⟩ := hr
      rfl
    · rw [List.cons_append, breakLines, ih hline, dropReturn_cons hr]
      · rintro tail rfl hl
        cases line with
        | nil => simp at hr
        | cons d line =>
          obtain ⟨rfl, -⟩ := List.cons_eq_cons.mp hl
          simp at hline
      · exact fun hn => hc hn.symm

/-- The lines of a span that ends with a line feed. -/
theorem splitLines_append_break (text : Text) :
    splitLines (text ++ ['\n']) = physicalLines text := by
  have hdrop : dropBreak (text ++ ['\n']) = dropReturn text := by
    simp [dropBreak, endsWith]
  rw [splitLines, hdrop]
  induction text using line_induction with
  | last line h => rw [breakLines_of_not_mem (not_mem_dropReturn h), physicalLines_last h]
  | more line rest h ih =>
    have hrest : dropBreak (rest ++ ['\n']) = dropReturn rest := by simp [dropBreak, endsWith]
    rw [dropReturn_append_break, breakLines_append h, ih hrest, physicalLines_append h]

/-- A line that others follow is cut off without its line break. -/
theorem splitLines_append {line rest : Text} (h : '\n' ∉ line) (hne : rest ≠ []) :
    splitLines (line ++ '\n' :: rest) = dropReturn line :: splitLines rest := by
  rcases List.eq_nil_or_concat rest with rfl | ⟨u, c, rfl⟩
  · exact absurd rfl hne
  by_cases hc : c = '\n'
  · subst hc
    have ha := splitLines_append_break (line ++ '\n' :: u)
    rw [physicalLines_append h] at ha
    simpa [splitLines_append_break] using ha
  · have hkeep : ∀ t : Text, dropBreak (t ++ [c]) = t ++ [c] := by
      intro t
      simp [dropBreak, endsWith, Ne.symm hc]
    have ha := hkeep (line ++ '\n' :: u)
    simp only [List.append_assoc, List.cons_append] at ha
    rw [List.concat_eq_append, splitLines, splitLines, ha, hkeep, breakLines_append h]

theorem splitLines_last {line : Text} (h : '\n' ∉ line) : splitLines line = [line] := by
  have hkeep : dropBreak line = line := by
    rcases List.eq_nil_or_concat line with rfl | ⟨u, c, rfl⟩
    · rfl
    · have hc : '\n' ≠ c := by
        rintro rfl
        simp at h
      simp [dropBreak, endsWith, hc]
  rw [splitLines, hkeep, breakLines_of_not_mem h]

/-- A line is cut off without its line break, and behind the last break no empty line follows. -/
theorem splitLines_break {line : Text} (h : '\n' ∉ line) (rest : Text) :
    splitLines (line ++ '\n' :: rest) =
      dropReturn line :: if rest = [] then [] else splitLines rest := by
  split_ifs with hrest
  · rw [hrest, splitLines_append_break, physicalLines_last h]
  · exact splitLines_append h hrest

/-- A text is its first line and a rest that is empty or starts with the line feed. -/
theorem exists_first_line (text : Text) :
    ∃ line tail, text = line ++ tail ∧ '\n' ∉ line ∧ Regex.EndsLine tail ∧
      (physicalLines text)[0]? = some (dropReturn line) := by
  by_cases h : '\n' ∈ text
  · obtain ⟨line, rest, rfl, hline⟩ := List.eq_append_cons_of_mem h
    exact ⟨line, '\n' :: rest, rfl, hline, by simp [Regex.EndsLine],
      by rw [physicalLines_append hline]; rfl⟩
  · exact ⟨text, [], by simp, h, by simp [Regex.EndsLine], by rw [physicalLines_last h]; rfl⟩

/-- A beginning without a line feed is a beginning of the first line. -/
theorem exists_eq_append_of_line {line tail front rest : Text} (htail : Regex.EndsLine tail)
    (hfront : '\n' ∉ front) (h : line ++ tail = front ++ rest) :
    ∃ r, line = front ++ r ∧ rest = r ++ tail := by
  rcases List.append_eq_append_iff.mp h with ⟨x, rfl, hx⟩ | ⟨x, rfl, rfl⟩
  · cases x with
    | nil => exact ⟨[], by simp, by simpa using hx.symm⟩
    | cons c x =>
      have hc : c = '\n' := htail c (by simp [hx])
      simp [hc] at hfront
  · exact ⟨x, rfl, rfl⟩

theorem exists_eq_dropReturn_append (text : Text) :
    ∃ cr, (cr = [] ∨ cr = ['\r']) ∧ text = dropReturn text ++ cr := by
  rcases dropReturn_cases text with h | h
  · exact ⟨['\r'], Or.inr rfl, h⟩
  · exact ⟨[], Or.inl rfl, by simpa using h⟩

/-- A beginning that does not end with a carriage return is not touched when one is dropped. -/
theorem exists_dropReturn_eq_append {front : Text} (hlast : front.getLast? ≠ some '\r')
    (text : Text) :
    (∃ rest, dropReturn text = front ++ rest) ↔ ∃ rest, text = front ++ rest := by
  constructor
  · rintro ⟨rest, h⟩
    rcases dropReturn_cases text with ht | ht
    · exact ⟨rest ++ ['\r'], by rw [ht, h, List.append_assoc]⟩
    · exact ⟨rest, ht.trans h⟩
  · rintro ⟨rest, rfl⟩
    by_cases hrest : rest = []
    · subst hrest
      exact ⟨[], by rw [List.append_nil, dropReturn_of_getLast? hlast]⟩
    · exact ⟨dropReturn rest, dropReturn_append front hrest⟩

/-- A beginning on one line that does not end with a carriage return is a beginning of the line
without its carriage return. -/
theorem exists_dropReturn_eq {line tail front rest : Text} (htail : Regex.EndsLine tail)
    (hfront : '\n' ∉ front) (hlast : front.getLast? ≠ some '\r')
    (h : line ++ tail = front ++ rest) :
    ∃ r cr, dropReturn line = front ++ r ∧ (cr = [] ∨ cr = ['\r']) ∧ rest = r ++ (cr ++ tail) := by
  obtain ⟨r, hline, rfl⟩ := exists_eq_append_of_line htail hfront h
  obtain ⟨r', hr'⟩ := (exists_dropReturn_eq_append hlast line).mpr ⟨r, hline⟩
  obtain ⟨cr, hcr, heq⟩ := exists_eq_dropReturn_append line
  rw [hr', List.append_assoc] at heq
  have hr : r = r' ++ cr := List.append_cancel_left (hline.symm.trans heq)
  exact ⟨r', cr, hr', hcr, by rw [hr, List.append_assoc]⟩

/-- A text and its first line have the same beginnings, as long as these stay on the line and do not
end with a carriage return. -/
theorem exists_firstLine_eq_append {text line front : Text} (hbreak : '\n' ∉ front)
    (hlast : front.getLast? ≠ some '\r') (h : (physicalLines text)[0]? = some line) :
    (∃ rest, line = front ++ rest) ↔ ∃ rest, text = front ++ rest := by
  obtain ⟨first, tail, rfl, -, htail, hfirst⟩ := exists_first_line text
  obtain rfl : dropReturn first = line := by simpa [hfirst] using h
  rw [exists_dropReturn_eq_append hlast]
  constructor
  · rintro ⟨rest, rfl⟩
    exact ⟨rest ++ tail, List.append_assoc _ _ _⟩
  · rintro ⟨rest, heq⟩
    obtain ⟨r, hr, -⟩ := exists_eq_append_of_line htail hbreak heq
    exact ⟨r, hr⟩

theorem not_mem_of_mem_splitLines {text line : Text} (h : line ∈ splitLines text) :
    '\n' ∉ line := by
  induction text using line_induction with
  | last l hl =>
    rw [splitLines_last hl, List.mem_singleton] at h
    rwa [h]
  | more l rest hl ih =>
    rw [splitLines_break hl] at h
    rcases List.mem_cons.mp h with rfl | hmem
    · exact not_mem_dropReturn hl
    · split_ifs at hmem with hrest
      · exact absurd hmem List.not_mem_nil
      · exact ih hmem

/-- Both ways to cut a text into lines agree on where a line has a property that does not depend on
a carriage return at its end and that the empty line does not have. -/
theorem exists_splitLines_iff {Q : Text → Prop} (hreturn : ∀ line, Q (dropReturn line) ↔ Q line)
    (hnil : ¬ Q []) (text : Text) (i : Nat) :
    (∃ line, (splitLines text)[i]? = some line ∧ Q line) ↔
      ∃ line, (physicalLines text)[i]? = some line ∧ Q line := by
  induction text using line_induction generalizing i with
  | last line h =>
    rw [splitLines_last h, physicalLines_last h]
    cases i with
    | zero => simp [hreturn]
    | succ i => simp
  | more line rest h ih =>
    rw [physicalLines_append h]
    by_cases hrest : rest = []
    · subst hrest
      rw [splitLines_append_break, physicalLines_last h]
      cases i with
      | zero => simp
      | succ i => cases i <;> simp [physicalLines, splitAt, dropReturn, endsWith, hnil]
    · rw [splitLines_append h hrest]
      cases i with
      | zero => simp
      | succ i => exact ih i

end DefinitionSite.Text
