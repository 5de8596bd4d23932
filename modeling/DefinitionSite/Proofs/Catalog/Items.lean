import DefinitionSite.Proofs.Catalog.Declared

/-! What the items of the catalog's expressions match: gaps, line breaks, boundaries and optional
parts, each as the first item of a sequence. -/
namespace DefinitionSite.Catalog
open Regex Declared

@[simp] theorem has_gap (c : Char) :
    (⟨false, [.char ' ', .char '\t']⟩ : CharSet).has c = Text.isGap c := by
  simp [CharSet.has, SetItem.covers, Text.isGap]

@[simp] theorem has_inLine (c : Char) :
    (⟨true, [.char '\n']⟩ : CharSet).has c = true ↔ c ≠ '\n' := by
  simp [CharSet.has, SetItem.covers]

theorem has_sign (c : Char) :
    (⟨false, [.char '=', .char '|']⟩ : CharSet).has c = true ↔ Sign c := by
  simp [CharSet.has, SetItem.covers, Sign]

theorem has_constraint (c : Char) :
    (⟨true, [.char '\n', .char '=']⟩ : CharSet).has c = true ↔ c ≠ '\n' ∧ c ≠ '=' := by
  simp [CharSet.has, SetItem.covers]

theorem has_binding (c : Char) :
    (⟨true, [.char '=', .char '\n']⟩ : CharSet).has c = true ↔ c ≠ '=' ∧ c ≠ '\n' := by
  simp [CharSet.has, SetItem.covers]

theorem has_boundary (c : Char) :
    (⟨true, [.word, .char '\'', .char '\n']⟩ : CharSet).has c = true ↔
      (Text.isWord c = false ∧ c ≠ '\'') ∧ c ≠ '\n' := by
  simp [CharSet.has, SetItem.covers, and_assoc]

theorem isGap_ne_break {c : Char} (h : Text.isGap c = true) : c ≠ '\n' := by
  rintro rfl
  simp [Text.isGap] at h

theorem gaps_not_mem {text : Text} (h : Gaps text) : '\n' ∉ text :=
  fun hmem => isGap_ne_break (h _ hmem) rfl

theorem spells_gaps (before word after : Text) : Spells gaps before word after ↔ Gaps word := by
  simp [gaps, spells_star_set, Gaps]

theorem spells_someGaps (before word after : Text) :
    Spells someGaps before word after ↔ word ≠ [] ∧ Gaps word := by
  have hone : ∀ c, Text.isGap c = true → ∀ v, Gaps v → Gaps (c :: v) := by
    intro c hc v hv d hd
    rcases List.mem_cons.mp hd with rfl | hd
    · exact hc
    · exact hv d hd
  simp only [someGaps, times, seqAll, List.replicate, Spells]
  constructor
  · rintro ⟨_, v, rfl, ⟨_, _, rfl, ⟨c, hc, rfl⟩, rfl⟩, hv⟩
    have hg : Gaps v := (spells_gaps _ _ _).mp hv
    exact ⟨by simp, hone c (by simpa using hc) v hg⟩
  · rintro ⟨hne, hg⟩
    cases word with
    | nil => exact absurd rfl hne
    | cons c v =>
      have hc : Text.isGap c = true := hg c (by simp)
      have hv : Gaps v := fun d hd => hg d (by simp [hd])
      exact ⟨[c], v, rfl, ⟨[c], [], rfl, ⟨c, by simpa using hc, rfl⟩, rfl⟩,
        (spells_gaps _ _ _).mpr hv⟩

theorem spells_optional (r : Regex) (before word after : Text) :
    Spells (Regex.times true 0 (some 1) r) before word after ↔
      Spells r before word after ∨ word = [] := by
  simp only [times, upTo, opt, ↓reduceIte, Spells]
  constructor
  · rintro (⟨u, _, rfl, hu, rfl⟩ | rfl)
    · exact Or.inl (by simpa using hu)
    · exact Or.inr rfl
  · rintro (h | rfl)
    · exact Or.inl ⟨word, [], by simp, by simpa using h, rfl⟩
    · exact Or.inr rfl

theorem spells_lineBreak (before word after : Text) :
    Spells (seqAll lineBreak) before word after ↔ word = ['\n'] ∨ word = ['\r', '\n'] := by
  simp only [lineBreak, seqAll, Spells, spells_optional]
  constructor
  · rintro ⟨_, _, rfl, rfl | rfl, _, _, rfl, rfl, rfl⟩
    · exact Or.inr rfl
    · exact Or.inl rfl
  · rintro (rfl | rfl)
    · exact ⟨[], ['\n'], rfl, Or.inr rfl, ['\n'], [], rfl, rfl, rfl⟩
    · exact ⟨['\r'], ['\n'], rfl, Or.inl rfl, ['\n'], [], rfl, rfl, rfl⟩

section Opening
variable (qs : List Regex) (before text : Text)

theorem opens_gaps_cons : Opens (seqAll (gaps :: qs)) before text ↔
    ∃ gap rest, Gaps gap ∧ text = gap ++ rest ∧ Opens (seqAll qs) (before ++ gap) rest := by
  simp only [opens_seqAll_cons, spells_gaps]
  constructor
  · rintro ⟨gap, rest, rfl, hg, h⟩
    exact ⟨gap, rest, hg, rfl, h⟩
  · rintro ⟨gap, rest, hg, rfl, h⟩
    exact ⟨gap, rest, rfl, hg, h⟩

theorem opens_someGaps_cons : Opens (seqAll (someGaps :: qs)) before text ↔
    ∃ gap rest, gap ≠ [] ∧ Gaps gap ∧ text = gap ++ rest ∧
      Opens (seqAll qs) (before ++ gap) rest := by
  simp only [opens_seqAll_cons, spells_someGaps]
  constructor
  · rintro ⟨gap, rest, rfl, ⟨hne, hg⟩, h⟩
    exact ⟨gap, rest, hne, hg, rfl, h⟩
  · rintro ⟨gap, rest, hne, hg, rfl, h⟩
    exact ⟨gap, rest, rfl, ⟨hne, hg⟩, h⟩

theorem opens_constraint_cons :
    Opens (seqAll (.star true (.set ⟨true, [.char '\n', .char '=']⟩) :: qs)) before text ↔
      ∃ constraint rest, (∀ c ∈ constraint, c ≠ '\n' ∧ c ≠ '=') ∧ text = constraint ++ rest ∧
        Opens (seqAll qs) (before ++ constraint) rest := by
  simp only [opens_seqAll_cons, spells_star_set, has_constraint]
  constructor
  · rintro ⟨constraint, rest, rfl, hc, h⟩
    exact ⟨constraint, rest, hc, rfl, h⟩
  · rintro ⟨constraint, rest, hc, rfl, h⟩
    exact ⟨constraint, rest, rfl, hc, h⟩

theorem opens_lineBreak_append : Opens (seqAll (lineBreak ++ qs)) before text ↔
    ∃ br rest, (br = ['\n'] ∨ br = ['\r', '\n']) ∧ text = br ++ rest ∧
      Opens (seqAll qs) (before ++ br) rest := by
  simp only [opens_seqAll_append, spells_lineBreak]
  constructor
  · rintro ⟨br, rest, rfl, hbr, h⟩
    exact ⟨br, rest, hbr, rfl, h⟩
  · rintro ⟨br, rest, hbr, rfl, h⟩
    exact ⟨br, rest, rfl, hbr, h⟩

/-- An optional part is there or not. -/
theorem opens_optional_cons (rs : List Regex) :
    Opens (seqAll (Regex.times true 0 (some 1) (seqAll rs) :: qs)) before text ↔
      Opens (seqAll (rs ++ qs)) before text ∨ Opens (seqAll qs) before text := by
  simp only [opens_seqAll_cons, opens_seqAll_append, spells_optional]
  constructor
  · rintro ⟨u, rest, rfl, hu | rfl, h⟩
    · exact Or.inl ⟨u, rest, rfl, hu, h⟩
    · exact Or.inr (by simpa using h)
  · rintro (⟨u, rest, rfl, hu, h⟩ | h)
    · exact ⟨u, rest, rfl, Or.inl hu, h⟩
    · exact ⟨[], text, rfl, Or.inr rfl, by simpa using h⟩

/-- A character of a set or the end of the line: the sets of the catalog allow every line feed. -/
theorem opens_set_or_lineEnd (s : CharSet) :
    Opens (seqAll [.alt (seqAll [.set s]) (seqAll [.lineEnd])]) before text ↔
      ∀ c ∈ text.head?, s.has c = true ∨ c = '\n' := by
  rw [opens_seqAll_cons]
  constructor
  · rintro ⟨u, rest, rfl, ⟨_, _, rfl, ⟨c, hc, rfl⟩, rfl⟩ | ⟨_, _, rfl, ⟨rfl, hend⟩, rfl⟩, -⟩ d hd
    · obtain rfl : c = d := by simpa using hd
      exact Or.inl hc
    · exact Or.inr (hend d (by simpa using hd))
  · intro h
    cases text with
    | nil =>
      exact ⟨[], [], rfl, Or.inr ⟨[], [], rfl, ⟨rfl, by simp [EndsLine]⟩, rfl⟩,
        opens_seqAll_nil _ _⟩
    | cons c rest =>
      rcases h c (by simp) with hc | rfl
      · exact ⟨[c], rest, rfl, Or.inl ⟨[c], [], rfl, ⟨c, hc, rfl⟩, rfl⟩, opens_seqAll_nil _ _⟩
      · exact ⟨[], '\n' :: rest, rfl, Or.inr ⟨[], [], rfl, ⟨rfl, by simp [EndsLine]⟩, rfl⟩,
          opens_seqAll_nil _ _⟩

theorem opens_boundary : Opens (seqAll [boundary]) before text ↔ Boundary text := by
  have hbreak : Text.isWord '\n' = false ∧ '\n' ≠ '\'' := by decide
  simp only [boundary, opens_set_or_lineEnd, has_boundary, Boundary]
  constructor
  · intro h c hc
    rcases h c hc with hb | rfl
    · exact hb.1
    · exact hbreak
  · intro h c hc
    by_cases hn : c = '\n'
    · exact Or.inr hn
    · exact Or.inl ⟨h c hc, hn⟩

theorem opens_binding :
    Opens (seqAll [.alt (seqAll [.set ⟨true, [.char '=', .char '\n']⟩]) (seqAll [.lineEnd])])
      before text ↔ text.head? ≠ some '=' := by
  simp only [opens_set_or_lineEnd, has_binding]
  constructor
  · intro h he
    simpa using h '=' he
  · intro h c hc
    by_cases hn : c = '\n'
    · exact Or.inr hn
    · refine Or.inl ⟨?_, hn⟩
      rintro rfl
      exact h hc

end Opening
end DefinitionSite.Catalog
