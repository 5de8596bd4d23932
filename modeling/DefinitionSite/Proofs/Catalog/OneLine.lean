import DefinitionSite.Proofs.Catalog.Items

/-! The expressions of the kinds that stand on one line match exactly at the start of the lines that
are such definitions, and a carriage return at the end of the line does not matter. -/
namespace DefinitionSite.Catalog
open Regex Declared

/-- The start of a text is a definition of the kind that does not run over a line feed. -/
def OpensLine (identifier text : Text) (kind : Kind) : Prop :=
  ∃ front rest, text = front ++ rest ∧ Front identifier front kind ∧ '\n' ∉ front ∧
    Closes rest kind

@[simp] theorem of_typeSign : Text.of "::" = [':', ':'] := rfl

@[simp] theorem of_equals : Text.of "=" = ['='] := rfl

@[simp] theorem of_implies : Text.of "=>" = ['=', '>'] := rfl

/-- None of the keywords holds a line feed. -/
theorem keyword_not_mem : ∀ keyword ∈ ["data", "type", "newtype", "class", "family", "pattern"],
    '\n' ∉ Text.of keyword := by decide

section Kinds
variable {identifier : Text} (hid : '\n' ∉ identifier) (before text : Text)
include hid

theorem opens_declaration (keyword : String) (hkey : '\n' ∉ Text.of keyword) :
    Opens (seqAll (declaration keyword identifier)) before text ↔
      StartsLine before ∧ ∃ front rest, text = front ++ rest ∧
        Keyword keyword identifier front ∧ '\n' ∉ front ∧ Boundary rest := by
  simp only [declaration, List.append_assoc, List.cons_append, List.nil_append,
    opens_lineStart_cons,
    opens_literal_append, opens_someGaps_cons, opens_boundary]
  refine and_congr_right fun _ => ?_
  constructor
  · rintro ⟨_, rfl, gap, _, hne, hg, rfl, rest, rfl, hb⟩
    refine ⟨Text.of keyword ++ gap ++ identifier, rest, by simp, ⟨gap, hne, hg, rfl⟩, ?_, hb⟩
    simp [hkey, gaps_not_mem hg, hid]
  · rintro ⟨_, rest, rfl, ⟨gap, hne, hg, rfl⟩, -, hb⟩
    exact ⟨gap ++ (identifier ++ rest), by simp, gap, identifier ++ rest, hne, hg, rfl, rest,
      rfl, hb⟩

theorem opens_family (keyword : String) (hkey : '\n' ∉ Text.of keyword) :
    Opens (seqAll (family keyword identifier)) before text ↔
      StartsLine before ∧ ∃ front rest, text = front ++ rest ∧
        (∃ gap name, gap ≠ [] ∧ Gaps gap ∧ Keyword "family" identifier name ∧
          front = Text.of keyword ++ gap ++ name) ∧ '\n' ∉ front ∧ Boundary rest := by
  simp only [family, List.append_assoc, List.cons_append, List.nil_append,
    opens_lineStart_cons,
    opens_literal_append, opens_someGaps_cons, opens_boundary]
  refine and_congr_right fun _ => ?_
  constructor
  · rintro ⟨_, rfl, gap, _, hne, hg, rfl, _, rfl, gap', _, hne', hg', rfl, rest, rfl, hb⟩
    refine ⟨Text.of keyword ++ gap ++ (Text.of "family" ++ gap' ++ identifier), rest, by simp,
      ⟨gap, _, hne, hg, ⟨gap', hne', hg', rfl⟩, by simp⟩, ?_, hb⟩
    simp [hkey, keyword_not_mem "family", gaps_not_mem hg, gaps_not_mem hg', hid]
  · rintro ⟨_, rest, rfl, ⟨gap, _, hne, hg, ⟨gap', hne', hg', rfl⟩, rfl⟩, -, hb⟩
    exact ⟨gap ++ (Text.of "family" ++ (gap' ++ (identifier ++ rest))), by simp, gap, _, hne, hg,
      rfl, _, rfl, gap', _, hne', hg', rfl, rest, rfl, hb⟩

theorem opens_signatureSameLine :
    Opens (regex identifier .signatureSameLine) before text ↔
      StartsLine before ∧ OpensLine identifier text .signatureSameLine := by
  simp only [regex, items, List.append_assoc, List.cons_append, List.nil_append,
    opens_lineStart_cons,
    opens_literal_append, opens_gaps_cons, opens_char_cons]
  refine and_congr_right fun _ => ?_
  constructor
  · rintro ⟨_, rfl, gap, _, hg, rfl, _, rfl, rest, rfl, -⟩
    refine ⟨identifier ++ gap ++ Text.of "::", rest, by simp, ⟨gap, hg, rfl⟩, ?_, trivial⟩
    simp [gaps_not_mem hg, hid]
  · rintro ⟨_, rest, rfl, ⟨gap, hg, rfl⟩, -, -⟩
    exact ⟨gap ++ (Text.of "::" ++ rest), by simp, gap, _, hg, rfl, ':' :: rest, rfl, rest, rfl,
      opens_seqAll_nil _ _⟩

theorem opens_assignment :
    Opens (regex identifier .assignment) before text ↔
      StartsLine before ∧ OpensLine identifier text .assignment := by
  simp only [regex, items, List.append_assoc, List.cons_append, List.nil_append,
    opens_lineStart_cons,
    opens_literal_append, opens_gaps_cons, opens_char_cons, opens_binding]
  refine and_congr_right fun _ => ?_
  constructor
  · rintro ⟨_, rfl, gap, _, hg, rfl, rest, rfl, hrest⟩
    refine ⟨identifier ++ gap ++ Text.of "=", rest, by simp, ⟨gap, hg, rfl⟩, ?_, hrest⟩
    simp [gaps_not_mem hg, hid]
  · rintro ⟨_, rest, rfl, ⟨gap, hg, rfl⟩, -, hrest⟩
    exact ⟨gap ++ (Text.of "=" ++ rest), by simp, gap, _, hg, rfl, rest, rfl, hrest⟩

theorem opens_classDecl :
    Opens (regex identifier .classDecl) before text ↔
      StartsLine before ∧ OpensLine identifier text .classDecl := by
  simp only [regex, items, List.append_assoc, List.cons_append, List.nil_append,
    opens_constraint_cons, opens_lineStart_cons, opens_literal_append, opens_someGaps_cons,
    opens_optional_cons, opens_gaps_cons, opens_char_cons, opens_boundary]
  refine and_congr_right fun _ => ?_
  constructor
  · rintro ⟨_, rfl, gap, _, hne, hg, rfl,
      ⟨constraint, _, hc, rfl, _, rfl, _, rfl, gap', _, hg', rfl, rest, rfl, hb⟩ |
        ⟨rest, rfl, hb⟩⟩
    · have hcontext : Context (constraint ++ Text.of "=>" ++ gap') :=
        ⟨constraint, gap', fun h => (hc _ h).2 rfl, hg', rfl⟩
      refine ⟨Text.of "class" ++ gap ++ (constraint ++ Text.of "=>" ++ gap') ++ identifier, rest,
        by simp, ⟨gap, _, hne, hg, Or.inr hcontext, rfl⟩, ?_, hb⟩
      have hbreak : '\n' ∉ constraint := fun h => (hc _ h).1 rfl
      simp [keyword_not_mem "class", gaps_not_mem hg, gaps_not_mem hg', hid, hbreak]
    · refine ⟨Text.of "class" ++ gap ++ [] ++ identifier, rest, by simp,
        ⟨gap, [], hne, hg, Or.inl rfl, rfl⟩, ?_, hb⟩
      simp [keyword_not_mem "class", gaps_not_mem hg, hid]
  · rintro ⟨_, rest, rfl, ⟨gap, _, hne, hg, rfl | ⟨constraint, gap', heq, hg', rfl⟩, rfl⟩, hbreak,
      hb⟩
    · exact ⟨gap ++ (identifier ++ rest), by simp, gap, _, hne, hg, rfl, Or.inr ⟨rest, rfl, hb⟩⟩
    · have hc : ∀ c ∈ constraint, c ≠ '\n' ∧ c ≠ '=' := by
        intro c hmem
        constructor
        · rintro rfl
          exact hbreak (by simp [hmem])
        · rintro rfl
          exact heq hmem
      exact ⟨gap ++ (constraint ++ (Text.of "=>" ++ (gap' ++ (identifier ++ rest)))), by simp, gap,
        _, hne, hg, rfl, Or.inl ⟨constraint, _, hc, rfl, '>' :: (gap' ++ (identifier ++ rest)), rfl,
          _, rfl, gap', _, hg', rfl, rest, rfl, hb⟩⟩

theorem opens_patternSynonym :
    Opens (regex identifier .patternSynonym) before text ↔
      StartsLine before ∧ OpensLine identifier text .patternSynonym := by
  simp only [regex, items, List.append_assoc, List.cons_append, List.nil_append,
    opens_lineStart_cons,
    opens_literal_append, opens_someGaps_cons, opens_gaps_cons, opens_char_cons]
  refine and_congr_right fun _ => ?_
  constructor
  · rintro ⟨_, rfl, gap, _, hne, hg, rfl, _, rfl, gap', _, hg', rfl, _, rfl, rest, rfl, -⟩
    refine ⟨Text.of "pattern" ++ gap ++ identifier ++ gap' ++ Text.of "::", rest, by simp,
      ⟨gap', _, ⟨gap, hne, hg, rfl⟩, hg', rfl⟩, ?_, trivial⟩
    simp [keyword_not_mem "pattern", gaps_not_mem hg, gaps_not_mem hg', hid]
  · rintro ⟨_, rest, rfl, ⟨gap', _, ⟨gap, hne, hg, rfl⟩, hg', rfl⟩, -, -⟩
    exact ⟨gap ++ (identifier ++ (gap' ++ (Text.of "::" ++ rest))), by simp, gap, _, hne, hg, rfl,
      _, rfl, gap', _, hg', rfl, ':' :: rest, rfl, rest, rfl, opens_seqAll_nil _ _⟩

/-- The expression of a kind that stands on one line matches where such a definition starts. -/
theorem opens_regex_iff {kind : Kind} (hkind : kind.isSingleLine = true) :
    Opens (regex identifier kind) before text ↔
      StartsLine before ∧ OpensLine identifier text kind := by
  have hkey := keyword_not_mem
  cases kind with
  | signatureSameLine => exact opens_signatureSameLine hid before text
  | assignment => exact opens_assignment hid before text
  | dataDecl => exact opens_declaration hid before text "data" (hkey _ (by simp))
  | typeDecl => exact opens_declaration hid before text "type" (hkey _ (by simp))
  | newtypeDecl => exact opens_declaration hid before text "newtype" (hkey _ (by simp))
  | classDecl => exact opens_classDecl hid before text
  | typeFamily => exact opens_family hid before text "type" (hkey _ (by simp))
  | dataFamily => exact opens_family hid before text "data" (hkey _ (by simp))
  | patternSynonym => exact opens_patternSynonym hid before text
  | signatureNextLine => simp [Kind.isSingleLine] at hkind
  | constructor => simp [Kind.isSingleLine] at hkind

end Kinds

/-- The text is empty or starts with a character of a line break. -/
def EndsHere (tail : Text) : Prop := ∀ c ∈ tail.head?, c = '\n' ∨ c = '\r'

theorem endsHere_of_endsLine {tail : Text} (h : EndsLine tail) : EndsHere tail :=
  fun c hc => Or.inl (h c hc)

/-- A line break that follows is as good as the end of the text. -/
theorem boundary_append {rest tail : Text} (h : EndsHere tail) :
    Boundary (rest ++ tail) ↔ Boundary rest := by
  have hbreak : ∀ c, c = '\n' ∨ c = '\r' → Text.isWord c = false ∧ c ≠ '\'' := by
    rintro c (rfl | rfl) <;> decide
  cases rest with
  | nil =>
    simp only [Boundary, List.nil_append, List.head?_nil]
    exact ⟨fun _ c hc => by simp at hc, fun _ c hc => hbreak c (h c hc)⟩
  | cons c rest => simp [Boundary]

theorem closes_append {rest tail : Text} (h : EndsHere tail) (kind : Kind) :
    Closes (rest ++ tail) kind ↔ Closes rest kind := by
  have hequals : (rest ++ tail).head? ≠ some '=' ↔ rest.head? ≠ some '=' := by
    cases rest with
    | nil =>
      simp only [List.nil_append, List.head?_nil, ne_eq, reduceCtorEq, not_false_eq_true, iff_true]
      intro he
      simpa using h '=' he
    | cons c rest => simp
  cases kind <;> simp only [Closes, boundary_append h, hequals]

/-- The start of a text is a definition just if its first line is one. -/
theorem opensLine_iff {identifier line tail : Text} (hline : '\n' ∉ line) (htail : EndsLine tail)
    (kind : Kind) : OpensLine identifier (line ++ tail) kind ↔ OnLine identifier line kind := by
  constructor
  · rintro ⟨front, rest, heq, hf, hbreak, hc⟩
    obtain ⟨r, hline, rfl⟩ := Text.exists_eq_append_of_line htail hbreak heq
    exact ⟨front, r, hline, hf, (closes_append (endsHere_of_endsLine htail) kind).mp hc⟩
  · rintro ⟨front, rest, rfl, hf, hc⟩
    have hcloses := (closes_append (endsHere_of_endsLine htail) kind).mpr hc
    refine ⟨front, rest ++ tail, by simp, hf, ?_, hcloses⟩
    exact fun hmem => hline (by simp [hmem])

theorem isBlank_return : Text.isBlank '\r' = true := by decide

theorem isBlank_of_isGap {c : Char} (h : Text.isGap c = true) : Text.isBlank c = true := by
  rcases (by simpa [Text.isGap] using h : c = ' ' ∨ c = '\t') with rfl | rfl <;> decide

/-- The beginning of a definition does not end with a carriage return. -/
theorem front_getLast? {identifier front : Text} {kind : Kind} (hid : Proper identifier)
    (h : Front identifier front kind) : front ≠ [] ∧ front.getLast? ≠ some '\r' := by
  have hlast : identifier.getLast? ≠ some '\r' := by
    intro he
    have := (Text.not_blank_of_trim_eq hid.trimmed).2 '\r' he
    simp [isBlank_return] at this
  have hne := hid.ne_nil
  have hname : ∀ u : Text, u ++ identifier ≠ [] ∧ (u ++ identifier).getLast? ≠ some '\r' := by
    intro u
    rw [List.getLast?_append_of_ne_nil _ hne]
    exact ⟨by simp [hne], hlast⟩
  cases kind with
  | signatureSameLine =>
    obtain ⟨gap, -, rfl⟩ := h
    simp
  | assignment =>
    obtain ⟨gap, -, rfl⟩ := h
    simp
  | patternSynonym =>
    obtain ⟨gap, name, -, -, rfl⟩ := h
    simp
  | classDecl =>
    obtain ⟨gap, context, -, -, -, rfl⟩ := h
    exact hname _
  | dataDecl | typeDecl | newtypeDecl =>
    obtain ⟨gap, -, -, rfl⟩ := h
    exact hname _
  | typeFamily | dataFamily =>
    obtain ⟨gap, _, -, -, ⟨gap', -, -, rfl⟩, rfl⟩ := h
    rw [← List.append_assoc]
    exact hname _
  | signatureNextLine | constructor => exact h.elim

/-- A carriage return at the end of a line is no part of the definition on it. -/
theorem onLine_append_return {identifier line : Text} {kind : Kind} (hid : Proper identifier) :
    OnLine identifier (line ++ ['\r']) kind ↔ OnLine identifier line kind := by
  have hreturn : EndsHere ['\r'] := by simp [EndsHere]
  constructor
  · rintro ⟨front, rest, heq, hf, hc⟩
    obtain ⟨hne, hlast⟩ := front_getLast? hid hf
    rcases List.eq_nil_or_concat rest with rfl | ⟨u, c, rfl⟩
    · rw [List.append_nil] at heq
      simp [← heq] at hlast
    · rw [List.concat_eq_append, ← List.append_assoc] at heq
      obtain ⟨rfl, hcr⟩ := List.append_inj' heq rfl
      rw [List.concat_eq_append, ← hcr] at hc
      exact ⟨front, u, rfl, hf, (closes_append hreturn kind).mp hc⟩
  · rintro ⟨front, rest, rfl, hf, hc⟩
    exact ⟨front, rest ++ ['\r'], by simp, hf, (closes_append hreturn kind).mpr hc⟩

theorem onLine_dropReturn {identifier : Text} {kind : Kind} (hid : Proper identifier)
    (line : Text) :
    OnLine identifier (Text.dropReturn line) kind ↔ OnLine identifier line kind := by
  rcases Text.dropReturn_cases line with h | h
  · conv_rhs => rw [h, onLine_append_return hid]
  · rw [← h]

end DefinitionSite.Catalog
