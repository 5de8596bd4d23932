import DefinitionSite.Proofs.LineScan.Constructors

/-! Every definition of an identifier names it as a whole: on its line, and so in its text, the
identifier stands between characters that are no part of a name. -/
namespace DefinitionSite.Declared

/-- The character can be no part of a name. -/
def Apart (c : Char) : Prop := Text.isWord c = false ∧ c ≠ '\''

/-- The text before a name does not run into the name. -/
def Detached (front : Text) : Prop := ∀ c ∈ front.getLast?, Apart c

/-- The identifier occurs in the text as a whole and not only inside of longer names. -/
def HoldsName (identifier text : Text) : Prop :=
  ∃ front rest, Detached front ∧ Boundary rest ∧ text = front ++ (identifier ++ rest)

variable {identifier line text : Text}

theorem apart_of_isBlank {c : Char} (h : Text.isBlank c = true) : Apart c := by
  have hblanks : (Text.blankSpans.all fun span =>
      (List.range' span.1 (span.2 + 1 - span.1)).all fun n =>
        !Text.inSpans n Text.wordSpans && n != 39) = true := by decide +kernel
  obtain ⟨span, hspan, hlo, hhi⟩ := LineScan.exists_of_inSpans h
  have hmem : c.toNat ∈ List.range' span.1 (span.2 + 1 - span.1) := by
    rw [List.mem_range'_1]
    omega
  have hplain := List.all_eq_true.mp (List.all_eq_true.mp hblanks span hspan) _ hmem
  simp only [Bool.and_eq_true, Bool.not_eq_true', bne_iff_ne] at hplain
  refine ⟨hplain.1, ?_⟩
  rintro rfl
  exact hplain.2 rfl

theorem apart_of_isGap {c : Char} (h : Text.isGap c = true) : Apart c :=
  apart_of_isBlank (Catalog.isBlank_of_isGap h)

theorem apart_sign {c : Char} (h : Sign c) : Apart c := by
  rcases h with rfl | rfl <;> exact ⟨by decide, by decide⟩

theorem detached_nil : Detached [] := by
  simp [Detached]

/-- Gaps keep what stands before them apart from what stands behind them. -/
theorem detached_gaps {front gap : Text} (hgap : Gaps gap) (h : gap ≠ [] ∨ Detached front) :
    Detached (front ++ gap) := by
  rcases List.eq_nil_or_concat gap with rfl | ⟨u, c, rfl⟩
  · simpa using h
  · intro d hd
    obtain rfl : c = d := by simpa using hd
    exact apart_of_isGap (hgap c (by simp))

theorem detached_concat {front : Text} {c : Char} (h : Apart c) : Detached (front ++ [c]) := by
  intro d hd
  obtain rfl : c = d := by simpa using hd
  exact h

theorem boundary_cons {c : Char} {rest : Text} (h : Apart c) : Boundary (c :: rest) := by
  intro d hd
  obtain rfl : c = d := by simpa using hd
  exact h

theorem boundary_gaps {gap rest : Text} (hgap : ∀ c ∈ gap, Text.isBlank c = true)
    (hrest : Boundary rest) : Boundary (gap ++ rest) := by
  cases gap with
  | nil => exact hrest
  | cons c gap => exact boundary_cons (apart_of_isBlank (hgap c List.mem_cons_self))

theorem boundary_nil : Boundary [] := by
  simp [Boundary]

theorem boundary_typeSign (rest : Text) : Boundary (Text.of "::" ++ rest) :=
  boundary_cons ⟨by decide, by decide⟩

theorem boundary_equals (rest : Text) : Boundary (Text.of "=" ++ rest) :=
  boundary_cons (apart_sign (Or.inl rfl))

theorem holdsName_of_keyword {keyword : String} {name rest : Text}
    (h : Keyword keyword identifier name) (hrest : Boundary rest) (front : Text) :
    HoldsName identifier (front ++ (name ++ rest)) := by
  obtain ⟨gap, hne, hgap, rfl⟩ := h
  exact ⟨front ++ Text.of keyword ++ gap, rest, detached_gaps hgap (Or.inl hne), hrest, by simp⟩

/-- A definition on one line holds the name as a whole. -/
theorem holdsName_of_onLine {kind : Kind} (h : OnLine identifier line kind) :
    HoldsName identifier line := by
  obtain ⟨front, rest, rfl, hfront, hcloses⟩ := h
  have hblank : ∀ {gap : Text}, Gaps gap → ∀ c ∈ gap, Text.isBlank c = true :=
    fun hgap c hc => Catalog.isBlank_of_isGap (hgap c hc)
  cases kind with
  | signatureSameLine =>
    obtain ⟨gap, hgap, rfl⟩ := hfront
    exact ⟨[], gap ++ (Text.of "::" ++ rest), detached_nil,
      boundary_gaps (hblank hgap) (boundary_typeSign rest), by simp⟩
  | assignment =>
    obtain ⟨gap, hgap, rfl⟩ := hfront
    exact ⟨[], gap ++ (Text.of "=" ++ rest), detached_nil,
      boundary_gaps (hblank hgap) (boundary_equals rest), by simp⟩
  | dataDecl => exact holdsName_of_keyword hfront hcloses []
  | typeDecl => exact holdsName_of_keyword hfront hcloses []
  | newtypeDecl => exact holdsName_of_keyword hfront hcloses []
  | classDecl =>
    obtain ⟨gap, context, hne, hgap, hcontext, rfl⟩ := hfront
    rcases hcontext with rfl | ⟨constraint, gap', -, hgap', rfl⟩
    · exact ⟨Text.of "class" ++ gap, rest, detached_gaps hgap (Or.inl hne), hcloses, by simp⟩
    · have hdetached : Detached (Text.of "class" ++ gap ++ (constraint ++ Text.of "=") ++ ['>']) :=
        detached_concat ⟨by decide, by decide⟩
      exact ⟨_, rest, detached_gaps hgap' (Or.inr hdetached), hcloses, by simp⟩
  | typeFamily =>
    obtain ⟨gap, name, -, -, hname, rfl⟩ := hfront
    rw [List.append_assoc]
    exact holdsName_of_keyword hname hcloses _
  | dataFamily =>
    obtain ⟨gap, name, -, -, hname, rfl⟩ := hfront
    rw [List.append_assoc]
    exact holdsName_of_keyword hname hcloses _
  | patternSynonym =>
    obtain ⟨gap, name, hname, hgap, rfl⟩ := hfront
    have hrest := boundary_gaps (hblank hgap) (boundary_typeSign rest)
    simpa using holdsName_of_keyword hname hrest []
  | signatureNextLine | constructor => exact hfront.elim

theorem holdsName_of_behindSign (h : BehindSign identifier line) : HoldsName identifier line := by
  obtain ⟨front, sign, gap, rest, hsign, hgap, hrest, rfl⟩ := h
  have hdetached : Detached (front ++ [sign]) := detached_concat (apart_sign hsign)
  exact ⟨front ++ [sign] ++ gap, rest, detached_gaps hgap (Or.inr hdetached), hrest, by simp⟩

theorem holdsName_behind_gaps {gap rest : Text} (hne : gap ≠ []) (hgap : Gaps gap)
    (hrest : Boundary rest) : HoldsName identifier (gap ++ identifier ++ rest) := by
  have hdetached : Detached ([] ++ gap) := detached_gaps hgap (Or.inl hne)
  exact ⟨[] ++ gap, rest, hdetached, hrest, by simp⟩

/-- The line of a definition holds the name as a whole, whatever the kind. -/
theorem holdsName_of_defines {lines : List Text} {i : Nat} {kind : Kind}
    (hline : lines[i]? = some line) (h : Defines identifier lines i kind) :
    HoldsName identifier line := by
  by_cases hone : kind.isSingleLine = true
  · have hdefines : ∃ line, lines[i]? = some line ∧ OnLine identifier line kind := by
      cases kind <;> simp_all [Kind.isSingleLine, Defines]
    obtain ⟨other, hget, hon⟩ := hdefines
    rw [hline] at hget
    obtain rfl := Option.some.inj hget
    exact holdsName_of_onLine hon
  · cases kind with
    | signatureNextLine =>
      obtain ⟨other, next, hget, -, ⟨gap, hgap, rfl⟩, -⟩ := h
      rw [hline] at hget
      obtain rfl := Option.some.inj hget
      refine ⟨[], gap, detached_nil, ?_, by simp⟩
      rw [← List.append_nil gap]
      exact boundary_gaps (fun c hc => Catalog.isBlank_of_isGap (hgap c hc)) boundary_nil
    | constructor =>
      obtain ⟨first, other, -, hget, hbehind⟩ := h
      rw [hline] at hget
      obtain rfl := Option.some.inj hget
      rcases hbehind with hsign | ⟨-, previous, -, -, gap, rest, hne, hgap, hrest, rfl⟩
      · exact holdsName_of_behindSign hsign
      · exact holdsName_behind_gaps hne hgap hrest
    | _ => exact absurd rfl hone

/-- The line stands in the text between line breaks. -/
def LineOf (line text : Text) : Prop :=
  ∃ before after, Regex.StartsLine before ∧ Catalog.EndsHere after ∧
    text = before ++ (line ++ after)

theorem lineOf_more {front : Text} (h : LineOf line text) :
    LineOf line (front ++ '\n' :: text) := by
  obtain ⟨before, after, hbefore, hafter, rfl⟩ := h
  refine ⟨front ++ '\n' :: before, after, ?_, hafter, by simp⟩
  rcases Text.startsLine_iff.mp hbefore with rfl | ⟨u, rfl⟩
  · exact Text.startsLine_append_break front
  · have hstart := Text.startsLine_append_break (front ++ '\n' :: u)
    simpa using hstart

theorem lineOf_first {tail : Text} (htail : Regex.EndsLine tail) :
    LineOf (Text.dropReturn line) (line ++ tail) := by
  obtain ⟨cr, hcr, hline⟩ := Text.exists_eq_dropReturn_append line
  refine ⟨[], cr ++ tail, Text.startsLine_nil, ?_, ?_⟩
  · rcases hcr with rfl | rfl
    · exact Catalog.endsHere_of_endsLine htail
    · simp [Catalog.EndsHere]
  · conv_lhs => rw [hline]
    simp

theorem lineOf_of_mem_physicalLines (h : line ∈ Text.physicalLines text) : LineOf line text := by
  induction text using Text.line_induction with
  | last raw hraw =>
    rw [Text.physicalLines_last hraw, List.mem_singleton] at h
    rw [h]
    have hfirst : LineOf (Text.dropReturn raw) (raw ++ []) :=
      lineOf_first (by simp [Regex.EndsLine])
    simpa using hfirst
  | more raw rest hraw ih =>
    rw [Text.physicalLines_append hraw] at h
    rcases List.mem_cons.mp h with rfl | h
    · exact lineOf_first (by simp [Regex.EndsLine])
    · exact lineOf_more (ih h)

theorem lineOf_of_mem_splitLines (h : line ∈ Text.splitLines text) : LineOf line text := by
  induction text using Text.line_induction with
  | last raw hraw =>
    rw [Text.splitLines_last hraw, List.mem_singleton] at h
    exact ⟨[], [], Text.startsLine_nil, by simp [Catalog.EndsHere], by simp [h]⟩
  | more raw rest hraw ih =>
    rw [Text.splitLines_break hraw] at h
    rcases List.mem_cons.mp h with rfl | h
    · exact lineOf_first (by simp [Regex.EndsLine])
    · split_ifs at h with hrest
      · exact absurd h List.not_mem_nil
      · exact lineOf_more (ih h)

/-- A name that a line holds as a whole is held by the text as a whole. -/
theorem holdsName_of_lineOf (hline : LineOf line text) (h : HoldsName identifier line) :
    HoldsName identifier text := by
  obtain ⟨front, rest, hfront, hrest, rfl⟩ := h
  obtain ⟨before, after, hbefore, hafter, rfl⟩ := hline
  refine ⟨before ++ front, rest ++ after, ?_, (Catalog.boundary_append hafter).mpr hrest, by simp⟩
  rcases List.eq_nil_or_concat front with rfl | ⟨u, c, rfl⟩
  · intro c hc
    obtain rfl := hbefore c (by simpa using hc)
    exact apart_of_isBlank (by decide)
  · rw [List.concat_eq_append] at hfront ⊢
    rw [← List.append_assoc]
    exact detached_concat (hfront c (by simp))

end DefinitionSite.Declared
