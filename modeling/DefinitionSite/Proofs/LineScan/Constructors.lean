import DefinitionSite.Proofs.LineScan.Signatures

/-! Constructors, on texts whose blanks raise no doubt: while the scan is inside a data declaration,
the lines since the one that opens it are a block of the text, and a constructor that it reports
stands behind a sign of that block. So the search finds a constructor there, no later. -/
namespace DefinitionSite.LineScan
open Regex Declared Catalog

variable {identifier text : Text}

theorem opensData_iff_opensData {line : Text} : opensData line = true ↔ OpensData line := by
  rw [opensData, Bool.or_eq_true, startsWith_iff, startsWith_iff]
  constructor
  · rintro (⟨rest, rfl⟩ | ⟨rest, rfl⟩)
    · exact ⟨' ', rest, rfl, rfl⟩
    · exact ⟨'\t', rest, rfl, rfl⟩
  · rintro ⟨c, rest, hc, rfl⟩
    rcases (Bool.or_eq_true _ _).mp hc with hc | hc
    · obtain rfl := beq_iff_eq.mp hc
      exact Or.inl ⟨rest, rfl⟩
    · obtain rfl := beq_iff_eq.mp hc
      exact Or.inr ⟨rest, rfl⟩

theorem isIndented_iff_indented {line : Text} : isIndented line = true ↔ Indented line := by
  cases line with
  | nil => simp [isIndented, Indented]
  | cons c line =>
    constructor
    · intro h
      exact ⟨c, line, by simpa [isIndented] using h, rfl⟩
    · rintro ⟨d, rest, hd, heq⟩
      obtain ⟨rfl, -⟩ := List.cons_eq_cons.mp heq
      simpa [isIndented] using hd

theorem inDataAt_step {inData : Bool} {lines : List Text} {k : Nat} {line : Text}
    (hget : lines[k]? = some line) :
    inDataAt inData lines (k + 1) = inDataAfter (inDataAt inData lines k) line := by
  simp [inDataAt, List.take_add_one, hget]

theorem previousAt_step {previous : Text} {lines : List Text} {k : Nat} {line : Text}
    (hget : lines[k]? = some line) : previousAt previous lines (k + 1) = line := by
  simp [previousAt, List.take_add_one, hget]

/-- While the scan is inside a data declaration, the lines behind the one that opens it are all
indented. -/
theorem inBlock_of_inDataAt {lines : List Text} {k : Nat} (hk : k ≤ lines.length)
    (h : inDataAt false lines k = true) : ∃ i, k = i + 1 ∧ ∃ first, InBlock lines first i := by
  induction k with
  | zero => simp at h
  | succ k ih =>
    refine ⟨k, rfl, ?_⟩
    obtain ⟨line, hget⟩ : ∃ line, lines[k]? = some line :=
      ⟨_, List.getElem?_eq_getElem (by omega)⟩
    rw [inDataAt_step hget, inDataAfter, Bool.or_eq_true, Bool.and_eq_true,
      opensData_iff_opensData, isIndented_iff_indented] at h
    rcases h with hopens | ⟨hin, hindented⟩
    · exact ⟨k, Nat.le_refl k, ⟨line, hget, hopens⟩, fun j hlt hle => absurd hlt (by omega)⟩
    · obtain ⟨i, rfl, first, hle, hfirst, hmore⟩ := ih (by omega) hin
      refine ⟨first, by omega, hfirst, fun j hlt hj => ?_⟩
      rcases Nat.lt_or_eq_of_le hj with hj | rfl
      · exact hmore j hlt (by omega)
      · exact ⟨line, hget, hindented⟩

/-- A constructor on the line that opens the declaration stands behind a sign. -/
theorem behindSign_of_onDataLine {line : Text}
    (h : (onDataLine identifier).occursIn line = true) : BehindSign identifier line := by
  obtain ⟨front, rest, rfl, hopens⟩ := occursIn_iff.mp h
  rw [onDataLine, List.append_assoc, List.cons_append, opens_seqAll_cons] at hopens
  obtain ⟨_, _, rfl, ⟨sign, hs, rfl⟩, hopens⟩ := hopens
  rw [List.singleton_append, opens_gaps_cons] at hopens
  obtain ⟨gap, _, hgap, rfl, hopens⟩ := hopens
  rw [opens_literal_append] at hopens
  obtain ⟨tail, rfl, hopens⟩ := hopens
  exact ⟨front, sign, gap, tail, (has_sign _).mp hs, hgap, (opens_boundary _ _).mp hopens, by simp⟩

/-- A constructor on a line that continues the declaration stands behind a sign of the line, or it
starts the line. -/
theorem line_of_onContinuation {line : Text} (hline : '\n' ∉ line)
    (h : (onContinuation identifier).occursIn line = true) :
    BehindSign identifier line ∨
      ∃ gap rest, gap ≠ [] ∧ Gaps gap ∧ Boundary rest ∧ line = gap ++ identifier ++ rest := by
  obtain ⟨front, rest, rfl, hopens⟩ := occursIn_iff.mp h
  rw [onContinuation, List.append_assoc, List.cons_append, opens_lineStart_cons, List.cons_append,
    opens_someGaps_cons, List.singleton_append] at hopens
  obtain ⟨hstart, gap, _, hne, hgap, rfl, hopens⟩ := hopens
  have hfront : front = [] := by
    by_contra hfront
    have hno : ¬ StartsLine ([] ++ front) :=
      Text.not_startsLine_append hfront fun hmem => hline (by simp [hmem])
    exact hno hstart
  subst hfront
  rw [opens_optional_cons] at hopens
  rcases hopens with hopens | hopens
  · rw [List.cons_append, opens_seqAll_cons] at hopens
    obtain ⟨_, _, rfl, ⟨sign, hs, rfl⟩, hopens⟩ := hopens
    rw [List.singleton_append, opens_gaps_cons] at hopens
    obtain ⟨gap', _, hgap', rfl, hopens⟩ := hopens
    rw [opens_literal_append] at hopens
    obtain ⟨tail, rfl, hopens⟩ := hopens
    exact Or.inl ⟨gap, sign, gap', tail, (has_sign _).mp hs, hgap',
      (opens_boundary _ _).mp hopens, by simp⟩
  · rw [opens_literal_append] at hopens
    obtain ⟨tail, rfl, hopens⟩ := hopens
    exact Or.inr ⟨gap, tail, hne, hgap, (opens_boundary _ _).mp hopens, by simp⟩

/-- If the line before ends in an equals sign once its blanks are trimmed, the sign stands before
gaps. -/
theorem exists_sign_of_endsWith {previous : Text}
    (hgaps : ∀ c ∈ previous, Text.isBlank c = true → Text.isGap c = true)
    (h : previous.trimRight.endsWith ['='] = true) :
    ∃ front sign gap, Sign sign ∧ Gaps gap ∧ previous = front ++ sign :: gap := by
  obtain ⟨front, hfront⟩ := List.isSuffixOf_iff_suffix.mp h
  have hlast : ∀ c ∈ (front ++ ['=']).getLast?, Text.isBlank c = false := by
    intro c hc
    obtain rfl : '=' = c := by simpa using hc
    decide
  obtain ⟨gap, hgap, heq⟩ := (trimRight_eq_iff hgaps hlast).mp hfront.symm
  exact ⟨front, '=', gap, Or.inl rfl, hgap, by simpa using heq⟩

/-- What the scan takes for a constructor stands behind a sign, on its line or on the line
before. -/
theorem behind_of_declaresConstructor (hname : Name identifier) {inData : Bool}
    {previous line : Text} (hline : '\n' ∉ line)
    (hgaps : ∀ c ∈ previous, Text.isBlank c = true → Text.isGap c = true)
    (h : declaresConstructor identifier inData previous line = true) :
    OpensData line ∧ BehindSign identifier line ∨ inData = true ∧ Indented line ∧
      (BehindSign identifier line ∨ BehindBreak identifier previous line) := by
  unfold declaresConstructor at h
  split at h
  · exact Or.inl ⟨opensData_iff_opensData.mp ‹_›, behindSign_of_onDataLine h⟩
  · simp only [Bool.and_eq_true] at h
    obtain ⟨⟨⟨hin, hindented⟩, hopens⟩, hoccurs⟩ := h
    refine Or.inr ⟨hin, isIndented_iff_indented.mp hindented, ?_⟩
    rcases line_of_onContinuation hline hoccurs with hsign | ⟨gap, rest, hne, hgap, hb, rfl⟩
    · exact Or.inl hsign
    · -- The line starts with the name and so with no sign, so the line before has to end in one.
      obtain ⟨c, letters, rfl, hc⟩ := hname.exists_cons
      have htrim : Text.trimLeft (gap ++ c :: letters ++ rest) = c :: (letters ++ rest) := by
        refine Text.trimLeft_eq_iff.mpr ⟨⟨gap, by simp, ?_⟩, ?_⟩
        · exact fun d hd => isBlank_of_isGap (hgap d hd)
        · intro d hd
          obtain rfl : c = d := by simpa using hd
          exact not_isBlank_of_isNameChar hc
      have hnosign : (c == '=' || c == '|') = false := by
        rw [Bool.or_eq_false_iff, beq_eq_false_iff_ne, beq_eq_false_iff_ne]
        constructor
        · rintro rfl
          exact absurd hc (by decide)
        · rintro rfl
          exact absurd hc (by decide)
      rw [opensConstructor, htrim] at hopens
      simp only [List.head?_cons, Option.any_some, hnosign, Bool.false_or] at hopens
      exact Or.inr ⟨exists_sign_of_endsWith hgaps hopens, gap, rest, hne, hgap, hb, rfl⟩

/-- On a plain text every constructor that the scan reports is one. -/
theorem defines_of_mem_scan (hname : Name identifier) (hplain : PlainBlanks text)
    {file : FileLabel} {m : Match} (hm : m ∈ scan identifier text file)
    (hkind : m.kind = .constructor) : ∃ i : Nat, m.lineIndex = i ∧
      Defines identifier (Text.physicalLines text) i .constructor := by
  obtain ⟨-, i, line, hget, heq, hkinds⟩ := mem_scan.mp hm
  obtain ⟨-, hgaps⟩ := hplain.splitLines
  refine ⟨i, by rw [heq], ?_⟩
  have hdeclares : declaresConstructor identifier (inDataAt false text.splitLines i)
      (previousAt [] text.splitLines i) line = true := by
    rcases mem_kindsOf.mp hkinds with h | ⟨h, -⟩ | ⟨-, h⟩
    · simp [hkind, Kind.isSingleLine] at h
    · simp [hkind] at h
    · exact h
  have hlt := (List.getElem?_eq_some_iff.mp hget).1
  have hbreak := Text.not_mem_of_mem_splitLines (List.mem_of_getElem? hget)
  have hprevious : ∀ c ∈ previousAt [] text.splitLines i, Text.isBlank c = true →
      Text.isGap c = true := by
    cases i with
    | zero => simp
    | succ i =>
      have hbefore := List.getElem?_eq_getElem (show i < text.splitLines.length by omega)
      rw [previousAt_step hbefore]
      exact hgaps _ (List.mem_of_getElem? hbefore)
  rcases behind_of_declaresConstructor hname hbreak hprevious hdeclares with
    ⟨hopens, hsign⟩ | ⟨hin, hindented, hfound⟩
  · exact ⟨i, line, ⟨Nat.le_refl i, ⟨line, hplain.getElem? hget, hopens⟩,
      fun j hj hj' => absurd hj (by omega)⟩, hplain.getElem? hget, Or.inl hsign⟩
  · obtain ⟨i, rfl, first, hle, ⟨opening, hopening, hopens⟩, hmore⟩ :=
      inBlock_of_inDataAt (by omega) hin
    have hbefore := List.getElem?_eq_getElem (show i < text.splitLines.length by omega)
    rw [previousAt_step hbefore] at hfound
    refine ⟨first, line, ⟨by omega, ⟨opening, hplain.getElem? hopening, hopens⟩, ?_⟩,
      hplain.getElem? hget, ?_⟩
    · intro j hlt' hj
      rcases Nat.lt_or_eq_of_le hj with hj | rfl
      · obtain ⟨next, hnext, hin'⟩ := hmore j hlt' (by omega)
        exact ⟨next, hplain.getElem? hnext, hin'⟩
      · exact ⟨line, hplain.getElem? hget, hindented⟩
    · exact hfound.imp id fun h => ⟨by omega, _, hplain.getElem? hbefore, h⟩

/-- The scan invents no definition that reaches over several lines: its signatures over two lines
are those of the search, and each of its constructors lies in a data declaration in which the search
finds a constructor on the same line or an earlier one. -/
theorem scan_invents_nothing (hname : Name identifier) (hplain : PlainBlanks text)
    (file : FileLabel) (path : Option FileLabel) :
    (∃ expression ms, Regex.read (patternText identifier .signatureNextLine) = .ok expression ∧
      Match.ofEvents .signatureNextLine (Event.find expression text path) = .ok ms ∧
      ((scan identifier text file).filter (·.kind = .signatureNextLine)).map (·.lineIndex) =
        ms.map (·.lineIndex)) ∧
    ∃ expression ms, Regex.read (patternText identifier .constructor) = .ok expression ∧
      Match.ofEvents .constructor (Event.find expression text path) = .ok ms ∧
      ∀ m ∈ scan identifier text file, m.kind = .constructor →
        ∃ i first j : Nat, m.lineIndex = i ∧ InBlock (Text.physicalLines text) first i ∧
          first ≤ j ∧ j ≤ i ∧ ∃ n ∈ ms, n.lineIndex = j := by
  have hid := hname.proper
  constructor
  · refine ⟨_, _, read_patternText identifier _, Match.ofEvents_find _ _ text path, ?_⟩
    exact indexes_eq_found hid (by decide) (neverOverlaps_nextLine hname)
      (nextLine_reported_iff hname hplain file) path
  · refine ⟨_, _, read_patternText identifier _, Match.ofEvents_find _ _ text path, ?_⟩
    intro m hm hkind
    obtain ⟨i, hindex, hdefines⟩ := defines_of_mem_scan hname hplain hm hkind
    obtain ⟨first, j, hblock, hle, hj, hfound⟩ := exists_found_constructor hid path hdefines
    exact ⟨i, first, j, hindex, hblock, hle, hj, hfound⟩

theorem scan_invents_nothing_leaf :
    Name (Text.of "Leaf") ∧ PlainBlanks (Text.of "data Tree =\r\n  Node\n  | Leaf") ∧
      (∃ expression ms, Regex.read (patternText (Text.of "Leaf") .signatureNextLine) =
          .ok expression ∧
        Match.ofEvents .signatureNextLine (Event.find expression
          (Text.of "data Tree =\r\n  Node\n  | Leaf") none) = .ok ms ∧
        ((scan (Text.of "Leaf") (Text.of "data Tree =\r\n  Node\n  | Leaf") .buffer).filter
          (·.kind = .signatureNextLine)).map (·.lineIndex) = ms.map (·.lineIndex)) ∧
      ∃ expression ms, Regex.read (patternText (Text.of "Leaf") .constructor) = .ok expression ∧
        Match.ofEvents .constructor (Event.find expression
          (Text.of "data Tree =\r\n  Node\n  | Leaf") none) = .ok ms ∧
        ∀ m ∈ scan (Text.of "Leaf") (Text.of "data Tree =\r\n  Node\n  | Leaf") .buffer,
          m.kind = .constructor → ∃ i first j : Nat, m.lineIndex = i ∧
            InBlock (Text.physicalLines (Text.of "data Tree =\r\n  Node\n  | Leaf")) first i ∧
            first ≤ j ∧ j ≤ i ∧ ∃ n ∈ ms, n.lineIndex = j := by
  have hname : Name (Text.of "Leaf") := ⟨by decide, List.all_eq_true.mp (by decide)⟩
  have hplain : PlainBlanks (Text.of "data Tree =\r\n  Node\n  | Leaf") := by
    constructor
    · have hall : (Text.of "data Tree =\r\n  Node\n  | Leaf").all
          (fun c => !Text.isBlank c || [' ', '\t', '\n', '\r'].contains c) = true := by decide
      intro c hc hblank
      simpa [hblank] using List.all_eq_true.mp hall c hc
    · decide
  exact ⟨hname, hplain, scan_invents_nothing hname hplain .buffer none⟩

end DefinitionSite.LineScan
