import DefinitionSite.Proofs.LineScan.Plain

/-! Signatures that go on in the next line, on texts whose blanks raise no doubt: the scan reports
the lines that are one, and no search loses one of them. -/
namespace DefinitionSite.LineScan
open Regex Declared Catalog

variable {identifier text : Text}

theorem startsWith_iff {text letters : Text} :
    Text.startsWith text letters = true ↔ ∃ rest, text = letters ++ rest := by
  rw [Text.startsWith, List.isPrefixOf_iff_prefix]
  constructor
  · rintro ⟨rest, rfl⟩
    exact ⟨rest, rfl⟩
  · rintro ⟨rest, rfl⟩
    exact ⟨rest, rfl⟩

/-- Where blanks are gaps, a line starts with a type sign once its blanks are trimmed just if it
starts with one behind gaps. -/
theorem typeSign_iff {next : Text}
    (hgaps : ∀ c ∈ next, Text.isBlank c = true → Text.isGap c = true) :
    next.trimLeft.startsWith (Text.of "::") = true ↔
      ∃ gap rest, Gaps gap ∧ next = gap ++ Text.of "::" ++ rest := by
  rw [startsWith_iff]
  constructor
  · rintro ⟨rest, hrest⟩
    obtain ⟨⟨gap, rfl, hblank⟩, -⟩ := Text.trimLeft_eq_iff.mp hrest
    exact ⟨gap, rest, fun c hc => hgaps c (List.mem_append_left _ hc) (hblank c hc), by simp⟩
  · rintro ⟨gap, rest, hgap, rfl⟩
    refine ⟨rest, Text.trimLeft_eq_iff.mpr ⟨⟨gap, by simp, ?_⟩, ?_⟩⟩
    · exact fun c hc => isBlank_of_isGap (hgap c hc)
    · intro c hc
      obtain rfl : ':' = c := by simpa using hc
      decide

theorem startsSignature_iff (hid : Proper identifier) {line : Text} {following : List Text}
    (hline : ∀ c ∈ line, Text.isBlank c = true → Text.isGap c = true)
    (hnext : ∀ next ∈ following, ∀ c ∈ next, Text.isBlank c = true → Text.isGap c = true) :
    startsSignature identifier line following = true ↔
      ∃ next, following.head? = some next ∧ OverTwoLines identifier line next := by
  have hlast := (Text.not_blank_of_trim_eq hid.trimmed).2
  rw [startsSignature, Bool.and_eq_true, beq_iff_eq, trimRight_eq_iff hline hlast]
  cases following with
  | nil => simp
  | cons next rest =>
    simp only [List.head?_cons, Option.any_some, Option.some.injEq, exists_eq_left', OverTwoLines,
      typeSign_iff (hnext next List.mem_cons_self)]

/-- On a plain text the scan reports a signature over two lines for just the lines that are one. -/
theorem nextLine_reported_iff (hname : Name identifier) (hplain : PlainBlanks text)
    (file : FileLabel) (i : Nat) :
    (∃ m ∈ scan identifier text file, m.kind = .signatureNextLine ∧ m.lineIndex = i) ↔
      Defines identifier (Text.physicalLines text) i .signatureNextLine := by
  have hid := hname.proper
  obtain ⟨⟨tail, htail, hlines⟩, hgaps⟩ := hplain.splitLines
  have hstarts : ∀ line, (Text.splitLines text)[i]? = some line →
      (startsSignature identifier line ((Text.splitLines text).drop (i + 1)) = true ↔
        ∃ next, (Text.splitLines text)[i + 1]? = some next ∧
          OverTwoLines identifier line next) := by
    intro line hget
    rw [startsSignature_iff hid (hgaps line (List.mem_of_getElem? hget))
      (fun next hnext => hgaps next (List.mem_of_mem_drop hnext)), List.head?_drop]
  constructor
  · rintro ⟨m, hm, hkind, hindex⟩
    obtain ⟨-, j, line, hget, heq, hkinds⟩ := mem_scan.mp hm
    obtain rfl : i = j := by
      rw [heq] at hindex
      exact Int.ofNat.inj hindex.symm
    have hstart : startsSignature identifier line (text.splitLines.drop (i + 1)) = true := by
      rcases mem_kindsOf.mp hkinds with h | ⟨-, h⟩ | ⟨h, -⟩
      · simp [hkind, Kind.isSingleLine] at h
      · exact h
      · simp [hkind] at h
    obtain ⟨next, hnext, hover⟩ := (hstarts line hget).mp hstart
    exact ⟨line, next, hplain.getElem? hget, hplain.getElem? hnext, hover⟩
  · rintro ⟨line, next, hget, hnext, hover⟩
    have hne : next ≠ [] := by
      obtain ⟨-, gap, rest, -, rfl⟩ := hover
      simp
    have hlt : i + 1 < (Text.splitLines text).length := by
      by_contra hge
      rw [hlines, List.getElem?_append_right (by omega)] at hnext
      rcases htail with rfl | rfl
      · simp at hnext
      · exact hne (List.mem_singleton.mp (List.mem_of_getElem? hnext))
    rw [hlines, List.getElem?_append_left (by omega)] at hget
    rw [hlines, List.getElem?_append_left hlt] at hnext
    refine ⟨⟨.signatureNextLine, file, i, line⟩,
      mem_scan.mpr ⟨?_, i, line, hget, rfl, ?_⟩, rfl, rfl⟩
    · rintro rfl
      simp [Text.splitLines_last List.not_mem_nil] at hlt
    · exact mem_kindsOf.mpr (Or.inr (Or.inl ⟨rfl, (hstarts line hget).mpr ⟨next, hnext, hover⟩⟩))

/-- A name is no type sign, so no signature over two lines starts inside another. -/
theorem neverOverlaps_nextLine (hname : Name identifier) :
    (regex identifier .signatureNextLine).NeverOverlaps := by
  intro before u v after hu _ hw hopens
  obtain ⟨u, c, rfl⟩ := List.eq_nil_or_concat u |>.resolve_left hu
  obtain rfl : c = '\n' := startsLine_of_opens hopens c (by simp)
  obtain ⟨front, gap, heq, hfront, hgap⟩ := exists_of_spells_nextLine hname.proper.one_line hw
  rw [List.concat_eq_append, List.append_assoc, List.singleton_append] at heq
  have hrest : '\n' ∉ gap ++ Text.of "::" := by simp [gaps_not_mem hgap]
  obtain ⟨-, -, rfl⟩ := (List.append_cons_inj_of_notMem hfront hrest).mp heq.symm
  obtain ⟨d, rest, rfl, hd⟩ := hname.exists_cons
  obtain ⟨-, gap', br, gap'', tail, -, -, -, htext⟩ := opens_signatureNextLine.mp hopens
  cases gap with
  | nil =>
    obtain rfl : ':' = d := (List.cons_eq_cons.mp htext).1
    exact absurd hd (by decide)
  | cons g gap =>
    obtain rfl : g = d := (List.cons_eq_cons.mp htext).1
    have hblank := isBlank_of_isGap (hgap g List.mem_cons_self)
    rw [not_isBlank_of_isNameChar hd] at hblank
    simp at hblank

end DefinitionSite.LineScan
