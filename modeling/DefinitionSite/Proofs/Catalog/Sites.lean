import DefinitionSite.Proofs.Catalog.Words

/-! For every kind but the constructor, the expression matches at the start of a line just if the
line is a definition of the kind. -/
namespace DefinitionSite.Catalog
open Regex Declared

variable {identifier before text : Text}

theorem opens_signatureNextLine :
    Opens (regex identifier .signatureNextLine) before text ↔
      StartsLine before ∧ ∃ gap br gap' rest, Gaps gap ∧ (br = ['\n'] ∨ br = ['\r', '\n']) ∧
        Gaps gap' ∧ text = identifier ++ gap ++ br ++ (gap' ++ Text.of "::" ++ rest) := by
  simp only [regex, items, List.append_assoc, List.cons_append, List.nil_append,
    opens_lineStart_cons, opens_literal_append, opens_gaps_cons, opens_lineBreak_append,
    opens_char_cons]
  refine and_congr_right fun _ => ?_
  constructor
  · rintro ⟨_, rfl, gap, _, hg, rfl, br, _, hbr, rfl, gap', _, hg', rfl, _, rfl, rest, rfl, -⟩
    exact ⟨gap, br, gap', rest, hg, hbr, hg', by simp⟩
  · rintro ⟨gap, br, gap', rest, hg, hbr, hg', rfl⟩
    exact ⟨gap ++ (br ++ (gap' ++ (Text.of "::" ++ rest))), by simp, gap, _, hg, rfl, br, _, hbr,
      rfl, gap', _, hg', rfl, ':' :: rest, rfl, rest, rfl, opens_seqAll_nil _ _⟩

/-- A word for a signature over two lines holds one line feed, with the type sign behind it. -/
theorem exists_of_spells_nextLine (hid : '\n' ∉ identifier) {word after : Text}
    (hw : Spells (regex identifier .signatureNextLine) before word after) :
    ∃ front gap, word = front ++ '\n' :: (gap ++ Text.of "::") ∧ '\n' ∉ front ∧ Gaps gap := by
  rw [regex, items, List.append_assoc, spells_seqAll_append] at hw
  obtain ⟨front, _, rfl, hspells, hrest⟩ := hw
  obtain ⟨br, _, rfl, hbr, gap, _, rfl, hgap, _, _, rfl, rfl, _, _, rfl, rfl, rfl⟩ :=
    (spells_seqAll_append _ _ _ _ _).mp hrest
  have hfront : '\n' ∉ front := by
    refine not_mem_of_avoids ?_ hspells
    have hgaps : gaps.avoids '\n' = true := by decide
    simp [avoids_seqAll, avoids_literal hid, avoids, hgaps]
  rcases (spells_lineBreak _ _ _).mp hbr with rfl | rfl
  · exact ⟨front, gap, by simp, hfront, (spells_gaps _ _ _).mp hgap⟩
  · exact ⟨front ++ ['\r'], gap, by simp, by simpa using hfront, (spells_gaps _ _ _).mp hgap⟩

/-- A line that starts with a type sign behind gaps does so with or without a carriage return at
its end. -/
theorem exists_typeSign_iff {line tail : Text} (htail : EndsLine tail) :
    (∃ gap rest, Gaps gap ∧ line ++ tail = gap ++ Text.of "::" ++ rest) ↔
      ∃ gap rest, Gaps gap ∧ Text.dropReturn line = gap ++ Text.of "::" ++ rest := by
  have hsign : ∀ gap : Text, (gap ++ Text.of "::").getLast? ≠ some '\r' := by simp
  constructor
  · rintro ⟨gap, rest, hg, heq⟩
    have hfront : '\n' ∉ gap ++ Text.of "::" := by simp [gaps_not_mem hg]
    obtain ⟨x, hx, -⟩ := Text.exists_eq_append_of_line htail hfront heq
    obtain ⟨r, hr⟩ :=
      (Text.exists_dropReturn_eq_append (hsign gap) line).mpr ⟨x, hx⟩
    exact ⟨gap, r, hg, hr⟩
  · rintro ⟨gap, rest, hg, heq⟩
    obtain ⟨r, rfl⟩ :=
      (Text.exists_dropReturn_eq_append (hsign gap) line).mp ⟨rest, heq⟩
    exact ⟨gap, r ++ tail, hg, by simp⟩

/-- Neither the identifier nor gaps end with a carriage return. -/
theorem getLast?_name_gaps (hid : Proper identifier) {gap : Text} (hg : Gaps gap) :
    (identifier ++ gap).getLast? ≠ some '\r' := by
  intro hlast
  rcases List.eq_nil_or_concat gap with rfl | ⟨u, c, rfl⟩
  · have := (Text.not_blank_of_trim_eq hid.trimmed).2 '\r' (by simpa using hlast)
    simp [isBlank_return] at this
  · obtain rfl : c = '\r' := by simpa using hlast
    have := hg '\r' (by simp)
    simp [Text.isGap] at this

theorem opens_nextLine_iff (hid : Proper identifier) :
    Opens (regex identifier .signatureNextLine) before text ↔
      StartsLine before ∧ ∃ line next, (Text.physicalLines text)[0]? = some line ∧
        (Text.physicalLines text)[1]? = some next ∧ OverTwoLines identifier line next := by
  rw [opens_signatureNextLine]
  refine and_congr_right fun _ => ?_
  constructor
  · rintro ⟨gap, br, gap', rest, hg, hbr, hg', rfl⟩
    have hline : '\n' ∉ identifier ++ gap := by simp [hid.one_line, gaps_not_mem hg]
    obtain ⟨next, tail, hnext, -, htail, hget⟩ :=
      Text.exists_first_line (gap' ++ Text.of "::" ++ rest)
    rw [List.append_assoc (identifier ++ gap),
      Text.physicalLines_append_break hline (getLast?_name_gaps hid hg) hbr]
    refine ⟨identifier ++ gap, Text.dropReturn next, rfl, by simpa using hget, ⟨gap, hg, rfl⟩, ?_⟩
    exact (exists_typeSign_iff htail).mp ⟨gap', rest, hg', hnext.symm⟩
  · rintro ⟨line, next, hget, hget', ⟨gap, hg, rfl⟩, hsign⟩
    have hbreak : '\n' ∈ text := by
      by_contra hno
      simp [Text.physicalLines_last hno] at hget'
    obtain ⟨raw, rest, rfl, hraw⟩ := List.eq_append_cons_of_mem hbreak
    rw [Text.physicalLines_append hraw] at hget hget'
    obtain ⟨raw', tail, rfl, -, htail, hfirst⟩ := Text.exists_first_line rest
    have heq : Text.dropReturn raw = identifier ++ gap := by simpa using hget
    have heq' : Text.dropReturn raw' = next := by
      simpa [hfirst] using hget'
    obtain ⟨gap', r, hg', hr⟩ := (exists_typeSign_iff htail).mpr (heq' ▸ hsign)
    rw [hr]
    rcases Text.dropReturn_cases raw with hcr | hcr
    · exact ⟨gap, ['\r', '\n'], gap', r, hg, Or.inr rfl, hg', by rw [hcr, heq]; simp⟩
    · exact ⟨gap, ['\n'], gap', r, hg, Or.inl rfl, hg', by rw [hcr, heq]; simp⟩

/-- The expression of a kind that names the definition in its first line matches at the start of a
line just if that line is a definition of the kind. -/
theorem opens_iff_defines (hid : Proper identifier) {kind : Kind} (hkind : kind ≠ .constructor)
    (hstart : StartsLine before) :
    Opens (regex identifier kind) before text ↔
      Defines identifier (Text.physicalLines (before ++ text)) (before.count '\n') kind := by
  have hget := Text.getElem?_physicalLines hstart text
  by_cases hone : kind.isSingleLine = true
  · obtain ⟨line, tail, rfl, hline, htail, hfirst⟩ := Text.exists_first_line text
    have hsite : Defines identifier (Text.physicalLines (before ++ (line ++ tail)))
        (before.count '\n') kind ↔ OnLine identifier (Text.dropReturn line) kind := by
      have hzero := hget 0
      rw [Nat.add_zero, hfirst] at hzero
      cases kind <;> simp_all [Defines, Kind.isSingleLine]
    rw [opens_regex_iff hid.one_line _ _ hone, hsite, onLine_dropReturn hid,
      opensLine_iff hline htail]
    exact and_iff_right hstart
  · obtain rfl : kind = .signatureNextLine := by
      cases kind <;> simp_all [Kind.isSingleLine]
    rw [opens_nextLine_iff hid]
    have hzero := hget 0
    rw [Nat.add_zero] at hzero
    simp only [Defines, hzero, hget 1]
    exact and_iff_right hstart

end DefinitionSite.Catalog
