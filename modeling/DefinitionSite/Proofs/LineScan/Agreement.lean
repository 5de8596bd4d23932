import Mathlib.Data.List.Sort
import DefinitionSite.Proofs.Catalog.Found
import DefinitionSite.Proofs.Catalog.Reading
import DefinitionSite.Proofs.LineScan.Indexes

/-! The line scan and the search through a whole text agree on the kinds that stand on one line. -/
namespace DefinitionSite.LineScan
open Regex Declared Catalog

variable {identifier text : Text} {kind : Kind}

/-- A line by itself matches the expression of a kind just if it is a definition of the kind. -/
theorem occursIn_iff_onLine (hid : Proper identifier) (hkind : kind.isSingleLine = true)
    {line : Text} (hline : '\n' ∉ line) :
    (regex identifier kind).occursIn line = true ↔ OnLine identifier line kind := by
  have hhere : Opens (regex identifier kind) [] line ↔ OnLine identifier line kind := by
    have htail : EndsLine ([] : Text) := by simp [EndsLine]
    rw [opens_regex_iff hid.one_line _ _ hkind, and_iff_right Text.startsLine_nil]
    simpa using opensLine_iff hline htail kind
  rw [occursIn_iff, ← hhere]
  constructor
  · rintro ⟨u, v, rfl, hopens⟩
    by_cases hu : u = []
    · subst hu
      exact hopens
    · have hbreak : '\n' ∉ u := fun hmem => hline (by simp [hmem])
      have hno : ¬ StartsLine ([] ++ u) := Text.not_startsLine_append hu hbreak
      exact absurd (startsLine_of_opens hopens) hno
  · intro hopens
    exact ⟨[], line, rfl, hopens⟩

/-- The scan reports a kind for the lines that have it. -/
theorem mem_scan {file : FileLabel} {m : Match} : m ∈ scan identifier text file ↔
    text ≠ [] ∧ ∃ (i : Nat) (line : Text), text.splitLines[i]? = some line ∧
      m = ⟨m.kind, file, i, line⟩ ∧
      m.kind ∈ kindsOf identifier (inDataAt false text.splitLines i)
        (previousAt [] text.splitLines i) line (text.splitLines.drop (i + 1)) := by
  by_cases htext : text = []
  · simp [scan, htext]
  · have hempty : text.isEmpty = false := by simpa using htext
    rw [scan, hempty]
    simp only [Bool.false_eq_true, ↓reduceIte, mem_scanLines, Nat.zero_add, ne_eq, htext,
      not_false_eq_true, true_and]

/-- What the scan reports is in the scanned file. -/
theorem file_of_mem_scan {file : FileLabel} {m : Match} (h : m ∈ scan identifier text file) :
    m.file = file := by
  obtain ⟨-, i, line, -, hm, -⟩ := mem_scan.mp h
  rw [hm]

/-- If the scan reports a kind for just the lines that are definitions of the kind, it reports the
same lines as the search through the text, in the same order. -/
theorem indexes_eq_found (hid : Proper identifier) (hkind : kind ≠ .constructor)
    (hover : (regex identifier kind).NeverOverlaps) {file : FileLabel}
    (hsame : ∀ i : Nat, (∃ m ∈ scan identifier text file, m.kind = kind ∧ m.lineIndex = i) ↔
      Defines identifier (Text.physicalLines text) i kind) (path : Option FileLabel) :
    ((scan identifier text file).filter (·.kind = kind)).map (·.lineIndex) =
      (found identifier kind text path).map (·.lineIndex) := by
  have hfound : (found identifier kind text path).map (·.lineIndex) =
      (startLines identifier kind text).map Int.ofNat := by
    rw [found, startLines, List.map_map, List.map_map]
    refine List.map_congr_left fun span hspan => ?_
    obtain ⟨-, i, line, hnamed, -, hmatch⟩ := named_of_mem hid path hspan
    rw [namedAt_of_ne hkind] at hnamed
    simp [hmatch, hnamed]
  have hscan : ((scan identifier text file).filter (·.kind = kind)).Pairwise
      fun a b => a.lineIndex < b.lineIndex := by
    unfold scan
    split
    · exact List.Pairwise.nil
    · exact pairwise_scanLines kind 0 false [] text.splitLines
  have hstarts := pairwise_startLines hid.ne_nil kind text
  rw [hfound]
  refine (List.pairwise_map.mpr hscan).eq_of_mem_iff (List.pairwise_map.mpr ?_) ?_
  · exact hstarts.imp fun h => Int.ofNat_lt.mpr h
  · intro index
    constructor
    · intro hmem
      obtain ⟨m, hm, rfl⟩ := List.mem_map.mp hmem
      obtain ⟨hm, hk⟩ := List.mem_filter.mp hm
      obtain ⟨-, i, line, -, heq, -⟩ := mem_scan.mp hm
      have hindex : m.lineIndex = i := by rw [heq]
      have hdefines := (hsame i).mp ⟨m, hm, by simpa using hk, hindex⟩
      rw [hindex]
      exact List.mem_map.mpr ⟨i, (mem_startLines_iff hid hover i).mpr
        ((startsAt_of_ne hkind _ i).mpr hdefines), rfl⟩
    · intro hmem
      obtain ⟨i, hi, rfl⟩ := List.mem_map.mp hmem
      have hdefines := (startsAt_of_ne hkind _ i).mp ((mem_startLines_iff hid hover i).mp hi)
      obtain ⟨m, hm, hk, hindex⟩ := (hsame i).mpr hdefines
      exact List.mem_map.mpr ⟨m, List.mem_filter.mpr ⟨hm, by simpa using hk⟩, hindex⟩

theorem not_onLine_nil (hid : Proper identifier) (hkind : kind.isSingleLine = true) :
    ¬ OnLine identifier [] kind := by
  intro h
  have hopens := (opens_regex_iff hid.one_line [] [] hkind).mpr ⟨Text.startsLine_nil, ?_⟩
  · obtain ⟨word, after, heq, hw⟩ := hopens
    exact consumes_regex hid.ne_nil kind [] word after hw (List.append_eq_nil_iff.mp heq.symm).1
  · have htail : EndsLine ([] : Text) := by simp [EndsLine]
    simpa using (opensLine_iff List.not_mem_nil htail kind).mpr h

theorem reported_iff_defines (hid : Proper identifier) (hkind : kind.isSingleLine = true)
    (text : Text) (file : FileLabel) (i : Nat) :
    (∃ m ∈ scan identifier text file, m.kind = kind ∧ m.lineIndex = i) ↔
      Defines identifier (Text.physicalLines text) i kind := by
  have hdefines : Defines identifier (Text.physicalLines text) i kind ↔
      ∃ line, (Text.splitLines text)[i]? = some line ∧ OnLine identifier line kind := by
    rw [Text.exists_splitLines_iff (onLine_dropReturn hid) (not_onLine_nil hid hkind)]
    cases kind <;> simp_all [Defines, Kind.isSingleLine]
  rw [hdefines]
  constructor
  · rintro ⟨m, hm, rfl, hindex⟩
    obtain ⟨-, j, line, hget, heq, hkinds⟩ := mem_scan.mp hm
    obtain rfl : i = j := by
      rw [heq] at hindex
      exact Int.ofNat.inj hindex.symm
    have hline := Text.not_mem_of_mem_splitLines (List.mem_of_getElem? hget)
    refine ⟨line, hget, (occursIn_iff_onLine hid hkind hline).mp ?_⟩
    rcases mem_kindsOf.mp hkinds with h | ⟨h, -⟩ | ⟨h, -⟩
    · exact h.2
    · simp [h, Kind.isSingleLine] at hkind
    · simp [h, Kind.isSingleLine] at hkind
  · rintro ⟨line, hget, hon⟩
    have hline := Text.not_mem_of_mem_splitLines (List.mem_of_getElem? hget)
    have hoccurs := (occursIn_iff_onLine hid hkind hline).mpr hon
    refine ⟨⟨kind, file, i, line⟩, mem_scan.mpr ⟨?_, i, line, hget, rfl, ?_⟩, rfl, rfl⟩
    · rintro rfl
      obtain ⟨rfl⟩ : line = [] := by
        have hmem := List.mem_of_getElem? hget
        rw [Text.splitLines_last List.not_mem_nil] at hmem
        exact List.mem_singleton.mp hmem
      exact not_onLine_nil hid hkind hon
    · exact mem_kindsOf.mpr (Or.inl ⟨hkind, hoccurs⟩)

/-- For every kind that stands on one line, the scan reports the same lines as the search for the
kind's expression through the whole text. -/
theorem scan_indexes_eq_search (hid : Proper identifier) (hkind : kind.isSingleLine = true)
    (text : Text) (file : FileLabel) (path : Option FileLabel) :
    ∃ expression ms, Regex.read (patternText identifier kind) = .ok expression ∧
      Match.ofEvents kind (Event.find expression text path) = .ok ms ∧
      ((scan identifier text file).filter (·.kind = kind)).map (·.lineIndex) =
        ms.map (·.lineIndex) := by
  have hne : kind ≠ .constructor := by
    rintro rfl
    simp [Kind.isSingleLine] at hkind
  refine ⟨_, _, read_patternText identifier kind, Match.ofEvents_find kind _ text path, ?_⟩
  exact indexes_eq_found hid hne (neverOverlaps_regex hid.one_line hkind)
    (reported_iff_defines hid hkind text file) path

theorem scan_indexes_eq_search_return :
    Proper (Text.of "f") ∧ Kind.assignment.isSingleLine = true ∧ ∃ expression ms,
      Regex.read (patternText (Text.of "f") .assignment) = .ok expression ∧
      Match.ofEvents .assignment (Event.find expression (Text.of "f =\r\nf\r=\nf = 1\r") none) =
        .ok ms ∧ ((scan (Text.of "f") (Text.of "f =\r\nf\r=\nf = 1\r") .buffer).filter
          (·.kind = .assignment)).map (·.lineIndex) = ms.map (·.lineIndex) := by
  have hid : Proper (Text.of "f") := ⟨by decide, by decide, by decide⟩
  have hkind : Kind.assignment.isSingleLine = true := rfl
  exact ⟨hid, hkind, scan_indexes_eq_search hid hkind _ .buffer none⟩

end DefinitionSite.LineScan
