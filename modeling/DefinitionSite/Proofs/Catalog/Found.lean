import DefinitionSite.Proofs.Catalog.Blocks
import DefinitionSite.Proofs.Match.Spans

/-! What the expression of a kind finds in a text: the lines on which its matches start, in order,
and the line that each of them names. -/
namespace DefinitionSite.Catalog
open Regex Declared Cursor

variable {identifier before text : Text} {kind : Kind}

/-- A definition starts on the line: the line is one, or it opens a data declaration that names the
constructor. -/
def StartsAt (identifier : Text) (lines : List Text) (d : Nat) : Kind → Prop
  | .constructor => (∃ line, lines[d]? = some line ∧ OpensData line) ∧
      ∃ k, OccursAt identifier (lines.drop d) k
  | kind => Defines identifier lines d kind

/-- The line that names the definition which starts on a line. -/
def NamedAt (identifier : Text) (lines : List Text) (d i : Nat) : Kind → Prop
  | .constructor => d ≤ i ∧ FirstAt identifier (lines.drop d) (i - d)
  | _ => i = d

theorem startsAt_of_ne (h : kind ≠ .constructor) (lines : List Text) (d : Nat) :
    StartsAt identifier lines d kind ↔ Defines identifier lines d kind := by
  cases kind <;> simp_all [StartsAt]

theorem namedAt_of_ne (h : kind ≠ .constructor) (lines : List Text) (d i : Nat) :
    NamedAt identifier lines d i kind ↔ i = d := by
  cases kind <;> simp_all [NamedAt]

/-- The expression of a kind matches at the start of a line just if a definition starts there. -/
theorem opens_iff_startsAt (hid : Proper identifier) (hstart : StartsLine before) :
    Opens (regex identifier kind) before text ↔
      StartsAt identifier (Text.physicalLines (before ++ text)) (before.count '\n') kind := by
  by_cases hkind : kind = .constructor
  · subst hkind
    obtain ⟨first, tail, rfl, -, -, hfirst⟩ := Text.exists_first_line text
    have hget := Text.getElem?_physicalLines hstart (first ++ tail) 0
    rw [Nat.add_zero, hfirst] at hget
    simp only [opens_constructor_iff hid hstart, StartsAt, hget, Text.drop_physicalLines hstart,
      ← opensData_iff hfirst, Option.some.injEq, exists_eq_left']
  · rw [startsAt_of_ne hkind, opens_iff_defines hid hkind hstart]

theorem startsAt_getElem? {lines : List Text} {d : Nat} (h : StartsAt identifier lines d kind) :
    ∃ line, lines[d]? = some line := by
  cases kind with
  | constructor =>
    obtain ⟨⟨line, hget, -⟩, -⟩ := h
    exact ⟨line, hget⟩
  | signatureNextLine =>
    obtain ⟨line, -, hget, -⟩ := h
    exact ⟨line, hget⟩
  | _ =>
    obtain ⟨line, hget, -⟩ := h
    exact ⟨line, hget⟩

/-- Where a definition starts on a line of a text, the expression matches at the start of the
line. -/
theorem exists_opens (hid : Proper identifier) {d : Nat}
    (h : StartsAt identifier (Text.physicalLines text) d kind) :
    ∃ before rest, text = before ++ rest ∧ StartsLine before ∧ before.count '\n' = d ∧
      Opens (regex identifier kind) before rest := by
  obtain ⟨line, hget⟩ := startsAt_getElem? h
  obtain ⟨before, rest, rfl, hstart, rfl⟩ := Text.exists_line_start hget
  exact ⟨before, rest, rfl, hstart, rfl, (opens_iff_startsAt hid hstart).mpr h⟩

/-- The lines on which the matches of a kind start. -/
def startLines (identifier : Text) (kind : Kind) (text : Text) : List Nat :=
  ((regex identifier kind).findAll text).map fun span => (text.take span.start).count '\n'

/-- The matches of a kind in a text. -/
def found (identifier : Text) (kind : Kind) (text : Text) (path : Option FileLabel) : List Match :=
  ((regex identifier kind).findAll text).map (Match.ofSpan kind text path)

/-- Every match starts where a definition starts, and is the line that names it. -/
theorem named_of_mem (hid : Proper identifier) (path : Option FileLabel) {span : Span}
    (h : span ∈ (regex identifier kind).findAll text) :
    let d := (text.take span.start).count '\n'
    StartsAt identifier (Text.physicalLines text) d kind ∧
      ∃ i line, NamedAt identifier (Text.physicalLines text) d i kind ∧
        (Text.physicalLines text)[i]? = some line ∧
        Match.ofSpan kind text path span = ⟨kind, path.getD .buffer, (i : Nat), line⟩ := by
  obtain ⟨before, word, after, rfl, rfl, hw, hend⟩ := mem_findAll (consumes_regex hid.ne_nil kind) h
  have hopens : Opens (regex identifier kind) before (word ++ after) := ⟨word, after, rfl, hw⟩
  have hstart := startsLine_of_opens hopens
  obtain ⟨hne, hlast⟩ := getLast?_of_spells hid.ne_nil hid.one_line hw
  obtain ⟨line, hspan, hget⟩ := Match.ofSpan_site kind path after hstart hne hlast
  simp only [List.take_left]
  refine ⟨(opens_iff_startsAt hid hstart).mp hopens, _, line, ?_, hget, hspan⟩
  by_cases hkind : kind = .constructor
  · subst hkind
    have hfirst := endsAtFirst_constructor hid hstart (opensData_of_opens hopens)
    rw [hend] at hfirst
    obtain ⟨word', after', heq, hcursor, hfirst⟩ := hfirst
    obtain ⟨-, hlen, rfl⟩ : _ ∧ _ ∧ after = after' := Cursor.mk.inj hcursor
    obtain rfl := List.append_cancel_right heq
    refine ⟨Nat.le_add_right _ _, ?_⟩
    rw [Text.drop_physicalLines hstart, Nat.add_sub_cancel_left]
    simpa [Match.offset] using hfirst
  · rw [namedAt_of_ne hkind]
    simp [Match.offset, hkind]

theorem startsAt_of_mem (hid : Proper identifier) {d : Nat}
    (h : d ∈ startLines identifier kind text) :
    StartsAt identifier (Text.physicalLines text) d kind := by
  obtain ⟨span, hspan, rfl⟩ := List.mem_map.mp h
  exact (named_of_mem hid none hspan).1

/-- The matches of a kind start on different lines, from the first to the last. -/
theorem pairwise_startLines (hne : identifier ≠ []) (kind : Kind) (text : Text) :
    (startLines identifier kind text).Pairwise (· < ·) := by
  have hr := consumes_regex hne kind
  refine List.pairwise_map.mpr ((pairwise_findAll hr).imp_of_mem ?_)
  intro p q _ hq hlt
  obtain ⟨before, word, after, rfl, rfl, hw, -⟩ := mem_findAll hr hq
  have hstart : StartsLine before := startsLine_of_opens ⟨word, after, rfl, hw⟩
  rcases Text.startsLine_iff.mp hstart with rfl | ⟨u, rfl⟩
  · simp at hlt
  · have hle : p.start ≤ u.length := by
      simp only [List.length_append, List.length_singleton] at hlt
      omega
    rw [List.take_left, List.append_assoc, List.take_append_of_le_length hle, List.count_append]
    have hcount := (List.take_sublist p.start u).count_le '\n'
    simp only [List.count_singleton_self]
    omega

theorem exists_startLine_le (hid : Proper identifier) {d : Nat}
    (h : StartsAt identifier (Text.physicalLines text) d kind) :
    ∃ d' ∈ startLines identifier kind text, d' ≤ d := by
  obtain ⟨before, rest, rfl, -, rfl, hopens⟩ := exists_opens hid h
  obtain ⟨span, hspan, hle⟩ := exists_findAll_le (consumes_regex hid.ne_nil kind) hopens
  refine ⟨_, List.mem_map.mpr ⟨span, hspan, rfl⟩, ?_⟩
  rw [List.take_append_of_le_length hle]
  exact (List.take_sublist _ _).count_le _

/-- Where words of a kind cannot overlap, every definition starts a match. -/
theorem mem_startLines_iff (hid : Proper identifier)
    (hover : (regex identifier kind).NeverOverlaps) (d : Nat) :
    d ∈ startLines identifier kind text ↔
      StartsAt identifier (Text.physicalLines text) d kind := by
  constructor
  · exact startsAt_of_mem hid
  · intro h
    obtain ⟨before, rest, rfl, -, rfl, hopens⟩ := exists_opens hid h
    obtain ⟨span, hspan, heq⟩ := exists_mem_findAll (consumes_regex hid.ne_nil kind) hover hopens
    exact List.mem_map.mpr ⟨span, hspan, by rw [heq, List.take_left]⟩

/-! The first match is the first definition, also of a constructor: no later block can name one
before the first block that does. -/

theorem defines_of_namedAt {lines : List Text} {d i : Nat}
    (hstarts : StartsAt identifier lines d kind) (hnamed : NamedAt identifier lines d i kind) :
    Defines identifier lines i kind := by
  by_cases hkind : kind = .constructor
  · subst hkind
    obtain ⟨⟨line, hget, hopens⟩, -⟩ := hstarts
    obtain ⟨hle, hfirst⟩ := hnamed
    exact (defines_constructor_iff identifier lines i).mpr
      ⟨d, i - d, line, by omega, hget, hopens, hfirst.1⟩
  · obtain rfl := (namedAt_of_ne hkind lines d i).mp hnamed
    exact (startsAt_of_ne hkind lines i).mp hstarts

theorem inBlock_of_occursAt {lines : List Text} {d k : Nat} {line : Text}
    (hget : lines[d]? = some line) (hopens : OpensData line)
    (hat : OccursAt identifier (lines.drop d) k) : InBlock lines d (d + k) := by
  refine ⟨Nat.le_add_right _ _, ⟨line, hget, hopens⟩, ?_⟩
  intro j hlt hle
  obtain ⟨hin, -⟩ := (occursAt_iff identifier (lines.drop d) k).mp hat
  obtain ⟨next, hnext, hindented⟩ := hin (j - d) (by omega) (by omega)
  rw [List.getElem?_drop, show d + (j - d) = j by omega] at hnext
  exact ⟨next, hnext, hindented⟩

theorem not_defines_of_lt {lines : List Text} {d i : Nat}
    (hstarts : StartsAt identifier lines d kind) (hnamed : NamedAt identifier lines d i kind)
    (hfirst : ∀ d', StartsAt identifier lines d' kind → d ≤ d') :
    ∀ j < i, ¬ Defines identifier lines j kind := by
  intro j hj hdefines
  by_cases hkind : kind = .constructor
  · subst hkind
    obtain ⟨⟨line, hget, hopens⟩, -⟩ := hstarts
    obtain ⟨hle, hat, hleast⟩ := hnamed
    obtain ⟨d', k, line', rfl, hget', hopens', hat'⟩ :=
      (defines_constructor_iff identifier lines j).mp hdefines
    have hblock := inBlock_of_occursAt hget hopens hat
    have hd : d ≤ d' := hfirst d' ⟨⟨line', hget', hopens'⟩, k, hat'⟩
    rcases Nat.lt_or_eq_of_le hd with hlt | rfl
    · have := lt_of_opensData hblock hget' hopens' hlt
      omega
    · exact hleast k (by omega) hat'
  · obtain rfl := (namedAt_of_ne hkind lines d i).mp hnamed
    have := hfirst j ((startsAt_of_ne hkind lines j).mpr hdefines)
    omega

theorem exists_startsAt {lines : List Text} {i : Nat}
    (h : Defines identifier lines i kind) : ∃ d, StartsAt identifier lines d kind := by
  by_cases hkind : kind = .constructor
  · subst hkind
    obtain ⟨d, k, line, -, hget, hopens, hat⟩ :=
      (defines_constructor_iff identifier lines i).mp h
    exact ⟨d, ⟨line, hget, hopens⟩, k, hat⟩
  · exact ⟨i, (startsAt_of_ne hkind lines i).mpr h⟩

/-- In the block of a line that defines a constructor, a match names that line or an earlier one. -/
theorem exists_found_constructor (hid : Proper identifier) (path : Option FileLabel) {i : Nat}
    (h : Defines identifier (Text.physicalLines text) i .constructor) :
    ∃ first j : Nat, InBlock (Text.physicalLines text) first i ∧ first ≤ j ∧ j ≤ i ∧
      ∃ m ∈ found identifier .constructor text path, m.lineIndex = j := by
  obtain ⟨first, k, line, rfl, hget, hopens, hat⟩ := (defines_constructor_iff _ _ _).mp h
  have hstarts : StartsAt identifier (Text.physicalLines text) first .constructor :=
    ⟨⟨line, hget, hopens⟩, k, hat⟩
  have hmem := (mem_startLines_iff hid (neverOverlaps_constructor hid.one_line) first).mpr hstarts
  obtain ⟨span, hspan, rfl⟩ := List.mem_map.mp hmem
  obtain ⟨-, j, named, ⟨hle, -, hleast⟩, -, hmatch⟩ := named_of_mem hid path hspan
  refine ⟨_, j, inBlock_of_occursAt hget hopens hat, hle, ?_,
    _, List.mem_map.mpr ⟨span, hspan, rfl⟩, by rw [hmatch]⟩
  by_contra hlt
  exact hleast k (by omega) hat

/-- What the first match of a kind says about a text. -/
def FirstFound (identifier : Text) (lines : List Text) (kind : Kind) (path : Option FileLabel) :
    Option Match → Prop
  | none => ∀ i, ¬ Defines identifier lines i kind
  | some m => ∃ (i : Nat) (line : Text), m = ⟨kind, path.getD .buffer, i, line⟩ ∧
      lines[i]? = some line ∧ Defines identifier lines i kind ∧
        ∀ j < i, ¬ Defines identifier lines j kind

/-- The first match of a kind is the first line that is a definition of the kind. -/
theorem firstFound_head? (hid : Proper identifier) (kind : Kind) (text : Text)
    (path : Option FileLabel) : FirstFound identifier (Text.physicalLines text) kind path
      (found identifier kind text path).head? := by
  cases hfind : (regex identifier kind).findAll text with
  | nil =>
    rw [found, hfind]
    intro i hdefines
    obtain ⟨d, hd⟩ := exists_startsAt hdefines
    obtain ⟨d', hmem, -⟩ := exists_startLine_le hid hd
    simp [startLines, hfind] at hmem
  | cons span spans =>
    have hmem : span ∈ (regex identifier kind).findAll text := by simp [hfind]
    obtain ⟨hstarts, i, line, hnamed, hget, hspan⟩ := named_of_mem hid path hmem
    rw [found, hfind]
    refine ⟨i, line, hspan, hget, defines_of_namedAt hstarts hnamed,
      not_defines_of_lt hstarts hnamed ?_⟩
    intro d' hd'
    obtain ⟨d, hd, hle⟩ := exists_startLine_le hid hd'
    have hsorted := pairwise_startLines hid.ne_nil kind text
    rw [startLines, hfind, List.map_cons] at hsorted hd
    rcases List.mem_cons.mp hd with rfl | htail
    · exact hle
    · have := List.rel_of_pairwise_cons hsorted htail
      omega

end DefinitionSite.Catalog
