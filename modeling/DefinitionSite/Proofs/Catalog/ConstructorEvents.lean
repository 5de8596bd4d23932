import Mathlib.Data.List.Sort
import DefinitionSite.Proofs.Catalog.ByLines
import DefinitionSite.Proofs.Catalog.Occurrence
import DefinitionSite.Proofs.Catalog.Reading
import DefinitionSite.Proofs.LineScan.Constructors

/-! The occurrences that a search for a constructor reports: one for each data block that holds the
constructor, in the order of the blocks. It runs from the first line of its block to the line on
which the first constructor of that name stands. -/
namespace DefinitionSite.Catalog
open Regex Declared Cursor

/-- A data block of a text: the number of the line that opens it, counted from 0, and its lines
between their line feeds. -/
structure DataBlock where
  first : Nat
  lines : List Text

/-- The block as it stands in its text. -/
def DataBlock.text (block : DataBlock) : Text := List.intercalate ['\n'] block.lines

/-- The data blocks in a list of lines, the first of which has the given number: a line that opens a
data declaration and all the indented lines that follow it. -/
def dataBlocks (number : Nat) : List Text → List DataBlock
  | [] => []
  | line :: rest =>
    if LineScan.opensData line then
      ⟨number, line :: rest.takeWhile LineScan.isIndented⟩ :: dataBlocks (number + 1) rest
    else dataBlocks (number + 1) rest

section Blocks
variable {number : Nat} {lines : List Text} {block : DataBlock} {text before : Text}

theorem mem_dataBlocks : block ∈ dataBlocks number lines ↔
    ∃ k line rest, lines.drop k = line :: rest ∧ OpensData line ∧
      block = ⟨number + k, line :: rest.takeWhile LineScan.isIndented⟩ := by
  induction lines generalizing number with
  | nil => simp [dataBlocks]
  | cons line lines ih =>
    have hmore : (∃ k l rest, (line :: lines).drop k = l :: rest ∧ OpensData l ∧
          block = ⟨number + k, l :: rest.takeWhile LineScan.isIndented⟩) ↔
        (OpensData line ∧ block = ⟨number, line :: lines.takeWhile LineScan.isIndented⟩) ∨
          block ∈ dataBlocks (number + 1) lines := by
      have hshift : ∀ k, number + 1 + k = number + (k + 1) := by omega
      simp only [ih, hshift]
      constructor
      · rintro ⟨k, l, rest, hdrop, hopens, rfl⟩
        cases k with
        | zero =>
          obtain ⟨rfl, rfl⟩ := List.cons_eq_cons.mp hdrop
          exact .inl ⟨hopens, rfl⟩
        | succ k => exact .inr ⟨k, l, rest, hdrop, hopens, rfl⟩
      · rintro (⟨hopens, rfl⟩ | ⟨k, l, rest, hdrop, hopens, rfl⟩)
        · exact ⟨0, line, lines, rfl, hopens, rfl⟩
        · exact ⟨k + 1, l, rest, hdrop, hopens, rfl⟩
    rw [hmore, dataBlocks]
    split_ifs with hopens <;> simp [← LineScan.opensData_iff_opensData, hopens]

/-- The blocks are told apart by their first lines, and stand in order. -/
theorem pairwise_dataBlocks (number : Nat) (lines : List Text) :
    (dataBlocks number lines).Pairwise fun a b => a.first < b.first := by
  induction lines generalizing number with
  | nil => exact List.Pairwise.nil
  | cons line lines ih =>
    rw [dataBlocks]
    split_ifs
    · refine List.pairwise_cons.mpr ⟨fun block hmem => ?_, ih (number + 1)⟩
      obtain ⟨k, _, _, -, -, rfl⟩ := mem_dataBlocks.mp hmem
      show number < number + 1 + k
      omega
    · exact ih (number + 1)

theorem firstLines_of_splitAt {line : Text} {rest : List Text}
    (h : Text.splitAt '\n' text = line :: rest) :
    (Text.physicalLines text)[0]? = some (Text.dropReturn line) ∧
      (Text.physicalLines line)[0]? = some (Text.dropReturn line) := by
  have hline : '\n' ∉ line := Text.not_mem_of_mem_splitAt (h ▸ List.mem_cons_self)
  constructor
  · simp [Text.physicalLines, h]
  · simp [Text.physicalLines_last hline]

theorem opensData_of_splitAt {line : Text} {rest : List Text}
    (h : Text.splitAt '\n' text = line :: rest) : OpensData line ↔ OpensData text := by
  obtain ⟨htext, hline⟩ := firstLines_of_splitAt h
  rw [← opensData_iff hline, opensData_iff htext]

theorem indented_of_splitAt {line : Text} {rest : List Text}
    (h : Text.splitAt '\n' text = line :: rest) : Indented line ↔ Indented text := by
  obtain ⟨htext, hline⟩ := firstLines_of_splitAt h
  rw [← indented_iff hline, indented_iff htext]

/-- The first line of a text and the indented lines behind it are a text of their own. -/
theorem exists_block {line : Text} {rest : List Text} (h : Text.splitAt '\n' text = line :: rest) :
    ∃ body tail, text = body ++ tail ∧
      Text.splitAt '\n' body = line :: rest.takeWhile LineScan.isIndented ∧ Hangs body ∧
      EndsBlock tail := by
  induction text using Text.line_induction generalizing line rest with
  | last l hl =>
    obtain ⟨rfl, rfl⟩ : l = line ∧ [] = rest := by
      simpa [Text.splitAt_of_not_mem hl] using h
    exact ⟨l, [], by simp, Text.splitAt_of_not_mem hl, hangs_of_not_mem hl, .inl rfl⟩
  | more l text hl ih =>
    obtain ⟨rfl, rfl⟩ : l = line ∧ Text.splitAt '\n' text = rest := by
      simpa [Text.splitAt_append hl] using h
    cases hsplit : Text.splitAt '\n' text with
    | nil => exact absurd hsplit (Text.splitAt_ne_nil _ _)
    | cons next rest =>
      by_cases hin : LineScan.isIndented next = true
      · obtain ⟨body, tail, rfl, hbody, hhangs, htail⟩ := ih hsplit
        have hindented : Indented body :=
          (indented_of_splitAt hbody).mp (LineScan.isIndented_iff_indented.mp hin)
        refine ⟨l ++ '\n' :: body, tail, by simp, ?_, ?_, htail⟩
        · rw [Text.splitAt_append hl, hbody, List.takeWhile_cons_of_pos hin]
        · exact (hangs_of_not_mem hl).append (hangs_break.mpr ⟨hindented, hhangs⟩)
      · refine ⟨l, '\n' :: text, rfl, ?_, hangs_of_not_mem hl, .inr ⟨text, rfl, ?_⟩⟩
        · rw [Text.splitAt_of_not_mem hl, List.takeWhile_cons_of_neg hin]
        · rw [← indented_of_splitAt hsplit, ← LineScan.isIndented_iff_indented]
          exact hin

/-- Where a data block stands in a text. -/
structure Stands (text : Text) (block : DataBlock) (before tail : Text) : Prop where
  split : text = before ++ (block.text ++ tail)
  start : StartsLine before
  first : before.count '\n' = block.first
  lines : Text.splitAt '\n' block.text = block.lines
  opens : OpensData block.text
  hangs : Hangs block.text
  ends : EndsBlock tail

theorem exists_stands (h : block ∈ dataBlocks 0 (Text.splitAt '\n' text)) :
    ∃ before tail, Stands text block before tail := by
  obtain ⟨k, line, rest, hdrop, hopens, rfl⟩ := mem_dataBlocks.mp h
  have hget : (Text.physicalLines text)[k]? = some (Text.dropReturn line) := by
    have hline : (Text.splitAt '\n' text)[k]? = some line := by
      rw [← List.head?_drop, hdrop, List.head?_cons]
    rw [Text.physicalLines, List.getElem?_map, hline, Option.map_some]
  obtain ⟨before, after, rfl, hstart, rfl⟩ := Text.exists_line_start hget
  rw [Text.drop_splitAt hstart] at hdrop
  obtain ⟨body, tail, rfl, hbody, hhangs, htail⟩ := exists_block hdrop
  have htext : DataBlock.text ⟨0 + before.count '\n', Text.splitAt '\n' body⟩ = body :=
    Text.intercalate_splitAt body
  rw [← hbody]
  refine ⟨before, tail, by rw [htext], hstart, (Nat.zero_add _).symm, by rw [htext], ?_, ?_, htail⟩
  · rw [htext]
    exact (opensData_of_splitAt hbody).mp hopens
  · rwa [htext]

/-- Every line that opens a data declaration opens a block. -/
theorem exists_dataBlock {rest : Text} (hstart : StartsLine before) (hopens : OpensData rest) :
    ∃ block ∈ dataBlocks 0 (Text.splitAt '\n' (before ++ rest)),
      block.first = before.count '\n' := by
  cases hsplit : Text.splitAt '\n' rest with
  | nil => exact absurd hsplit (Text.splitAt_ne_nil _ _)
  | cons line more =>
    refine ⟨_, mem_dataBlocks.mpr ⟨before.count '\n', line, more, ?_, ?_, rfl⟩, Nat.zero_add _⟩
    · rw [Text.drop_splitAt hstart, hsplit]
    · exact (opensData_of_splitAt hsplit).mpr hopens

end Blocks

section Lines
variable {before block word rest tail : Text}

/-- The lines that a match in a block touches are the first lines of the block. -/
theorem touched_block (hstart : StartsLine before) (hne : word ≠ [])
    (hlast : word.getLast? ≠ some '\n') (htail : EndsLine tail) :
    Event.touched (before ++ (word ++ rest ++ tail)) ⟨before.length, before.length + word.length⟩ =
      List.intercalate ['\n']
        ((Text.splitAt '\n' (word ++ rest)).take (word.count '\n' + 1)) ++ ['\n'] := by
  obtain ⟨line, more, rfl, hline, hmore, -⟩ := Text.exists_first_line rest
  have hends : EndsLine (more ++ tail) := by
    cases more with
    | nil => exact htail
    | cons c more => simpa [EndsLine] using hmore
  have htouched := Event.touched_eq hstart hne hlast hline hends
  simp only [List.append_assoc] at htouched ⊢
  rw [htouched]
  -- The word and the rest of its last line are whole lines.
  obtain ⟨others, hothers⟩ := Text.exists_splitAt_append hmore (word ++ line)
  have hlength : word.count '\n' + 1 = (Text.splitAt '\n' (word ++ line)).length := by
    rw [Text.length_splitAt, List.count_append, List.count_eq_zero.mpr hline, Nat.add_zero]
  rw [← List.append_assoc word line more, hothers, hlength, List.take_left,
    Text.intercalate_splitAt]
  simp

/-- A line of a block is the line of the text, but for a carriage return at its end. -/
theorem exists_line_of_block (hstart : StartsLine before) (htail : EndsLine tail) {k : Nat}
    (hk : k ≤ block.count '\n') {named : Text}
    (hget : (Text.physicalLines (before ++ (block ++ tail)))[before.count '\n' + k]? = some named) :
    ∃ line, (Text.splitAt '\n' block)[k]? = some line ∧ Text.dropReturn line = named := by
  obtain ⟨more, hmore⟩ := Text.exists_physicalLines_append htail block
  have hlength := Text.length_physicalLines block
  rw [Text.getElem?_physicalLines hstart, hmore, List.getElem?_append_left (by omega),
    Text.physicalLines, List.getElem?_map] at hget
  exact Option.map_eq_some_iff.mp hget

end Lines

/-- An occurrence that a search reports for a block: it runs to the line on which the first
constructor of that name stands in the block, and its match is that line. -/
def Reports (identifier : Text) (path : Option FileLabel) (block : DataBlock) (event : Event) :
    Prop :=
  ∃ (o : Occurrence identifier block.text) (named : Text), o.IsFirst ∧
    block.lines[o.line]? = some named ∧
    event = ⟨path, .number (block.first + 1),
      .text (List.intercalate ['\n'] (block.lines.take (o.line + 1)) ++ ['\n'])⟩ ∧
    Match.ofEvent .constructor event =
      .ok ⟨.constructor, path.getD .buffer, (block.first + o.line : Nat), Text.dropReturn named⟩

section Events
variable {identifier text : Text} {block : DataBlock} {span : Span}

/-- The match that starts with a block reports it. -/
theorem reports_of_mem (hid : Proper identifier) (path : Option FileLabel)
    (hblock : block ∈ dataBlocks 0 (Text.splitAt '\n' text))
    (hspan : span ∈ (regex identifier .constructor).findAll text)
    (hfirst : block.first = (text.take span.start).count '\n') :
    Reports identifier path block (Event.ofSpan text path span) := by
  obtain ⟨before, tail, hstands⟩ := exists_stands hblock
  obtain ⟨before', word, after, rfl, rfl, hw, hend⟩ :=
    mem_findAll (consumes_regex hid.ne_nil .constructor) hspan
  have hstart : StartsLine before' := startsLine_of_opens ⟨word, after, rfl, hw⟩
  obtain rfl : before' = before := by
    refine Text.eq_of_startsLine hstands.split hstart hstands.start ?_
    rw [hstands.first, hfirst, List.take_left]
  have heq : block.text ++ tail = word ++ after :=
    (List.append_cancel_left hstands.split).symm
  rw [← heq] at hend
  obtain ⟨o, ho, hcount, rest, hrest, rfl⟩ :=
    exists_isFirst hid hstart hstands.opens hstands.hangs hstands.ends heq hend
  obtain ⟨hne, hlast⟩ := getLast?_of_spells hid.ne_nil hid.one_line hw
  have htail := hstands.ends.endsLine
  have htouched : Event.touched (before' ++ (word ++ (rest ++ tail)))
      ⟨before'.length, before'.length + word.length⟩ =
        List.intercalate ['\n'] (block.lines.take (o.line + 1)) ++ ['\n'] := by
    rw [← List.append_assoc word, touched_block hstart hne hlast htail, ← hrest, hstands.lines,
      hcount]
  obtain ⟨named, hmatch, hget⟩ :=
    Match.ofSpan_site .constructor path (rest ++ tail) hstart hne hlast
  have hoffset : Match.offset .constructor word = o.line := by simp [Match.offset, hcount]
  rw [hoffset, ← heq] at hget
  have hline : o.line ≤ block.text.count '\n' := by
    have hcounts := congrArg (List.count '\n') hrest
    rw [List.count_append, hcount] at hcounts
    omega
  obtain ⟨line, hnamed, rfl⟩ := exists_line_of_block hstart htail hline hget
  rw [hstands.lines] at hnamed
  refine ⟨o, line, ho, hnamed, ?_, ?_⟩
  · rw [← htouched, hfirst]
    rfl
  · rw [Match.ofEvent_ofSpan, hmatch, hoffset, hstands.first]

/-- A match starts with each block in which the constructor occurs, and nowhere else. -/
theorem mem_startLines_iff_block (hid : Proper identifier) (d : Nat) :
    d ∈ startLines identifier .constructor text ↔
      ∃ block ∈ dataBlocks 0 (Text.splitAt '\n' text),
        Nonempty (Occurrence identifier block.text) ∧ block.first = d := by
  have hconsumes := consumes_regex hid.ne_nil .constructor
  constructor
  · intro hd
    obtain ⟨span, hspan, rfl⟩ := List.mem_map.mp hd
    obtain ⟨before, word, after, rfl, rfl, hw, -⟩ := mem_findAll hconsumes hspan
    have hopens : Opens (regex identifier .constructor) before (word ++ after) :=
      ⟨word, after, rfl, hw⟩
    obtain ⟨block, hblock, hfirst⟩ :=
      exists_dataBlock (startsLine_of_opens hopens) (opensData_of_opens hopens)
    have hfirst : block.first = ((before ++ (word ++ after)).take before.length).count '\n' := by
      rw [List.take_left, hfirst]
    obtain ⟨o, -⟩ := reports_of_mem hid none hblock hspan hfirst
    exact ⟨block, hblock, ⟨o⟩, hfirst⟩
  · rintro ⟨block, hblock, ⟨o⟩, rfl⟩
    obtain ⟨before, tail, hstands⟩ := exists_stands hblock
    have hopens : Opens (regex identifier .constructor) before (block.text ++ tail) :=
      opens_of_occurrence hstands.start hstands.opens hstands.hangs hstands.ends o
    obtain ⟨span, hspan, hstart⟩ :=
      exists_mem_findAll hconsumes (neverOverlaps_constructor hid.one_line) hopens
    rw [hstands.split]
    refine List.mem_map.mpr ⟨span, hspan, ?_⟩
    rw [hstart, List.take_left, hstands.first]

open scoped Classical

/-- A search for a constructor reports the data blocks in which the constructor occurs, each once
and in their order. -/
theorem find_constructor_blocks (hid : Proper identifier) (text : Text) (path : Option FileLabel) :
    ∃ r, Regex.read (patternText identifier .constructor) = .ok r ∧
      List.Forall₂ (Reports identifier path)
        ((dataBlocks 0 (Text.splitAt '\n' text)).filter fun block =>
          Nonempty (Occurrence identifier block.text))
        (Event.find r text path) := by
  refine ⟨regex identifier .constructor, read_patternText identifier .constructor, ?_⟩
  rw [Event.find, Event.ofSpans, List.forall₂_map_right_iff]
  have hkeys : ((dataBlocks 0 (Text.splitAt '\n' text)).filter fun block =>
      Nonempty (Occurrence identifier block.text)).map DataBlock.first =
        startLines identifier .constructor text := by
    have hblocks := (pairwise_dataBlocks 0 (Text.splitAt '\n' text)).filter fun block =>
      Nonempty (Occurrence identifier block.text)
    refine List.Pairwise.eq_of_mem_iff (List.pairwise_map.mpr hblocks)
      (pairwise_startLines hid.ne_nil .constructor text) fun d => ?_
    simp only [mem_startLines_iff_block hid, List.mem_map, List.mem_filter, decide_eq_true_eq,
      and_assoc]
  refine forall₂_of_keys hkeys fun block hmem span hspan hfirst => ?_
  exact reports_of_mem hid path (List.mem_of_mem_filter hmem) hspan hfirst

theorem find_constructor_blocks_leaf :
    let text := Text.of "data A\r\n  = Leafy\r\n  | Leaf\r\n\ndata Leaf = B\ndata C =\n  Leaf"
    Proper (Text.of "Leaf") ∧ ∃ r, Regex.read (patternText (Text.of "Leaf") .constructor) = .ok r ∧
      List.Forall₂ (Reports (Text.of "Leaf") none)
        ((dataBlocks 0 (Text.splitAt '\n' text)).filter fun block =>
          Nonempty (Occurrence (Text.of "Leaf") block.text))
        (Event.find r text none) := by
  intro text
  have hid : Proper (Text.of "Leaf") := ⟨by decide, by decide, by decide⟩
  exact ⟨hid, find_constructor_blocks hid text none⟩

end Events
end DefinitionSite.Catalog
