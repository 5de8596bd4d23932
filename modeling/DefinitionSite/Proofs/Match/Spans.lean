import DefinitionSite.Match
import DefinitionSite.Proofs.Regex.Matches
import DefinitionSite.Proofs.Text.Lines

/-! From the span of a match to the line that it names: the occurrence of a span that starts a line
holds whole lines of the text, and the match of the occurrence is one of them. -/
namespace DefinitionSite
open Regex Cursor

/-- The lines of a text that a span touches, with a line feed behind them. -/
def Event.touched (content : Text) (span : Span) : Text :=
  let last :=
    if span.start < span.stop && content[span.stop - 1]? == some '\n' then span.stop - 1
    else span.stop
  let first := lineStart content span.start
  (content.drop first).take (lineStop content last - first) ++ ['\n']

/-- The match of a span in a text. -/
def Match.ofSpan (kind : Kind) (content : Text) (path : Option FileLabel) (span : Span) : Match :=
  ofLines kind path ((content.take span.start).count '\n' + 1) (Event.touched content span)

namespace Match

theorem ofEvent_ofSpan (kind : Kind) (content : Text) (path : Option FileLabel) (span : Span) :
    ofEvent kind (Event.ofSpan content path span) = .ok (ofSpan kind content path span) := rfl

/-- The occurrences of an expression in a text can always be read. -/
theorem ofEvents_find (kind : Kind) (r : Regex) (content : Text) (path : Option FileLabel) :
    ofEvents kind (Event.find r content path) =
      .ok ((r.findAll content).map (ofSpan kind content path)) := by
  rw [ofEvents, Event.find, Event.ofSpans]
  induction r.findAll content with
  | nil => rfl
  | cons span spans ih =>
    rw [List.map_cons, List.mapM_cons, ofEvent_ofSpan, ih]
    rfl

end Match

variable {before word line tail : Text}

theorem Event.lineStart_append {front head : Text} (hfront : StartsLine front) (hhead : '\n' ∉ head)
    (rest : Text) : lineStart (front ++ (head ++ rest)) (front ++ head).length = front.length := by
  have hkeep : ∀ c ∈ head.reverse, (c != '\n') = true := by
    intro c hc
    rw [bne_iff_ne]
    rintro rfl
    exact hhead (List.mem_reverse.mp hc)
  have hstop : front.reverse.takeWhile (· != '\n') = [] := by
    rcases Text.startsLine_iff.mp hfront with rfl | ⟨u, rfl⟩ <;> simp
  rw [lineStart, ← List.append_assoc, List.take_left, List.reverse_append,
    List.takeWhile_append_of_pos hkeep, hstop]
  simp

theorem Event.lineStart_of_startsLine (h : StartsLine before) (rest : Text) :
    lineStart (before ++ rest) before.length = before.length := by
  simpa using lineStart_append h List.not_mem_nil rest

theorem Event.lineStop_of_endsLine (hline : '\n' ∉ line) (htail : EndsLine tail) (front : Text) :
    lineStop (front ++ (line ++ tail)) front.length = front.length + line.length := by
  have hkeep : ∀ c ∈ line, (c != '\n') = true := by
    intro c hc
    rw [bne_iff_ne]
    rintro rfl
    exact hline hc
  have hstop : tail.takeWhile (· != '\n') = [] := by
    cases tail with
    | nil => rfl
    | cons c tail => simp [show c = '\n' from htail c rfl]
  rw [lineStop, List.drop_left, List.takeWhile_append_of_pos hkeep, hstop, List.append_nil]

/-- A span that starts a line and does not end with a line feed touches the text from its start to
the end of its last line. -/
theorem Event.touched_eq (hstart : StartsLine before) (hne : word ≠ [])
    (hlast : word.getLast? ≠ some '\n') (hline : '\n' ∉ line) (htail : EndsLine tail) :
    touched (before ++ (word ++ (line ++ tail))) ⟨before.length, before.length + word.length⟩ =
      word ++ line ++ ['\n'] := by
  have hpos := List.length_pos_iff.mpr hne
  have hend : (before ++ (word ++ (line ++ tail)))[before.length + word.length - 1]? ≠
      some '\n' := by
    rw [List.getElem?_append_right (by omega), List.getElem?_append_left (by omega)]
    rw [List.getLast?_eq_getElem?] at hlast
    rwa [show before.length + word.length - 1 - before.length = word.length - 1 by omega]
  have hstop : lineStop (before ++ (word ++ (line ++ tail))) (before.length + word.length) =
      before.length + (word ++ line).length := by
    have h := lineStop_of_endsLine hline htail (before ++ word)
    rw [List.append_assoc, List.length_append] at h
    rw [h, List.length_append]
    omega
  have htake : (word ++ (line ++ tail)).take (word ++ line).length = word ++ line := by
    rw [← List.append_assoc, List.take_left]
  simp only [touched, beq_eq_false_iff_ne.mpr hend, Bool.and_false, Bool.false_eq_true, ↓reduceIte,
    lineStart_of_startsLine hstart, hstop, List.drop_left, Nat.add_sub_cancel_left]
  rw [htake]

/-- The line of an occurrence that names the definition, counted from its first one. -/
def Match.offset (kind : Kind) (word : Text) : Nat :=
  if kind = .constructor then word.count '\n' else 0

/-- The match of whole lines is one of them. -/
theorem Match.exists_ofLines (kind : Kind) (path : Option FileLabel) (i : Nat) (lines : Text) :
    ∃ line, (Text.splitAt '\n' lines)[offset kind lines]? = some line ∧
      ofLines kind path (i + 1) (lines ++ ['\n']) =
        ⟨kind, path.getD .buffer, ((i + offset kind lines : Nat) : Int), Text.dropReturn line⟩ := by
  have hlength := Text.length_physicalLines lines
  have hoffset : (if kind = .constructor then (Text.physicalLines lines).length - 1 else 0) =
      offset kind lines := by
    rw [hlength, offset]
    rfl
  have hlt : offset kind lines < (Text.splitAt '\n' lines).length := by
    rw [Text.length_splitAt, offset]
    split <;> omega
  have hget := List.getElem?_eq_getElem hlt
  have hnamed : (Text.physicalLines lines).getD (offset kind lines) [] =
      Text.dropReturn (Text.splitAt '\n' lines)[offset kind lines] := by
    rw [List.getD_eq_getElem?_getD, Text.physicalLines, List.getElem?_map, hget]
    rfl
  refine ⟨_, hget, ?_⟩
  simp only [ofLines, Text.splitLines_append_break, hoffset, hnamed, Match.mk.injEq, true_and,
    and_true]
  omega

/-- The match of a word is one of the lines of the text. -/
theorem Match.ofSpan_site (kind : Kind) (path : Option FileLabel) (after : Text)
    (hstart : StartsLine before) (hne : word ≠ []) (hlast : word.getLast? ≠ some '\n') :
    ∃ named, ofSpan kind (before ++ (word ++ after)) path
        ⟨before.length, before.length + word.length⟩ =
        ⟨kind, path.getD .buffer, (before.count '\n' + offset kind word : Nat), named⟩ ∧
      (Text.physicalLines (before ++ (word ++ after)))[before.count '\n' + offset kind word]? =
        some named := by
  obtain ⟨line, tail, rfl, hline, htail, -⟩ := Text.exists_first_line after
  -- The lines of the occurrence are the first lines of the text behind the line start.
  obtain ⟨more, hmore⟩ := Text.exists_physicalLines_append htail (word ++ line)
  obtain ⟨found, hfound, hof⟩ := exists_ofLines kind path (before.count '\n') (word ++ line)
  have hoffset : offset kind (word ++ line) = offset kind word := by
    rw [offset, offset, List.count_append, List.count_eq_zero.mpr hline, Nat.add_zero]
  have hget : (Text.physicalLines (word ++ line))[offset kind word]? =
      some (Text.dropReturn found) := by
    rw [← hoffset, Text.physicalLines, List.getElem?_map, hfound]
    rfl
  refine ⟨Text.dropReturn found, ?_, ?_⟩
  · rw [ofSpan, Event.touched_eq hstart hne hlast hline htail, List.take_left, hof, hoffset]
  · rw [Text.getElem?_physicalLines hstart, ← List.append_assoc word, hmore,
      List.getElem?_append_left (List.getElem?_eq_some_iff.mp hget).1, hget]

end DefinitionSite
