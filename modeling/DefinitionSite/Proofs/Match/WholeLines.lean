import Mathlib.Data.List.Forall2
import DefinitionSite.Proofs.Match.Spans
import DefinitionSite.Proofs.Regex.InOrder
import DefinitionSite.Proofs.Text.Places

/-! Occurrences hold whole lines: those of the text from the line on which the span starts to the
line of its last character, whatever was searched for, and a match is one of them as it stands in
the text. The occurrences in a text come in the order of their lines. -/
namespace DefinitionSite
open Regex (StartsLine EndsLine Span)

namespace Text

/-- The lines of a text from one number to another, with line feeds between them. -/
def linesBetween (text : Text) (i j : Nat) : Text :=
  List.intercalate ['\n'] (((splitAt '\n' text).drop i).take (j + 1 - i))

/-- A text is whole lines and the beginning of a line. -/
theorem exists_last_line (text : Text) :
    ∃ front head, text = front ++ head ∧ StartsLine front ∧ '\n' ∉ head := by
  induction text using line_induction with
  | last line h => exact ⟨[], line, rfl, startsLine_nil, h⟩
  | more line rest h ih =>
    obtain ⟨front, head, rfl, hfront, hhead⟩ := ih
    refine ⟨line ++ '\n' :: front, head, by simp, ?_, hhead⟩
    rcases startsLine_iff.mp hfront with rfl | ⟨u, rfl⟩
    · exact startsLine_append_break line
    · simpa using startsLine_append_break (line ++ '\n' :: u)

section Stretch

variable {front lines tail : Text}

theorem linesBetween_eq (hfront : StartsLine front) (htail : EndsLine tail) :
    linesBetween (front ++ (lines ++ tail)) (front.count '\n')
      (front.count '\n' + lines.count '\n') = lines := by
  obtain ⟨more, hmore⟩ := exists_splitAt_append htail lines
  have hlength : front.count '\n' + lines.count '\n' + 1 - front.count '\n' =
      (splitAt '\n' lines).length := by
    rw [length_splitAt]
    omega
  rw [linesBetween, drop_splitAt hfront, hmore, hlength, List.take_left, intercalate_splitAt]

theorem getElem?_splitAt_stretch (hfront : StartsLine front) (htail : EndsLine tail) {k : Nat}
    (hk : k ≤ lines.count '\n') :
    (splitAt '\n' (front ++ (lines ++ tail)))[front.count '\n' + k]? =
      (splitAt '\n' lines)[k]? := by
  obtain ⟨more, hmore⟩ := exists_splitAt_append htail lines
  have hlt : k < (splitAt '\n' lines).length := by
    rw [length_splitAt]
    omega
  rw [← List.getElem?_drop, drop_splitAt hfront, hmore, List.getElem?_append_left hlt]

end Stretch
end Text

namespace Event

/-- From the line of one place to the line of a later one stands a stretch of whole lines. -/
theorem exists_stretch {content : Text} {p q : Nat} (hpq : p ≤ q) (hq : q ≤ content.length) :
    ∃ front lines tail, content = front ++ (lines ++ tail) ∧ StartsLine front ∧ EndsLine tail ∧
      lineStart content p = front.length ∧ lineStop content q = front.length + lines.length ∧
      (content.take p).count '\n' = front.count '\n' ∧
      (content.take q).count '\n' = front.count '\n' + lines.count '\n' := by
  obtain ⟨front, head, hbefore, hfront, hhead⟩ := Text.exists_last_line (content.take p)
  obtain ⟨line, tail, hafter, hline, htail, -⟩ := Text.exists_first_line (content.drop q)
  set middle := (content.take q).drop p with hmiddle
  have htake : content.take q = front ++ (head ++ middle) := by
    have hp : (content.take q).take p = content.take p := by
      rw [List.take_take, Nat.min_eq_left hpq]
    calc content.take q = (content.take q).take p ++ middle := (List.take_append_drop p _).symm
      _ = front ++ (head ++ middle) := by rw [hp, hbefore, List.append_assoc]
  have hcontent : content = front ++ ((head ++ middle ++ line) ++ tail) := by
    calc content = content.take q ++ content.drop q := (List.take_append_drop q content).symm
      _ = _ := by simp [htake, hafter]
  have hp : p = (front ++ head).length := by
    rw [← hbefore, List.length_take]
    omega
  have hqlength : q = (front ++ (head ++ middle)).length := by
    rw [← htake, List.length_take]
    omega
  refine ⟨front, head ++ middle ++ line, tail, hcontent, hfront, htail, ?_, ?_, ?_, ?_⟩
  · rw [hcontent, hp, List.append_assoc, List.append_assoc]
    exact lineStart_append hfront hhead _
  · have hstop := lineStop_of_endsLine hline htail (front ++ (head ++ middle))
    rw [← hqlength] at hstop
    have hsame : content = front ++ (head ++ middle) ++ (line ++ tail) := by
      rw [hcontent]
      simp
    rw [hsame, hstop, hqlength]
    simp only [List.length_append]
    omega
  · rw [hbefore, List.count_append, List.count_eq_zero.mpr hhead, Nat.add_zero]
  · rw [htake]
    simp only [List.count_append, List.count_eq_zero.mpr hline, Nat.add_zero]

/-- The place of the last character of a span, or of the span itself if it is empty. -/
def lastPlace (span : Span) : Nat :=
  if span.start < span.stop then span.stop - 1 else span.start

/-- The occurrence holds the lines of the text from the one on which the span starts to that of its
last character, and is numbered by the first; a match of it is one of them, the last for a
constructor and else the first, without one carriage return at its end. -/
structure WholeLines (content : Text) (path : Option FileLabel) (span : Span) (event : Event)
    (i j : Nat) : Prop where
  first : Text.LineHolds content i span.start
  last : Text.LineHolds content j (lastPlace span)
  event_eq : event =
    ⟨path, .number (i + 1), .text (Text.linesBetween content i j ++ ['\n'])⟩
  named : ∀ kind, ∃ line, (Text.splitAt '\n' content)[if kind = .constructor then j else i]? =
      some line ∧
    Match.ofEvent kind event =
      .ok ⟨kind, path.getD .buffer, ((if kind = .constructor then j else i : Nat) : Int),
        Text.dropReturn line⟩

/-- Every occurrence holds the whole lines of its span, and the occurrences come in the order of
their lines. -/
structure HoldLines (content : Text) (path : Option FileLabel) (spans : List Span)
    (events : List Event) : Prop where
  wholeLines : List.Forall₂ (fun span event => ∃ i j, WholeLines content path span event i j)
    spans events
  ordered : events.Pairwise fun a b => a.line.toInt ≤ b.line.toInt

variable {content : Text} {span : Span}

/-- The offset up to which the lines of a span are looked for is on the line of its last character,
since a line feed at the end of the span is left out. -/
theorem exists_touched_eq (hle : span.start ≤ span.stop) (hin : span.stop ≤ content.length) :
    ∃ last, touched content span = (content.drop (lineStart content span.start)).take
        (lineStop content last - lineStart content span.start) ++ ['\n'] ∧
      span.start ≤ last ∧ last ≤ content.length ∧ lastPlace span ≤ content.length ∧
      (content.take last).count '\n' = (content.take (lastPlace span)).count '\n' := by
  refine ⟨_, rfl, ?_⟩
  unfold lastPlace
  by_cases hlt : span.start < span.stop
  · have hget : content[span.stop - 1]? = some content[span.stop - 1] :=
      List.getElem?_eq_getElem (by omega)
    simp only [hlt, decide_true, Bool.true_and, ↓reduceIte]
    split_ifs with hbreak
    · exact ⟨by omega, by omega, by omega, rfl⟩
    · have htake : content.take span.stop =
          content.take (span.stop - 1) ++ [content[span.stop - 1]] := by
        conv_lhs => rw [show span.stop = span.stop - 1 + 1 by omega]
        rw [List.take_add_one, hget, Option.toList_some]
      have hother : content[span.stop - 1] ≠ '\n' := by
        rintro heq
        exact hbreak (by rw [hget, heq]; rfl)
      refine ⟨by omega, by omega, by omega, ?_⟩
      rw [htake, List.count_append, List.count_singleton]
      simp [hother]
  · have heq : span.stop = span.start := by omega
    simp only [heq, Nat.lt_irrefl, decide_false, Bool.false_and, Bool.false_eq_true, ↓reduceIte]
    exact ⟨by omega, by omega, by omega, trivial⟩

theorem exists_wholeLines (path : Option FileLabel) (hle : span.start ≤ span.stop)
    (hin : span.stop ≤ content.length) :
    ∃ i j, WholeLines content path span (ofSpan content path span) i j := by
  obtain ⟨last, htouched, hlast, hend, hplace, hcount⟩ := exists_touched_eq hle hin
  obtain ⟨front, lines, tail, rfl, hfront, htail, hstart, hstop, hi, hj⟩ :=
    exists_stretch hlast hend
  rw [hstart, hstop, List.drop_left, Nat.add_sub_cancel_left, List.take_left] at htouched
  have hbetween : Text.linesBetween (front ++ (lines ++ tail)) _ _ = lines :=
    Text.linesBetween_eq hfront htail
  have hevent : ofSpan (front ++ (lines ++ tail)) path span =
      ⟨path, .number (front.count '\n' + 1), .text (lines ++ ['\n'])⟩ := by
    rw [← htouched, ← hi]
    rfl
  refine ⟨front.count '\n', front.count '\n' + lines.count '\n', ?_, ?_, ?_, fun kind => ?_⟩
  · exact (Text.lineHolds_iff (by omega)).mpr hi
  · exact (Text.lineHolds_iff hplace).mpr (hcount ▸ hj)
  · rw [hevent, hbetween]
  · have hoffset : (if kind = .constructor then front.count '\n' + lines.count '\n'
        else front.count '\n') = front.count '\n' + Match.offset kind lines := by
      rw [Match.offset]
      split <;> rfl
    have hle : Match.offset kind lines ≤ lines.count '\n' := by
      rw [Match.offset]
      split <;> omega
    obtain ⟨line, hline, hof⟩ := Match.exists_ofLines kind path (front.count '\n') lines
    rw [hoffset, Text.getElem?_splitAt_stretch hfront htail hle, hevent]
    exact ⟨line, hline, congrArg Except.ok hof⟩

theorem line_ofSpan_le (content : Text) (path : Option FileLabel) {p q : Span}
    (h : p.start ≤ q.start) :
    (ofSpan content path p).line.toInt ≤ (ofSpan content path q).line.toInt := by
  have hsublist : (content.take p.start).Sublist (content.take q.start) :=
    List.take_sublist_take_left h
  have hcount := hsublist.count_le '\n'
  simp only [ofSpan, LineNumber.toInt]
  omega

theorem holdLines_map (path : Option FileLabel) {spans : List Span}
    (hin : ∀ span ∈ spans, span.start ≤ span.stop ∧ span.stop ≤ content.length)
    (hordered : spans.Pairwise fun p q => p.start ≤ q.start) :
    HoldLines content path spans (spans.map (ofSpan content path)) where
  wholeLines := by
    rw [List.forall₂_map_right_iff, List.forall₂_same]
    exact fun span hspan => exists_wholeLines path (hin span hspan).1 (hin span hspan).2
  ordered := List.pairwise_map.mpr (hordered.imp (line_ofSpan_le content path))

/-- Occurrences hold whole lines in order: those of any spans of a text, and so those of any
expression in it. -/
theorem find_holdLines (content : Text) (path : Option FileLabel) :
    (∀ spans : List Span,
      (∀ span ∈ spans, span.start ≤ span.stop ∧ span.stop ≤ content.length) →
      (spans.Pairwise fun p q => p.start ≤ q.start) →
      HoldLines content path spans (spans.map (ofSpan content path))) ∧
    ∀ r : Regex, HoldLines content path (r.findAll content) (find r content path) := by
  refine ⟨fun spans => holdLines_map path, fun r => ?_⟩
  obtain ⟨hin, hordered⟩ := Regex.inOrder_findAll r content
  exact holdLines_map path hin hordered

/-- The break at the end of a span stays with its line, and a span at the end of the text touches
the last line. -/
theorem find_holdLines_breaks :
    (∀ span ∈ [Span.mk 0 3, ⟨0, 5⟩, ⟨3, 4⟩, ⟨5, 5⟩], span.start ≤ span.stop ∧
      span.stop ≤ (Text.of "x\r\n\ny").length) ∧
    ([Span.mk 0 3, ⟨0, 5⟩, ⟨3, 4⟩, ⟨5, 5⟩].Pairwise fun p q => p.start ≤ q.start) ∧
    HoldLines (Text.of "x\r\n\ny") none [⟨0, 3⟩, ⟨0, 5⟩, ⟨3, 4⟩, ⟨5, 5⟩]
      [⟨none, .number 1, .text (Text.of "x\r\n")⟩, ⟨none, .number 1, .text (Text.of "x\r\n\ny\n")⟩,
        ⟨none, .number 2, .text (Text.of "\n")⟩, ⟨none, .number 3, .text (Text.of "y\n")⟩] := by
  have hin : ∀ span ∈ [Span.mk 0 3, ⟨0, 5⟩, ⟨3, 4⟩, ⟨5, 5⟩], span.start ≤ span.stop ∧
      span.stop ≤ (Text.of "x\r\n\ny").length := by
    simp [Text.of]
  have hordered : [Span.mk 0 3, ⟨0, 5⟩, ⟨3, 4⟩, ⟨5, 5⟩].Pairwise
      fun p q => p.start ≤ q.start := by
    simp
  exact ⟨hin, hordered, (find_holdLines (Text.of "x\r\n\ny") none).1 _ hin hordered⟩

end Event
end DefinitionSite
