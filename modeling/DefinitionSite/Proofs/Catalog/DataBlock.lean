import DefinitionSite.Proofs.Catalog.Sites
import DefinitionSite.Proofs.Regex.Running

/-! The search for a constructor goes through the lines of a data declaration from left to right:
it finds the first sign behind which the identifier stands. -/
namespace DefinitionSite.Catalog
open Regex Declared Cursor

/-- A line break and the indented line behind it. -/
def continuation : Regex :=
  seqAll (lineBreak ++ [.set ⟨false, [.char ' ', .char '\t']⟩, .star false inLine])

/-- The lines of a data declaration behind its keyword, as few as lead to a match. -/
def body : List Regex := [.star false inLine, .star false continuation]

/-- A sign and the identifier behind it. -/
def signed (identifier : Text) : List Regex :=
  [.set ⟨false, [.char '=', .char '|']⟩, gaps,
    Regex.times true 0 (some 1) (seqAll (lineBreak ++ [someGaps]))] ++
    identifier.map .char ++ [boundary]

theorem items_constructor (identifier : Text) : items identifier .constructor =
    [.lineStart] ++ (Text.of "data").map .char ++ [.set ⟨false, [.char ' ', .char '\t']⟩] ++
      body ++ signed identifier := by
  simp [items, dataBody, body, signed, continuation]

/-- The identifier stands behind a sign on the same line. -/
def SignedHere (identifier text : Text) : Prop :=
  ∃ sign gap rest, Sign sign ∧ Gaps gap ∧ Boundary rest ∧
    text = sign :: (gap ++ (identifier ++ rest))

/-- The identifier starts the line behind a sign, after more gaps. -/
def SignedBelow (identifier text : Text) : Prop :=
  ∃ sign gap br gap' rest, Sign sign ∧ Gaps gap ∧ (br = ['\n'] ∨ br = ['\r', '\n']) ∧ gap' ≠ [] ∧
    Gaps gap' ∧ Boundary rest ∧ text = sign :: (gap ++ (br ++ (gap' ++ (identifier ++ rest))))

theorem opens_signed (identifier before text : Text) :
    Opens (seqAll (signed identifier)) before text ↔
      SignedHere identifier text ∨ SignedBelow identifier text := by
  simp only [signed, List.cons_append, List.nil_append]
  rw [opens_seqAll_cons]
  simp only [opens_gaps_cons, opens_optional_cons, List.append_assoc, opens_lineBreak_append,
    opens_someGaps_cons, opens_literal_append, opens_boundary, List.cons_append, List.nil_append]
  constructor
  · rintro ⟨_, _, rfl, ⟨sign, hs, rfl⟩, gap, _, hg, rfl,
      ⟨br, _, hbr, rfl, gap', _, hne, hg', rfl, rest, rfl, hb⟩ | ⟨rest, rfl, hb⟩⟩
    · exact Or.inr ⟨sign, gap, br, gap', rest, (has_sign _).mp hs, hg, hbr, hne, hg', hb, rfl⟩
    · exact Or.inl ⟨sign, gap, rest, (has_sign _).mp hs, hg, hb, rfl⟩
  · rintro (⟨sign, gap, rest, hs, hg, hb, rfl⟩ |
      ⟨sign, gap, br, gap', rest, hs, hg, hbr, hne, hg', hb, rfl⟩)
    · exact ⟨[sign], _, rfl, ⟨sign, (has_sign _).mpr hs, rfl⟩, gap, _, hg, rfl,
        Or.inr ⟨rest, rfl, hb⟩⟩
    · exact ⟨[sign], _, rfl, ⟨sign, (has_sign _).mpr hs, rfl⟩, gap, _, hg, rfl,
        Or.inl ⟨br, _, hbr, rfl, gap', _, hne, hg', rfl, rest, rfl, hb⟩⟩

/-- What may stand between a sign and a constructor: gaps, and perhaps a line break and an
indentation behind them. -/
def Link (link : Text) : Prop :=
  Gaps link ∨ ∃ gap br gap', Gaps gap ∧ (br = ['\n'] ∨ br = ['\r', '\n']) ∧ gap' ≠ [] ∧ Gaps gap' ∧
    link = gap ++ (br ++ gap')

/-- A word of a sign and the identifier, and perhaps the character behind them. -/
theorem exists_of_spells_signed {identifier before word after : Text}
    (h : Spells (seqAll (signed identifier)) before word after) :
    ∃ sign link stop, Sign sign ∧ Link link ∧ Boundary (stop ++ after) ∧ '\n' ∉ stop ∧
      word = sign :: (link ++ (identifier ++ stop)) := by
  simp only [signed, List.cons_append, List.nil_append] at h
  obtain ⟨_, _, rfl, ⟨sign, hs, rfl⟩, gap, _, rfl, hg, between, _, rfl, hbetween, hrest⟩ := h
  obtain ⟨_, stop, rfl, hname, hstop⟩ := (spells_seqAll_append _ _ _ _ _).mp hrest
  obtain rfl := (spells_literal _ _ _ _).mp hname
  have hgap : Gaps gap := (spells_gaps _ _ _).mp hg
  have hb : Boundary (stop ++ after) := (opens_boundary _ _).mp ⟨stop, after, rfl, hstop⟩
  have hfeed : '\n' ∉ stop :=
    not_mem_of_avoids (show (seqAll [boundary]).avoids '\n' = true by decide) hstop
  refine ⟨sign, gap ++ between, stop, (has_sign _).mp hs, ?_, hb, hfeed, by simp⟩
  rcases (spells_optional _ _ _ _).mp hbetween with hbr | rfl
  · obtain ⟨br, _, rfl, hbr, gap', _, rfl, hgap', rfl⟩ := (spells_seqAll_append _ _ _ _ _).mp hbr
    obtain ⟨hne, hg'⟩ := (spells_someGaps _ _ _).mp hgap'
    exact .inr ⟨gap, br, gap', hgap, (spells_lineBreak _ _ _).mp hbr, hne, hg', by simp⟩
  · exact .inl (by simpa using hgap)

/-- A word of a sign and the identifier runs over one line feed just if the identifier starts the
next line. -/
theorem count_of_spells_signed {identifier before word after : Text} (hid : '\n' ∉ identifier)
    (h : Spells (seqAll (signed identifier)) before word after) :
    word.count '\n' = 0 ∧ SignedHere identifier (word ++ after) ∨
      word.count '\n' = 1 ∧ SignedBelow identifier (word ++ after) := by
  obtain ⟨sign, link, stop, hs, hl, hb, hstop, rfl⟩ := exists_of_spells_signed h
  have hsign : sign ≠ '\n' := by rcases hs with rfl | rfl <;> decide
  have hname : (identifier ++ stop).count '\n' = 0 := List.count_eq_zero.mpr (by simp [hid, hstop])
  have hgaps : ∀ gap, Gaps gap → gap.count '\n' = 0 :=
    fun gap hg => List.count_eq_zero.mpr (gaps_not_mem hg)
  rcases hl with hg | ⟨gap, br, gap', hg, hbr, hne, hg', rfl⟩
  · refine .inl ⟨?_, sign, link, stop ++ after, hs, hg, hb, by simp⟩
    rw [List.count_cons_of_ne hsign, List.count_append, hgaps _ hg, hname]
  · have hone : br.count '\n' = 1 := by rcases hbr with rfl | rfl <;> decide
    refine .inr ⟨?_, sign, gap, br, gap', stop ++ after, hs, hg, hbr, hne, hg', hb, by simp⟩
    rw [List.count_cons_of_ne hsign, List.count_append, List.count_append, List.count_append,
      hgaps _ hg, hgaps _ hg', hone, hname]

section Body
variable {α : Type} {next : Cursor → Option α}

/-- What follows the lines of a declaration needs a sign. -/
def NeedsSign (next : Cursor → Option α) : Prop :=
  ∀ before text, (∀ c ∈ text.head?, ¬ Sign c) → next (between before text) = none

/-- Goes through the lines of a declaration, to where what follows succeeds. -/
def throughBody (next : Cursor → Option α) (before text : Text) : Option α :=
  (seqAll body).run (between before text) next

theorem throughBody_eq (before text : Text) : throughBody next before text =
    (Regex.star false inLine).run (between before text)
      fun e => (Regex.star false continuation).run e next := rfl

/-- One round through the next line. -/
def throughLine (next : Cursor → Option α) (before text : Text) : Option α :=
  continuation.run (between before text)
    (nextRound continuation.run false (between before text) next)

theorem continuation_run_eq (before text : Text) :
    (Regex.star false continuation).run (between before text) next =
      (next (between before text)).or (throughLine next before text) :=
  repeatFrom_lazy _ _

theorem lineBreak_run {br : Text} (hbr : br = ['\n'] ∨ br = ['\r', '\n']) (before rest : Text) :
    (seqAll lineBreak).run (between before (br ++ rest)) next =
      next (between (before ++ br) rest) := by
  rcases hbr with rfl | rfl
  · simp [lineBreak, times, upTo, opt, seqAll, run, step?_between_cons]
  · cases h : next (between (before ++ ['\r', '\n']) rest) <;>
      simp [lineBreak, times, upTo, opt, seqAll, run, step?_between_cons, h]

/-- A line break and an indentation lead into the body again. -/
theorem throughLine_break {br : Text} (hbr : br = ['\n'] ∨ br = ['\r', '\n']) {c : Char}
    (hc : Text.isGap c = true) (before rest : Text) :
    throughLine next before (br ++ c :: rest) = throughBody next (before ++ br ++ [c]) rest := by
  have hgap : (seqAll [.set ⟨false, [.char ' ', .char '\t']⟩, .star false inLine]).run
      (between (before ++ br) (c :: rest))
        (nextRound continuation.run false (between before (br ++ c :: rest)) next) =
      (Regex.star false inLine).run (between (before ++ br ++ [c]) rest)
        (nextRound continuation.run false (between before (br ++ c :: rest)) next) := by
    simp only [seqAll, run, step?_between_cons, has_gap, hc, ↓reduceIte, Option.bind_some]
  rw [throughLine, continuation, run_seqAll_append, lineBreak_run hbr, ← continuation, hgap,
    throughBody_eq]
  apply run_local
  rintro word after rfl
  have hlt : after.length < (br ++ c :: (word ++ after)).length := by
    simp only [List.length_append, List.length_cons]
    omega
  simp only [nextRound, between_left, hlt, ↓reduceIte, run]

theorem throughLine_eq_none {before text : Text}
    (h : ∀ br c rest, (br = ['\n'] ∨ br = ['\r', '\n']) → Text.isGap c = true →
      text ≠ br ++ c :: rest) : throughLine next before text = none := by
  cases hrun : throughLine next before text with
  | none => rfl
  | some x =>
    obtain ⟨_, after, rfl, hw, -⟩ := run_sound continuation before text _ x hrun
    obtain ⟨br, _, rfl, hbr, hrest⟩ := (spells_seqAll_append _ _ _ _ _).mp hw
    obtain ⟨_, line, rfl, ⟨c, hc, rfl⟩, -⟩ := hrest
    exact absurd (by simp) (h br c (line ++ after) ((spells_lineBreak _ _ _).mp hbr)
      (by simpa using hc))

theorem throughBody_nil (hnext : NeedsSign next) (before : Text) :
    throughBody next before [] = none := by
  have hline : throughLine next before [] = none := by
    apply throughLine_eq_none
    rintro br c rest (rfl | rfl) - <;> simp
  rw [throughBody_eq, run, repeatFrom_lazy, continuation_run_eq, hline, hnext before [] (by simp)]
  rfl

theorem throughBody_break (hnext : NeedsSign next) (before rest : Text) :
    throughBody next before ('\n' :: rest) = throughLine next before ('\n' :: rest) := by
  rw [throughBody_eq, run, repeatFrom_lazy, continuation_run_eq,
    hnext before ('\n' :: rest) (by simp [Sign])]
  have hstep : ∀ k, (Regex.run (α := α) inLine) (between before ('\n' :: rest)) k = none := by
    intro k
    simp [inLine, run, step?_between_cons, CharSet.has, SetItem.covers]
  rw [hstep, Option.or_none, Option.none_or]

/-- Within a line the body tries what follows at each character, from left to right. -/
theorem throughBody_cons (hnext : NeedsSign next) (before rest : Text) {c : Char} (hc : c ≠ '\n') :
    throughBody next before (c :: rest) =
      (next (between before (c :: rest))).or (throughBody next (before ++ [c]) rest) := by
  have hstep : Regex.run inLine (between before (c :: rest)) (nextRound (run inLine) false
      (between before (c :: rest)) fun e => (Regex.star false continuation).run e next) =
      throughBody next (before ++ [c]) rest := by
    have hin : (⟨true, [.char '\n']⟩ : CharSet).has c = true := (has_inLine c).mpr hc
    simp [inLine, run, step?_between_cons, hin, nextRound, throughBody_eq]
  rw [throughBody_eq, run, repeatFrom_lazy, hstep, continuation_run_eq]
  -- A carriage return can also be taken as part of the line break, which leads to the same places.
  by_cases hbreak : c = '\r' ∧ ∃ d tail, Text.isGap d = true ∧ rest = '\n' :: d :: tail
  · obtain ⟨rfl, d, tail, hd, rfl⟩ := hbreak
    have hshort : throughLine next (before ++ ['\r']) ('\n' :: d :: tail) =
        throughBody next (before ++ ['\r'] ++ ['\n'] ++ [d]) tail :=
      throughLine_break (Or.inl rfl) hd _ _
    have hlong : throughLine next before ('\r' :: '\n' :: d :: tail) =
        throughBody next (before ++ ['\r', '\n'] ++ [d]) tail :=
      throughLine_break (Or.inr rfl) hd _ _
    simp only [List.cons_append, List.nil_append, List.append_assoc] at hshort hlong
    rw [throughBody_break hnext, hshort, hlong, Option.or_assoc, Option.or_self]
  · have hnone : throughLine next before (c :: rest) = none := by
      apply throughLine_eq_none
      rintro br d tail (rfl | rfl) hd heq
      · exact hc (List.cons_eq_cons.mp heq).1
      · obtain ⟨rfl, rfl⟩ := List.cons_eq_cons.mp heq
        exact hbreak ⟨rfl, d, tail, hd, rfl⟩
    rw [hnone, Option.or_none]

end Body
end DefinitionSite.Catalog
