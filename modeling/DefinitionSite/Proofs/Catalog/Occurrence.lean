import DefinitionSite.Proofs.Catalog.Blocks

/-! Occurrences of a constructor in a data block, told by their characters. The search for the
constructor asks one place of the block after the other, from left to right and as long as the
lines are indented, so the sign of the occurrence that it finds is the first of all. -/
namespace DefinitionSite.Catalog
open Regex Declared Cursor

section Hanging

theorem hangs_cons {c : Char} (hc : c ≠ '\n') {word : Text} : Hangs (c :: word) ↔ Hangs word := by
  constructor
  · rintro h u v rfl
    exact h (c :: u) v rfl
  · intro h u v heq
    cases u with
    | nil => exact absurd (List.cons_eq_cons.mp heq).1 hc
    | cons d u => exact h u v (List.cons_eq_cons.mp heq).2

theorem hangs_break {word : Text} : Hangs ('\n' :: word) ↔ Indented word ∧ Hangs word := by
  constructor
  · intro h
    refine ⟨h [] word rfl, ?_⟩
    rintro u v rfl
    exact h ('\n' :: u) v rfl
  · rintro ⟨hin, h⟩
    exact Hangs.break (.inl rfl) h hin

/-- What stands before a character that is no gap hangs as the whole text does. -/
theorem Hangs.front {front rest : Text} {c : Char} (h : Hangs (front ++ c :: rest))
    (hc : Text.isGap c = false) : Hangs front := by
  rintro u v rfl
  obtain ⟨g, more, hg, heq⟩ := h u (v ++ c :: rest) (by simp)
  cases v with
  | nil =>
    obtain ⟨rfl, -⟩ := List.cons_eq_cons.mp heq
    simp [hc] at hg
  | cons d v =>
    obtain ⟨rfl, -⟩ := List.cons_eq_cons.mp heq
    exact ⟨d, v, hg, rfl⟩

/-- The text behind a block starts no indented line. -/
def EndsBlock (tail : Text) : Prop := tail = [] ∨ ∃ rest, tail = '\n' :: rest ∧ ¬ Indented rest

theorem EndsBlock.endsLine {tail : Text} (h : EndsBlock tail) : EndsLine tail := by
  rcases h with rfl | ⟨rest, rfl, -⟩ <;> simp [EndsLine]

/-- A word that hangs does not leave its block. -/
theorem Hangs.within {block tail word after : Text} (hword : Hangs word) (htail : EndsBlock tail)
    (heq : block ++ tail = word ++ after) :
    ∃ rest, block = word ++ rest ∧ after = rest ++ tail := by
  rcases List.append_eq_append_iff.mp heq with ⟨x, rfl, hx⟩ | ⟨x, rfl, rfl⟩
  · cases x with
    | nil => exact ⟨[], by simp, by simpa using hx.symm⟩
    | cons c x =>
      rcases htail with rfl | ⟨rest, rfl, hrest⟩
      · simp at hx
      · obtain ⟨rfl, rfl⟩ := List.cons_eq_cons.mp hx
        obtain ⟨g, more, hg, rfl⟩ := hword block x rfl
        exact absurd ⟨g, more ++ after, hg, rfl⟩ hrest
  · exact ⟨x, rfl, rfl⟩

end Hanging

section Through
variable {α : Type} {next : Cursor → Option α} {before text : Text}

/-- What is asked at one place after the other, as long as the lines are indented, answers for the
first time. -/
def AtFirst (next : Cursor → Option α) (before text : Text) : Option α → Prop
  | none => ∀ front tail, text = front ++ tail → Hangs front →
      next (between (before ++ front) tail) = none
  | some x => ∃ front tail, text = front ++ tail ∧ Hangs front ∧
      next (between (before ++ front) tail) = some x ∧
      ∀ front' tail', text = front' ++ tail' → Hangs front' → front'.length < front.length →
        next (between (before ++ front') tail') = none

/-- Letters at whose places nothing is answered have no part in the first answer. -/
theorem AtFirst.skip (letters : Text) (hhangs : ∀ front, Hangs (letters ++ front) ↔ Hangs front)
    (hnone : ∀ front tail, letters ++ text = front ++ tail → Hangs front →
      front.length < letters.length → next (between (before ++ front) tail) = none)
    {found : Option α} (h : AtFirst next (before ++ letters) text found) :
    AtFirst next before (letters ++ text) found := by
  have hsplit : ∀ front tail, letters ++ text = front ++ tail → Hangs front →
      front.length < letters.length ∨
        ∃ more, front = letters ++ more ∧ text = more ++ tail ∧ Hangs more := by
    intro front tail heq hfront
    by_cases hlt : front.length < letters.length
    · exact .inl hlt
    · obtain ⟨more, rfl⟩ := List.prefix_of_prefix_length_le ⟨text, heq⟩ ⟨tail, rfl⟩ (by omega)
      rw [List.append_assoc] at heq
      exact .inr ⟨more, rfl, List.append_cancel_left heq, (hhangs more).mp hfront⟩
  cases found with
  | none =>
    intro front tail heq hfront
    rcases hsplit front tail heq hfront with hlt | ⟨more, rfl, rfl, hmore⟩
    · exact hnone front tail heq hfront hlt
    · simpa using h more tail rfl hmore
  | some x =>
    obtain ⟨first, rest, rfl, hfirst, hnext, hleast⟩ := h
    refine ⟨letters ++ first, rest, by simp, (hhangs first).mpr hfirst, by simpa using hnext, ?_⟩
    intro front tail heq hfront hlt
    rcases hsplit front tail heq hfront with hshort | ⟨more, rfl, hmore, hhang⟩
    · exact hnone front tail heq hfront hshort
    · simp only [List.length_append] at hlt
      simpa using hleast more tail hmore hhang (by omega)

theorem AtFirst.cons {c : Char} (hc : c ≠ '\n') (hnone : next (between before (c :: text)) = none)
    {found : Option α} (h : AtFirst next (before ++ [c]) text found) :
    AtFirst next before (c :: text) found := by
  refine AtFirst.skip [c] (fun _ => hangs_cons hc) ?_ h
  intro front tail heq _ hlt
  obtain rfl : front = [] := List.length_eq_zero_iff.mp (by simpa using hlt)
  obtain rfl : c :: text = tail := by simpa using heq
  simpa using hnone

/-- A line break before an indented line leads on into the line. -/
theorem AtFirst.break (hnext : NeedsSign next) {g : Char} (hg : Text.isGap g = true)
    {found : Option α} (h : AtFirst next (before ++ ['\n', g]) text found) :
    AtFirst next before ('\n' :: g :: text) found := by
  refine AtFirst.skip ['\n', g] (fun front => ?_) ?_ h
  · simp only [List.cons_append, List.nil_append, hangs_break, hangs_cons (isGap_ne_break hg),
      and_iff_right_iff_imp]
    exact fun _ => ⟨g, front, hg, rfl⟩
  · intro front tail heq _ hlt
    cases front with
    | nil =>
      obtain rfl : '\n' :: g :: text = tail := by simpa using heq
      exact hnext _ _ (by simp [Sign])
    | cons d front =>
      have hlength : front.length = 0 := by
        simp only [List.length_cons, List.length_nil] at hlt
        omega
      obtain rfl := List.length_eq_zero_iff.mp hlength
      obtain ⟨rfl, rfl⟩ := List.cons_eq_cons.mp heq
      exact hnext _ _ (by simpa using not_sign_of_isGap hg)

/-- No place behind the last line of a block is asked. -/
theorem atFirst_break_none (hnext : NeedsSign next) (h : ¬ Indented text) :
    AtFirst next before ('\n' :: text) none := by
  intro front tail heq hfront
  cases front with
  | nil =>
    obtain rfl : '\n' :: text = tail := by simpa using heq
    exact hnext _ _ (by simp [Sign])
  | cons d front =>
    obtain ⟨rfl, rfl⟩ := List.cons_eq_cons.mp heq
    obtain ⟨g, more, hg, rfl⟩ := (hangs_break.mp hfront).1
    exact absurd ⟨g, more ++ tail, hg, rfl⟩ h

/-- A run through the lines of a declaration gives the first answer. -/
theorem throughBody_first (hnext : NeedsSign next) (before text : Text) :
    AtFirst next before text (throughBody next before text) := by
  induction hn : text.length using Nat.strongRecOn generalizing before text with
  | ind n ih =>
    cases text with
    | nil =>
      rw [throughBody_nil hnext]
      intro front tail heq _
      obtain ⟨rfl, rfl⟩ := List.append_eq_nil_iff.mp heq.symm
      exact hnext _ [] (by simp)
    | cons c text =>
      by_cases hc : c = '\n'
      · subst hc
        rw [throughBody_break hnext]
        by_cases hindent : Indented text
        · obtain ⟨g, rest, hg, rfl⟩ := hindent
          have hshorter : rest.length < n := by
            simp only [List.length_cons] at hn
            omega
          have hline : throughLine next before ('\n' :: g :: rest) =
              throughBody next (before ++ ['\n'] ++ [g]) rest :=
            throughLine_break (.inl rfl) hg before rest
          rw [hline, List.append_assoc]
          exact (ih rest.length hshorter _ rest rfl).break hnext hg
        · rw [throughLine_eq_none]
          · exact atFirst_break_none hnext hindent
          · rintro br g rest (rfl | rfl) hg heq
            · exact hindent ⟨g, rest, hg, (List.cons_eq_cons.mp heq).2⟩
            · simp at heq
      · rw [throughBody_cons hnext before text hc]
        cases hm : next (between before (c :: text)) with
        | some x =>
          refine ⟨[], c :: text, rfl, hangs_of_not_mem (by simp), by simpa using hm, ?_⟩
          intro front' tail' _ _ hlt
          simp at hlt
        | none => exact (ih text.length (by simp [← hn]) _ text rfl).cons hc hm

end Through

/-- An occurrence of a constructor in a text: a sign, and linked to it the identifier, which ends
at a boundary. -/
structure Occurrence (identifier text : Text) where
  front : Text
  sign : Char
  link : Text
  rest : Text
  isSign : Sign sign
  isLink : Link link
  boundary : Boundary rest
  eq : text = front ++ sign :: (link ++ (identifier ++ rest))

theorem isBlank_break : Text.isBlank '\n' = true := by decide

theorem Link.isBlank {link : Text} (h : Link link) : ∀ c ∈ link, Text.isBlank c = true := by
  have hgaps : ∀ gap, Gaps gap → ∀ c ∈ gap, Text.isBlank c = true :=
    fun gap hg c hc => isBlank_of_isGap (hg c hc)
  rcases h with hg | ⟨gap, br, gap', hg, hbr, -, hg', rfl⟩
  · exact hgaps _ hg
  · have hbreak : ∀ c ∈ br, Text.isBlank c = true := by
      rcases hbr with rfl | rfl <;> simp [isBlank_break, isBlank_return]
    intro c hc
    simp only [List.mem_append] at hc
    rcases hc with hc | hc | hc
    · exact hgaps _ hg c hc
    · exact hbreak c hc
    · exact hgaps _ hg' c hc

namespace Occurrence
variable {identifier text : Text}

/-- Every other occurrence in the text has its sign behind this one. -/
def IsFirst (o : Occurrence identifier text) : Prop :=
  ∀ o' : Occurrence identifier text, o' = o ∨ o.front.length < o'.front.length

/-- The line of the text on which the identifier stands, counted from 0. -/
def line (o : Occurrence identifier text) : Nat := (o.front ++ o.link).count '\n'

/-- One sign has one identifier behind it: no identifier starts with a blank. -/
theorem eq_of_length_front (hid : Proper identifier) {o o' : Occurrence identifier text}
    (h : o.front.length = o'.front.length) : o = o' := by
  have hkeep : ∀ rest, (identifier ++ rest).dropWhile Text.isBlank = identifier ++ rest := by
    intro rest
    obtain ⟨c, letters, rfl⟩ := List.exists_cons_of_ne_nil hid.ne_nil
    have hblank := (Text.not_blank_of_trim_eq hid.trimmed).1 c rfl
    simp [hblank]
  obtain ⟨front, sign, link, rest, hs, hl, hb, heq⟩ := o
  obtain ⟨front', sign', link', rest', hs', hl', hb', heq'⟩ := o'
  obtain ⟨rfl, htails⟩ := List.append_inj (heq.symm.trans heq') h
  obtain ⟨rfl, hlinks⟩ := List.cons_eq_cons.mp htails
  have hnames := congrArg (List.dropWhile Text.isBlank) hlinks
  rw [List.dropWhile_append_of_pos hl.isBlank, List.dropWhile_append_of_pos hl'.isBlank, hkeep,
    hkeep] at hnames
  obtain rfl := List.append_cancel_left hnames
  obtain rfl := List.append_cancel_right hlinks
  rfl

end Occurrence

theorem opens_signed_iff {identifier before text : Text} :
    Opens (seqAll (signed identifier)) before text ↔
      ∃ sign link rest, Sign sign ∧ Link link ∧ Boundary rest ∧
        text = sign :: (link ++ (identifier ++ rest)) := by
  rw [opens_signed]
  constructor
  · rintro (⟨sign, gap, rest, hs, hg, hb, rfl⟩ |
      ⟨sign, gap, br, gap', rest, hs, hg, hbr, hne, hg', hb, rfl⟩)
    · exact ⟨sign, gap, rest, hs, .inl hg, hb, rfl⟩
    · exact ⟨sign, gap ++ (br ++ gap'), rest, hs, .inr ⟨gap, br, gap', hg, hbr, hne, hg', rfl⟩, hb,
        by simp⟩
  · rintro ⟨sign, link, rest, hs, hg | ⟨gap, br, gap', hg, hbr, hne, hg', rfl⟩, hb, rfl⟩
    · exact .inl ⟨sign, link, rest, hs, hg, hb, rfl⟩
    · exact .inr ⟨sign, gap, br, gap', rest, hs, hg, hbr, hne, hg', hb, by simp⟩

section Block
variable {identifier before block tail word after : Text}

theorem isGap_of_sign {c : Char} (h : Sign c) : Text.isGap c = false := by
  rcases h with rfl | rfl <;> decide

/-- The sign of an occurrence stands behind the keyword of the block. -/
theorem exists_of_sign {c sign : Char} {lines front rest : Text} (hc : Text.isGap c = true)
    (hs : Sign sign) (heq : Text.of "data" ++ c :: lines = front ++ sign :: rest) :
    ∃ more, front = Text.of "data" ++ c :: more ∧ lines = more ++ sign :: rest := by
  have hkey : sign ∉ Text.of "data" ++ [c] := by
    have hdata : sign ∉ Text.of "data" := by rcases hs with rfl | rfl <;> decide
    have hne : sign ≠ c := by
      rintro rfl
      exact not_sign_of_isGap hc hs
    simp [hdata, hne]
  have heq' : (Text.of "data" ++ [c]) ++ lines = front ++ sign :: rest := by simpa using heq
  rcases List.append_eq_append_iff.mp heq' with ⟨more, rfl, hmore⟩ | ⟨x, hx, hx'⟩
  · exact ⟨more, by simp, hmore⟩
  · cases x with
    | nil => exact ⟨[], by simpa using hx.symm, by simpa using hx'.symm⟩
    | cons d x =>
      obtain ⟨rfl, -⟩ := List.cons_eq_cons.mp hx'
      rw [hx] at hkey
      simp at hkey

/-- What an occurrence in a block says of the lines behind the keyword. -/
theorem Occurrence.opens {c : Char} {lines : Text} (hc : Text.isGap c = true)
    (hblock : Hangs (Text.of "data" ++ c :: lines)) (htail : EndsBlock tail)
    (o : Occurrence identifier (Text.of "data" ++ c :: lines)) :
    ∃ front rest, o.front = Text.of "data" ++ c :: front ∧ lines ++ tail = front ++ rest ∧
      Hangs front ∧ ∀ before, Opens (seqAll (signed identifier)) before rest := by
  obtain ⟨front, hfront, hlines⟩ := exists_of_sign hc o.isSign o.eq
  have hhangs : Hangs front := by
    have hall := hblock
    rw [o.eq] at hall
    have hwhole := hall.front (isGap_of_sign o.isSign)
    rw [hfront] at hwhole
    rintro u v rfl
    exact hwhole (Text.of "data" ++ c :: u) v (by simp)
  refine ⟨front, _, hfront, by rw [hlines, List.append_assoc], hhangs, fun before => ?_⟩
  exact opens_signed_iff.mpr ⟨o.sign, o.link, o.rest ++ tail, o.isSign, o.isLink,
    (boundary_append (endsHere_of_endsLine htail.endsLine)).mpr o.boundary, by simp⟩

/-- The search finds a block in which the constructor occurs. -/
theorem opens_of_occurrence (hstart : StartsLine before) (hopens : OpensData block)
    (hblock : Hangs block) (htail : EndsBlock tail) (o : Occurrence identifier block) :
    Opens (regex identifier .constructor) before (block ++ tail) := by
  obtain ⟨c, lines, hc, rfl⟩ := hopens
  obtain ⟨front, rest, -, hlines, hfront, hsigned⟩ := o.opens hc hblock htail
  by_contra hno
  rw [← matchEnd?_eq_none_iff, List.append_assoc, List.cons_append,
    matchEnd?_constructor hstart hc] at hno
  have hfirst := throughBody_first (needsSign_signed identifier)
    (before ++ Text.of "data" ++ [c]) (lines ++ tail)
  rw [hno] at hfirst
  exact matchEnd?_eq_none_iff.mp (hfirst front rest hlines hfront) (hsigned _)

/-- The match in a block ends with the first occurrence of the constructor, or with the character
behind it. -/
theorem exists_isFirst (hid : Proper identifier) (hstart : StartsLine before)
    (hopens : OpensData block) (hblock : Hangs block) (htail : EndsBlock tail)
    (heq : block ++ tail = word ++ after)
    (hend : (regex identifier .constructor).matchEnd? false (between before (block ++ tail)) =
      some (between (before ++ word) after)) :
    ∃ o : Occurrence identifier block, o.IsFirst ∧ word.count '\n' = o.line ∧
      ∃ rest, block = word ++ rest ∧ after = rest ++ tail := by
  obtain ⟨c, lines, hc, rfl⟩ := hopens
  have hfirst := throughBody_first (needsSign_signed identifier)
    (before ++ Text.of "data" ++ [c]) (lines ++ tail)
  rw [← matchEnd?_constructor hstart hc, ← List.cons_append, ← List.append_assoc, hend] at hfirst
  obtain ⟨front, rest, hlines, hfront, hsigned, hleast⟩ := hfirst
  obtain ⟨found, after', rfl, hspells, hcursor⟩ := matchEnd?_eq_some hsigned
  obtain ⟨-, -, rfl⟩ : _ ∧ _ ∧ after = after' := Cursor.mk.inj hcursor
  obtain rfl : word = Text.of "data" ++ c :: (front ++ found) := by
    have hall : word ++ after = Text.of "data" ++ c :: (front ++ found) ++ after := by
      rw [← heq]
      simp [hlines]
    exact List.append_cancel_right hall
  -- The whole match hangs, so it stays in the block.
  have hkey : '\n' ∉ Text.of "data" ++ [c] := by
    have hdata : '\n' ∉ Text.of "data" := by decide
    simpa [hdata] using (isGap_ne_break hc).symm
  have hword : Hangs (Text.of "data" ++ c :: (front ++ found)) := by
    have hall := (hangs_of_not_mem hkey).append (hfront.append (hangs_signed hid.one_line hspells))
    simpa using hall
  obtain ⟨rest, hrest, rfl⟩ := hword.within htail heq
  obtain ⟨sign, link, stop, hs, hl, hb, hstop, rfl⟩ := exists_of_spells_signed hspells
  have hboundary : Boundary (stop ++ rest) := by
    rw [← List.append_assoc] at hb
    exact (boundary_append (endsHere_of_endsLine htail.endsLine)).mp hb
  refine ⟨⟨Text.of "data" ++ c :: front, sign, link, stop ++ rest, hs, hl, hboundary,
    by rw [hrest]; simp⟩, ?_, ?_, rest, hrest, rfl⟩
  · intro o
    obtain ⟨front', rest', hfront', hlines', hhangs', hopens'⟩ := o.opens hc hblock htail
    have hle : front.length ≤ front'.length := by
      by_contra hlt
      have hnone := hleast front' rest' hlines' hhangs' (by omega)
      exact matchEnd?_eq_none_iff.mp hnone (hopens' _)
    rcases Nat.lt_or_eq_of_le hle with hlt | hlength
    · right
      simpa [hfront'] using hlt
    · left
      exact Occurrence.eq_of_length_front hid (by simp [hfront', hlength])
  · have hsign : sign ≠ '\n' := by rcases hs with rfl | rfl <;> decide
    have hzero : (identifier ++ stop).count '\n' = 0 :=
      List.count_eq_zero.mpr (by simp [hid.one_line, hstop])
    simp [Occurrence.line, List.count_cons_of_ne hsign, hzero, List.count_cons, Nat.add_assoc]

end Block
end DefinitionSite.Catalog
