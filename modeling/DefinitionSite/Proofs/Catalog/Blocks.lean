import DefinitionSite.Proofs.Catalog.Constructor

/-! The data declarations of a text as blocks of lines: the search for a constructor starts at the
first line of a block and ends on the first of its lines that names the constructor, and no block
reaches into another. -/
namespace DefinitionSite.Catalog
open Regex Declared Cursor

variable {identifier before text : Text}

theorem opensData_iff {line : Text} (h : (Text.physicalLines text)[0]? = some line) :
    OpensData line ↔ OpensData text := by
  have hsame : ∀ c, Text.isGap c = true →
      ((∃ rest, line = Text.of "data" ++ [c] ++ rest) ↔
        ∃ rest, text = Text.of "data" ++ [c] ++ rest) := by
    intro c hc
    have hbreak : '\n' ∉ Text.of "data" ++ [c] := by simpa [Text.of] using (isGap_ne_break hc).symm
    have hlast : (Text.of "data" ++ [c]).getLast? ≠ some '\r' := by
      rintro heq
      obtain rfl : c = '\r' := by simpa using heq
      simp [Text.isGap] at hc
    exact Text.exists_firstLine_eq_append hbreak hlast h
  simp only [List.append_assoc, List.singleton_append] at hsame
  constructor
  · rintro ⟨c, rest, hc, hline⟩
    obtain ⟨rest', htext⟩ := (hsame c hc).mp ⟨rest, hline⟩
    exact ⟨c, rest', hc, htext⟩
  · rintro ⟨c, rest, hc, htext⟩
    obtain ⟨rest', hline⟩ := (hsame c hc).mpr ⟨rest, htext⟩
    exact ⟨c, rest', hc, hline⟩

/-- Behind the keyword of a data declaration the search goes through the lines of its body. -/
theorem matchEnd?_constructor (hstart : StartsLine before) {c : Char} (hc : Text.isGap c = true)
    (rest : Text) :
    (regex identifier .constructor).matchEnd? false (between before (Text.of "data" ++ c :: rest)) =
      throughBody (fun e => (seqAll (signed identifier)).matchEnd? false e)
        (before ++ Text.of "data" ++ [c]) rest := by
  have hline : (between before (Text.of "data" ++ c :: rest)).atLineStart = true := by
    cases hlast : before.getLast? with
    | none => simp [between, atLineStart, hlast]
    | some d => simp [between, atLineStart, hlast, hstart d hlast]
  have hanchor : ∀ next : Cursor → Option Cursor, (seqAll [Regex.lineStart]).run
      (between before (Text.of "data" ++ c :: rest)) next =
        next (between before (Text.of "data" ++ c :: rest)) := by
    intro next
    simp only [seqAll, run, hline, ↓reduceIte]
  have hgap : ∀ next : Cursor → Option Cursor,
      (seqAll [Regex.set ⟨false, [.char ' ', .char '\t']⟩]).run
        (between (before ++ Text.of "data") (c :: rest)) next =
          next (between (before ++ Text.of "data" ++ [c]) rest) := by
    intro next
    simp only [seqAll, run, step?_between_cons, has_gap, hc, ↓reduceIte, Option.bind_some]
  rw [matchEnd?_false, regex, items_constructor, run_seqAll_append, run_seqAll_append,
    run_seqAll_append, run_seqAll_append, hanchor, run_literal, hgap]
  rfl

/-- The match at the start of a data declaration ends on the first line that names the
constructor. -/
theorem endsAtFirst_constructor (hid : Proper identifier) (hstart : StartsLine before)
    (hopens : OpensData text) : EndsAtFirst identifier before text
      ((regex identifier .constructor).matchEnd? false (between before text)) := by
  obtain ⟨c, rest, hc, rfl⟩ := hopens
  have hno : ∀ d ∈ Text.of "data" ++ [c], d ≠ '\n' ∧ ¬ Sign d := by
    have hdata : ∀ d ∈ Text.of "data", d ≠ '\n' ∧ ¬ (d = '=' ∨ d = '|') := by simp [Text.of]
    intro d hd
    rcases List.mem_append.mp hd with hd | hd
    · exact hdata d hd
    · obtain rfl := List.mem_singleton.mp hd
      exact ⟨isGap_ne_break hc, not_sign_of_isGap hc⟩
  have hbody := throughBody_signed hid (before ++ Text.of "data" ++ [c]) rest
  rw [← matchEnd?_constructor hstart hc, List.append_assoc] at hbody
  simpa using hbody.skip hid _ hno

theorem opensData_of_opens (h : Opens (regex identifier .constructor) before text) :
    OpensData text := by
  rw [regex, items_constructor, List.append_assoc, List.append_assoc, List.append_assoc,
    List.singleton_append, opens_lineStart_cons, opens_literal_append] at h
  obtain ⟨-, rest, rfl, hrest⟩ := h
  rw [List.singleton_append, opens_seqAll_cons] at hrest
  obtain ⟨_, rest', rfl, ⟨c, hc, rfl⟩, -⟩ := hrest
  exact ⟨c, rest', by simpa using hc, rfl⟩

/-- The expression for a constructor matches at the start of a data declaration that names it. -/
theorem opens_constructor_iff (hid : Proper identifier) (hstart : StartsLine before) :
    Opens (regex identifier .constructor) before text ↔
      OpensData text ∧ ∃ k, OccursAt identifier (Text.physicalLines text) k := by
  constructor
  · intro h
    have hopens := opensData_of_opens h
    refine ⟨hopens, ?_⟩
    have hend := endsAtFirst_constructor hid hstart hopens
    obtain ⟨e, he⟩ := Option.isSome_iff_exists.mp (matchEnd?_isSome_iff.mpr h)
    rw [he] at hend
    obtain ⟨word, -, -, -, hfirst⟩ := hend
    exact ⟨_, hfirst.1⟩
  · rintro ⟨hopens, k, hk⟩
    have hend := endsAtFirst_constructor hid hstart hopens
    by_contra hno
    rw [matchEnd?_eq_none_iff.mpr hno] at hend
    exact hend k hk

theorem occursAt_iff (identifier : Text) (lines : List Text) (k : Nat) :
    OccursAt identifier lines k ↔
      (∀ j, 0 < j → j ≤ k → ∃ line, lines[j]? = some line ∧ Indented line) ∧
        ∃ line, lines[k]? = some line ∧ (BehindSign identifier line ∨ 0 < k ∧ ∃ previous,
          lines[k - 1]? = some previous ∧ BehindBreak identifier previous line) := by
  induction k generalizing lines with
  | zero =>
    cases lines with
    | nil => simp [OccursAt]
    | cons line lines =>
      simp only [OccursAt]
      constructor
      · intro h
        exact ⟨fun j hj hj' => absurd hj (by omega), line, rfl, Or.inl h⟩
      · rintro ⟨-, _, hget, h | ⟨h, -⟩⟩
        · obtain rfl := Option.some.inj hget
          exact h
        · exact absurd h (by omega)
  | succ k ih =>
    cases lines with
    | nil => simp [OccursAt]
    | cons line lines =>
      cases lines with
      | nil => simp [OccursAt]
      | cons next lines =>
        have hall : (∀ j, 0 < j → j ≤ k + 1 →
              ∃ l, (line :: next :: lines)[j]? = some l ∧ Indented l) ↔ Indented next ∧
            ∀ j, 0 < j → j ≤ k → ∃ l, (next :: lines)[j]? = some l ∧ Indented l := by
          constructor
          · intro h
            have hnext := h 1 (by omega) (by omega)
            exact ⟨by simpa using hnext, fun j hj hj' => h (j + 1) (by omega) (by omega)⟩
          · rintro ⟨hnext, h⟩ j hj hj'
            obtain ⟨j, rfl⟩ : ∃ i, j = i + 1 := ⟨j - 1, by omega⟩
            cases j with
            | zero => exact ⟨next, rfl, hnext⟩
            | succ j => exact h (j + 1) (by omega) (by omega)
        rw [OccursAt, ih, hall, and_assoc]
        refine and_congr_right fun _ => ?_
        -- The line above the first line of the rest is looked at here, the other ones below.
        cases k with
        | zero =>
          have hnone : ∀ j, 0 < j → j ≤ 0 → ∃ l, (next :: lines)[j]? = some l ∧ Indented l :=
            fun j hj hj' => absurd hj (by omega)
          simp only [true_and, List.getElem?_cons_zero, List.getElem?_cons_succ,
            Option.some.injEq, exists_eq_left', Nat.lt_irrefl, false_and, or_false, Nat.zero_add,
            Nat.sub_self, Nat.lt_one_iff]
          rw [and_iff_right hnone, and_iff_right hnone]
          exact or_comm
        | succ k => simp

/-- A constructor is defined on the lines of a data declaration that name it. -/
theorem defines_constructor_iff (identifier : Text) (lines : List Text) (i : Nat) :
    Defines identifier lines i .constructor ↔
      ∃ first k line, i = first + k ∧ lines[first]? = some line ∧ OpensData line ∧
        OccursAt identifier (lines.drop first) k := by
  simp only [Defines, InBlock, occursAt_iff, List.getElem?_drop]
  constructor
  · rintro ⟨first, line, ⟨hle, ⟨line', hget', hopens⟩, hin⟩, hget, hfound⟩
    obtain ⟨k, rfl⟩ := Nat.exists_eq_add_of_le hle
    refine ⟨first, k, line', rfl, hget', hopens, ?_, line, hget, ?_⟩
    · exact fun j hj hj' => hin (first + j) (by omega) (by omega)
    · rcases hfound with h | ⟨hlt, previous, hprev, h⟩
      · exact Or.inl h
      · refine Or.inr ⟨by omega, previous, ?_, h⟩
        rwa [show first + (k - 1) = first + k - 1 by omega]
  · rintro ⟨first, k, line', rfl, hget', hopens, hin, line, hget, hfound⟩
    refine ⟨first, line, ⟨by omega, ⟨line', hget', hopens⟩, ?_⟩, hget, ?_⟩
    · intro j hj hj'
      obtain ⟨j, rfl⟩ := Nat.exists_eq_add_of_lt hj
      rw [Nat.add_assoc]
      exact hin (j + 1) (by omega) (by omega)
    · rcases hfound with h | ⟨hlt, previous, hprev, h⟩
      · exact Or.inl h
      · refine Or.inr ⟨by omega, previous, ?_, h⟩
        rwa [show first + k - 1 = first + (k - 1) by omega]

theorem not_indented_of_opensData {line : Text} (h : OpensData line) : ¬ Indented line := by
  obtain ⟨c, rest, -, rfl⟩ := h
  rintro ⟨d, rest', hd, heq⟩
  obtain rfl : 'd' = d := (List.cons_eq_cons.mp heq).1
  simp [Text.isGap] at hd

/-- No line of a block opens another one. -/
theorem lt_of_opensData {lines : List Text} {first i d : Nat} {line : Text}
    (hblock : InBlock lines first i) (hget : lines[d]? = some line) (hopens : OpensData line)
    (hlt : first < d) : i < d := by
  by_contra hle
  obtain ⟨line', hget', hin⟩ := hblock.2.2 d hlt (by omega)
  obtain rfl : line = line' := by simpa [hget] using hget'
  exact not_indented_of_opensData hopens hin

/-- Every line feed of the word has an indentation behind it. -/
def Hangs (word : Text) : Prop := ∀ u v, word = u ++ '\n' :: v → Indented v

theorem hangs_of_not_mem {word : Text} (h : '\n' ∉ word) : Hangs word := by
  rintro u v rfl
  simp at h

theorem Hangs.append {word rest : Text} (hword : Hangs word) (hrest : Hangs rest) :
    Hangs (word ++ rest) := by
  intro u v heq
  rcases List.append_eq_append_iff.mp heq with ⟨x, -, hx⟩ | ⟨x, hx, hx'⟩
  · exact hrest x v hx
  · cases x with
    | nil => exact hrest [] v (by simpa using hx'.symm)
    | cons c x =>
      obtain ⟨rfl, rfl⟩ := List.cons_eq_cons.mp hx'
      obtain ⟨g, gs, hg, rfl⟩ := hword u x hx
      exact ⟨g, gs ++ rest, hg, rfl⟩

theorem Hangs.break {br rest : Text} (hbr : br = ['\n'] ∨ br = ['\r', '\n']) (hrest : Hangs rest)
    (hin : Indented rest) : Hangs (br ++ rest) := by
  have hfeed : Hangs ('\n' :: rest) := by
    intro u v heq
    cases u with
    | nil =>
      obtain ⟨-, rfl⟩ := List.cons_eq_cons.mp heq
      exact hin
    | cons c u => exact hrest u v (List.cons_eq_cons.mp heq).2
  rcases hbr with rfl | rfl
  · exact hfeed
  · have hreturn : Hangs ['\r'] := hangs_of_not_mem (by decide)
    exact hreturn.append hfeed

theorem hangs_continuation {word after : Text} (h : Spells continuation before word after) :
    Hangs word := by
  obtain ⟨br, _, rfl, hbr, hrest⟩ := (spells_seqAll_append _ _ _ _ _).mp h
  obtain ⟨_, line, rfl, ⟨c, hc, rfl⟩, hline⟩ := hrest
  have hgap : Text.isGap c = true := by simpa using hc
  have hfeed : '\n' ∉ line :=
    not_mem_of_avoids (show (seqAll [.star false inLine]).avoids '\n' = true by decide) hline
  have hrest : Hangs ([c] ++ line) :=
    hangs_of_not_mem (by simp [(isGap_ne_break hgap).symm, hfeed])
  exact hrest.break ((spells_lineBreak _ _ _).mp hbr) ⟨c, line, hgap, rfl⟩

theorem hangs_body {word after : Text} (h : Spells (seqAll body) before word after) :
    Hangs word := by
  obtain ⟨line, _, rfl, hline, rounds, _, rfl, hrounds, rfl⟩ := h
  have hfeed : '\n' ∉ line :=
    not_mem_of_avoids (show (Regex.star false inLine).avoids '\n' = true by decide) hline
  refine (hangs_of_not_mem hfeed).append ?_
  rw [List.append_nil]
  rw [List.nil_append] at hrounds
  clear hline
  generalize before ++ line = front at hrounds
  induction hrounds with
  | done => exact hangs_of_not_mem (by simp)
  | more _ hone _ ih => exact (hangs_continuation hone).append ih

theorem hangs_signed (hid : '\n' ∉ identifier) {word after : Text}
    (h : Spells (seqAll (signed identifier)) before word after) : Hangs word := by
  simp only [signed, List.cons_append, List.nil_append] at h
  obtain ⟨_, _, rfl, ⟨sign, hs, rfl⟩, gap, _, rfl, hg, between, _, rfl, hbetween, hrest⟩ := h
  have hsign : sign ≠ '\n' := by rcases (has_sign _).mp hs with rfl | rfl <;> decide
  have hgap := gaps_not_mem ((spells_gaps _ _ _).mp hg)
  have hend : (seqAll (identifier.map Regex.char ++ [boundary])).avoids '\n' = true := by
    have hboundary : boundary.avoids '\n' = true := by decide
    rw [avoids_seqAll, List.all_append, avoids_literal hid]
    simp [hboundary]
  refine Hangs.append (hangs_of_not_mem (by simpa using hsign.symm)) ?_
  refine (hangs_of_not_mem hgap).append (Hangs.append ?_
    (hangs_of_not_mem (not_mem_of_avoids hend hrest)))
  rcases (spells_optional _ _ _ _).mp hbetween with hbr | rfl
  · obtain ⟨br, _, rfl, hbr, hgap'⟩ := (spells_seqAll_append _ _ _ _ _).mp hbr
    obtain ⟨gap', _, rfl, hgap', rfl⟩ := hgap'
    obtain ⟨hne, hg'⟩ := (spells_someGaps _ _ _).mp hgap'
    obtain ⟨g, gs, rfl⟩ := List.exists_cons_of_ne_nil hne
    rw [List.append_nil]
    exact (hangs_of_not_mem (gaps_not_mem hg')).break ((spells_lineBreak _ _ _).mp hbr)
      ⟨g, gs, hg' g (by simp), rfl⟩
  · exact hangs_of_not_mem (by simp)

/-- The lines of a block behind its first one are indented, so no word for a constructor starts
inside another. -/
theorem neverOverlaps_constructor (hid : '\n' ∉ identifier) :
    (regex identifier .constructor).NeverOverlaps := by
  intro before u v after hu _ hw hopens
  have hhangs : Hangs (u ++ v) := by
    rw [regex, items_constructor, List.append_assoc, spells_seqAll_append] at hw
    obtain ⟨front, _, heq, hfront, hrest⟩ := hw
    obtain ⟨lines, name, rfl, hlines, hname⟩ := (spells_seqAll_append _ _ _ _ _).mp hrest
    have hfeed : '\n' ∉ front := not_mem_of_avoids (by decide) hfront
    rw [heq]
    exact (hangs_of_not_mem hfeed).append ((hangs_body hlines).append (hangs_signed hid hname))
  obtain ⟨u, c, rfl⟩ := List.eq_nil_or_concat u |>.resolve_left hu
  have hc : c = '\n' := startsLine_of_opens hopens c (by simp)
  obtain ⟨g, gs, hg, rfl⟩ := hhangs u v (by simp [hc])
  exact not_indented_of_opensData (opensData_of_opens hopens) ⟨g, gs ++ after, hg, rfl⟩

end DefinitionSite.Catalog
