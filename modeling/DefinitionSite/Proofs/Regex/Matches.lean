import DefinitionSite.Proofs.Regex.Spelling

/-! The matches that a search goes through. The first one starts at the leftmost place where the
expression opens the rest of the text, every one is a word that the expression spells, they follow
each other without overlap, and where words cannot overlap none is lost. -/
namespace DefinitionSite.Regex
open Cursor

variable {r : Regex} {before text : Text}

theorem matchEnd?_eq_some {e : Cursor} (h : r.matchEnd? false (between before text) = some e) :
    ∃ word after, text = word ++ after ∧ r.Spells before word after ∧
      e = between (before ++ word) after := by
  obtain ⟨word, after, ht, hw, he⟩ := run_sound r before text _ e h
  exact ⟨word, after, ht, hw, by simpa using he.symm⟩

theorem matchEnd?_isSome_iff :
    (r.matchEnd? false (between before text)).isSome ↔ r.Opens before text := by
  constructor
  · intro h
    obtain ⟨e, he⟩ := Option.isSome_iff_exists.mp h
    obtain ⟨word, after, ht, hw, -⟩ := matchEnd?_eq_some he
    exact ⟨word, after, ht, hw⟩
  · rintro ⟨word, after, rfl, hw⟩
    exact run_complete r before word after _ hw rfl

theorem matchEnd?_eq_none_iff :
    r.matchEnd? false (between before text) = none ↔ ¬ r.Opens before text := by
  rw [← matchEnd?_isSome_iff, Option.not_isSome_iff_eq_none]

theorem searchFrom_cons (d : Char) :
    r.searchFrom false before.getLast? (d :: text).length (d :: text) =
      match r.matchEnd? false (between before (d :: text)) with
      | some e => some (between before (d :: text), e)
      | none => r.searchFrom false (before ++ [d]).getLast? text.length text := by
  rw [searchFrom, show (before ++ [d]).getLast? = some d by simp]
  rfl

/-- A search gives the leftmost place where the expression opens the rest of the text. -/
theorem searchFrom_eq_some {c e : Cursor}
    (h : r.searchFrom false before.getLast? text.length text = some (c, e)) :
    ∃ skipped rest, text = skipped ++ rest ∧ c = between (before ++ skipped) rest ∧
      r.matchEnd? false c = some e ∧
      ∀ u v, skipped = u ++ v → v ≠ [] → ¬ r.Opens (before ++ u) (v ++ rest) := by
  induction text generalizing before with
  | nil =>
    simp only [searchFrom, Option.map_eq_some_iff, Prod.mk.injEq] at h
    obtain ⟨_, he, rfl, rfl⟩ := h
    refine ⟨[], [], rfl, by simp [between], he, ?_⟩
    intro u v huv hv
    simp_all
  | cons d text ih =>
    rw [searchFrom_cons] at h
    cases hm : r.matchEnd? false (between before (d :: text)) with
    | some f =>
      rw [hm] at h
      obtain ⟨rfl, rfl⟩ : between before (d :: text) = c ∧ f = e := by simpa using h
      refine ⟨[], d :: text, rfl, by simp, hm, ?_⟩
      intro u v huv hv
      simp_all
    | none =>
      rw [hm] at h
      obtain ⟨skipped, rest, rfl, hc, he, hfirst⟩ := ih h
      refine ⟨d :: skipped, rest, rfl, by simpa using hc, he, ?_⟩
      intro u v huv hv
      cases u with
      | nil =>
        obtain rfl : v = d :: skipped := by simpa using huv.symm
        simpa using matchEnd?_eq_none_iff.mp hm
      | cons x u =>
        obtain ⟨rfl, hskip⟩ := List.cons_eq_cons.mp huv
        simpa using hfirst u v hskip hv

theorem searchFrom_eq_none
    (h : r.searchFrom false before.getLast? text.length text = none) :
    ∀ u v, text = u ++ v → ¬ r.Opens (before ++ u) v := by
  induction text generalizing before with
  | nil =>
    intro u v huv
    obtain ⟨rfl, rfl⟩ := List.append_eq_nil_iff.mp huv.symm
    simp only [searchFrom, Option.map_eq_none_iff] at h
    simpa using matchEnd?_eq_none_iff.mp h
  | cons d text ih =>
    intro u v huv
    rw [searchFrom_cons] at h
    cases hm : r.matchEnd? false (between before (d :: text)) with
    | some f =>
      rw [hm] at h
      simp at h
    | none =>
      rw [hm] at h
      cases u with
      | nil =>
        obtain rfl : v = d :: text := by simpa using huv.symm
        simpa using matchEnd?_eq_none_iff.mp hm
      | cons x u =>
        obtain ⟨rfl, htext⟩ := List.cons_eq_cons.mp huv
        simpa using ih h u v htext

theorem matchesFrom_of_none
    (h : r.searchFrom false before.getLast? text.length text = none) :
    r.matchesFrom false (between before text) = [] := by
  rw [matchesFrom]
  simp only [between] at h ⊢
  rw [h]

/-- A search that finds no empty words goes on behind the word it found. -/
theorem matchesFrom_of_some (hr : r.Consumes) {c e : Cursor}
    (h : r.searchFrom false before.getLast? text.length text = some (c, e)) :
    r.matchesFrom false (between before text) = (c, e) :: r.matchesFrom false e := by
  obtain ⟨skipped, rest, rfl, rfl, he, -⟩ := searchFrom_eq_some h
  obtain ⟨word, after, rfl, hw, rfl⟩ := matchEnd?_eq_some he
  have hpos := List.length_pos_iff.mpr (hr _ _ _ hw)
  have hlt : after.length < (skipped ++ (word ++ after)).length := by
    simp only [List.length_append]
    omega
  have hmoved : ((word ++ after).length == after.length) = false := by
    simp only [List.length_append, beq_eq_false_iff_ne]
    omega
  rw [matchesFrom]
  simp only [between] at h hlt hmoved ⊢
  rw [h]
  simp only [hlt, ↓reduceDIte, hmoved]

/-- Every match is a word that the expression spells, the one that is found first from its start. -/
theorem mem_matchesFrom (hr : r.Consumes) {c e : Cursor}
    (h : (c, e) ∈ r.matchesFrom false (between before text)) :
    ∃ skipped word after, text = skipped ++ (word ++ after) ∧
      c = between (before ++ skipped) (word ++ after) ∧
      e = between (before ++ skipped ++ word) after ∧
      r.Spells (before ++ skipped) word after ∧ r.matchEnd? false c = some e := by
  induction hn : text.length using Nat.strongRecOn generalizing before text with
  | ind n ih =>
    cases hs : r.searchFrom false before.getLast? text.length text with
    | none => simp [matchesFrom_of_none hs] at h
    | some p =>
      obtain ⟨c', e'⟩ := p
      rw [matchesFrom_of_some hr hs] at h
      obtain ⟨skipped, rest, rfl, rfl, he, -⟩ := searchFrom_eq_some hs
      obtain ⟨word, after, rfl, hw, rfl⟩ := matchEnd?_eq_some he
      rcases List.mem_cons.mp h with heq | hmem
      · obtain ⟨rfl, rfl⟩ := Prod.mk.inj heq
        exact ⟨skipped, word, after, rfl, rfl, rfl, hw, he⟩
      · have hpos := List.length_pos_iff.mpr (hr _ _ _ hw)
        have hlt : after.length < n := by
          simp only [← hn, List.length_append]
          omega
        obtain ⟨u, w, a, rfl, rfl, rfl, hu⟩ := ih after.length hlt hmem rfl
        exact ⟨skipped ++ word ++ u, w, a, by simp, by simp, by simp, by simpa using hu⟩

/-- The matches follow each other without overlap. -/
theorem pairwise_matchesFrom (hr : r.Consumes) :
    (r.matchesFrom false (between before text)).Pairwise fun p q =>
      p.2.left < p.1.left ∧ q.1.left ≤ p.2.left := by
  induction hn : text.length using Nat.strongRecOn generalizing before text with
  | ind n ih =>
    cases hs : r.searchFrom false before.getLast? text.length text with
    | none => simp [matchesFrom_of_none hs]
    | some p =>
      obtain ⟨c, e⟩ := p
      rw [matchesFrom_of_some hr hs]
      obtain ⟨skipped, rest, rfl, rfl, he, -⟩ := searchFrom_eq_some hs
      obtain ⟨word, after, rfl, hw, rfl⟩ := matchEnd?_eq_some he
      have hpos := List.length_pos_iff.mpr (hr _ _ _ hw)
      refine List.pairwise_cons.mpr ⟨?_, ih after.length ?_ rfl⟩
      · rintro ⟨c', e'⟩ hq
        obtain ⟨u, w, a, rfl, rfl, -, -⟩ := mem_matchesFrom hr hq
        simp only [between_left, List.length_append]
        omega
      · simp only [← hn, List.length_append]
        omega

/-- The expression never opens the text inside one of its own words. -/
def NeverOverlaps (r : Regex) : Prop :=
  ∀ before u v after, u ≠ [] → v ≠ [] → r.Spells before (u ++ v) after →
    ¬ r.Opens (before ++ u) (v ++ after)

/-- A search for words that never overlap finds a match at every place where the expression opens
the rest of the text. -/
theorem exists_mem_matchesFrom (hr : r.Consumes) (hover : r.NeverOverlaps) {skipped rest : Text}
    (hopens : r.Opens (before ++ skipped) rest) :
    ∃ e, (between (before ++ skipped) rest, e) ∈
      r.matchesFrom false (between before (skipped ++ rest)) := by
  induction hn : (skipped ++ rest).length using Nat.strongRecOn generalizing before skipped with
  | ind n ih =>
    cases hs : r.searchFrom false before.getLast? (skipped ++ rest).length (skipped ++ rest) with
    | none => exact absurd hopens (searchFrom_eq_none hs skipped rest rfl)
    | some p =>
      obtain ⟨c, e⟩ := p
      rw [matchesFrom_of_some hr hs]
      obtain ⟨u, v, huv, rfl, he, hfirst⟩ := searchFrom_eq_some hs
      obtain ⟨word, after, rfl, hw, rfl⟩ := matchEnd?_eq_some he
      have hpos := List.length_pos_iff.mpr (hr _ _ _ hw)
      have hbehind : ∀ y, skipped = u ++ word ++ y → after = y ++ rest →
          ∃ e, (between (before ++ skipped) rest, e) ∈
            r.matchesFrom false (between (before ++ u ++ word) after) := by
        rintro y rfl rfl
        have hlt : (y ++ rest).length < n := by
          simp only [← hn, List.length_append]
          omega
        simpa using @ih _ hlt (before ++ u ++ word) y (by simpa using hopens) rfl
      -- The place is before the first match, at its start, inside it or behind it.
      rcases List.append_eq_append_iff.mp huv with ⟨x, rfl, hrest⟩ | ⟨x, rfl, hword⟩
      · cases x with
        | nil =>
          obtain rfl : rest = word ++ after := by simpa using hrest
          exact ⟨between (before ++ skipped ++ word) after, by simp⟩
        | cons d x =>
          have hnot := hfirst skipped (d :: x) rfl (by simp)
          rw [← hrest] at hnot
          exact absurd hopens hnot
      · rcases List.append_eq_append_iff.mp hword with ⟨y, rfl, hafter⟩ | ⟨y, rfl, rfl⟩
        · obtain ⟨f, hf⟩ := hbehind y (by simp) hafter
          exact ⟨f, List.mem_cons_of_mem _ hf⟩
        · cases x with
          | nil => exact ⟨between (before ++ u ++ y) after, by simp⟩
          | cons d x =>
            cases y with
            | nil =>
              obtain ⟨f, hf⟩ := hbehind [] (by simp) rfl
              exact ⟨f, List.mem_cons_of_mem _ hf⟩
            | cons d' y =>
              refine absurd hopens ?_
              simpa using hover (before ++ u) (d :: x) (d' :: y) after (by simp) (by simp) hw

/-! The same for the spans of the matches in a text. -/

theorem mem_findAll (hr : r.Consumes) {span : Span} (h : span ∈ r.findAll text) :
    ∃ before word after, text = before ++ (word ++ after) ∧
      span = ⟨before.length, before.length + word.length⟩ ∧ r.Spells before word after ∧
      r.matchEnd? false (between before (word ++ after)) =
        some (between (before ++ word) after) := by
  obtain ⟨⟨c, e⟩, hmem, rfl⟩ := List.mem_map.mp h
  rw [start_eq_between] at hmem
  obtain ⟨before, word, after, rfl, rfl, rfl, hw, hend⟩ := mem_matchesFrom hr hmem
  simp only [List.nil_append] at hw hend
  refine ⟨before, word, after, rfl, ?_, hw, hend⟩
  simp only [between_left, List.length_append, Span.mk.injEq]
  omega

theorem pairwise_findAll (hr : r.Consumes) :
    (r.findAll text).Pairwise fun p q => p.start < q.start := by
  rw [findAll, start_eq_between, List.pairwise_map]
  refine (pairwise_matchesFrom hr).imp_of_mem ?_
  rintro ⟨c, e⟩ ⟨c', e'⟩ hmem - ⟨hlt, hle⟩
  obtain ⟨before, word, after, rfl, rfl, rfl, -⟩ := mem_matchesFrom hr hmem
  simp only [between_left, List.length_append] at hlt hle ⊢
  omega

/-- A search finds something at or before every place where the expression opens the text. -/
theorem exists_findAll_le (hr : r.Consumes) {rest : Text} (h : r.Opens before rest) :
    ∃ span ∈ r.findAll (before ++ rest), span.start ≤ before.length := by
  cases hs : r.searchFrom false ([] : Text).getLast? (before ++ rest).length (before ++ rest) with
  | none => exact absurd h (searchFrom_eq_none hs before rest rfl)
  | some p =>
    obtain ⟨c, e⟩ := p
    have hmem : (c, e) ∈ r.matchesFrom false (between [] (before ++ rest)) := by
      rw [matchesFrom_of_some hr hs]
      exact List.mem_cons_self
    obtain ⟨skipped, tail, heq, rfl, -, hfirst⟩ := searchFrom_eq_some hs
    refine ⟨_, List.mem_map.mpr ⟨_, hmem, rfl⟩, ?_⟩
    simp only [between_left, heq, List.length_append, Nat.add_sub_cancel]
    by_contra hlt
    rcases List.append_eq_append_iff.mp heq with ⟨x, rfl, rfl⟩ | ⟨x, rfl, rfl⟩
    · refine hfirst before x rfl ?_ h
      rintro rfl
      simp at hlt
    · simp only [List.length_append] at hlt
      omega

/-- A search for words that never overlap finds all of them. -/
theorem exists_mem_findAll (hr : r.Consumes) (hover : r.NeverOverlaps) {rest : Text}
    (h : r.Opens before rest) :
    ∃ span ∈ r.findAll (before ++ rest), span.start = before.length := by
  have hopens : r.Opens ([] ++ before) rest := h
  obtain ⟨e, he⟩ := exists_mem_matchesFrom hr hover hopens
  refine ⟨_, List.mem_map.mpr ⟨_, he, rfl⟩, ?_⟩
  simp

theorem occursIn_iff :
    r.occursIn text = true ↔ ∃ u v, text = u ++ v ∧ r.Opens u v := by
  change (r.searchFrom false ([] : Text).getLast? text.length text).isSome = true ↔ _
  cases hs : r.searchFrom false ([] : Text).getLast? text.length text with
  | none =>
    have hnone := searchFrom_eq_none hs
    simp only [List.nil_append] at hnone
    simpa using hnone
  | some p =>
    obtain ⟨skipped, rest, rfl, hc, he, -⟩ := searchFrom_eq_some hs
    rw [hc] at he
    have hopens : r.Opens skipped rest := matchEnd?_isSome_iff.mp (by simp_all)
    simpa using ⟨skipped, rest, rfl, hopens⟩

end DefinitionSite.Regex
