import Mathlib.Data.List.Basic
import Mathlib.Tactic.Common
import DefinitionSite.Regex.Basic

/-! What an expression matches, said without a search: a relation between an expression and a word
with the text before and after it. The backtracking run finds exactly the words of this relation. -/
namespace DefinitionSite

/-- The place between two parts of a text. -/
def Cursor.between (before after : Text) : Cursor := ⟨before.getLast?, after.length, after⟩

namespace Cursor

@[simp] theorem between_left (before after : Text) : (between before after).left = after.length :=
  rfl

@[simp] theorem between_rest (before after : Text) : (between before after).rest = after := rfl

theorem start_eq_between (text : Text) : start text = between [] text := rfl

theorem step?_between_nil (ok : Char → Bool) (before : Text) :
    (between before []).step? ok = none := rfl

theorem step?_between_cons (ok : Char → Bool) (before : Text) (d : Char) (after : Text) :
    (between before (d :: after)).step? ok =
      if ok d then some (between (before ++ [d]) after) else none := by
  simp [step?, between]

end Cursor

namespace Regex
open Cursor

/-- A line starts behind this text. -/
def StartsLine (before : Text) : Prop := ∀ c ∈ before.getLast?, c = '\n'

/-- A line ends before this text. -/
def EndsLine (after : Text) : Prop := ∀ c ∈ after.head?, c = '\n'

/-- One round after another, none of them empty. -/
inductive Rounds (one : Text → Text → Text → Prop) : Text → Text → Text → Prop where
  | done (before after : Text) : Rounds one before [] after
  | more {before word rest after : Text} (hword : word ≠ [])
      (hone : one before word (rest ++ after)) (hrest : Rounds one (before ++ word) rest after) :
      Rounds one before (word ++ rest) after

/-- The expression matches the word that stands between the two other parts of the text. -/
def Spells : Regex → Text → Text → Text → Prop
  | .empty, _, word, _ => word = []
  | .char c, _, word, _ => word = [c]
  | .set s, _, word, _ => ∃ c, s.has c = true ∧ word = [c]
  | .lineStart, before, word, _ => word = [] ∧ StartsLine before
  | .lineEnd, _, word, after => word = [] ∧ EndsLine after
  | .seq a b, before, word, after => ∃ u v, word = u ++ v ∧ Spells a before u (v ++ after) ∧
      Spells b (before ++ u) v after
  | .alt a b, before, word, after => Spells a before word after ∨ Spells b before word after
  | .star _ a, before, word, after => Rounds (Spells a) before word after

section Step
variable {α : Type} {step : Cursor → (Cursor → Option α) → Option α}
  {one : Text → Text → Text → Prop}

/-- Every answer of the step comes from a word that it spells. -/
def StepSound (step : Cursor → (Cursor → Option α) → Option α)
    (one : Text → Text → Text → Prop) : Prop :=
  ∀ before text next x, step (between before text) next = some x →
    ∃ word after, text = word ++ after ∧ one before word after ∧
      next (between (before ++ word) after) = some x

/-- The step answers whenever what follows answers behind a word that it spells. -/
def StepComplete (step : Cursor → (Cursor → Option α) → Option α)
    (one : Text → Text → Text → Prop) : Prop :=
  ∀ before word after next, one before word after →
    (next (between (before ++ word) after)).isSome →
      (step (between before (word ++ after)) next).isSome

/-- What one round of a repetition from a place hands its end to. -/
def nextRound (step : Cursor → (Cursor → Option α) → Option α) (greedy : Bool) (c : Cursor)
    (next : Cursor → Option α) (e : Cursor) : Option α :=
  if e.left < c.left then repeatFrom step greedy e next else next c

theorem repeatFrom_greedy (c : Cursor) (next : Cursor → Option α) :
    repeatFrom step true c next = (step c (nextRound step true c next)).or (next c) := by
  have hround : (fun e => if _h : e.left < c.left then repeatFrom step true e next else next c) =
      nextRound step true c next := rfl
  rw [repeatFrom]
  simp only [↓reduceIte, hround]
  cases step c (nextRound step true c next) <;> rfl

theorem repeatFrom_lazy (c : Cursor) (next : Cursor → Option α) :
    repeatFrom step false c next = (next c).or (step c (nextRound step false c next)) := by
  have hround : (fun e => if _h : e.left < c.left then repeatFrom step false e next else next c) =
      nextRound step false c next := rfl
  rw [repeatFrom]
  simp only [Bool.false_eq_true, ↓reduceIte, hround]
  cases next c <;> rfl

theorem repeatFrom_eq_some {greedy : Bool} {c : Cursor} {next : Cursor → Option α} {x : α}
    (h : repeatFrom step greedy c next = some x) :
    next c = some x ∨ step c (nextRound step greedy c next) = some x := by
  cases greedy with
  | true =>
    rw [repeatFrom_greedy, Option.or_eq_some_iff] at h
    rcases h with h | h
    · exact Or.inr h
    · exact Or.inl h.2
  | false =>
    rw [repeatFrom_lazy, Option.or_eq_some_iff] at h
    rcases h with h | h
    · exact Or.inl h
    · exact Or.inr h.2

theorem repeatFrom_isSome {greedy : Bool} {c : Cursor} {next : Cursor → Option α}
    (h : (next c).isSome ∨ (step c (nextRound step greedy c next)).isSome) :
    (repeatFrom step greedy c next).isSome := by
  cases greedy with
  | true => simpa [repeatFrom_greedy, or_comm] using h
  | false => simpa [repeatFrom_lazy] using h

theorem repeatFrom_sound (hstep : StepSound step one) (greedy : Bool) :
    StepSound (repeatFrom step greedy) (Rounds one) := by
  intro before text next x
  induction hn : text.length using Nat.strongRecOn generalizing before text with
  | ind n ih =>
    intro h
    rcases repeatFrom_eq_some h with h | h
    · exact ⟨[], text, rfl, .done _ _, by simpa using h⟩
    obtain ⟨u, rest, rfl, hu, hnext⟩ := hstep before text _ x h
    -- A round that moves on is followed by the induction hypothesis; another is the last one.
    by_cases hlt : rest.length < (u ++ rest).length
    · have hne : u ≠ [] := by
        rintro rfl
        simp at hlt
      simp only [nextRound, between_left, hlt, ↓reduceIte] at hnext
      obtain ⟨v, after, rfl, hv, hx⟩ := ih rest.length (by omega) (before ++ u) rest rfl hnext
      exact ⟨u ++ v, after, by simp, .more hne hu hv, by simpa using hx⟩
    · simp only [nextRound, between_left, hlt, ↓reduceIte] at hnext
      exact ⟨[], u ++ rest, rfl, .done _ _, by simpa using hnext⟩

theorem repeatFrom_complete (hstep : StepComplete step one) (greedy : Bool) :
    StepComplete (repeatFrom step greedy) (Rounds one) := by
  intro before word after next hrounds hnext
  induction hrounds with
  | done before after => exact repeatFrom_isSome (Or.inl (by simpa using hnext))
  | @more before word rest after hword hone hrest ih =>
    apply repeatFrom_isSome
    right
    rw [List.append_assoc]
    apply hstep before word (rest ++ after) _ hone
    have hlt : (rest ++ after).length < (word ++ (rest ++ after)).length := by
      have hpos := List.length_pos_iff.mpr hword
      simp only [List.length_append]
      omega
    simp only [nextRound, between_left, hlt, ↓reduceIte]
    exact ih (by simpa using hnext)

end Step

/-- A run answers only with what follows a word that the expression spells. -/
theorem run_sound {α : Type} (r : Regex) : StepSound (α := α) r.run r.Spells := by
  induction r with
  | empty => exact fun before text next x h => ⟨[], text, rfl, rfl, by simpa [run] using h⟩
  | char c =>
    intro before text next x h
    cases text with
    | nil => simp [run, step?_between_nil] at h
    | cons d after =>
      by_cases hd : d = c
      · refine ⟨[d], after, rfl, by simp [Spells, hd], ?_⟩
        simpa [run, step?_between_cons, hd] using h
      · simp [run, step?_between_cons, hd] at h
  | set s =>
    intro before text next x h
    cases text with
    | nil => simp [run, step?_between_nil] at h
    | cons d after =>
      by_cases hd : s.has d
      · exact ⟨[d], after, rfl, ⟨d, hd, rfl⟩, by simpa [run, step?_between_cons, hd] using h⟩
      · simp [run, step?_between_cons, hd] at h
  | lineStart =>
    intro before text next x h
    by_cases hs : (between before text).atLineStart
    · refine ⟨[], text, rfl, ⟨rfl, ?_⟩, by simpa [run, hs] using h⟩
      simpa [StartsLine, atLineStart, between, Option.all_eq_true] using hs
    · simp [run, hs] at h
  | lineEnd =>
    intro before text next x h
    by_cases hs : (between before text).atLineEnd
    · refine ⟨[], text, rfl, ⟨rfl, ?_⟩, by simpa [run, hs] using h⟩
      simpa [EndsLine, atLineEnd, between, Option.all_eq_true] using hs
    · simp [run, hs] at h
  | seq a b iha ihb =>
    intro before text next x h
    obtain ⟨u, rest, rfl, hu, hrest⟩ := iha before text _ x h
    obtain ⟨v, after, rfl, hv, hx⟩ := ihb (before ++ u) rest next x hrest
    exact ⟨u ++ v, after, by simp, ⟨u, v, rfl, hu, hv⟩, by simpa using hx⟩
  | alt a b iha ihb =>
    intro before text next x h
    cases ha : run a (between before text) next with
    | some y =>
      simp only [run, ha, Option.some.injEq] at h
      obtain ⟨word, after, ht, hw, hx⟩ := iha before text next y ha
      exact ⟨word, after, ht, Or.inl hw, h ▸ hx⟩
    | none =>
      simp only [run, ha] at h
      obtain ⟨word, after, ht, hw, hx⟩ := ihb before text next x h
      exact ⟨word, after, ht, Or.inr hw, hx⟩
  | star greedy a iha => exact repeatFrom_sound iha greedy

/-- A run answers as soon as what follows answers behind one word that the expression spells. -/
theorem run_complete {α : Type} (r : Regex) : StepComplete (α := α) r.run r.Spells := by
  induction r with
  | empty =>
    rintro before word after next rfl hnext
    simpa [run] using hnext
  | char c =>
    rintro before word after next rfl hnext
    simpa [run, step?_between_cons] using hnext
  | set s =>
    rintro before word after next ⟨c, hc, rfl⟩ hnext
    simpa [run, step?_between_cons, hc] using hnext
  | lineStart =>
    rintro before word after next ⟨rfl, hs⟩ hnext
    have : (between before after).atLineStart = true := by
      simpa [StartsLine, atLineStart, between, Option.all_eq_true] using hs
    simpa [run, this] using hnext
  | lineEnd =>
    rintro before word after next ⟨rfl, hs⟩ hnext
    have : (between before after).atLineEnd = true := by
      simpa [EndsLine, atLineEnd, between, Option.all_eq_true] using hs
    simpa [run, this] using hnext
  | seq a b iha ihb =>
    rintro before word after next ⟨u, v, rfl, hu, hv⟩ hnext
    rw [List.append_assoc]
    exact iha before u (v ++ after) _ hu (ihb (before ++ u) v after next hv (by simpa using hnext))
  | alt a b iha ihb =>
    rintro before word after next hw hnext
    cases ha : run a (between before (word ++ after)) next with
    | some y => simp [run, ha]
    | none =>
      simp only [run, ha]
      rcases hw with hw | hw
      · have := iha before word after next hw hnext
        simp [ha] at this
      · exact ihb before word after next hw hnext
  | star greedy a iha => exact repeatFrom_complete iha greedy

/-! Sequences: what they spell, and whether they match the start of a text. -/

/-- The expression matches a word at the start of a text. -/
def Opens (r : Regex) (before text : Text) : Prop :=
  ∃ word after, text = word ++ after ∧ Spells r before word after

theorem spells_seqAll_append (rs qs : List Regex) (before word after : Text) :
    Spells (seqAll (rs ++ qs)) before word after ↔
      ∃ u v, word = u ++ v ∧ Spells (seqAll rs) before u (v ++ after) ∧
        Spells (seqAll qs) (before ++ u) v after := by
  induction rs generalizing before word with
  | nil => simp [seqAll, Spells]
  | cons r rs ih =>
    simp only [List.cons_append, seqAll, Spells]
    constructor
    · rintro ⟨u, v, rfl, hu, hv⟩
      obtain ⟨x, y, rfl, hx, hy⟩ := (ih _ _).mp hv
      exact ⟨u ++ x, y, by simp, ⟨u, x, rfl, by simpa using hu, hx⟩, by simpa using hy⟩
    · rintro ⟨_, y, rfl, ⟨u, x, rfl, hu, hx⟩, hy⟩
      refine ⟨u, x ++ y, by simp, by simpa using hu, (ih _ _).mpr ⟨x, y, rfl, hx, ?_⟩⟩
      simpa using hy

theorem opens_seqAll_append (rs qs : List Regex) (before text : Text) :
    Opens (seqAll (rs ++ qs)) before text ↔
      ∃ u rest, text = u ++ rest ∧ Spells (seqAll rs) before u rest ∧
        Opens (seqAll qs) (before ++ u) rest := by
  simp only [Opens, spells_seqAll_append]
  constructor
  · rintro ⟨_, after, rfl, u, v, rfl, hu, hv⟩
    exact ⟨u, v ++ after, by simp, hu, v, after, rfl, hv⟩
  · rintro ⟨u, _, rfl, hu, v, after, rfl, hv⟩
    exact ⟨u ++ v, after, by simp, u, v, rfl, hu, hv⟩

theorem opens_seqAll_cons (r : Regex) (qs : List Regex) (before text : Text) :
    Opens (seqAll (r :: qs)) before text ↔
      ∃ u rest, text = u ++ rest ∧ Spells r before u rest ∧
        Opens (seqAll qs) (before ++ u) rest := by
  simp only [Opens, seqAll, Spells]
  constructor
  · rintro ⟨_, after, rfl, u, v, rfl, hu, hv⟩
    exact ⟨u, v ++ after, by simp, hu, v, after, rfl, hv⟩
  · rintro ⟨u, _, rfl, hu, v, after, rfl, hv⟩
    exact ⟨u ++ v, after, by simp, u, v, rfl, hu, hv⟩

@[simp] theorem opens_seqAll_nil (before text : Text) : Opens (seqAll []) before text :=
  ⟨[], text, rfl, rfl⟩

theorem spells_literal (letters before word after : Text) :
    Spells (seqAll (letters.map .char)) before word after ↔ word = letters := by
  induction letters generalizing before word with
  | nil => simp [seqAll, Spells]
  | cons c letters ih =>
    simp only [List.map_cons, seqAll, Spells, ih]
    constructor
    · rintro ⟨_, _, rfl, rfl, rfl⟩
      rfl
    · rintro rfl
      exact ⟨[c], letters, rfl, rfl, rfl⟩

theorem opens_literal_append (letters : Text) (qs : List Regex) (before text : Text) :
    Opens (seqAll (letters.map .char ++ qs)) before text ↔
      ∃ rest, text = letters ++ rest ∧ Opens (seqAll qs) (before ++ letters) rest := by
  simp only [opens_seqAll_append, spells_literal]
  constructor
  · rintro ⟨_, rest, rfl, rfl, h⟩
    exact ⟨rest, rfl, h⟩
  · rintro ⟨rest, rfl, h⟩
    exact ⟨letters, rest, rfl, rfl, h⟩

theorem opens_char_cons (c : Char) (qs : List Regex) (before text : Text) :
    Opens (seqAll (.char c :: qs)) before text ↔
      ∃ rest, text = c :: rest ∧ Opens (seqAll qs) (before ++ [c]) rest :=
  opens_literal_append [c] qs before text

theorem opens_lineStart_cons (qs : List Regex) (before text : Text) :
    Opens (seqAll (.lineStart :: qs)) before text ↔
      StartsLine before ∧ Opens (seqAll qs) before text := by
  simp only [opens_seqAll_cons, Spells]
  constructor
  · rintro ⟨_, rest, rfl, ⟨rfl, hs⟩, h⟩
    exact ⟨hs, by simpa using h⟩
  · rintro ⟨hs, h⟩
    exact ⟨[], text, rfl, ⟨rfl, hs⟩, by simpa using h⟩

/-- A repeated character set spells the words made of its characters. -/
theorem spells_star_set (greedy : Bool) (s : CharSet) (before word after : Text) :
    Spells (.star greedy (.set s)) before word after ↔ ∀ c ∈ word, s.has c = true := by
  simp only [Spells]
  constructor
  · intro h
    induction h with
    | done => simp
    | more _ hone _ ih =>
      obtain ⟨c, hc, rfl⟩ := hone
      simpa [hc] using ih
  · intro h
    induction word generalizing before with
    | nil => exact .done _ _
    | cons c word ih =>
      have hone : ∃ d, s.has d = true ∧ [c] = [d] := ⟨c, h c (by simp), rfl⟩
      exact .more (by simp) hone (ih _ fun d hd => h d (by simp [hd]))

/-! Properties of every word that an expression spells. -/

/-- No word of the expression can hold the character. -/
def avoids (c : Char) : Regex → Bool
  | .empty | .lineStart | .lineEnd => true
  | .char d => d != c
  | .set s => !s.has c
  | .seq a b | .alt a b => a.avoids c && b.avoids c
  | .star _ a => a.avoids c

/-- No word of the expression can be empty. -/
def moves : Regex → Bool
  | .empty | .lineStart | .lineEnd | .star _ _ => false
  | .char _ | .set _ => true
  | .seq a b => a.moves || b.moves
  | .alt a b => a.moves && b.moves

theorem avoids_seqAll (c : Char) (rs : List Regex) :
    (seqAll rs).avoids c = rs.all (·.avoids c) := by
  induction rs with
  | nil => rfl
  | cons r rs ih => simp [seqAll, avoids, ih]

theorem moves_seqAll (rs : List Regex) : (seqAll rs).moves = rs.any (·.moves) := by
  induction rs with
  | nil => rfl
  | cons r rs ih => simp [seqAll, moves, ih]

theorem not_mem_of_avoids {c : Char} {r : Regex} (h : r.avoids c = true) {before word after : Text}
    (hw : r.Spells before word after) : c ∉ word := by
  induction r generalizing before word after with
  | empty => simp [show word = [] from hw]
  | char d =>
    obtain rfl : word = [d] := hw
    have hne : d ≠ c := by simpa [avoids] using h
    simpa using hne.symm
  | set s =>
    obtain ⟨d, hd, rfl⟩ := hw
    intro hmem
    obtain rfl : c = d := by simpa using hmem
    simp [avoids, hd] at h
  | lineStart => simp [hw.1]
  | lineEnd => simp [hw.1]
  | seq a b iha ihb =>
    obtain ⟨ha, hb⟩ : a.avoids c = true ∧ b.avoids c = true := by simpa [avoids] using h
    obtain ⟨u, v, rfl, hu, hv⟩ := hw
    simp [iha ha hu, ihb hb hv]
  | alt a b iha ihb =>
    obtain ⟨ha, hb⟩ : a.avoids c = true ∧ b.avoids c = true := by simpa [avoids] using h
    exact hw.elim (iha ha) (ihb hb)
  | star greedy a ih =>
    induction hw with
    | done => simp
    | more _ hone _ ihrest => simp [ih h hone, ihrest]

/-- No word of the expression is empty. -/
def Consumes (r : Regex) : Prop := ∀ before word after, r.Spells before word after → word ≠ []

theorem consumes_of_moves {r : Regex} (h : r.moves = true) : r.Consumes := by
  induction r with
  | empty | lineStart | lineEnd | star => simp [moves] at h
  | char d =>
    rintro before word after rfl
    simp
  | set s =>
    rintro before word after ⟨c, -, rfl⟩
    simp
  | seq a b iha ihb =>
    rintro before word after ⟨u, v, rfl, hu, hv⟩
    rcases (by simpa [moves] using h : a.moves = true ∨ b.moves = true) with ha | hb
    · simp [iha ha before u _ hu]
    · simp [ihb hb _ v after hv]
  | alt a b iha ihb =>
    obtain ⟨ha, hb⟩ : a.moves = true ∧ b.moves = true := by simpa [moves] using h
    rintro before word after (hw | hw)
    · exact iha ha before word after hw
    · exact ihb hb before word after hw

end Regex
end DefinitionSite
