import DefinitionSite.Proofs.Regex.Matches

/-! The matches of any expression, empty ones included: each lies within the text, and none starts
before those that were found before it. -/
namespace DefinitionSite.Regex
open Cursor

variable {r : Regex} {before text : Text} {advance : Bool}

theorem matchEnd?_lands {e : Cursor} (h : r.matchEnd? advance (between before text) = some e) :
    ∃ word after, text = word ++ after ∧ e = between (before ++ word) after := by
  obtain ⟨word, after, ht, -, he⟩ := run_sound r before text _ e h
  refine ⟨word, after, ht, ?_⟩
  split at he
  · cases he
  · exact (Option.some.inj he).symm

/-- A search goes on from its place to the start of a match and from there to its end. -/
theorem searchFrom_lands {c e : Cursor}
    (h : r.searchFrom advance before.getLast? text.length text = some (c, e)) :
    ∃ skipped word after, text = skipped ++ (word ++ after) ∧
      c = between (before ++ skipped) (word ++ after) ∧
      e = between (before ++ skipped ++ word) after := by
  induction text generalizing before advance with
  | nil =>
    simp only [searchFrom, Option.map_eq_some_iff, Prod.mk.injEq] at h
    obtain ⟨f, hend, rfl, rfl⟩ := h
    obtain ⟨word, after, ht, he⟩ : ∃ word after, [] = word ++ after ∧
        f = between (before ++ word) after := matchEnd?_lands hend
    exact ⟨[], word, after, ht, by rw [← ht, List.append_nil]; rfl, by simpa using he⟩
  | cons d text ih =>
    rw [searchFrom] at h
    cases hend : r.matchEnd? advance (between before (d :: text)) with
    | some f =>
      have hfound : some (between before (d :: text), f) = some (c, e) := by
        rw [← h]
        simp only [between] at hend ⊢
        rw [hend]
      obtain ⟨rfl, rfl⟩ := Prod.mk.inj (Option.some.inj hfound)
      obtain ⟨word, after, ht, he⟩ := matchEnd?_lands hend
      exact ⟨[], word, after, ht, by rw [← ht, List.append_nil], by simpa using he⟩
    | none =>
      have hrest : r.searchFrom false (before ++ [d]).getLast? text.length text = some (c, e) := by
        rw [← h]
        simp only [between] at hend ⊢
        rw [hend]
        simp
      obtain ⟨skipped, word, after, rfl, hc, he⟩ := ih hrest
      exact ⟨d :: skipped, word, after, rfl, by simpa using hc, by simpa using he⟩

/-- Matches from a place start and end behind it, and start in order. -/
structure InOrder (left : Nat) (found : List (Cursor × Cursor)) : Prop where
  within : ∀ p ∈ found, p.2.left ≤ p.1.left ∧ p.1.left ≤ left
  ordered : found.Pairwise fun p q => q.1.left ≤ p.1.left

theorem InOrder.cons {left : Nat} {p : Cursor × Cursor} {rest : List (Cursor × Cursor)}
    (hend : p.2.left ≤ p.1.left) (hstart : p.1.left ≤ left) (hrest : InOrder p.2.left rest) :
    InOrder left (p :: rest) := by
  have hbehind : ∀ q ∈ rest, q.1.left ≤ p.1.left := fun q hq =>
    Nat.le_trans (hrest.within q hq).2 hend
  refine ⟨List.forall_mem_cons.mpr ⟨⟨hend, hstart⟩, fun q hq => ?_⟩,
    List.pairwise_cons.mpr ⟨hbehind, hrest.ordered⟩⟩
  exact ⟨(hrest.within q hq).1, Nat.le_trans (hbehind q hq) hstart⟩

theorem inOrder_matchesFrom (r : Regex) (advance : Bool) (before text : Text) :
    InOrder text.length (r.matchesFrom advance (between before text)) := by
  -- The rest of the text gets shorter, or from then on a match has to move.
  induction hn : 2 * text.length + (if advance then 0 else 1) using Nat.strongRecOn
    generalizing before text advance with
  | ind n ih =>
    rw [matchesFrom]
    split
    · exact ⟨by simp, by simp⟩
    · rename_i s e hs
      obtain ⟨skipped, word, after, rfl, rfl, rfl⟩ : ∃ skipped word after,
          text = skipped ++ (word ++ after) ∧ s = between (before ++ skipped) (word ++ after) ∧
            e = between (before ++ skipped ++ word) after := searchFrom_lands hs
      have hrest : ∀ advance', 2 * after.length + (if advance' then 0 else 1) < n →
          InOrder after.length
            (r.matchesFrom advance' (between (before ++ skipped ++ word) after)) :=
        fun advance' hlt => ih _ hlt advance' _ after rfl
      refine .cons (by simp) (by simp) ?_
      split_ifs with hmoved hstays
      · simp only [between_left] at hmoved
        apply hrest
        split_ifs at hn ⊢ <;> omega
      · obtain ⟨rfl, hleft⟩ := hstays
        simp only [between_left] at hleft
        apply hrest
        simp only [Bool.false_eq_true, ↓reduceIte] at hn ⊢
        omega
      · exact ⟨by simp, by simp⟩

/-- The spans of all matches lie in the text, in the order of their starts. -/
theorem inOrder_findAll (r : Regex) (text : Text) :
    (∀ span ∈ r.findAll text, span.start ≤ span.stop ∧ span.stop ≤ text.length) ∧
      (r.findAll text).Pairwise fun p q => p.start ≤ q.start := by
  have hfound := inOrder_matchesFrom r false [] text
  rw [← start_eq_between] at hfound
  constructor
  · intro span hspan
    obtain ⟨⟨c, e⟩, hmem, rfl⟩ := List.mem_map.mp hspan
    have hwithin := hfound.within _ hmem
    simp only at hwithin ⊢
    omega
  · rw [findAll, List.pairwise_map]
    refine hfound.ordered.imp fun {p q} hle => ?_
    simp only
    omega

end DefinitionSite.Regex
