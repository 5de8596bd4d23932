import Mathlib.Data.List.Basic
import Mathlib.Tactic.Common
import DefinitionSite.Match

/-! The best of several matches is the first one whose kind is most authoritative: that assignments
do not count beside a signature never changes the answer. -/
namespace DefinitionSite.Match

variable {ms : List Match} {m : Match}

theorem firstBest_eq_none : firstBest ms = none ↔ ms = [] := by
  cases ms with
  | nil => simp [firstBest]
  | cons m rest =>
    simp only [firstBest, reduceCtorEq, iff_false]
    split
    · simp
    · split <;> simp

/-- The best match is more authoritative than all before it, and no less than all behind it. -/
theorem firstBest_eq_some_iff : firstBest ms = some m ↔
    ∃ front rest, ms = front ++ m :: rest ∧
      (∀ x ∈ front, m.kind.priority < x.kind.priority) ∧
      ∀ x ∈ rest, m.kind.priority ≤ x.kind.priority := by
  induction ms generalizing m with
  | nil => simp [firstBest]
  | cons first ms ih =>
    constructor
    · intro h
      rw [firstBest] at h
      cases hbest : firstBest ms with
      | none =>
        obtain rfl := firstBest_eq_none.mp hbest
        obtain rfl : first = m := by simpa [hbest] using h
        exact ⟨[], [], rfl, by simp, by simp⟩
      | some best =>
        obtain ⟨front, rest, rfl, hfront, hrest⟩ := ih.mp hbest
        simp only [hbest] at h
        split at h
        · obtain rfl := Option.some.inj h
          refine ⟨first :: front, rest, rfl, ?_, hrest⟩
          simpa using ⟨‹_›, hfront⟩
        · obtain rfl := Option.some.inj h
          refine ⟨[], front ++ best :: rest, rfl, by simp, ?_⟩
          intro x hx
          simp only [List.mem_append, List.mem_cons] at hx
          rcases hx with hx | rfl | hx
          · have := hfront x hx
            omega
          · omega
          · have := hrest x hx
            omega
    · rintro ⟨front, rest, heq, hfront, hrest⟩
      rw [firstBest]
      cases front with
      | nil =>
        obtain ⟨rfl, rfl⟩ := List.cons_eq_cons.mp heq
        cases hbest : firstBest ms with
        | none => rfl
        | some best =>
          obtain ⟨front, tail, rfl, -, -⟩ := ih.mp hbest
          have := hrest best (by simp)
          simp only [show ¬ best.kind.priority < first.kind.priority by omega, ↓reduceIte]
      | cons x front =>
        obtain ⟨rfl, rfl⟩ := List.cons_eq_cons.mp heq
        obtain ⟨hx, hfront⟩ := List.forall_mem_cons.mp hfront
        rw [ih.mpr ⟨front, rest, rfl, hfront, hrest⟩]
        exact if_pos hx

theorem firstBest_filter {keep : Match → Bool} (hbest : firstBest ms = some m)
    (hkeep : keep m = true) : firstBest (ms.filter keep) = some m := by
  obtain ⟨front, rest, rfl, hfront, hrest⟩ := firstBest_eq_some_iff.mp hbest
  refine firstBest_eq_some_iff.mpr ⟨front.filter keep, rest.filter keep, ?_, ?_, ?_⟩
  · simp [hkeep]
  · exact fun x hx => hfront x (List.mem_of_mem_filter hx)
  · exact fun x hx => hrest x (List.mem_of_mem_filter hx)

theorem priority_le_of_firstBest (hbest : firstBest ms = some m) {x : Match} (hx : x ∈ ms) :
    m.kind.priority ≤ x.kind.priority := by
  obtain ⟨front, rest, rfl, hfront, hrest⟩ := firstBest_eq_some_iff.mp hbest
  simp only [List.mem_append, List.mem_cons] at hx
  rcases hx with hx | rfl | hx
  · have := hfront x hx
    omega
  · exact Nat.le_refl _
  · exact hrest x hx

/-- A signature is more authoritative than an assignment anyway. -/
theorem best_eq_firstBest (ms : List Match) : best ms = firstBest ms := by
  unfold best
  split
  · rename_i hany
    obtain ⟨s, hs, hsig⟩ := List.any_eq_true.mp hany
    cases hbest : firstBest ms with
    | none =>
      rw [firstBest_eq_none.mp hbest] at hs
      simp at hs
    | some m =>
      have hle := priority_le_of_firstBest hbest hs
      refine firstBest_filter hbest ?_
      rw [bne_iff_ne]
      intro hkind
      rw [hkind] at hle
      cases hk : s.kind <;> simp [hk, Kind.isSignature, Kind.priority] at hsig hle
  · rfl

theorem mem_of_best (h : best ms = some m) : m ∈ ms := by
  rw [best_eq_firstBest] at h
  obtain ⟨front, rest, rfl, -, -⟩ := firstBest_eq_some_iff.mp h
  simp

/-- Where the kinds come in order of preference, the best match is the first one. -/
theorem best_eq_head? (h : ms.Pairwise fun a b => a.kind.priority ≤ b.kind.priority) :
    best ms = ms.head? := by
  rw [best_eq_firstBest]
  cases ms with
  | nil => rfl
  | cons m rest =>
    exact firstBest_eq_some_iff.mpr ⟨[], rest, rfl, by simp, (List.pairwise_cons.mp h).1⟩

/-- What does not touch the kinds does not touch the choice. -/
theorem best_map (f : Match → Match) (hf : ∀ m, (f m).kind = m.kind) (ms : List Match) :
    best (ms.map f) = (best ms).map f := by
  rw [best_eq_firstBest, best_eq_firstBest]
  induction ms with
  | nil => rfl
  | cons m ms ih =>
    rw [List.map_cons, firstBest, firstBest, ih]
    cases firstBest ms with
    | none => rfl
    | some b =>
      simp only [Option.map_some, hf]
      split <;> rfl

end DefinitionSite.Match
