import Mathlib.Data.List.Basic
import Mathlib.Tactic.Common
import DefinitionSite.Proofs.Match.Best

/-! The best match as a minimum from the left: the first of the matches that none is more
authoritative than. So it is also what a stable sort by preference puts first, the best of two lists
is the best of their best, and only the order within each kind counts. -/
namespace DefinitionSite.Match

/-- The matches that count: beside a signature, assignments do not. -/
def counting (ms : List Match) : List Match :=
  if ms.any (·.kind.isSignature) then ms.filter (·.kind != .assignment) else ms

/-- The first of the matches whose kinds have the least priority. -/
def leftmost (ms : List Match) : Option Match :=
  ms.find? fun m => ms.all fun x => m.kind.priority ≤ x.kind.priority

/-- Whether a match may stand before another in the order of preference. -/
def preferred (a b : Match) : Bool := a.kind.priority ≤ b.kind.priority

/-- The matches of every kind come in the same order. -/
def SameWithinKinds (a b : List Match) : Prop :=
  ∀ kind, a.filter (·.kind = kind) = b.filter (·.kind = kind)

variable {ms a b : List Match} {m : Match}

theorem best_eq_firstBest_counting (ms : List Match) : best ms = firstBest (counting ms) := by
  unfold best counting
  split <;> rfl

theorem firstBest_eq_leftmost (ms : List Match) : firstBest ms = leftmost ms := by
  cases hbest : firstBest ms with
  | none =>
    rw [firstBest_eq_none.mp hbest]
    rfl
  | some m =>
    obtain ⟨front, rest, heq, hfront, -⟩ := firstBest_eq_some_iff.mp hbest
    refine (List.find?_eq_some_iff_append.mpr ⟨?_, front, rest, heq, ?_⟩).symm
    · simpa using fun x hx => priority_le_of_firstBest hbest hx
    · intro x hx
      have hlt := hfront x hx
      simpa using ⟨m, by simp [heq], hlt⟩

/-- A stable sort puts the first best match in front. -/
theorem firstBest_eq_head?_mergeSort (ms : List Match) :
    firstBest ms = (ms.mergeSort preferred).head? := by
  have htrans : ∀ a b c, preferred a b = true → preferred b c = true → preferred a c = true := by
    simp only [preferred, decide_eq_true_eq]
    omega
  have htotal : ∀ a b, (preferred a b || preferred b a) = true := by
    simp only [preferred, Bool.or_eq_true, decide_eq_true_eq]
    omega
  induction ms with
  | nil => simp [firstBest]
  | cons m ms ih =>
    -- The first match is put in behind those that are preferred to it.
    obtain ⟨front, rest, hsort, hrest, hfront⟩ := List.mergeSort_cons htrans htotal m ms
    rw [firstBest, ih, hsort, hrest]
    cases front with
    | nil =>
      have hordered := List.pairwise_mergeSort htrans htotal (m :: ms)
      rw [hsort] at hordered
      cases rest with
      | nil => rfl
      | cons x rest =>
        have hle := (List.pairwise_cons.mp hordered).1 x (by simp)
        simp only [preferred, decide_eq_true_eq] at hle
        simp [Nat.not_lt.mpr hle]
    | cons x front =>
      have hlt := hfront x (by simp)
      simp only [preferred, Bool.not_eq_true', decide_eq_false_iff_not, Nat.not_le] at hlt
      simp [hlt]

/-- The best of two lists is one of their best, the first unless the second is preferred. -/
theorem firstBest_append (a b : List Match) :
    firstBest (a ++ b) = firstBest ((firstBest a).toList ++ (firstBest b).toList) := by
  cases ha : firstBest a with
  | none =>
    obtain rfl := firstBest_eq_none.mp ha
    cases hb : firstBest b with
    | none => simpa [firstBest] using hb
    | some n => simpa [firstBest] using hb
  | some m =>
    cases hb : firstBest b with
    | none =>
      obtain rfl := firstBest_eq_none.mp hb
      simpa [firstBest] using ha
    | some n =>
      have hm : ∀ x ∈ a, m.kind.priority ≤ x.kind.priority := fun x => priority_le_of_firstBest ha
      have hn : ∀ x ∈ b, n.kind.priority ≤ x.kind.priority := fun x => priority_le_of_firstBest hb
      obtain ⟨front, rest, rfl, hfront, hrest⟩ := firstBest_eq_some_iff.mp ha
      obtain ⟨front', rest', rfl, hfront', hrest'⟩ := firstBest_eq_some_iff.mp hb
      simp only [Option.toList_some, List.singleton_append, firstBest]
      by_cases hlt : n.kind.priority < m.kind.priority
      · rw [if_pos hlt]
        refine firstBest_eq_some_iff.mpr ⟨front ++ m :: rest ++ front', rest', by simp, ?_, hrest'⟩
        intro x hx
        rcases List.mem_append.mp hx with hx | hx
        · exact Nat.lt_of_lt_of_le hlt (hm x hx)
        · exact hfront' x hx
      · rw [if_neg hlt]
        refine firstBest_eq_some_iff.mpr
          ⟨front, rest ++ (front' ++ n :: rest'), by simp, hfront, ?_⟩
        intro x hx
        rcases List.mem_append.mp hx with hx | hx
        · exact hrest x hx
        · exact Nat.le_trans (Nat.not_lt.mp hlt) (hn x hx)

/-- A kind has its priority as its place. -/
theorem all_getElem?_priority (k : Kind) : Kind.all[k.priority]? = some k := by
  cases k <;> rfl

theorem eq_of_priority {k l : Kind} (h : k.priority = l.priority) : k = l := by
  have hplace := all_getElem?_priority k
  rw [h, all_getElem?_priority l] at hplace
  exact (Option.some.inj hplace).symm

/-- The best match is the first of its kind, and no kind that occurs is preferred to its own. -/
theorem firstBest_eq_some_iff_kind : firstBest ms = some m ↔
    (ms.filter (·.kind = m.kind)).head? = some m ∧ ∀ x ∈ ms, m.kind.priority ≤ x.kind.priority := by
  constructor
  · intro h
    refine ⟨?_, fun x => priority_le_of_firstBest h⟩
    obtain ⟨front, rest, rfl, hfront, -⟩ := firstBest_eq_some_iff.mp h
    have hnone : front.filter (·.kind = m.kind) = [] := by
      rw [List.filter_eq_nil_iff]
      intro x hx hkind
      have hlt := hfront x hx
      rw [of_decide_eq_true hkind] at hlt
      exact Nat.lt_irrefl _ hlt
    simp [hnone]
  · rintro ⟨hfirst, hle⟩
    rw [List.head?_filter, List.find?_eq_some_iff_append] at hfirst
    obtain ⟨-, front, rest, rfl, hfront⟩ := hfirst
    refine firstBest_eq_some_iff.mpr ⟨front, rest, rfl, ?_, fun x hx => hle x (by simp [hx])⟩
    intro x hx
    have hkind : x.kind ≠ m.kind := by simpa using hfront x hx
    have hx := hle x (by simp [hx])
    exact Nat.lt_of_le_of_ne hx fun h => hkind (eq_of_priority h).symm

theorem SameWithinKinds.mem_iff (h : SameWithinKinds a b) (m : Match) : m ∈ a ↔ m ∈ b := by
  have hmem : ∀ ms : List Match, m ∈ ms ↔ m ∈ ms.filter (·.kind = m.kind) := by simp
  rw [hmem a, hmem b, h m.kind]

theorem SameWithinKinds.firstBest (h : SameWithinKinds a b) :
    Match.firstBest a = Match.firstBest b := by
  ext m
  rw [firstBest_eq_some_iff_kind, firstBest_eq_some_iff_kind, h m.kind]
  simp only [h.mem_iff]

/-- The best match is the minimum from the left, whether or not assignments count beside a
signature; it is found in parts, and from the order within kinds. -/
theorem best_leftmost (ms : List Match) :
    (best ms = none ↔ ms = []) ∧
    best ms = ((counting ms).mergeSort preferred).head? ∧
    best ms = leftmost ms ∧
    leftmost (counting ms) = leftmost ms ∧
    (∀ rest, best (ms ++ rest) = best ((best ms).toList ++ (best rest).toList)) ∧
    ∀ other, SameWithinKinds ms other → best other = best ms := by
  simp only [best_eq_firstBest]
  refine ⟨firstBest_eq_none, ?_, firstBest_eq_leftmost ms, ?_, firstBest_append ms, ?_⟩
  · rw [← firstBest_eq_head?_mergeSort, ← best_eq_firstBest_counting, best_eq_firstBest]
  · rw [← firstBest_eq_leftmost, ← best_eq_firstBest_counting, best_eq_firstBest,
      firstBest_eq_leftmost]
  · exact fun other h => h.firstBest.symm

/-- A match of a leaf on the given line. -/
def leafOn (kind : Kind) (line : Nat) : Match := ⟨kind, .buffer, line, Text.of "leaf"⟩

/-- Of two signatures the first is best, wherever the assignments and the constructor stand. -/
theorem best_leftmost_leaf :
    SameWithinKinds
      [leafOn .assignment 1, leafOn .signatureNextLine 7, leafOn .constructor 3,
        leafOn .signatureNextLine 2]
      [leafOn .constructor 3, leafOn .signatureNextLine 7, leafOn .signatureNextLine 2,
        leafOn .assignment 1] ∧
    best [leafOn .constructor 3, leafOn .signatureNextLine 7, leafOn .signatureNextLine 2,
        leafOn .assignment 1] =
      best [leafOn .assignment 1, leafOn .signatureNextLine 7, leafOn .constructor 3,
        leafOn .signatureNextLine 2] ∧
    best [leafOn .assignment 1, leafOn .signatureNextLine 7, leafOn .constructor 3,
        leafOn .signatureNextLine 2] = some (leafOn .signatureNextLine 7) := by
  have hsame : SameWithinKinds
      [leafOn .assignment 1, leafOn .signatureNextLine 7, leafOn .constructor 3,
        leafOn .signatureNextLine 2]
      [leafOn .constructor 3, leafOn .signatureNextLine 7, leafOn .signatureNextLine 2,
        leafOn .assignment 1] := by
    intro kind
    cases kind <;> rfl
  exact ⟨hsame, (best_leftmost _).2.2.2.2.2 _ hsame, rfl⟩

end DefinitionSite.Match
