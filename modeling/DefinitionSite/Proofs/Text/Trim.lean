import Mathlib.Data.List.Induction
import Mathlib.Tactic.Common
import DefinitionSite.Text.Blank

/-! Trimming: what is left of a text without the blanks around it, and texts that have none. -/
namespace DefinitionSite.Text

variable {test : Char → Bool} {text : Text}

theorem dropEndWhile_concat (test : Char → Bool) (text : Text) (c : Char) :
    dropEndWhile test (text ++ [c]) =
      if test c then dropEndWhile test text else text ++ [c] := by
  induction text with
  | nil => simp [dropEndWhile]
  | cons d text ih =>
    by_cases hc : test c
    · simp only [hc, ↓reduceIte] at ih ⊢
      rw [List.cons_append, dropEndWhile, ih, dropEndWhile]
    · simp only [hc, Bool.false_eq_true, ↓reduceIte] at ih ⊢
      rw [List.cons_append, dropEndWhile, ih]
      cases text <;> rfl

theorem length_dropEndWhile_le (test : Char → Bool) (text : Text) :
    (dropEndWhile test text).length ≤ text.length := by
  induction text using List.reverseRecOn with
  | nil => simp [dropEndWhile]
  | append_singleton text c ih =>
    rw [dropEndWhile_concat]
    split
    · rw [List.length_append]
      omega
    · exact Nat.le_refl _

/-- What is trimmed from the end passes the test, and what is left does not end so. -/
theorem dropEndWhile_eq_iff {kept : Text} : dropEndWhile test text = kept ↔
    (∃ dropped, text = kept ++ dropped ∧ ∀ c ∈ dropped, test c = true) ∧
      ∀ c ∈ kept.getLast?, test c = false := by
  induction text using List.reverseRecOn with
  | nil =>
    simp only [dropEndWhile]
    constructor
    · rintro rfl
      exact ⟨⟨[], rfl, by simp⟩, by simp⟩
    · rintro ⟨⟨_, h, -⟩, -⟩
      exact (List.append_eq_nil_iff.mp h.symm).1.symm
  | append_singleton text c ih =>
    rw [dropEndWhile_concat]
    by_cases hc : test c
    · simp only [hc, ↓reduceIte, ih]
      refine and_congr_left fun hlast => ?_
      constructor
      · rintro ⟨dropped, rfl, hd⟩
        refine ⟨dropped ++ [c], by simp, ?_⟩
        simpa [or_imp, forall_and, hc] using hd
      · rintro ⟨dropped, h, hd⟩
        rcases List.eq_nil_or_concat dropped with rfl | ⟨u, d, rfl⟩
        · have hk : kept = text ++ [c] := by simpa using h.symm
          have := hlast c (by simp [hk])
          simp [hc] at this
        · rw [List.concat_eq_append, ← List.append_assoc] at h
          obtain ⟨rfl, -⟩ := List.append_inj' h rfl
          exact ⟨u, rfl, fun x hx => hd x (by simp [hx])⟩
    · simp only [hc, Bool.false_eq_true, ↓reduceIte]
      constructor
      · rintro rfl
        exact ⟨⟨[], by simp, by simp⟩, by simpa using hc⟩
      · rintro ⟨⟨dropped, h, hd⟩, -⟩
        rcases List.eq_nil_or_concat dropped with rfl | ⟨u, d, rfl⟩
        · simpa using h
        · rw [List.concat_eq_append, ← List.append_assoc] at h
          obtain ⟨-, hcd⟩ := List.append_inj' h rfl
          obtain rfl : c = d := by simpa using hcd
          exact absurd (hd c (by simp)) hc

/-- A trimmed text has no blank at either end. -/
theorem not_blank_of_trim_eq (h : trim text = text) :
    (∀ c ∈ text.head?, isBlank c = false) ∧ ∀ c ∈ text.getLast?, isBlank c = false := by
  have hle : (trimLeft text).length ≤ text.length := (List.dropWhile_suffix _).length_le
  have hle' := length_dropEndWhile_le isBlank (trimLeft text)
  have hlen : (dropEndWhile isBlank (trimLeft text)).length = text.length := by
    rw [show dropEndWhile isBlank (trimLeft text) = text from h]
  have hleft : trimLeft text = text := by
    have hsuffix : trimLeft text <:+ text := List.dropWhile_suffix _
    exact hsuffix.eq_of_length (by omega)
  constructor
  · intro c hc
    cases text with
    | nil => simp at hc
    | cons d rest =>
      obtain rfl : d = c := by simpa using hc
      by_contra hb
      have hshort : (trimLeft (d :: rest)).length ≤ rest.length := by
        simp only [Bool.not_eq_false] at hb
        simpa [trimLeft, hb] using (List.dropWhile_suffix isBlank).length_le
      rw [hleft, List.length_cons] at hshort
      omega
  · have hright : dropEndWhile isBlank text = text := by
      rw [hleft] at hlen
      have := h
      rwa [trim, trimRight, hleft] at this
    exact (dropEndWhile_eq_iff.mp hright).2

theorem trimLeft_eq_self (h : ∀ c ∈ text.head?, isBlank c = false) : trimLeft text = text := by
  cases text with
  | nil => rfl
  | cons c rest => simp [trimLeft, h c rfl]

theorem trim_eq_self (h : ∀ c ∈ text, isBlank c = false) : trim text = text := by
  rw [trim, trimLeft_eq_self fun c hc => h c (List.mem_of_mem_head? hc)]
  exact dropEndWhile_eq_iff.mpr
    ⟨⟨[], by simp, by simp⟩, fun c hc => h c (List.mem_of_getLast? hc)⟩

/-- What is trimmed from the start of a text is blank. -/
theorem trimLeft_eq_iff {kept : Text} : trimLeft text = kept ↔
    (∃ dropped, text = dropped ++ kept ∧ ∀ c ∈ dropped, isBlank c = true) ∧
      ∀ c ∈ kept.head?, isBlank c = false := by
  constructor
  · rintro rfl
    refine ⟨⟨text.takeWhile isBlank, List.takeWhile_append_dropWhile.symm, ?_⟩, ?_⟩
    · exact List.all_eq_true.mp List.all_takeWhile
    · intro c hc
      have := List.head?_dropWhile_not isBlank text
      rw [show List.dropWhile isBlank text = trimLeft text from rfl, hc] at this
      simpa using this
  · rintro ⟨⟨dropped, rfl, hd⟩, hkept⟩
    rw [trimLeft, List.dropWhile_append_of_pos hd]
    exact trimLeft_eq_self hkept

end DefinitionSite.Text
