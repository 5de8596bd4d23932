import Mathlib.Data.List.Basic
import Mathlib.Tactic.Common
import DefinitionSite.Identifier

/-! The words of a text: its longest intervals of name characters. Two intervals of name characters
that touch make one, so a place touches at most one word; and a word is the same as a run of name
characters between two texts that do not go on with it. -/
namespace DefinitionSite.Identifier

open Text (isNameChar)

/-- The characters between two places of a text. -/
def between (text : Text) (s e : Nat) : Text := (text.take e).drop s

/-- A non-empty interval of places that hold name characters. -/
structure NameRun (text : Text) (s e : Nat) : Prop where
  nonempty : s < e
  chars : ∀ i, s ≤ i → i < e → ∃ c, text[i]? = some c ∧ isNameChar c = true

/-- A word: an interval of name characters that is part of no longer one. -/
structure IsWord (text : Text) (s e : Nat) : Prop extends NameRun text s e where
  maximal : ∀ s' e', NameRun text s' e' → s' ≤ s → e ≤ e' → s' = s ∧ e' = e

variable {text line front word back : Text} {s e s' e' : Nat}

theorem NameRun.le_length (h : NameRun text s e) : e ≤ text.length := by
  have hlt := h.nonempty
  obtain ⟨c, hc, -⟩ := h.chars (e - 1) (by omega) (by omega)
  have hlength := (List.getElem?_eq_some_iff.mp hc).1
  omega

theorem not_isWord_nil {s e : Nat} : ¬ IsWord [] s e := by
  intro h
  have hlt := h.nonempty
  have hle := h.le_length
  simp only [List.length_nil] at hle
  omega

/-- Two intervals of name characters that touch make one. -/
theorem NameRun.union (h : NameRun text s e) (h' : NameRun text s' e') (hs : s ≤ e')
    (hs' : s' ≤ e) : NameRun text (min s s') (max e e') where
  nonempty := by
    have hlt := h.nonempty
    omega
  chars := by
    intro i hle hlt
    by_cases hi : s ≤ i ∧ i < e
    · exact h.chars i hi.1 hi.2
    · exact h'.chars i (by omega) (by omega)

theorem nameRun_single {i : Nat} {c : Char} (hc : text[i]? = some c) (hname : isNameChar c = true) :
    NameRun text i (i + 1) where
  nonempty := Nat.lt_succ_self i
  chars := by
    intro j hle hlt
    obtain rfl : j = i := by omega
    exact ⟨c, hc, hname⟩

theorem IsWord.not_before (h : IsWord text s e) {i : Nat} {c : Char} (hi : i + 1 = s)
    (hc : text[i]? = some c) : isNameChar c = false := by
  by_contra hname
  have hlt := h.nonempty
  have hrun := (nameRun_single hc (by simpa using hname)).union h.toNameRun (by omega) (by omega)
  have hsame := h.maximal _ _ hrun (Nat.min_le_right ..) (Nat.le_max_right ..)
  omega

theorem IsWord.not_behind (h : IsWord text s e) {c : Char} (hc : text[e]? = some c) :
    isNameChar c = false := by
  by_contra hname
  have hlt := h.nonempty
  have hrun := h.toNameRun.union (nameRun_single hc (by simpa using hname)) (by omega) (by omega)
  have hsame := h.maximal _ _ hrun (Nat.min_le_left ..) (Nat.le_max_left ..)
  omega

/-- Words that touch are the same. -/
theorem IsWord.unique (h : IsWord text s e) (h' : IsWord text s' e') (hs : s ≤ e')
    (hs' : s' ≤ e) : s = s' ∧ e = e' := by
  have hunion := h.toNameRun.union h'.toNameRun hs hs'
  have hsame := h.maximal _ _ hunion (Nat.min_le_left ..) (Nat.le_max_left ..)
  have hsame' := h'.maximal _ _ hunion (Nat.min_le_right ..) (Nat.le_max_right ..)
  omega

/-- A run of name characters that neither the text before it nor the text behind it goes on with. -/
structure StandsAlone (front word back : Text) : Prop where
  ne_nil : word ≠ []
  chars : ∀ c ∈ word, isNameChar c = true
  before : ∀ c ∈ front.getLast?, isNameChar c = false
  behind : ∀ c ∈ back.head?, isNameChar c = false

theorem between_append (front word back : Text) :
    between (front ++ (word ++ back)) front.length (front.length + word.length) = word := by
  rw [between, List.take_length_add_append, List.take_left, List.drop_left]

theorem getElem?_word {i : Nat} (hs : front.length ≤ i) (he : i < front.length + word.length) :
    (front ++ (word ++ back))[i]? = word[i - front.length]? := by
  rw [List.getElem?_append_right hs, List.getElem?_append_left (by omega)]

theorem StandsAlone.isWord (h : StandsAlone front word back) :
    IsWord (front ++ (word ++ back)) front.length (front.length + word.length) where
  nonempty := by
    have hlength := List.length_pos_of_ne_nil h.ne_nil
    omega
  chars := by
    intro i hs he
    have hi : i - front.length < word.length := by omega
    exact ⟨word[i - front.length], by rw [getElem?_word hs he, List.getElem?_eq_getElem hi],
      h.chars _ (List.getElem_mem hi)⟩
  maximal := by
    intro s e hrun hs he
    have hfront : s = front.length := by
      by_contra hne
      obtain ⟨c, hc, hname⟩ := hrun.chars (front.length - 1) (by omega) (by omega)
      rw [List.getElem?_append_left (by omega)] at hc
      rw [h.before c (List.getLast?_eq_getElem? .. ▸ hc)] at hname
      cases hname
    have hback : e = front.length + word.length := by
      by_contra hne
      obtain ⟨c, hc, hname⟩ := hrun.chars (front.length + word.length) (by omega) (by omega)
      rw [List.getElem?_append_right (by omega), List.getElem?_append_right (by omega)] at hc
      have hhead : back.head? = some c := by
        rw [← hc, List.head?_eq_getElem?]
        congr 1
        omega
      rw [h.behind c hhead] at hname
      cases hname
    exact ⟨hfront, hback⟩

section Split

theorem length_take (h : NameRun text s e) : (text.take s).length = s :=
  List.length_take_of_le (Nat.le_trans (Nat.le_of_lt h.nonempty) h.le_length)

theorem length_between (h : NameRun text s e) : s + (between text s e).length = e := by
  have hlt := h.nonempty
  rw [between, List.length_drop, List.length_take_of_le h.le_length]
  omega

theorem split_eq (h : NameRun text s e) :
    text = text.take s ++ (between text s e ++ text.drop e) := by
  have htake : text.take s = (text.take e).take s := by
    rw [List.take_take, Nat.min_eq_left (Nat.le_of_lt h.nonempty)]
  rw [between, ← List.append_assoc, htake, List.take_append_drop, List.take_append_drop]

theorem isNameChar_of_mem_between (h : NameRun text s e) {c : Char} (hc : c ∈ between text s e) :
    isNameChar c = true := by
  have hlength := length_between h
  obtain ⟨k, hk⟩ := List.mem_iff_getElem?.mp hc
  have hlt := (List.getElem?_eq_some_iff.mp hk).1
  rw [between, List.getElem?_drop, List.getElem?_take_of_lt (by omega)] at hk
  obtain ⟨d, hd, hname⟩ := h.chars (s + k) (by omega) (by omega)
  rw [Option.some.inj (hk.symm.trans hd)]
  exact hname

theorem IsWord.standsAlone (h : IsWord text s e) :
    StandsAlone (text.take s) (between text s e) (text.drop e) where
  ne_nil := by
    have hlt := h.nonempty
    have hlength := length_between h.toNameRun
    exact List.ne_nil_of_length_pos (by omega)
  chars _ := isNameChar_of_mem_between h.toNameRun
  before := by
    intro c hc
    have hpos : s ≠ 0 := by
      rintro rfl
      simp at hc
    rw [List.getLast?_eq_getElem?, length_take h.toNameRun,
      List.getElem?_take_of_lt (by omega)] at hc
    exact h.not_before (by omega) hc
  behind := by
    intro c hc
    rw [List.head?_drop] at hc
    exact h.not_behind hc

/-- A word is a run of name characters that stands alone in its text. -/
theorem isWord_iff : IsWord text s e ↔ ∃ front word back, StandsAlone front word back ∧
    text = front ++ (word ++ back) ∧ s = front.length ∧ e = front.length + word.length := by
  constructor
  · intro h
    exact ⟨_, _, _, h.standsAlone, split_eq h.toNameRun, (length_take h.toNameRun).symm,
      by rw [length_take h.toNameRun, length_between h.toNameRun]⟩
  · rintro ⟨front, word, back, h, rfl, rfl, rfl⟩
    exact h.isWord

end Split

end DefinitionSite.Identifier
