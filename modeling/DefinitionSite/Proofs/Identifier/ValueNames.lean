import DefinitionSite.Proofs.Catalog.WholeNames
import DefinitionSite.Proofs.Identifier.Cursor
import DefinitionSite.Proofs.Identifier.WordLines

/-! The value names of a text. The scan finds exactly the words that start with a small letter and
that no character of any script runs into, one behind the other; the list without repetitions keeps
the first of each. Every such word is on one of the lines, so a cursor can select it there. -/
namespace DefinitionSite.Identifier

open Declared (Apart Detached)
open Text (isNameChar)

/-- An occurrence of a value name: a word that starts with a small letter and that does not continue
what stands before it. -/
structure IsValueName (text : Text) (s e : Nat) : Prop where
  word : IsWord text s e
  small : ∃ c, text[s]? = some c ∧ c.isLower = true
  apart : ∀ i c, i + 1 = s → text[i]? = some c → Apart c

variable {text front rest : Text} {c : Char} {s e : Nat}

section Characters

/-- Of the ASCII characters, those of a word are the letters, the digits and the underscore. -/
theorem isWord_ascii (h : c.toNat < 128) : Text.isWord c = (c.isAlphanum || c == '_') := by
  have hascii : ∀ n < 128, Text.isWord (Char.ofNat n) =
      ((Char.ofNat n).isAlphanum || Char.ofNat n == '_') := by
    decide
  simpa only [Char.ofNat_toNat] using hascii c.toNat h

theorem not_apart_of_isNameChar (h : isNameChar c = true) : ¬ Apart c := by
  have hc := LineScan.toNat_of_isNameChar h
  rintro ⟨hnot, hprime⟩
  rw [isWord_ascii (by omega)] at hnot
  simp [isNameChar, hnot, hprime] at h

theorem isAlpha_of_isLower (h : c.isLower = true) : c.isAlpha = true :=
  (Bool.or_eq_true ..).mpr (.inr h)

theorem isNameStart_of_isLower (h : c.isLower = true) : isNameStart c = true := by
  simp [isNameStart, isAlpha_of_isLower h]

theorem isNameChar_of_isLower (h : c.isLower = true) : isNameChar c = true := by
  simp [isNameChar, Char.isAlphanum, isAlpha_of_isLower h]

end Characters

section Scan

/-- The text before a run of name characters does not run into it. -/
theorem apart_of_detached (h : Detached front) {back : Text} {i : Nat} (hi : i + 1 = front.length)
    (hc : (front ++ back)[i]? = some c) : Apart c := by
  rw [List.getElem?_append_left (by omega)] at hc
  refine h c ?_
  rw [List.getLast?_eq_getElem?, ← hi, Nat.add_sub_cancel]
  exact hc

/-- A small letter behind a detached text starts a value name, which takes all name characters that
follow. -/
theorem isValueName_append (h : Detached front) (hc : c.isLower = true) (rest : Text) :
    IsValueName (front ++ c :: rest) front.length
      (front.length + (c :: rest.takeWhile isNameChar).length) where
  word := by
    refine isWord_iff.mpr ⟨front, c :: rest.takeWhile isNameChar, rest.dropWhile isNameChar,
      ⟨by simp, ?_, ?_, not_isNameChar_dropWhile rest⟩, ?_, rfl, rfl⟩
    · intro d hd
      rcases List.mem_cons.mp hd with rfl | hd
      · exact isNameChar_of_isLower hc
      · exact List.all_eq_true.mp List.all_takeWhile d hd
    · intro d hd
      by_contra hname
      exact not_apart_of_isNameChar (by simpa using hname) (h d hd)
    · rw [List.cons_append, List.takeWhile_append_dropWhile]
  small := ⟨c, by simp, hc⟩
  apart i d hi hd := apart_of_detached h hi hd

/-- The spans of the value names behind a text, in the order in which the scan finds them. -/
theorem exists_spans {inside : Bool} (htext : text = front ++ rest)
    (hinside : inside = false ↔ Detached front) : ∃ spans : List (Nat × Nat),
      (∀ s e, (s, e) ∈ spans ↔ IsValueName text s e ∧ front.length ≤ s) ∧
      spans.Pairwise (fun p q => p.1 < q.1) ∧
      valueNames inside rest = spans.map fun p => between text p.1 p.2 := by
  fun_induction valueNames inside rest generalizing front with
  | case1 inside =>
    refine ⟨[], fun s e => ?_, List.Pairwise.nil, rfl⟩
    rw [List.append_nil] at htext
    have hnone : ¬ (IsValueName text s e ∧ front.length ≤ s) := by
      rintro ⟨h, hle⟩
      have hlength := h.word.le_length
      have hlt := h.word.nonempty
      rw [htext] at hlength
      omega
    simp [hnone]
  | case2 inside c rest hstart ih =>
    obtain ⟨hfree, hc⟩ : inside = false ∧ c.isLower = true := by simpa using hstart
    have hdetached := hinside.mp hfree
    have hfirst := isValueName_append hdetached hc rest
    rw [← htext] at hfirst
    have hlater : true = false ↔ Detached (front ++ c :: rest.takeWhile isNameChar) := by
      refine iff_of_false (by simp) fun hapart => ?_
      have hne : c :: rest.takeWhile isNameChar ≠ [] := by simp
      refine not_apart_of_isNameChar ?_ (hapart _ (List.getLast?_append_of_ne_nil front hne ▸
        List.getLast?_eq_some_getLast hne))
      rcases List.mem_cons.mp (List.getLast_mem hne) with hlast | hlast
      · rw [hlast]
        exact isNameChar_of_isLower hc
      · exact List.all_eq_true.mp List.all_takeWhile _ hlast
    have htext' :
        text = (front ++ c :: rest.takeWhile isNameChar) ++ rest.dropWhile isNameChar := by
      rw [htext, List.append_assoc, List.cons_append, List.takeWhile_append_dropWhile]
    obtain ⟨spans, hmem, hordered, heq⟩ := ih htext' hlater
    rw [List.length_append] at hmem
    refine ⟨(front.length, front.length + (c :: rest.takeWhile isNameChar).length) :: spans,
      fun s e => ?_, ?_, ?_⟩
    · rw [List.mem_cons, hmem, Prod.mk.injEq]
      constructor
      · rintro (⟨rfl, rfl⟩ | ⟨h, hle⟩)
        · exact ⟨hfirst, Nat.le_refl _⟩
        · exact ⟨h, by omega⟩
      · rintro ⟨h, hle⟩
        by_cases hbehind : front.length + (c :: rest.takeWhile isNameChar).length ≤ s
        · exact .inr ⟨h, hbehind⟩
        · have hlt := h.word.nonempty
          obtain ⟨hs, he⟩ := h.word.unique hfirst.word (by omega) (by omega)
          exact .inl ⟨hs, he⟩
    · refine List.pairwise_cons.mpr ⟨fun p hp => ?_, hordered⟩
      have hle := ((hmem p.1 p.2).mp hp).2
      have hlt := hfirst.word.nonempty
      simp only
      omega
    · rw [List.map_cons, ← heq]
      congr 1
      have hword := between_append front (c :: rest.takeWhile isNameChar)
        (rest.dropWhile isNameChar)
      rw [List.cons_append, List.takeWhile_append_dropWhile, ← htext] at hword
      exact hword.symm
  | case3 inside c rest hstart ih =>
    have hlater : (Text.isWord c || c == '\'') = false ↔ Detached (front ++ [c]) := by
      simp [Detached, Apart]
    have htext' : text = (front ++ [c]) ++ rest := by simp [htext]
    obtain ⟨spans, hmem, hordered, heq⟩ := ih htext' hlater
    refine ⟨spans, fun s e => ?_, hordered, heq⟩
    rw [hmem, List.length_append, List.length_singleton]
    refine and_congr_right fun h => ⟨by omega, fun hle => Nat.lt_of_le_of_ne hle ?_⟩
    rintro rfl
    obtain ⟨d, hd, hlower⟩ := h.small
    obtain rfl : c = d := by simpa [htext] using hd
    have hdetached : Detached front := by
      intro d hd
      rw [List.getLast?_eq_getElem?] at hd
      have hlt := (List.getElem?_eq_some_iff.mp hd).1
      refine h.apart (front.length - 1) d (by omega) ?_
      rw [htext, List.getElem?_append_left hlt]
      exact hd
    exact hstart (by simp [hinside.mpr hdetached, hlower])

end Scan

section Distinct

variable {x : Text} {xs seen : List Text}

theorem mem_distinct : x ∈ distinct seen xs ↔ x ∈ xs ∧ x ∉ seen := by
  fun_induction distinct seen xs with
  | case1 => simp
  | case2 seen y xs hseen ih =>
    have hy : y ∈ seen := by simpa using hseen
    rw [ih]
    constructor
    · rintro ⟨hx, hnot⟩
      exact ⟨List.mem_cons_of_mem _ hx, hnot⟩
    · rintro ⟨hx, hnot⟩
      rcases List.mem_cons.mp hx with rfl | hx
      · exact absurd hy hnot
      · exact ⟨hx, hnot⟩
  | case3 seen y xs hseen ih =>
    have hy : y ∉ seen := by simpa using hseen
    rw [List.mem_cons, ih, List.mem_cons, List.mem_cons]
    by_cases hx : x = y
    · subst hx
      simp [hy]
    · simp [hx]

theorem nodup_distinct : (distinct seen xs).Nodup := by
  fun_induction distinct seen xs with
  | case1 => exact List.nodup_nil
  | case2 seen y xs hseen ih => exact ih
  | case3 seen y xs hseen ih =>
    refine List.nodup_cons.mpr ⟨fun hmem => ?_, ih⟩
    exact (mem_distinct.mp hmem).2 List.mem_cons_self

/-- What is kept comes in the order of the first occurrences. -/
theorem pairwise_distinct {α : Type} {before : α → α → Prop} {name : α → Text} {places : List α}
    (h : places.Pairwise before) : (distinct seen (places.map name)).Pairwise fun x y =>
      ∃ p ∈ places, name p = x ∧ ∀ q ∈ places, name q = y → before p q := by
  induction places generalizing seen with
  | nil => exact List.Pairwise.nil
  | cons p places ih =>
    obtain ⟨hfirst, hrest⟩ := List.pairwise_cons.mp h
    -- The name of the first place comes first or was seen, so it is none of the later ones.
    have hmore : ∀ {seen : List Text}, name p ∈ seen →
        (distinct seen (places.map name)).Pairwise fun x y =>
          ∃ q ∈ p :: places, name q = x ∧ ∀ r ∈ p :: places, name r = y → before q r := by
      intro seen hp
      refine (@ih seen hrest).imp_of_mem ?_
      rintro x y - hy ⟨q, hq, hx, hall⟩
      refine ⟨q, List.mem_cons_of_mem _ hq, hx, fun r hr hry => ?_⟩
      rcases List.mem_cons.mp hr with rfl | hr
      · exact absurd (hry ▸ hp) (mem_distinct.mp hy).2
      · exact hall r hr hry
    rw [List.map_cons, distinct]
    split_ifs with hseen
    · exact hmore (by simpa using hseen)
    · refine List.pairwise_cons.mpr ⟨fun y hy => ?_, hmore List.mem_cons_self⟩
      refine ⟨p, List.mem_cons_self, rfl, fun r hr hry => ?_⟩
      rcases List.mem_cons.mp hr with rfl | hr
      · exact absurd (hry ▸ List.mem_cons_self) (mem_distinct.mp hy).2
      · exact hfirst r hr

end Distinct

/-- A value name is what a cursor at its start selects, on the line that it stands on. -/
theorem exists_at?_of_isValueName (h : IsValueName text s e) :
    ∃ line column : Int, at? text line column = some (between text s e) := by
  obtain ⟨i, current, s', e', hcurrent, hword, hbetween⟩ := h.word.exists_line
  have hlt := hword.nonempty
  have hname := (selects_at? text i s').nameIn ⟨Int.natCast_nonneg i, hcurrent⟩
    ⟨hword, Int.le_refl _, Int.ofNat_le.mpr (Nat.le_of_lt hlt)⟩
  obtain ⟨c, hc, hlower⟩ := h.small
  have hhead : (between text s e).head? = some c := by
    rw [between, List.head?_drop, List.getElem?_take_of_lt h.word.nonempty, hc]
  obtain ⟨rest, hrest⟩ := List.head?_eq_some_iff.mp hhead
  rw [hbetween, hrest] at hname
  rw [hrest]
  exact ⟨i, s', hname.unique (nameIn_self (isNameStart_of_isLower hlower))⟩

/-- The used names are the value names of the text, without the keywords on demand, each once and in
the order of their first occurrences; and each can be selected with a cursor. -/
theorem used_lists (text : Text) (skipKeywords : Bool) :
    (used text skipKeywords).Nodup ∧
      (∀ name, name ∈ used text skipKeywords ↔
        (∃ s e, IsValueName text s e ∧ between text s e = name) ∧
          ¬ (skipKeywords = true ∧ String.ofList name ∈ keywords)) ∧
      (used text skipKeywords).Pairwise (fun x y => ∃ s e, IsValueName text s e ∧
        between text s e = x ∧ ∀ s' e', IsValueName text s' e' → between text s' e' = y → s < s') ∧
      ∀ name ∈ used text skipKeywords, ∃ line column : Int,
        at? text line column = some name := by
  have hfree : false = false ↔ Detached [] := by simp [Detached]
  obtain ⟨spans, hspans, hordered, hnames⟩ := exists_spans (List.nil_append text).symm hfree
  simp only [List.length_nil, Nat.zero_le, and_true] at hspans
  have hmem : ∀ name, name ∈ used text skipKeywords ↔
      (∃ s e, IsValueName text s e ∧ between text s e = name) ∧
        ¬ (skipKeywords = true ∧ String.ofList name ∈ keywords) := by
    intro name
    simp only [used, mem_distinct, hnames, List.mem_filter, List.mem_map, Prod.exists, hspans]
    cases skipKeywords <;> simp
  refine ⟨nodup_distinct, hmem, ?_, ?_⟩
  · rw [used, hnames, List.filter_map]
    refine (pairwise_distinct (hordered.filter _)).imp_of_mem ?_
    rintro x y - hy ⟨p, hp, hx, hfirst⟩
    refine ⟨p.1, p.2, (hspans _ _).mp (List.mem_of_mem_filter hp), hx, fun s e hvalue hname => ?_⟩
    obtain ⟨q, hq, rfl⟩ := List.mem_map.mp (mem_distinct.mp hy).1
    refine hfirst (s, e) (List.mem_filter.mpr ⟨(hspans s e).mpr hvalue, ?_⟩) hname
    have hkept := List.of_mem_filter hq
    simp only [Function.comp_apply] at hkept ⊢
    rw [hname]
    exact hkept
  · intro name hname
    obtain ⟨⟨s, e, hvalue, rfl⟩, -⟩ := (hmem name).mp hname
    exact exists_at?_of_isValueName hvalue

end DefinitionSite.Identifier
