import Mathlib.Data.List.TakeWhile
import DefinitionSite.Proofs.Identifier.Words

/-! The identifier under a cursor. The cursor selects the word that its column touches, from the
first letter or underscore of the word on, and nothing where it touches no word or where the word
has neither; so the answer is the same at all columns of a word. -/
namespace DefinitionSite.Identifier

open Text (isNameChar)

/-- The line of a text with the given number. -/
def LineAt (text : Text) (line : Int) (current : Text) : Prop :=
  0 ≤ line ∧ text.splitLines[line.toNat]? = some current

/-- The column touches the word: it is that of one of its characters, or just behind the last. -/
structure Touches (current : Text) (column : Int) (s e : Nat) : Prop where
  word : IsWord current s e
  from_start : s ≤ column
  to_end : column ≤ e

/-- The name in a word: what is left from its first letter or underscore on, if it has one. -/
inductive NameIn (word : Text) : Option Text → Prop
  | name {skipped rest : Text} {c : Char} (hword : word = skipped ++ c :: rest)
      (hskipped : ∀ d ∈ skipped, isNameStart d = false) (hc : isNameStart c = true) :
      NameIn word (some (c :: rest))
  | none (h : ∀ c ∈ word, isNameStart c = false) : NameIn word none

/-- What a cursor selects. -/
inductive Selects (text : Text) (line column : Int) : Option Text → Prop
  | word {current : Text} {s e : Nat} {answer : Option Text} (hline : LineAt text line current)
      (h : Touches current column s e) (hname : NameIn (between current s e) answer) :
      Selects text line column answer
  | nothing (h : ∀ current s e, LineAt text line current → ¬ Touches current column s e) :
      Selects text line column none

variable {text current front back : Text} {line column : Int}

/-- A column touches at most one word. -/
theorem Touches.unique {s e s' e' : Nat} (h : Touches current column s e)
    (h' : Touches current column s' e') : s = s' ∧ e = e' := by
  obtain ⟨hword, hs, he⟩ := h
  obtain ⟨hword', hs', he'⟩ := h'
  exact hword.unique hword' (Int.ofNat_le.mp (Int.le_trans hs he'))
    (Int.ofNat_le.mp (Int.le_trans hs' he))

section NameIn

variable {word : Text} {answer other : Option Text}

theorem dropWhile_skipped {skipped rest : Text} {c : Char}
    (hskipped : ∀ d ∈ skipped, isNameStart d = false) (hc : isNameStart c = true) :
    (skipped ++ c :: rest).dropWhile (!isNameStart ·) = c :: rest := by
  rw [List.dropWhile_append_of_pos fun d hd => by simp [hskipped d hd]]
  simp [hc]

theorem NameIn.unique (h : NameIn word answer) (h' : NameIn word other) : answer = other := by
  cases h with
  | name hword hskipped hc =>
    cases h' with
    | name hword' hskipped' hc' =>
      rw [← dropWhile_skipped hskipped hc, ← hword, hword', dropWhile_skipped hskipped' hc']
    | none h => rw [h _ (by simp [hword])] at hc; cases hc
  | none h =>
    cases h' with
    | name hword hskipped hc => rw [h _ (by simp [hword])] at hc; cases hc
    | none => rfl

theorem nameIn_self {c : Char} {rest : Text} (hc : isNameStart c = true) :
    NameIn (c :: rest) (some (c :: rest)) :=
  .name (List.nil_append _).symm (by simp) hc

end NameIn

section RunAround

theorem takeWhile_word {word rest : Text} (hword : ∀ c ∈ word, isNameChar c = true)
    (hrest : ∀ c ∈ rest.head?, isNameChar c = false) :
    (word ++ rest).takeWhile isNameChar = word := by
  have hstop : rest.takeWhile isNameChar = [] := by
    cases rest with
    | nil => rfl
    | cons c rest => simp [hrest c rfl]
  rw [List.takeWhile_append_of_pos hword, hstop, List.append_nil]

theorem not_isNameChar_dropWhile (text : Text) :
    ∀ c ∈ (text.dropWhile isNameChar).head?, isNameChar c = false := by
  intro c hc
  have hhead := List.head?_dropWhile_not isNameChar text
  rw [Option.mem_def.mp hc] at hhead
  simpa using hhead

/-- The run around a place of a word is the word. -/
theorem runAround_append {a b : Text} (h : StandsAlone front (a ++ b) back) :
    runAround (front ++ (a ++ b ++ back)) (front.length + a.length) = a ++ b := by
  have htake : (front ++ (a ++ b ++ back)).take (front.length + a.length) = front ++ a := by
    rw [List.take_length_add_append, List.append_assoc, List.take_left]
  have hdrop : (front ++ (a ++ b ++ back)).drop (front.length + a.length) = b ++ back := by
    rw [List.drop_length_add_append, List.append_assoc, List.drop_left]
  have ha : ∀ c ∈ a.reverse, isNameChar c = true := fun c hc =>
    h.chars c (List.mem_append_left _ (List.mem_reverse.mp hc))
  have hb : ∀ c ∈ b, isNameChar c = true := fun c hc => h.chars c (List.mem_append_right _ hc)
  rw [runAround, htake, hdrop, List.reverse_append,
    takeWhile_word ha (by simpa only [List.head?_reverse] using h.before),
    takeWhile_word hb h.behind, List.reverse_reverse]

/-- The run around a place that touches a word is that word. -/
theorem runAround_of_isWord {s e place : Nat} (h : IsWord current s e) (hs : s ≤ place)
    (he : place ≤ e) : runAround current place = between current s e := by
  obtain ⟨front, word, back, halone, rfl, rfl, rfl⟩ := isWord_iff.mp h
  rw [between_append]
  obtain ⟨a, b, rfl, hplace⟩ : ∃ a b, word = a ++ b ∧ place = front.length + a.length :=
    ⟨word.take (place - front.length), word.drop (place - front.length),
      (List.take_append_drop ..).symm, by rw [List.length_take]; omega⟩
  rw [hplace]
  exact runAround_append halone

/-- Where there are name characters around a place, it touches a word. -/
theorem exists_isWord {place : Nat} (hplace : place ≤ current.length)
    (h : runAround current place ≠ []) : ∃ s e, IsWord current s e ∧ s ≤ place ∧ place ≤ e := by
  let left := (current.take place).reverse
  let right := current.drop place
  have hrun : runAround current place =
      (left.takeWhile isNameChar).reverse ++ right.takeWhile isNameChar := rfl
  have hleft : current.take place =
      (left.dropWhile isNameChar).reverse ++ (left.takeWhile isNameChar).reverse := by
    rw [← List.reverse_append, List.takeWhile_append_dropWhile, List.reverse_reverse]
  have hright : right = right.takeWhile isNameChar ++ right.dropWhile isNameChar :=
    List.takeWhile_append_dropWhile.symm
  have halone : StandsAlone (left.dropWhile isNameChar).reverse (runAround current place)
      (right.dropWhile isNameChar) := by
    refine ⟨h, ?_, ?_, not_isNameChar_dropWhile right⟩
    · intro c hc
      rcases List.mem_append.mp hc with hc | hc
      · exact List.all_eq_true.mp List.all_takeWhile c (List.mem_reverse.mp hc)
      · exact List.all_eq_true.mp List.all_takeWhile c hc
    · rw [List.getLast?_reverse]
      exact not_isNameChar_dropWhile left
  have hcurrent : current = (left.dropWhile isNameChar).reverse ++
      (runAround current place ++ right.dropWhile isNameChar) := by
    rw [hrun, List.append_assoc, ← hright, ← List.append_assoc, ← hleft,
      List.take_append_drop]
  have hlength : place = (left.dropWhile isNameChar).reverse.length +
      (left.takeWhile isNameChar).reverse.length := by
    rw [← List.length_append, ← hleft, List.length_take_of_le hplace]
  refine ⟨_, _, isWord_iff.mpr ⟨_, _, _, halone, hcurrent, rfl, rfl⟩, ?_, ?_⟩
  · omega
  · rw [hrun, List.length_append]
    omega

end RunAround

theorem nameIn_inLine {place : Nat} (hplace : place ≤ current.length) :
    NameIn (runAround current place) (inLine current place) := by
  unfold inLine
  rw [if_neg (by omega)]
  cases h : (runAround current place).dropWhile (!isNameStart ·) with
  | nil =>
    refine .none fun c hc => ?_
    simpa using List.dropWhile_eq_nil_iff.mp h c hc
  | cons c rest =>
    have hhead := List.head?_dropWhile_not (!isNameStart ·) (runAround current place)
    rw [h] at hhead
    have hsplit : runAround current place =
        (runAround current place).takeWhile (!isNameStart ·) ++ c :: rest := by
      rw [← h, List.takeWhile_append_dropWhile]
    refine .name hsplit ?_ (by simpa using hhead)
    intro d hd
    simpa using List.all_eq_true.mp List.all_takeWhile d hd

theorem inLine_of_empty {place : Nat} (h : runAround current place = []) :
    inLine current place = none := by
  unfold inLine
  rw [h]
  split <;> rfl

theorem LineAt.unique {other : Text} (h : LineAt text line current) (h' : LineAt text line other) :
    current = other :=
  Option.some.inj (h.2.symm.trans h'.2)

theorem LineAt.eq_nil (h : LineAt [] line current) : current = [] := by
  have hmem := List.mem_of_getElem? h.2
  simpa [Text.splitLines, Text.dropBreak, Text.endsWith, Text.breakLines] using hmem

theorem selects_inLine (hline : LineAt text line current) (place : Nat) :
    Selects text line place (inLine current place) := by
  by_cases hplace : place ≤ current.length
  · by_cases hrun : runAround current place = []
    · rw [inLine_of_empty hrun]
      refine .nothing fun other s e hother htouches => ?_
      obtain rfl := hline.unique hother
      have hbetween := runAround_of_isWord htouches.word (Int.ofNat_le.mp htouches.from_start)
        (Int.ofNat_le.mp htouches.to_end)
      exact htouches.word.standsAlone.ne_nil (hbetween ▸ hrun)
    · obtain ⟨s, e, hword, hs, he⟩ := exists_isWord hplace hrun
      have hname := nameIn_inLine hplace
      rw [runAround_of_isWord hword hs he] at hname
      exact .word hline ⟨hword, Int.ofNat_le.mpr hs, Int.ofNat_le.mpr he⟩ hname
  · rw [inLine, if_pos (by omega)]
    refine .nothing fun other s e hother htouches => ?_
    obtain rfl := hline.unique hother
    have hle := htouches.word.le_length
    have hend := Int.ofNat_le.mp htouches.to_end
    omega

theorem selects_at? (text : Text) (line column : Int) :
    Selects text line column (at? text line column) := by
  unfold at?
  split_ifs with hguard
  · simp only [Bool.or_eq_true, List.isEmpty_iff, decide_eq_true_eq] at hguard
    refine .nothing fun current s e hline htouches => ?_
    rcases hguard with (rfl | hnegative) | hnegative
    · exact not_isWord_nil (hline.eq_nil ▸ htouches.word)
    · have hle := hline.1
      omega
    · have hle := htouches.from_start
      omega
  · simp only [Bool.or_eq_true, decide_eq_true_eq, not_or, Int.not_lt] at hguard
    obtain ⟨⟨-, hline⟩, hcolumn⟩ := hguard
    obtain ⟨place, rfl⟩ := Int.eq_ofNat_of_zero_le hcolumn
    cases hcurrent : text.splitLines[line.toNat]? with
    | none =>
      refine .nothing fun current s e hat => ?_
      rw [LineAt, hcurrent] at hat
      cases hat.2
    | some current => exact selects_inLine ⟨hline, hcurrent⟩ place

/-- What a cursor selects is decided by the word that it touches. -/
theorem Selects.nameIn {answer : Option Text} {s e : Nat} (h : Selects text line column answer)
    (hline : LineAt text line current) (htouches : Touches current column s e) :
    NameIn (between current s e) answer := by
  cases h with
  | nothing h => exact absurd htouches (h _ _ _ hline)
  | word hline' htouches' hname =>
    obtain rfl := hline.unique hline'
    obtain ⟨rfl, rfl⟩ := htouches.unique htouches'
    exact hname

theorem Selects.unique {answer other : Option Text} (h : Selects text line column answer)
    (h' : Selects text line column other) : answer = other := by
  cases h with
  | word hline htouches hname => exact hname.unique (h'.nameIn hline htouches)
  | nothing h =>
    cases h' with
    | word hline htouches => exact absurd htouches (h _ _ _ hline)
    | nothing => rfl

theorem NameIn.head {word name : Text} (h : NameIn word (some name)) :
    ∃ c, name.head? = some c ∧ isNameStart c = true := by
  cases h with
  | name _ _ hc => exact ⟨_, rfl, hc⟩

/-- The cursor selects the name in the one word that its column touches, and nothing if there is
none. All columns that touch a word select the same, and what they select starts a name. -/
theorem at?_selects (text : Text) (line column : Int) :
    (∀ answer, at? text line column = answer ↔ Selects text line column answer) ∧
      (∀ current s e s' e', Touches current column s e → Touches current column s' e' →
        s = s' ∧ e = e') ∧
      (∀ current s e other, LineAt text line current → Touches current column s e →
        Touches current other s e → at? text line other = at? text line column) ∧
      ∀ name, at? text line column = some name →
        ∃ c, name.head? = some c ∧ isNameStart c = true := by
  have hselects := selects_at? text line column
  refine ⟨fun answer => ⟨fun h => h ▸ hselects, hselects.unique⟩,
    fun _ _ _ _ _ => Touches.unique, ?_, ?_⟩
  · intro current s e other hline htouches hother
    exact ((selects_at? text line other).nameIn hline hother).unique
      (hselects.nameIn hline htouches)
  · intro name hname
    rw [hname] at hselects
    cases hselects with
    | word _ _ hword => exact hword.head

end DefinitionSite.Identifier
