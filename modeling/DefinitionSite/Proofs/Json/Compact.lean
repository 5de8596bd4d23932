import Mathlib.Data.List.Nodup
import Mathlib.Tactic.Common
import Mathlib.Tactic.IntervalCases
import DefinitionSite.Json.Reader
import DefinitionSite.Text.Quoted

/-! JSON written without blanks, as programs write records: a string escapes its quotes, its
backslashes and its control characters, and every other character stands for itself. The reader
gives back the value that was written. -/
namespace DefinitionSite.Json

/-- A character of a string. -/
def compactChar (c : Char) : Text :=
  if c = '"' then ['\\', '"']
  else if c = '\\' then ['\\', '\\']
  else if c = '\x08' then ['\\', 'b']
  else if c = '\x0c' then ['\\', 'f']
  else if c = '\n' then ['\\', 'n']
  else if c = '\r' then ['\\', 'r']
  else if c = '\t' then ['\\', 't']
  else if c.toNat < 32 then '\\' :: 'u' :: Text.hexDigits 4 c.toNat
  else [c]

/-- A string. -/
def compactString (s : String) : Text := '"' :: s.toList.flatMap compactChar ++ ['"']

mutual

/-- A value. -/
def compact : Json → Text
  | .null => Text.of "null"
  | .bool b => if b then Text.of "true" else Text.of "false"
  | .int n => (toString n).toList
  | .float x => (toString x).toList
  | .str s => compactString s
  | .arr items => '[' :: compactItems items ++ [']']
  | .obj fields => '{' :: compactFields fields ++ ['}']

/-- Items between commas. -/
def compactItems : List Json → Text
  | [] => []
  | [v] => compact v
  | v :: rest => compact v ++ ',' :: compactItems rest

/-- Fields between commas. -/
def compactFields : List (String × Json) → Text
  | [] => []
  | [(name, v)] => compactString name ++ ':' :: compact v
  | (name, v) :: rest => compactString name ++ ':' :: compact v ++ ',' :: compactFields rest

end

/-! Strings. -/

/-- The letters of the short escapes that are written. -/
def shortLetters : Text := Text.of "\"\\bfnrt"

/-- A character is written as itself, as a short escape or as a numbered one. -/
theorem compactChar_cases (c : Char) :
    (compactChar c = [c] ∧ c ≠ '"' ∧ c ≠ '\\' ∧ 32 ≤ c.toNat) ∨
      (∃ e ∈ shortLetters, shortEscape? e = some c ∧ compactChar c = ['\\', e]) ∨
      (c.toNat < 32 ∧ compactChar c = '\\' :: 'u' :: Text.hexDigits 4 c.toNat) := by
  have hshort : ∀ d ∈ ['"', '\\', '\x08', '\x0c', '\n', '\r', '\t'],
      ∃ e ∈ shortLetters, shortEscape? e = some d ∧ compactChar d = ['\\', e] := by
    simp only [List.forall_mem_cons]
    refine ⟨⟨'"', ?_⟩, ⟨'\\', ?_⟩, ⟨'b', ?_⟩, ⟨'f', ?_⟩, ⟨'n', ?_⟩, ⟨'r', ?_⟩, ⟨'t', ?_⟩,
      by simp⟩ <;> decide
  by_cases hmem : c ∈ ['"', '\\', '\x08', '\x0c', '\n', '\r', '\t']
  · exact .inr (.inl (hshort c hmem))
  · simp only [List.mem_cons, List.not_mem_nil, or_false, not_or] at hmem
    obtain ⟨h1, h2, h3, h4, h5, h6, h7⟩ := hmem
    unfold compactChar
    rw [if_neg h1, if_neg h2, if_neg h3, if_neg h4, if_neg h5, if_neg h6, if_neg h7]
    by_cases hcontrol : c.toNat < 32
    · exact .inr (.inr ⟨hcontrol, if_pos hcontrol⟩)
    · exact .inl ⟨if_neg hcontrol, h1, h2, Nat.not_lt.mp hcontrol⟩
theorem numberedChar?_hexDigits {n : Nat} (h : n < 32) (rest : Text) :
    numberedChar? (Text.hexDigits 4 n ++ rest) = some (Char.ofNat n, rest) := by
  interval_cases n <;> rfl

theorem stringBody_compactChar (fuel : Nat) (c : Char) (rest : Text) :
    stringBody (fuel + 1) (compactChar c ++ rest) =
      (stringBody fuel rest).map fun p => (c :: p.1, p.2) := by
  rcases compactChar_cases c with ⟨hself, hquote, hslash, hspace⟩ | ⟨e, he, hescape, htext⟩ |
    ⟨hcontrol, htext⟩
  · have hplain : (decide (c.toNat < 32) || c == '\\') = false := by
      simp [Nat.not_lt.mpr hspace, hslash]
    rw [hself, List.singleton_append, stringBody, hplain]
    · cases stringBody fuel rest <;> rfl
    · exact hquote
    · rintro _ rfl
      exact absurd rfl hslash
    · rintro _ _ rfl
      exact absurd rfl hslash
  · rw [htext, List.cons_append, List.singleton_append, stringBody]
    · simp only [hescape]
      cases stringBody fuel rest <;> rfl
    · rintro rfl
      exact absurd he (by decide)
  · have hchar := numberedChar?_hexDigits hcontrol rest
    rw [Char.ofNat_toNat] at hchar
    rw [htext]
    simp only [List.cons_append, stringBody, hchar, Option.bind_eq_bind, Option.bind_some]
    cases stringBody fuel rest <;> rfl

theorem stringBody_flatMap {fuel : Nat} {cs : Text} (h : cs.length < fuel) (rest : Text) :
    stringBody fuel (cs.flatMap compactChar ++ '"' :: rest) = some (cs, rest) := by
  induction cs generalizing fuel with
  | nil =>
    obtain ⟨fuel, rfl⟩ := Nat.exists_eq_add_one_of_ne_zero (Nat.ne_of_gt h)
    rfl
  | cons c cs ih =>
    obtain ⟨fuel, rfl⟩ := Nat.exists_eq_add_one_of_ne_zero (by omega : fuel ≠ 0)
    rw [List.flatMap_cons, List.append_assoc, stringBody_compactChar]
    rw [ih (by simpa using h)]
    rfl

theorem length_le_flatMap (cs : Text) : cs.length ≤ (cs.flatMap compactChar).length := by
  induction cs with
  | nil => simp
  | cons c cs ih =>
    have hpos : 0 < (compactChar c).length := by
      rcases compactChar_cases c with ⟨htext, -⟩ | ⟨e, -, -, htext⟩ | ⟨-, htext⟩ <;> simp [htext]
    rw [List.flatMap_cons, List.length_append, List.length_cons]
    omega

/-- The reader gives back a string, whatever follows it. -/
theorem stringBody_compactString (s : String) (rest : Text) :
    ∃ body, compactString s ++ rest = '"' :: body ∧
      stringBody (body.length + 1) body = some (s.toList, rest) := by
  refine ⟨s.toList.flatMap compactChar ++ '"' :: rest, by simp [compactString], ?_⟩
  apply stringBody_flatMap
  have hle := length_le_flatMap s.toList
  simp only [List.length_append, List.length_cons]
  omega

/-! Numbers. -/

/-- What may stand behind a value. -/
def Closes (rest : Text) : Prop := ∀ c ∈ rest.head?, c = ',' ∨ c = ']' ∨ c = '}'

theorem toDigits_head {n : Nat} (h : n ≠ 0) :
    ∃ c rest, Nat.toDigits 10 n = c :: rest ∧ c ≠ '0' := by
  induction n using Nat.strong_induction_on with
  | _ n ih =>
    by_cases hlt : n < 10
    · refine ⟨Nat.digitChar n, [], Nat.toDigits_of_lt_base hlt, ?_⟩
      have hall : ∀ m < 10, m ≠ 0 → Nat.digitChar m ≠ '0' := by decide
      exact hall n hlt h
    · obtain ⟨c, rest, hdigits, hc⟩ := ih (n / 10) (by omega) (by omega)
      refine ⟨c, rest ++ [Nat.digitChar (n % 10)], ?_, hc⟩
      rw [Nat.toDigits_of_base_le (by omega) (by omega), hdigits, List.cons_append]

theorem natOf_toDigits (n : Nat) : Decimal.natOf (Nat.toDigits 10 n) = n := by
  have hread : Nat.ofDigitChars 10 (Nat.toDigits 10 n) 0 = n :=
    Nat.ofDigitChars_toDigits (by omega) (by omega)
  unfold Nat.ofDigitChars at hread
  unfold Decimal.natOf
  simpa [Nat.mul_comm] using hread

theorem wholeDigits?_toDigits (n : Nat) {rest : Text} (hrest : Closes rest) :
    wholeDigits? (Nat.toDigits 10 n ++ rest) = some (Nat.toDigits 10 n, rest) := by
  have hdigits : ∀ c ∈ Nat.toDigits 10 n, c.isDigit = true := fun c hc =>
    Nat.isDigit_of_mem_toDigits (by omega) (by omega) hc
  have hstop : rest.takeWhile Char.isDigit = [] ∧ rest.dropWhile Char.isDigit = rest := by
    cases rest with
    | nil => simp
    | cons c rest =>
      have hc : c.isDigit = false := by
        rcases hrest c rfl with rfl | rfl | rfl <;> decide
      simp [hc]
  by_cases hzero : n = 0
  · subst hzero
    rfl
  · obtain ⟨c, more, hhead, hc⟩ := toDigits_head hzero
    have htake : (Nat.toDigits 10 n ++ rest).takeWhile Char.isDigit = Nat.toDigits 10 n := by
      rw [List.takeWhile_append_of_pos hdigits, hstop.1, List.append_nil]
    have hdrop : (Nat.toDigits 10 n ++ rest).dropWhile Char.isDigit = rest := by
      rw [List.dropWhile_append_of_pos hdigits, hstop.2]
    unfold wholeDigits?
    split
    · rename_i heq
      rw [hhead] at heq
      exact absurd (List.cons_eq_cons.mp heq).1 hc
    · rw [htake, hdrop]
      simp [hhead]

theorem length_toDigits_le {n : Nat} (h : Decimal.isWritable n = true) :
    (Nat.toDigits 10 n).length ≤ Decimal.maxDigits := by
  unfold Decimal.isWritable at h
  have hpos : 0 < Decimal.maxDigits := by decide
  -- The bound is too large a number to be computed with.
  generalize Decimal.maxDigits = bound at *
  rw [Nat.length_toDigits_le_iff (by omega) hpos]
  exact of_decide_eq_true h

/-- A whole number that may be written is read back. -/
theorem unsignedNumber_toDigits (negative : Bool) {n : Nat}
    (hn : Decimal.isWritable n = true) {rest : Text} (hrest : Closes rest) :
    unsignedNumber negative (Nat.toDigits 10 n ++ rest) =
      some (.int (if negative then -n else n), rest) := by
  have hfraction : fractionDigits rest = ([], rest) := by
    unfold fractionDigits
    split
    · rename_i d more
      simpa using hrest '.' rfl
    · rfl
  have hexponent : exponentDigits rest = ([], rest) := by
    unfold exponentDigits
    split
    · rename_i e more
      rcases hrest e rfl with rfl | rfl | rfl <;> rfl
    · rfl
  have hlength := length_toDigits_le hn
  unfold unsignedNumber
  simp only [wholeDigits?_toDigits n hrest, Option.bind_eq_bind, Option.bind_some, hfraction,
    hexponent, List.isEmpty_nil, Bool.and_self, ↓reduceIte, Nat.not_lt.mpr hlength,
    natOf_toDigits]
  rfl

theorem afterWord?_eq_none (word : String) {c d : Char} {letters text : Text}
    (hword : word.toList = d :: letters) (h : c ≠ d) : afterWord? word (c :: text) = none := by
  unfold afterWord?
  simp [hword, Ne.symm h]

theorem ne_of_isDigit {c d : Char} (hc : c.isDigit = true) (hd : d.isDigit = false) : c ≠ d := by
  rintro rfl
  simp [hc] at hd

theorem scalar_of_isDigit {c : Char} (h : c.isDigit = true) (text : Text) :
    scalar (c :: text) = unsignedNumber false (c :: text) := by
  unfold scalar
  split
  · rename_i heq
    exact absurd (List.cons_eq_cons.mp heq).1 (ne_of_isDigit h (by decide))
  · rw [afterWord?_eq_none "null" rfl (ne_of_isDigit h (by decide)),
      afterWord?_eq_none "true" rfl (ne_of_isDigit h (by decide)),
      afterWord?_eq_none "false" rfl (ne_of_isDigit h (by decide)),
      afterWord?_eq_none "NaN" rfl (ne_of_isDigit h (by decide)),
      afterWord?_eq_none "Infinity" rfl (ne_of_isDigit h (by decide))]

theorem exists_toDigits (n : Nat) :
    ∃ c digits, Nat.toDigits 10 n = c :: digits ∧ c.isDigit = true := by
  have hne : Nat.toDigits 10 n ≠ [] := Nat.toDigits_ne_nil
  obtain ⟨c, digits, hdigits⟩ := List.exists_cons_of_ne_nil hne
  refine ⟨c, digits, hdigits, ?_⟩
  apply Nat.isDigit_of_mem_toDigits (b := 10) (n := n) (by omega) (by omega)
  simp [hdigits]

theorem toList_ofNat (n : Nat) : (toString (Int.ofNat n)).toList = Nat.toDigits 10 n :=
  Nat.toList_repr

theorem toList_negSucc (n : Nat) :
    (toString (Int.negSucc n)).toList = '-' :: Nat.toDigits 10 (n + 1) := by
  show ("-" ++ (n + 1).repr).toList = _
  rw [String.toList_append, Nat.toList_repr]
  rfl

theorem scalar_int {n : Int} (hn : Decimal.isWritable n = true) {rest : Text}
    (hrest : Closes rest) : scalar ((toString n).toList ++ rest) = some (.int n, rest) := by
  cases n with
  | ofNat n =>
    have hread := unsignedNumber_toDigits false hn hrest
    obtain ⟨c, digits, hdigits, hc⟩ := exists_toDigits n
    rw [hdigits, List.cons_append] at hread
    rw [toList_ofNat, hdigits, List.cons_append, scalar_of_isDigit hc]
    exact hread
  | negSucc n =>
    have hread := unsignedNumber_toDigits (n := n + 1) true hn hrest
    obtain ⟨c, digits, hdigits, hc⟩ := exists_toDigits (n + 1)
    rw [hdigits, List.cons_append] at hread
    rw [toList_negSucc, hdigits, List.cons_append, List.cons_append]
    have hword : afterWord? "Infinity" (c :: (digits ++ rest)) = none :=
      afterWord?_eq_none "Infinity" rfl (ne_of_isDigit hc (by decide))
    unfold scalar
    simp only [hword, hread]
    rfl

/-! Values. -/

/-- The values that are read back: numbers are whole and may be written, and the names of an
object's fields are different. -/
inductive Plain : Json → Prop
  | null : Plain .null
  | bool (b : Bool) : Plain (.bool b)
  | int {n : Int} (h : Decimal.isWritable n = true) : Plain (.int n)
  | str (s : String) : Plain (.str s)
  | arr {items : List Json} (h : ∀ v ∈ items, Plain v) : Plain (.arr items)
  | obj {fields : List (String × Json)} (hnames : (fields.map (·.1)).Nodup)
      (h : ∀ f ∈ fields, Plain f.2) : Plain (.obj fields)

/-- A value starts with a character that is no blank and closes nothing. -/
theorem exists_head {v : Json} (h : Plain v) :
    ∃ c tail, compact v = c :: tail ∧ isGap c = false ∧ c ≠ ']' ∧ c ≠ '}' := by
  have hdigit : ∀ c : Char, c.isDigit = true → isGap c = false ∧ c ≠ ']' ∧ c ≠ '}' := by
    intro c hc
    have hnot := fun d => @ne_of_isDigit c d hc
    refine ⟨?_, hnot _ (by decide), hnot _ (by decide)⟩
    simp [isGap, hnot ' ' (by decide), hnot '\t' (by decide), hnot '\n' (by decide),
      hnot '\r' (by decide)]
  cases h with
  | null => exact ⟨'n', Text.of "ull", rfl, by decide⟩
  | bool b =>
    cases b
    · exact ⟨'f', Text.of "alse", rfl, by decide⟩
    · exact ⟨'t', Text.of "rue", rfl, by decide⟩
  | @int n h =>
    unfold compact
    cases n with
    | ofNat n =>
      obtain ⟨c, digits, hdigits, hc⟩ := exists_toDigits n
      exact ⟨c, digits, (toList_ofNat n).trans hdigits, hdigit c hc⟩
    | negSucc n => exact ⟨'-', Nat.toDigits 10 (n + 1), toList_negSucc n, by decide⟩
  | str s =>
    unfold compact compactString
    exact ⟨'"', _, rfl, by decide⟩
  | arr h =>
    unfold compact
    exact ⟨'[', _, rfl, by decide⟩
  | obj hnames h =>
    unfold compact
    exact ⟨'{', _, rfl, by decide⟩

theorem skipGaps_of_head {c : Char} (h : isGap c = false) (text : Text) :
    skipGaps (c :: text) = c :: text := by
  simp [skipGaps, h]

/-- The reader gives back the value, whatever closes behind it. -/
def ReadsBack (v : Json) : Prop :=
  ∀ fuel rest, (compact v).length ≤ fuel → Closes rest →
    value fuel (compact v ++ rest) = some (v, rest)

theorem closes_cons {c : Char} (h : c = ',' ∨ c = ']' ∨ c = '}') (rest : Text) :
    Closes (c :: rest) := by
  intro d hd
  obtain rfl : c = d := by simpa using hd
  exact h

theorem compactItems_cons (v w : Json) (items : List Json) :
    compactItems (v :: w :: items) = compact v ++ ',' :: compactItems (w :: items) := by
  rw [compactItems]
  simp

theorem exists_items_head {v : Json} (h : Plain v) (items : List Json) :
    ∃ c tail, compactItems (v :: items) = c :: tail ∧ isGap c = false ∧ c ≠ ']' := by
  obtain ⟨c, tail, hhead, hgap, hne, -⟩ := exists_head h
  cases items with
  | nil => exact ⟨c, tail, by rw [compactItems, hhead], hgap, hne⟩
  | cons w items =>
    refine ⟨c, tail ++ ',' :: compactItems (w :: items), ?_, hgap, hne⟩
    rw [compactItems_cons, hhead, List.cons_append]

theorem elements_compactItems {items : List Json} (hne : items ≠ [])
    (hplain : ∀ v ∈ items, Plain v) (hread : ∀ v ∈ items, ReadsBack v) {fuel : Nat}
    (hfuel : (compactItems items).length < fuel) (rest : Text) :
    elements fuel (compactItems items ++ ']' :: rest) = some (items, rest) := by
  induction items generalizing fuel with
  | nil => exact absurd rfl hne
  | cons v items ih =>
    obtain ⟨fuel, rfl⟩ := Nat.exists_eq_add_one_of_ne_zero (by omega : fuel ≠ 0)
    obtain ⟨-, hplain⟩ := List.forall_mem_cons.mp hplain
    obtain ⟨hv, hread⟩ := List.forall_mem_cons.mp hread
    cases items with
    | nil =>
      have hlast := hv fuel (']' :: rest) (by rw [compactItems] at hfuel; omega)
        (closes_cons (by simp) rest)
      rw [compactItems, elements, hlast]
      simp [skipGaps_of_head (show isGap ']' = false by decide)]
    | cons w items =>
      rw [compactItems_cons, List.length_append, List.length_cons] at hfuel
      have hmore := ih (by simp) hplain hread (by omega : _ < fuel)
      have hfirst := hv fuel (',' :: (compactItems (w :: items) ++ ']' :: rest)) (by omega)
        (closes_cons (by simp) _)
      obtain ⟨c, tail, hhead, hc, -⟩ := exists_items_head (hplain w List.mem_cons_self) items
      rw [hhead, List.cons_append] at hmore hfirst
      rw [compactItems_cons, hhead, List.append_assoc, List.cons_append, List.cons_append, elements,
        hfirst]
      simp [skipGaps_of_head (show isGap ',' = false by decide), skipGaps_of_head hc, hmore]

theorem compactFields_cons (f g : String × Json) (fields : List (String × Json)) :
    compactFields (f :: g :: fields) =
      compactString f.1 ++ ':' :: compact f.2 ++ ',' :: compactFields (g :: fields) := by
  rw [compactFields]
  simp

theorem exists_fields_head (f : String × Json) (fields : List (String × Json)) :
    ∃ tail, compactFields (f :: fields) = '"' :: tail := by
  cases fields with
  | nil =>
    rw [compactFields, compactString, List.append_assoc]
    exact ⟨_, rfl⟩
  | cons g fields =>
    rw [compactFields_cons, compactString, List.append_assoc]
    exact ⟨_, rfl⟩

theorem putField_new {fields : List (String × Json)} {name : String}
    (h : name ∉ fields.map (·.1)) (v : Json) : putField fields name v = fields ++ [(name, v)] := by
  have hnone : fields.any (·.1 == name) = false := by
    rw [List.any_eq_false]
    intro f hf heq
    exact h (List.mem_map.mpr ⟨f, hf, beq_iff_eq.mp heq⟩)
  simp [putField, hnone]

theorem members_compactFields {fields before : List (String × Json)} (hne : fields ≠ [])
    (hnames : ((before ++ fields).map (·.1)).Nodup) (hplain : ∀ f ∈ fields, Plain f.2)
    (hread : ∀ f ∈ fields, ReadsBack f.2) {fuel : Nat}
    (hfuel : (compactFields fields).length < fuel) (rest : Text) :
    members fuel before (compactFields fields ++ '}' :: rest) =
      some (.obj (before ++ fields), rest) := by
  -- The fields read so far are in `before`, and no later field has one of their names.
  induction fields generalizing fuel before with
  | nil => exact absurd rfl hne
  | cons f fields ih =>
    obtain ⟨fuel, rfl⟩ := Nat.exists_eq_add_one_of_ne_zero (by omega : fuel ≠ 0)
    obtain ⟨name, v⟩ := f
    obtain ⟨hf, hplain⟩ := List.forall_mem_cons.mp hplain
    obtain ⟨hv, hread⟩ := List.forall_mem_cons.mp hread
    have hnew : name ∉ before.map (·.1) := by
      rw [List.map_append, List.map_cons, List.nodup_middle, List.nodup_cons] at hnames
      exact fun hmem => hnames.1 (List.mem_append_left _ hmem)
    obtain ⟨c, tail, hhead, hc, -⟩ := exists_head hf
    have hcolon := skipGaps_of_head (show isGap ':' = false by decide)
    cases fields with
    | nil =>
      rw [compactFields, List.length_append, List.length_cons] at hfuel
      have hlast := hv fuel ('}' :: rest) (by simp only; omega) (closes_cons (by simp) rest)
      obtain ⟨body, hbody, hstring⟩ :=
        stringBody_compactString name (':' :: (compact v ++ '}' :: rest))
      rw [compactFields, List.append_assoc, List.cons_append, hbody, members]
      simp only at hhead
      rw [hhead, List.cons_append] at hlast hstring
      simp [hstring, hcolon, skipGaps_of_head hc, hlast,
        skipGaps_of_head (show isGap '}' = false by decide), putField_new hnew]
    | cons g fields =>
      rw [compactFields_cons] at hfuel
      simp only [List.length_append, List.length_cons] at hfuel
      have hlater : ((before ++ [(name, v)] ++ g :: fields).map (·.1)).Nodup := by
        simpa using hnames
      have hmore := ih (by simp) hlater hplain hread (by omega : _ < fuel)
      have hfirst := hv fuel (',' :: (compactFields (g :: fields) ++ '}' :: rest))
        (by simp only; omega) (closes_cons (by simp) _)
      obtain ⟨body, hbody, hstring⟩ := stringBody_compactString name
        (':' :: (compact v ++ ',' :: (compactFields (g :: fields) ++ '}' :: rest)))
      obtain ⟨more, hmembers⟩ := exists_fields_head g fields
      have htext : compactFields ((name, v) :: g :: fields) ++ '}' :: rest = '"' :: body := by
        rw [compactFields_cons, ← hbody]
        simp
      simp only at hhead
      rw [hhead, hmembers, List.cons_append, List.cons_append] at hstring hfirst
      rw [hmembers, List.cons_append] at hmore
      rw [htext, members]
      simp [hstring, hcolon, skipGaps_of_head hc, hfirst,
        skipGaps_of_head (show isGap ',' = false by decide),
        skipGaps_of_head (show isGap '"' = false by decide), putField_new hnew, hmore]

theorem value_of_scalar {c : Char} (hquote : c ≠ '"') (hbracket : c ≠ '[') (hbrace : c ≠ '{')
    (fuel : Nat) (text : Text) : value (fuel + 1) (c :: text) = scalar (c :: text) := by
  rw [value]
  · rintro _ heq
    exact hquote (List.cons_eq_cons.mp heq).1
  · rintro _ heq
    exact hbracket (List.cons_eq_cons.mp heq).1
  · rintro _ heq
    exact hbrace (List.cons_eq_cons.mp heq).1

theorem value_int {n : Int} (hn : Decimal.isWritable n = true) (fuel : Nat) {rest : Text}
    (hrest : Closes rest) :
    value (fuel + 1) ((toString n).toList ++ rest) = some (.int n, rest) := by
  have hread := scalar_int hn hrest
  cases n with
  | ofNat n =>
    obtain ⟨c, digits, hdigits, hc⟩ := exists_toDigits n
    have hnot := fun d => @ne_of_isDigit c d hc
    rw [toList_ofNat, hdigits, List.cons_append] at hread ⊢
    rw [value_of_scalar (hnot _ (by decide)) (hnot _ (by decide)) (hnot _ (by decide)), hread]
  | negSucc n =>
    rw [toList_negSucc, List.cons_append] at hread ⊢
    rw [value_of_scalar (by decide) (by decide) (by decide), hread]

theorem value_arr {c : Char} (hgap : isGap c = false) (hc : c ≠ ']') (fuel : Nat) (text : Text) :
    value (fuel + 1) ('[' :: c :: text) =
      (elements fuel (c :: text)).map fun p => (.arr p.1, p.2) := by
  rw [value, skipGaps_of_head hgap]
  split
  · rename_i heq
    exact absurd (List.cons_eq_cons.mp heq).1 hc
  · cases elements fuel (c :: text) <;> rfl

theorem value_obj {c : Char} (hgap : isGap c = false) (hc : c ≠ '}') (fuel : Nat) (text : Text) :
    value (fuel + 1) ('{' :: c :: text) = members fuel [] (c :: text) := by
  rw [value, skipGaps_of_head hgap]
  split
  · rename_i heq
    exact absurd (List.cons_eq_cons.mp heq).1 hc
  · rfl

theorem readsBack_of_succ {v : Json} (h : Plain v)
    (hread : ∀ fuel rest, (compact v).length ≤ fuel + 1 → Closes rest →
      value (fuel + 1) (compact v ++ rest) = some (v, rest)) : ReadsBack v := by
  intro fuel rest hfuel hrest
  obtain ⟨c, tail, hhead, -⟩ := exists_head h
  have hne : fuel ≠ 0 := by
    rw [hhead, List.length_cons] at hfuel
    omega
  obtain ⟨fuel, rfl⟩ := Nat.exists_eq_add_one_of_ne_zero hne
  exact hread fuel rest hfuel hrest

theorem value_null (fuel : Nat) (rest : Text) :
    value (fuel + 1) (Text.of "null" ++ rest) = some (.null, rest) := by
  show value (fuel + 1) ('n' :: (Text.of "ull" ++ rest)) = _
  rw [value_of_scalar (by decide) (by decide) (by decide)]
  rfl

theorem value_bool (b : Bool) (fuel : Nat) (rest : Text) :
    value (fuel + 1) ((if b then Text.of "true" else Text.of "false") ++ rest) =
      some (.bool b, rest) := by
  cases b with
  | false =>
    show value (fuel + 1) ('f' :: (Text.of "alse" ++ rest)) = _
    rw [value_of_scalar (by decide) (by decide) (by decide)]
    rfl
  | true =>
    show value (fuel + 1) ('t' :: (Text.of "rue" ++ rest)) = _
    rw [value_of_scalar (by decide) (by decide) (by decide)]
    rfl

/-- Every plain value is read back. -/
theorem readsBack {v : Json} (h : Plain v) : ReadsBack v := by
  induction h with
  | null =>
    apply readsBack_of_succ .null
    intro fuel rest _ _
    unfold compact
    exact value_null fuel rest
  | bool b =>
    apply readsBack_of_succ (.bool b)
    intro fuel rest _ _
    unfold compact
    exact value_bool b fuel rest
  | int hn =>
    apply readsBack_of_succ (.int hn)
    intro fuel rest _ hrest
    unfold compact
    exact value_int hn fuel hrest
  | str s =>
    apply readsBack_of_succ (.str s)
    intro fuel rest _ _
    obtain ⟨body, hbody, hstring⟩ := stringBody_compactString s rest
    unfold compact
    rw [hbody, value, hstring]
    simp
  | @arr items h ih =>
    apply readsBack_of_succ (.arr h)
    intro fuel rest hfuel _
    cases items with
    | nil =>
      show value (fuel + 1) ('[' :: ']' :: rest) = _
      rw [value, skipGaps_of_head (by decide)]
      rfl
    | cons v items =>
      rw [compact] at hfuel ⊢
      simp only [List.length_append, List.length_cons] at hfuel
      have hread := elements_compactItems (by simp) h ih (by omega : _ < fuel) rest
      obtain ⟨c, tail, hhead, hgap, hc⟩ := exists_items_head (h v List.mem_cons_self) items
      rw [hhead, List.cons_append] at hread
      rw [List.cons_append, List.cons_append, List.append_assoc, List.singleton_append, hhead,
        List.cons_append, value_arr hgap hc, hread]
      rfl
  | @obj fields hnames h ih =>
    apply readsBack_of_succ (.obj hnames h)
    intro fuel rest hfuel _
    cases fields with
    | nil =>
      show value (fuel + 1) ('{' :: '}' :: rest) = _
      rw [value, skipGaps_of_head (by decide)]
      rfl
    | cons f fields =>
      rw [compact] at hfuel ⊢
      simp only [List.length_append, List.length_cons] at hfuel
      have hall : ((([] : List (String × Json)) ++ f :: fields).map (·.1)).Nodup := hnames
      have hread := members_compactFields (by simp) hall h ih (by omega : _ < fuel) rest
      obtain ⟨tail, hhead⟩ := exists_fields_head f fields
      rw [hhead, List.cons_append] at hread
      rw [List.cons_append, List.cons_append, List.append_assoc, List.singleton_append, hhead,
        List.cons_append, value_obj (by decide) (by decide), hread]
      rfl

/-- The reader gives back a plain value that fills the text. -/
theorem read?_compact {v : Json} (h : Plain v) : read? (compact v) = some v := by
  have hread := readsBack h ((compact v).length + 1) [] (Nat.le_succ _) (by simp [Closes])
  obtain ⟨c, tail, hhead, hgap, -⟩ := exists_head h
  rw [List.append_nil] at hread
  unfold read?
  rw [show skipGaps (compact v) = compact v by rw [hhead, skipGaps_of_head hgap], hread]
  rfl

end DefinitionSite.Json
