import Mathlib.Data.List.TakeWhile
import Mathlib.Tactic.Common
import DefinitionSite.Proofs.Json.Compact
import DefinitionSite.Text.Lines

/-! Pieces of compact JSON that was cut inside its strings. The reader makes nothing of a piece that
starts with the value and stops inside a string. A piece that starts inside a string may happen to
be a value, but the names of its fields are then marks that stood between two strings. -/
namespace DefinitionSite.Json

/-! What the reader leaves of a text. -/

/-- The second text is the first one without some of its leading characters, of which none is a
quote or a backslash. -/
def Leaves (text rest : Text) : Prop :=
  ∃ taken : Text, text = taken ++ rest ∧ ∀ c ∈ taken, c ≠ '"' ∧ c ≠ '\\'

theorem Leaves.refl (text : Text) : Leaves text text := ⟨[], rfl, by simp⟩

theorem Leaves.trans {a b c : Text} (hab : Leaves a b) (hbc : Leaves b c) : Leaves a c := by
  obtain ⟨s, rfl, hs⟩ := hab
  obtain ⟨t, rfl, ht⟩ := hbc
  refine ⟨s ++ t, by simp, ?_⟩
  intro c hc
  rcases List.mem_append.mp hc with hc | hc
  · exact hs c hc
  · exact ht c hc

theorem leaves_cons {c : Char} (h : c ≠ '"' ∧ c ≠ '\\') (text : Text) : Leaves (c :: text) text :=
  ⟨[c], rfl, by simpa using h⟩

theorem leaves_dropWhile {p : Char → Bool} (h : p '"' = false ∧ p '\\' = false) (text : Text) :
    Leaves text (text.dropWhile p) := by
  refine ⟨text.takeWhile p, List.takeWhile_append_dropWhile.symm, ?_⟩
  intro c hc
  have hp := List.mem_takeWhile_imp hc
  refine ⟨?_, ?_⟩
  · rintro rfl
    simp [h.1] at hp
  · rintro rfl
    simp [h.2] at hp

theorem leaves_skipGaps (text : Text) : Leaves text (skipGaps text) :=
  leaves_dropWhile (by decide) text

theorem leaves_digits (text : Text) : Leaves text (text.dropWhile Char.isDigit) :=
  leaves_dropWhile (by decide) text

theorem leaves_wholeDigits? {text digits rest : Text}
    (h : wholeDigits? text = some (digits, rest)) : Leaves text rest := by
  unfold wholeDigits? at h
  split at h
  · obtain ⟨-, rfl⟩ : ['0'] = digits ∧ _ = rest := by simpa using h
    exact leaves_cons (by decide) _
  · split at h
    · simp at h
    · obtain ⟨-, rfl⟩ : _ = digits ∧ _ = rest := by simpa using h
      exact leaves_digits text

theorem leaves_fractionDigits (text : Text) : Leaves text (fractionDigits text).2 := by
  unfold fractionDigits
  split
  · rename_i d rest
    split_ifs with hd
    · have hmark : d ≠ '"' ∧ d ≠ '\\' := by
        constructor <;> rintro rfl <;> simp at hd
      exact ((leaves_cons (by decide) _).trans (leaves_cons hmark _)).trans (leaves_digits rest)
    · exact .refl _
  · exact .refl _

theorem leaves_exponentDigits (text : Text) : Leaves text (exponentDigits text).2 := by
  fun_cases exponentDigits text with
  | case1 => exact .refl _
  | case2 e rest he mark body hbody =>
    have hmark : e ≠ '"' ∧ e ≠ '\\' := by
      constructor <;> rintro rfl <;> simp at he
    have hsign : Leaves rest body := by
      split at hbody
      · obtain ⟨-, rfl⟩ := Prod.mk.inj hbody
        exact leaves_cons (by decide) _
      · obtain ⟨-, rfl⟩ := Prod.mk.inj hbody
        exact leaves_cons (by decide) _
      · obtain ⟨-, rfl⟩ := Prod.mk.inj hbody
        exact .refl _
    exact ((leaves_cons hmark rest).trans hsign).trans (leaves_digits body)
  | case3 => exact .refl _
  | case4 => exact .refl _

theorem leaves_afterWord? {word : String} (hword : '"' ∉ word.toList ∧ '\\' ∉ word.toList)
    {text rest : Text} (h : afterWord? word text = some rest) : Leaves text rest := by
  unfold afterWord? at h
  split_ifs at h with hpre
  obtain ⟨more, rfl⟩ := List.isPrefixOf_iff_prefix.mp hpre
  refine ⟨word.toList, by simpa [← String.length_toList] using h, ?_⟩
  intro c hc
  exact ⟨ne_of_mem_of_not_mem hc hword.1, ne_of_mem_of_not_mem hc hword.2⟩

/-- A value that is no object. -/
def IsScalar (v : Json) : Prop := ∀ fields, v ≠ .obj fields

theorem unsignedNumber_leaves {negative : Bool} {text rest : Text} {v : Json}
    (h : unsignedNumber negative text = some (v, rest)) : Leaves text rest ∧ IsScalar v := by
  unfold unsignedNumber at h
  obtain ⟨⟨whole, more⟩, hwhole, h⟩ := Option.bind_eq_some_iff.mp h
  have hleaves := ((leaves_wholeDigits? hwhole).trans (leaves_fractionDigits more)).trans
    (leaves_exponentDigits _)
  simp only at h
  split at h
  · split at h
    · simp at h
    · obtain ⟨rfl, rfl⟩ : _ = v ∧ _ = rest := by simpa using h
      exact ⟨hleaves, by simp [IsScalar]⟩
  · obtain ⟨x, -, h⟩ := Option.bind_eq_some_iff.mp h
    obtain ⟨rfl, rfl⟩ : _ = v ∧ _ = rest := by simpa using h
    exact ⟨hleaves, by simp [IsScalar]⟩

theorem scalar_leaves {text rest : Text} {v : Json} (h : scalar text = some (v, rest)) :
    Leaves text rest ∧ IsScalar v := by
  have hword : ∀ (word : String) (w : Json) (before more : Text),
      ('"' ∉ word.toList ∧ '\\' ∉ word.toList) → IsScalar w →
      afterWord? word before = some more → some (w, more) = some (v, rest) →
      Leaves before rest ∧ IsScalar v := by
    intro word w before more hletters hw hafter heq
    obtain ⟨rfl, rfl⟩ : w = v ∧ more = rest := by simpa using heq
    exact ⟨leaves_afterWord? hletters hafter, hw⟩
  unfold scalar at h
  split at h
  · rename_i number
    have hsign := leaves_cons (c := '-') (by decide) number
    split at h
    · rename_i hafter
      obtain ⟨hleaves, hscalar⟩ := hword _ _ _ _ (by decide) (by simp [IsScalar]) hafter h
      exact ⟨hsign.trans hleaves, hscalar⟩
    · obtain ⟨hleaves, hscalar⟩ := unsignedNumber_leaves h
      exact ⟨hsign.trans hleaves, hscalar⟩
  · split at h
    · rename_i hafter
      exact hword "null" _ _ _ (by decide) (by simp [IsScalar]) hafter h
    · rename_i hafter _
      exact hword "true" _ _ _ (by decide) (by simp [IsScalar]) hafter h
    · rename_i hafter _ _
      exact hword "false" _ _ _ (by decide) (by simp [IsScalar]) hafter h
    · rename_i hafter _ _ _
      exact hword "NaN" _ _ _ (by decide) (by simp [IsScalar]) hafter h
    · rename_i hafter _ _ _ _
      exact hword "Infinity" _ _ _ (by decide) (by simp [IsScalar]) hafter h
    · exact unsignedNumber_leaves h

/-! A property of the text ahead that the reader cannot lose. -/

/-- The property `Ahead` outlasts each thing that the reader takes: a character outside strings,
and a string, which is then a `Name`. -/
structure Guarded (Ahead : Text → Prop) (Name : String → Prop) : Prop where
  char : ∀ {c : Char} {text : Text}, Ahead (c :: text) → c ≠ '"' → c ≠ '\\' → Ahead text
  string : ∀ {body cs rest : Text}, Ahead ('"' :: body) →
    stringBody (body.length + 1) body = some (cs, rest) → Ahead rest ∧ Name (String.ofList cs)

/-- The fields of the value, if it is an object, are such names. -/
def NamedBy (Name : String → Prop) (v : Json) : Prop :=
  ∀ fields, v = .obj fields → ∀ f ∈ fields, Name f.1

theorem putField_named {Name : String → Prop} {fields : List (String × Json)} {name : String}
    (hfields : ∀ f ∈ fields, Name f.1) (hname : Name name) (v : Json) :
    ∀ f ∈ putField fields name v, Name f.1 := by
  unfold putField
  intro f hf
  split at hf
  · obtain ⟨g, hg, rfl⟩ := List.mem_map.mp hf
    split
    · exact hname
    · exact hfields g hg
  · rcases List.mem_append.mp hf with hf | hf
    · exact hfields f hf
    · obtain rfl : f = (name, v) := by simpa using hf
      exact hname

namespace Guarded

variable {Ahead : Text → Prop} {Name : String → Prop} (guarded : Guarded Ahead Name)

include guarded

theorem leaves {text rest : Text} (h : Leaves text rest) (hahead : Ahead text) : Ahead rest := by
  obtain ⟨taken, rfl, htaken⟩ := h
  induction taken with
  | nil => exact hahead
  | cons c taken ih =>
    obtain ⟨hc, htaken⟩ := List.forall_mem_cons.mp htaken
    exact ih htaken (guarded.char hahead hc.1 hc.2)

theorem skipGaps {text : Text} (hahead : Ahead text) : Ahead (skipGaps text) :=
  guarded.leaves (leaves_skipGaps text) hahead

/-- A mark that stands behind blanks is taken with them. -/
theorem mark {c : Char} {text rest : Text} (hahead : Ahead text)
    (heq : Json.skipGaps text = c :: rest) (hc : c ≠ '"' ∧ c ≠ '\\') : Ahead rest := by
  have hgaps := guarded.skipGaps hahead
  rw [heq] at hgaps
  exact guarded.char hgaps hc.1 hc.2

/-- What reading with a bound keeps: of a value, of elements and of members. -/
structure Kept (Ahead : Text → Prop) (Name : String → Prop) (fuel : Nat) : Prop where
  value : ∀ {text v rest}, Ahead text → value fuel text = some (v, rest) →
    Ahead rest ∧ NamedBy Name v
  elements : ∀ {text vs rest}, Ahead text → elements fuel text = some (vs, rest) → Ahead rest
  members : ∀ {fields text v rest}, Ahead text → (∀ f ∈ fields, Name f.1) →
    members fuel fields text = some (v, rest) → Ahead rest ∧ NamedBy Name v

theorem value_succ {fuel : Nat} (kept : Kept Ahead Name fuel) {text rest : Text} {v : Json}
    (hahead : Ahead text) (h : Json.value (fuel + 1) text = some (v, rest)) :
    Ahead rest ∧ NamedBy Name v := by
  unfold Json.value at h
  split at h
  · rename_i body
    obtain ⟨⟨cs, after⟩, hbody, heq⟩ := Option.bind_eq_some_iff.mp h
    obtain ⟨rfl, rfl⟩ : _ = v ∧ _ = rest := by simpa using heq
    exact ⟨(guarded.string hahead hbody).1, by simp [NamedBy]⟩
  · rename_i inner
    have hinner := guarded.char hahead (by decide) (by decide)
    split at h
    · rename_i after hclose
      obtain ⟨rfl, rfl⟩ : _ = v ∧ _ = rest := by simpa using h
      exact ⟨guarded.mark hinner hclose (by decide), by simp [NamedBy]⟩
    · obtain ⟨⟨vs, after⟩, hitems, heq⟩ := Option.bind_eq_some_iff.mp h
      obtain ⟨rfl, rfl⟩ : _ = v ∧ _ = rest := by simpa using heq
      exact ⟨kept.elements (guarded.skipGaps hinner) hitems, by simp [NamedBy]⟩
  · rename_i inner
    have hinner := guarded.char hahead (by decide) (by decide)
    split at h
    · rename_i after hclose
      obtain ⟨rfl, rfl⟩ : _ = v ∧ _ = rest := by simpa using h
      exact ⟨guarded.mark hinner hclose (by decide), by simp [NamedBy]⟩
    · exact kept.members (guarded.skipGaps hinner) (by simp) h
  · obtain ⟨hleaves, hscalar⟩ := scalar_leaves h
    exact ⟨guarded.leaves hleaves hahead, fun fields heq => absurd heq (hscalar fields)⟩

theorem elements_succ {fuel : Nat} (kept : Kept Ahead Name fuel) {text rest : Text}
    {vs : List Json} (hahead : Ahead text)
    (h : Json.elements (fuel + 1) text = some (vs, rest)) : Ahead rest := by
  rw [Json.elements] at h
  obtain ⟨⟨v, after⟩, hvalue, h⟩ := Option.bind_eq_some_iff.mp h
  obtain ⟨hafter, -⟩ := kept.value hahead hvalue
  simp only at h
  split at h
  · rename_i more hclose
    obtain ⟨-, rfl⟩ : _ = vs ∧ _ = rest := by simpa using h
    exact guarded.mark hafter hclose (by decide)
  · rename_i more hcomma
    obtain ⟨⟨ws, last⟩, hitems, heq⟩ := Option.bind_eq_some_iff.mp h
    obtain ⟨-, rfl⟩ : _ = vs ∧ _ = rest := by simpa using heq
    have hmore := guarded.mark hafter hcomma (by decide)
    exact kept.elements (guarded.skipGaps hmore) hitems
  · simp at h

theorem members_succ {fuel : Nat} (kept : Kept Ahead Name fuel) {text rest : Text} {v : Json}
    {fields : List (String × Json)} (hahead : Ahead text) (hfields : ∀ f ∈ fields, Name f.1)
    (h : Json.members (fuel + 1) fields text = some (v, rest)) :
    Ahead rest ∧ NamedBy Name v := by
  unfold Json.members at h
  split at h
  · rename_i body
    obtain ⟨⟨cs, behind⟩, hbody, h⟩ := Option.bind_eq_some_iff.mp h
    obtain ⟨hbehind, hname⟩ := guarded.string hahead hbody
    simp only at h
    split at h
    · rename_i inner hcolon
      have hinner := guarded.mark hbehind hcolon (by decide)
      obtain ⟨⟨w, after⟩, hvalue, h⟩ := Option.bind_eq_some_iff.mp h
      obtain ⟨hafter, -⟩ := kept.value (guarded.skipGaps hinner) hvalue
      have hput := putField_named hfields hname w
      simp only at h
      split at h
      · rename_i more hclose
        obtain ⟨rfl, rfl⟩ : _ = v ∧ _ = rest := by simpa using h
        refine ⟨guarded.mark hafter hclose (by decide), ?_⟩
        intro given heq
        obtain rfl : _ = given := by simpa using heq
        exact hput
      · rename_i more hcomma
        have hmore := guarded.mark hafter hcomma (by decide)
        exact kept.members (guarded.skipGaps hmore) hput h
      · simp at h
    · simp at h
  · simp at h

theorem kept (fuel : Nat) : Kept Ahead Name fuel := by
  induction fuel with
  | zero => exact ⟨by simp [Json.value], by simp [Json.elements], by simp [Json.members]⟩
  | succ fuel ih =>
    exact ⟨guarded.value_succ ih, guarded.elements_succ ih, guarded.members_succ ih⟩

/-- A text that is read whole keeps the property to its end. -/
theorem read? {text : Text} {v : Json} (hahead : Ahead text) (h : Json.read? text = some v) :
    Ahead [] ∧ NamedBy Name v := by
  unfold Json.read? at h
  split at h
  · rename_i w rest hvalue
    split_ifs at h with hempty
    obtain rfl : w = v := by simpa using h
    obtain ⟨hrest, hnamed⟩ := (guarded.kept _).value (guarded.skipGaps hahead) hvalue
    have hend := guarded.skipGaps hrest
    rw [List.isEmpty_iff.mp hempty] at hend
    exact ⟨hend, hnamed⟩
  · simp at h

end Guarded

/-! Pieces of a written value. -/

/-- The characters of a written value outside its strings, apart from quotes. -/
def isMark (c : Char) : Bool := c.isDigit || (Text.of "[]{},:-nulltrefas").contains c

/-- A piece of a written text: whether it starts inside a string, its characters, and whether it
stops inside one. -/
inductive Piece : Bool → Text → Bool → Prop
  | nil (inside : Bool) : Piece inside [] inside
  | mark {c : Char} {text : Text} {stop : Bool} (hc : isMark c = true)
      (h : Piece false text stop) : Piece false (c :: text) stop
  | opens {text : Text} {stop : Bool} (h : Piece true text stop) : Piece false ('"' :: text) stop
  | char (c : Char) {text : Text} {stop : Bool} (h : Piece true text stop) :
      Piece true (compactChar c ++ text) stop
  | closes {text : Text} {stop : Bool} (h : Piece false text stop) : Piece true ('"' :: text) stop

theorem Piece.append {start middle stop : Bool} {s t : Text} (hs : Piece start s middle)
    (ht : Piece middle t stop) : Piece start (s ++ t) stop := by
  induction hs with
  | nil => exact ht
  | mark hc _ ih => exact .mark hc (ih ht)
  | opens _ ih => exact .opens (ih ht)
  | char c _ ih =>
    rw [List.append_assoc]
    exact .char c (ih ht)
  | closes _ ih => exact .closes (ih ht)

theorem piece_marks {text : Text} (h : text.all isMark = true) : Piece false text false := by
  induction text with
  | nil => exact .nil false
  | cons c text ih =>
    rw [List.all_cons, Bool.and_eq_true] at h
    exact .mark h.1 (ih h.2)

theorem piece_string (s : String) : Piece false (compactString s) false := by
  have hbody : ∀ cs : Text, Piece true (cs.flatMap compactChar) true := by
    intro cs
    induction cs with
    | nil => exact .nil true
    | cons c cs ih => exact .char c ih
  exact .opens ((hbody s.toList).append (.closes (.nil false)))

theorem piece_int (n : Int) : Piece false (toString n).toList false := by
  have hdigits : ∀ m : Nat, (Nat.toDigits 10 m).all isMark = true := by
    intro m
    rw [List.all_eq_true]
    intro c hc
    have hdigit := Nat.isDigit_of_mem_toDigits (by omega) (by omega) hc
    simp [isMark, hdigit]
  cases n with
  | ofNat m =>
    apply piece_marks
    rw [toList_ofNat]
    exact hdigits m
  | negSucc m =>
    rw [toList_negSucc]
    exact .mark (by decide) (piece_marks (hdigits (m + 1)))

theorem piece_items {items : List Json} (h : ∀ v ∈ items, Piece false (compact v) false) :
    Piece false (compactItems items) false := by
  induction items with
  | nil => exact .nil false
  | cons v items ih =>
    obtain ⟨hv, hitems⟩ := List.forall_mem_cons.mp h
    cases items with
    | nil => exact hv
    | cons w items =>
      rw [compactItems_cons]
      exact hv.append (.mark (by decide) (ih hitems))

theorem piece_fields {fields : List (String × Json)}
    (h : ∀ f ∈ fields, Piece false (compact f.2) false) :
    Piece false (compactFields fields) false := by
  induction fields with
  | nil => exact .nil false
  | cons f fields ih =>
    obtain ⟨hf, hfields⟩ := List.forall_mem_cons.mp h
    have hfirst := (piece_string f.1).append (.mark (c := ':') (by decide) hf)
    cases fields with
    | nil => exact hfirst
    | cons g fields =>
      rw [compactFields_cons]
      exact hfirst.append (.mark (by decide) (ih hfields))

/-- A whole value starts and stops outside its strings. -/
theorem piece_compact {v : Json} (h : Plain v) : Piece false (compact v) false := by
  induction h with
  | null => exact piece_marks (by decide)
  | bool b => cases b <;> exact piece_marks (by decide)
  | @int n _ =>
    unfold compact
    exact piece_int n
  | str s =>
    unfold compact
    exact piece_string s
  | arr _ ih =>
    unfold compact
    exact .mark (by decide) ((piece_items ih).append (.mark (by decide) (.nil false)))
  | obj _ _ ih =>
    unfold compact
    exact .mark (by decide) ((piece_fields ih).append (.mark (by decide) (.nil false)))

/-! Cutting at line ends. -/

theorem endsRecord_mark {c : Char} (h : isMark c = true) : Text.endsRecord c = false := by
  rw [Bool.eq_false_iff]
  intro hend
  simp only [Text.endsRecord, Bool.or_eq_true, beq_iff_eq] at hend
  rcases hend with (((((((((rfl | rfl) | rfl) | rfl) | rfl) | rfl) | rfl) | rfl) | rfl) | rfl) <;>
    exact absurd h (by decide)

/-- A character that neither ends a line nor is a control character. -/
def staysInLine (c : Char) : Bool := !Text.endsRecord c && decide (32 ≤ c.toNat)

/-- A character is written as itself, or else as an escape. -/
theorem compactChar_self_or_escape (c : Char) :
    (compactChar c = [c] ∧ c ≠ '"' ∧ 32 ≤ c.toNat) ∨
      ∃ more, compactChar c = '\\' :: more ∧ ('\\' :: more).all staysInLine = true := by
  have hshort : (shortLetters.all fun e => ['\\', e].all staysInLine) = true := by decide
  have hnumbered : ∀ n < 32, ('\\' :: 'u' :: Text.hexDigits 4 n).all staysInLine = true := by decide
  rcases compactChar_cases c with ⟨hself, hquote, -, hspace⟩ | ⟨e, he, -, htext⟩ |
    ⟨hcontrol, htext⟩
  · exact .inl ⟨hself, hquote, hspace⟩
  · exact .inr ⟨[e], htext, List.all_eq_true.mp hshort e he⟩
  · exact .inr ⟨_, htext, hnumbered _ hcontrol⟩

theorem compactChar_of_endsRecord {c x : Char} (hx : x ∈ compactChar c)
    (hend : Text.endsRecord x = true) : compactChar c = [x] := by
  rcases compactChar_self_or_escape c with ⟨hself, -⟩ | ⟨more, hescape, hall⟩
  · rw [hself] at hx ⊢
    rw [List.mem_singleton.mp hx]
  · rw [hescape] at hx
    have hstays := List.all_eq_true.mp hall x hx
    simp [staysInLine, hend] at hstays

/-- A line that does not stop at the first character goes on behind it. -/
theorem exists_of_line_eq {c x : Char} {line rest text : Text} (hc : Text.endsRecord c = false)
    (hx : Text.endsRecord x = true) (h : line ++ x :: rest = c :: text) :
    ∃ more, line = c :: more ∧ more ++ x :: rest = text := by
  cases line with
  | nil =>
    obtain ⟨rfl, -⟩ := List.cons_eq_cons.mp h
    simp [hc] at hx
  | cons d line =>
    obtain ⟨rfl, hmore⟩ := List.cons_eq_cons.mp h
    exact ⟨line, rfl, hmore⟩

/-- A line end stands inside a string, so it cuts a piece there. -/
theorem Piece.cut {start stop : Bool} {line rest : Text} {x : Char}
    (h : Piece start (line ++ x :: rest) stop) (hx : Text.endsRecord x = true) :
    Piece start line true ∧ Piece true rest stop := by
  generalize htext : line ++ x :: rest = text at h
  induction h generalizing line with
  | nil => simp at htext
  | mark hc h ih =>
    obtain ⟨more, rfl, hmore⟩ := exists_of_line_eq (endsRecord_mark hc) hx htext
    obtain ⟨hline, hrest⟩ := ih hmore
    exact ⟨.mark hc hline, hrest⟩
  | opens h ih =>
    obtain ⟨more, rfl, hmore⟩ := exists_of_line_eq (by decide) hx htext
    obtain ⟨hline, hrest⟩ := ih hmore
    exact ⟨.opens hline, hrest⟩
  | closes h ih =>
    obtain ⟨more, rfl, hmore⟩ := exists_of_line_eq (by decide) hx htext
    obtain ⟨hline, hrest⟩ := ih hmore
    exact ⟨.closes hline, hrest⟩
  | @char c behind stop h ih =>
    rcases List.append_eq_append_iff.mp htext with ⟨more, hchar, hrest⟩ | ⟨more, rfl, hmore⟩
    · cases more with
      | nil =>
        obtain rfl : line = compactChar c := by simpa using hchar.symm
        obtain ⟨hline, hrest⟩ := @ih [] hrest
        have hwhole := Piece.char c hline
        rw [List.append_nil] at hwhole
        exact ⟨hwhole, hrest⟩
      | cons y more =>
        obtain ⟨rfl, hbehind⟩ := List.cons_eq_cons.mp hrest
        -- The line end is the character itself, so nothing stands on either side of it.
        have hone := compactChar_of_endsRecord (by rw [hchar]; simp) hx
        rw [hchar] at hone
        obtain ⟨rfl, rfl⟩ : line = [] ∧ more = [] := by
          cases line <;> simp_all
        obtain rfl : rest = behind := hbehind
        exact ⟨.nil true, h⟩
    · obtain ⟨hline, hrest⟩ := ih hmore.symm
      exact ⟨.char c hline, hrest⟩

theorem compactChar_printable (c : Char) : ∀ x ∈ compactChar c, 32 ≤ x.toNat := by
  intro x hx
  rcases compactChar_self_or_escape c with ⟨hself, -, hspace⟩ | ⟨more, hescape, hall⟩
  · rw [hself] at hx
    rw [List.mem_singleton.mp hx]
    exact hspace
  · rw [hescape] at hx
    have hstays := List.all_eq_true.mp hall x hx
    exact of_decide_eq_true (Bool.and_eq_true_iff.mp hstays).2

theorem isMark_printable {c : Char} (h : isMark c = true) : 32 ≤ c.toNat := by
  unfold isMark at h
  rcases Bool.or_eq_true_iff.mp h with hdigit | hother
  · simp only [Char.isDigit, Bool.and_eq_true, decide_eq_true_eq] at hdigit
    have hlow : 48 ≤ c.toNat := hdigit.1
    omega
  · have hall : ((Text.of "[]{},:-nulltrefas").all fun d => decide (32 ≤ d.toNat)) = true := by
      decide
    exact of_decide_eq_true (List.all_eq_true.mp hall c (List.contains_iff_mem.mp hother))

/-- A piece holds no control character. -/
theorem Piece.printable {start stop : Bool} {text : Text} (h : Piece start text stop) :
    ∀ c ∈ text, 32 ≤ c.toNat := by
  induction h with
  | nil => simp
  | mark hc _ ih => exact List.forall_mem_cons.mpr ⟨isMark_printable hc, ih⟩
  | opens _ ih => exact List.forall_mem_cons.mpr ⟨by decide, ih⟩
  | char c _ ih => exact List.forall_mem_append.mpr ⟨compactChar_printable c, ih⟩
  | closes _ ih => exact List.forall_mem_cons.mpr ⟨by decide, ih⟩

/-! Reading pieces. -/

theorem compactChar_mark {c : Char} (h : isMark c = true) : compactChar c = [c] := by
  have hno : (shortLetters.all fun e => (shortEscape? e).all fun d => !isMark d) = true := by
    decide
  rcases compactChar_cases c with ⟨hself, -⟩ | ⟨e, he, hescape, -⟩ | ⟨hcontrol, -⟩
  · exact hself
  · have hmark := List.all_eq_true.mp hno e he
    simp [hescape, h] at hmark
  · exact absurd (isMark_printable h) (Nat.not_le.mpr hcontrol)

/-- A string that a piece starts in is over at its quote. -/
theorem piece_of_stringBody {fuel : Nat} {body cs rest : Text} {stop : Bool}
    (h : Piece true body stop) (hread : stringBody fuel body = some (cs, rest)) :
    Piece false rest stop := by
  generalize hinside : true = inside at h
  induction h generalizing fuel cs with
  | nil => cases fuel <;> simp [stringBody] at hread
  | mark => simp at hinside
  | opens => simp at hinside
  | char c h ih =>
    cases fuel with
    | zero => simp [stringBody] at hread
    | succ fuel =>
      rw [stringBody_compactChar] at hread
      obtain ⟨⟨more, after⟩, hmore, heq⟩ := Option.map_eq_some_iff.mp hread
      obtain ⟨-, rfl⟩ : _ = cs ∧ after = rest := by simpa using heq
      exact ih hmore hinside
  | closes h =>
    cases fuel with
    | zero => simp [stringBody] at hread
    | succ fuel =>
      obtain ⟨-, rfl⟩ : cs = [] ∧ _ = rest := by simpa [stringBody] using hread
      exact h

/-- Read from a string's end, what stands before the next string is itself a string of marks. -/
theorem marks_of_stringBody {fuel : Nat} {body cs rest : Text} {stop : Bool}
    (h : Piece false body stop) (hread : stringBody fuel body = some (cs, rest)) :
    (∀ c ∈ cs, isMark c = true) ∧ Piece true rest stop := by
  generalize hinside : false = inside at h
  induction h generalizing fuel cs with
  | nil => cases fuel <;> simp [stringBody] at hread
  | @mark c text stop hc h ih =>
    cases fuel with
    | zero => simp [stringBody] at hread
    | succ fuel =>
      have hstep := stringBody_compactChar fuel c text
      rw [compactChar_mark hc, List.singleton_append, hread] at hstep
      obtain ⟨⟨more, after⟩, hmore, heq⟩ := Option.map_eq_some_iff.mp hstep.symm
      obtain ⟨rfl, rfl⟩ : c :: more = cs ∧ after = rest := by simpa using heq
      obtain ⟨hmarks, hrest⟩ := ih hmore hinside
      exact ⟨List.forall_mem_cons.mpr ⟨hc, hmarks⟩, hrest⟩
  | opens h =>
    cases fuel with
    | zero => simp [stringBody] at hread
    | succ fuel =>
      obtain ⟨rfl, rfl⟩ : cs = [] ∧ _ = rest := by simpa [stringBody] using hread
      exact ⟨by simp, h⟩
  | char => simp at hinside
  | closes => simp at hinside

theorem guarded_cutOff : Guarded (fun text => Piece false text true) (fun _ => True) where
  char := by
    intro c text h hquote _
    cases h with
    | mark _ h => exact h
    | opens => exact absurd rfl hquote
  string := by
    intro body cs rest h hread
    cases h with
    | mark hc _ => exact absurd hc (by decide)
    | opens h => exact ⟨piece_of_stringBody h hread, trivial⟩

/-- The reader makes nothing of a value that is cut off inside a string. -/
theorem read?_cutOff {text : Text} (h : Piece false text true) : read? text = none := by
  cases hread : read? text with
  | none => rfl
  | some v =>
    obtain ⟨hend, -⟩ := guarded_cutOff.read? h hread
    cases hend

theorem guarded_inside :
    Guarded (fun text => ∃ stop, Piece true text stop)
      (fun name => ∀ c ∈ name.toList, isMark c) where
  char := by
    rintro c text ⟨stop, h⟩ hquote hslash
    generalize hwhole : c :: text = whole at h
    cases h with
    | nil => simp at hwhole
    | char d h =>
      rcases compactChar_self_or_escape d with ⟨hself, -⟩ | ⟨more, hescape, -⟩
      · rw [hself] at hwhole
        obtain rfl := (List.cons_eq_cons.mp hwhole).2
        exact ⟨stop, h⟩
      · rw [hescape] at hwhole
        exact absurd (List.cons_eq_cons.mp hwhole).1 hslash
    | closes => exact absurd (List.cons_eq_cons.mp hwhole).1 hquote
  string := by
    rintro body cs rest ⟨stop, h⟩ hread
    generalize hwhole : '"' :: body = whole at h
    cases h with
    | nil => simp at hwhole
    | char d h =>
      rcases compactChar_self_or_escape d with ⟨hself, hquote, -⟩ | ⟨more, hescape, -⟩
      · rw [hself] at hwhole
        exact absurd (List.cons_eq_cons.mp hwhole).1.symm hquote
      · rw [hescape] at hwhole
        simp at hwhole
    | closes h =>
      obtain rfl : body = _ := (List.cons_eq_cons.mp hwhole).2
      obtain ⟨hmarks, hrest⟩ := marks_of_stringBody h hread
      exact ⟨⟨stop, hrest⟩, by simpa using hmarks⟩

/-- The fields of a value that a piece from inside a string happens to hold are named by marks. -/
theorem named_of_inside {text : Text} {stop : Bool} {v : Json} (h : Piece true text stop)
    (hread : read? text = some v) : NamedBy (fun name => ∀ c ∈ name.toList, isMark c) v :=
  (guarded_inside.read? ⟨stop, h⟩ hread).2

end DefinitionSite.Json
