import Mathlib.Data.List.Basic
import Mathlib.Tactic.Common
import DefinitionSite.Regex.Reader

/-! Reading an expression piece by piece: each piece of its text adds items to the group that is
open, whatever stands before it and behind it. -/
namespace DefinitionSite.Regex

/-- Reads on from an offset with the groups that are open there. -/
def readFrom (offset : Nat) (gs : Groups) (text : Text) : Except ReadError Groups :=
  (tokens offset text).foldlM Groups.read gs

theorem readFrom_nil (offset : Nat) (gs : Groups) : readFrom offset gs [] = .ok gs := by
  rw [readFrom, tokens]
  rfl

/-- One token further. -/
theorem readFrom_cons {offset : Nat} {gs gs' : Groups} {c : Char} (piece : Text) {rest : Text}
    {token : Token} (htoken : firstToken offset c (piece ++ rest) = (token, rest))
    (hread : gs.read (offset, token) = .ok gs') :
    readFrom offset gs (c :: (piece ++ rest)) =
      readFrom (offset + (c :: piece).length) gs' rest := by
  have hle : rest.length ≤ (piece ++ rest).length := by simp
  have hoffset : offset + 1 + ((piece ++ rest).length - rest.length) =
      offset + (c :: piece).length := by
    simp only [List.length_append, List.length_cons]
    omega
  rw [readFrom, tokens, htoken]
  simp only [hle, ↓reduceDIte, hoffset, List.foldlM_cons, hread]
  rfl

/-- The piece is one item that can be repeated. -/
def Atom (piece : Text) (r : Regex) : Prop :=
  ∀ offset g outer rest, 0 < offset → readFrom offset (g, outer) (piece ++ rest) =
    readFrom (offset + piece.length) (g.push (.plain r), outer) rest

/-- The piece is a sequence of items, unless a question mark follows it. -/
def Adds (piece : Text) (items : List Item) : Prop :=
  ∀ offset g outer rest, 0 < offset → rest.head? ≠ some '?' →
    readFrom offset (g, outer) (piece ++ rest) =
      readFrom (offset + piece.length) ({ g with items := items.reverse ++ g.items }, outer) rest

theorem Adds.nil : Adds [] [] := by
  intro offset g outer rest _ _
  rfl

theorem Atom.adds {piece : Text} {r : Regex} (h : Atom piece r) : Adds piece [.plain r] := by
  intro offset g outer rest hpos _
  exact h offset g outer rest hpos

theorem Adds.append {p q : Text} {xs ys : List Item} (hp : Adds p xs) (hq : Adds q ys)
    (hhead : q.head? ≠ some '?') : Adds (p ++ q) (xs ++ ys) := by
  intro offset g outer rest hpos hrest
  have hnext : (q ++ rest).head? ≠ some '?' := by
    cases q with
    | nil => exact hrest
    | cons c q => exact hhead
  rw [List.append_assoc, hp offset g outer _ hpos hnext, hq _ _ outer rest (by omega) hrest]
  simp [Nat.add_assoc]

/-! Repetitions. -/

theorem lazily_of_head? (least : Nat) (most : Option Nat) {rest : Text}
    (h : rest.head? ≠ some '?') : lazily least most rest = (.times true least most, rest) := by
  unfold lazily
  split
  · simp at h
  · rfl

/-- A sign of repetition behind an atom. -/
theorem Atom.times {piece : Text} {r : Regex} (h : Atom piece r) {c : Char} {least : Nat}
    {most : Option Nat} (hc : ∀ offset rest, firstToken offset c rest = lazily least most rest) :
    Adds (piece ++ [c]) [.repeated (r.times true least most)] := by
  intro offset g outer rest hpos hrest
  rw [List.append_assoc, h offset g outer _ hpos]
  have hstep : readFrom (offset + piece.length) (g.push (.plain r), outer) (c :: ([] ++ rest)) =
      readFrom (offset + piece.length + [c].length)
        ({ g with items := .repeated (r.times true least most) :: g.items }, outer) rest :=
    readFrom_cons [] (by rw [hc]; exact lazily_of_head? least most hrest) rfl
  simpa [Nat.add_assoc] using hstep

theorem Atom.star {piece : Text} {r : Regex} (h : Atom piece r) :
    Adds (piece ++ ['*']) [.repeated (r.times true 0 none)] :=
  h.times fun _ _ => rfl

theorem Atom.plus {piece : Text} {r : Regex} (h : Atom piece r) :
    Adds (piece ++ ['+']) [.repeated (r.times true 1 none)] :=
  h.times fun _ _ => rfl

theorem Atom.optional {piece : Text} {r : Regex} (h : Atom piece r) :
    Adds (piece ++ ['?']) [.repeated (r.times true 0 (some 1))] :=
  h.times fun _ _ => rfl

theorem Atom.lazyStar {piece : Text} {r : Regex} (h : Atom piece r) :
    Adds (piece ++ ['*', '?']) [.repeated (r.times false 0 none)] := by
  intro offset g outer rest hpos _
  rw [List.append_assoc, h offset g outer _ hpos]
  have hstep : readFrom (offset + piece.length) (g.push (.plain r), outer)
      ('*' :: (['?'] ++ rest)) = readFrom (offset + piece.length + ['*', '?'].length)
        ({ g with items := .repeated (r.times false 0 none) :: g.items }, outer) rest :=
    readFrom_cons ['?'] rfl rfl
  simpa [Nat.add_assoc] using hstep

/-! Characters, anchors and sets. -/

theorem firstToken_of_not_special {c : Char} (h : isSpecial c = false) (offset : Nat)
    (rest : Text) : firstToken offset c rest = (.char c, rest) := by
  unfold firstToken
  split <;> first | rfl | exact absurd h (by decide)

theorem atom_char {c : Char} (h : isSpecial c = false) : Atom [c] (.char c) := by
  intro offset g outer rest _
  exact readFrom_cons [] (firstToken_of_not_special h offset rest) rfl

theorem atom_escaped {c d : Char} (h : escaped? c = some (.char d)) : Atom ['\\', c] (.char d) := by
  intro offset g outer rest _
  have htoken : firstToken offset '\\' ([c] ++ rest) = (.char d, rest) := by
    simp [firstToken, h]
  exact readFrom_cons [c] htoken rfl

theorem atom_set {piece : Text} {s : CharSet}
    (h : ∀ offset rest, readSet offset (piece ++ rest) = .ok (s, rest)) :
    Atom ('[' :: piece) (.set s) := by
  intro offset g outer rest _
  have htoken : firstToken offset '[' (piece ++ rest) = (.set s, rest) := by
    simp [firstToken, h]
  exact readFrom_cons piece htoken rfl

theorem adds_lineStart : Adds ['^'] [.anchor .lineStart] := by
  intro offset g outer rest _ _
  exact readFrom_cons [] rfl rfl

theorem adds_lineEnd : Adds ['$'] [.anchor .lineEnd] := by
  intro offset g outer rest _ _
  exact readFrom_cons [] rfl rfl

theorem escaped?_of_special {c : Char} (h : isSpecial c = true) : escaped? c = some (.char c) := by
  have hall : (Text.of "()[]\x7b\x7d?*+-|^$\\.&~# \t\n\r\x0b\x0c").all
      (fun d => escaped? d == some (.char d)) = true := by decide
  exact eq_of_beq (List.all_eq_true.mp hall c (by simpa [isSpecial] using h))

theorem adds_cons {piece p : Text} {r : Regex} {xs : List Item} (h : Atom piece r) (hp : Adds p xs)
    (hhead : p.head? ≠ some '?') : Adds (piece ++ p) (.plain r :: xs) :=
  h.adds.append hp hhead

theorem head?_escape (text : Text) : (escape text).head? ≠ some '?' := by
  cases text with
  | nil => simp [escape]
  | cons c text =>
    by_cases hc : isSpecial c = true
    · simp [escape, hc]
    · simp only [escape, List.flatMap_cons, hc, Bool.false_eq_true, ↓reduceIte,
        List.singleton_append, List.head?_cons, ne_eq, Option.some.injEq]
      rintro rfl
      exact hc (by decide)

/-- An escaped text is read as its characters. -/
theorem adds_escape (text : Text) : Adds (escape text) (text.map fun c => .plain (.char c)) := by
  induction text with
  | nil => exact Adds.nil
  | cons c text ih =>
    have hpiece : Atom (if isSpecial c then ['\\', c] else [c]) (.char c) := by
      by_cases hc : isSpecial c = true
      · simpa [hc] using atom_escaped (escaped?_of_special hc)
      · simpa [hc] using atom_char (by simpa using hc)
    exact adds_cons hpiece ih (head?_escape text)

/-- A text without special characters is read as its characters. -/
theorem adds_literal {text : Text} (h : text.all (!isSpecial ·) = true) :
    Adds text (text.map fun c => .plain (.char c)) := by
  have hescape : escape text = text := by
    rw [escape, List.flatMap_congr (g := fun c => [c])]
    · simp
    · intro c hc
      have := List.all_eq_true.mp h c hc
      simp_all
  simpa [hescape] using adds_escape text

/-! Groups. -/

theorem readFrom_opening {offset : Nat} (g : Group) (outer : List Group) (rest : Text) :
    readFrom offset (g, outer) (Text.of "(?:" ++ rest) =
      readFrom (offset + 3) (⟨offset, [], []⟩, g :: outer) rest :=
  readFrom_cons ['?', ':'] rfl rfl

theorem readFrom_closing {offset : Nat} (g parent : Group) (outer : List Group) (rest : Text) :
    readFrom offset (g, parent :: outer) (')' :: rest) =
      readFrom (offset + 1) (parent.push (.plain g.regex), outer) rest :=
  readFrom_cons [] rfl rfl

theorem readFrom_bar {offset : Nat} (g : Group) (outer : List Group) (rest : Text) :
    readFrom offset (g, outer) ('|' :: rest) =
      readFrom (offset + 1) ({ g with branches := g.branch :: g.branches, items := [] }, outer)
        rest :=
  readFrom_cons [] rfl rfl

/-- The expression of a list of items. -/
def sequence (xs : List Item) : Regex := seqAll (xs.map Item.regex)

/-- A group around a sequence is an atom. -/
theorem atom_group {p : Text} {xs : List Item} (hp : Adds p xs) :
    Atom (Text.of "(?:" ++ (p ++ [')'])) (sequence xs) := by
  intro offset g outer rest hpos
  rw [List.append_assoc, List.append_assoc, readFrom_opening,
    hp (offset + 3) _ _ _ (by omega) (by simp), List.singleton_append, readFrom_closing]
  have hoffset : offset + 3 + p.length + 1 =
      offset + (Text.of "(?:" ++ (p ++ [')'])).length := by
    rw [List.length_append, List.length_append, show (Text.of "(?:").length = 3 from rfl]
    simp only [List.length_singleton]
    omega
  rw [hoffset]
  simp [Group.regex, Group.branch, altAll, sequence]

/-- A group around two branches is an atom. -/
theorem atom_either {p q : Text} {xs ys : List Item} (hp : Adds p xs) (hq : Adds q ys) :
    Atom (Text.of "(?:" ++ (p ++ ('|' :: (q ++ [')'])))) (.alt (sequence xs) (sequence ys)) := by
  intro offset g outer rest hpos
  rw [List.append_assoc, List.append_assoc, readFrom_opening,
    hp (offset + 3) _ _ _ (by omega) (by simp), List.cons_append, readFrom_bar, List.append_assoc,
    hq _ _ _ _ (by omega) (by simp), List.singleton_append, readFrom_closing]
  have hoffset : offset + 3 + p.length + 1 + q.length + 1 =
      offset + (Text.of "(?:" ++ (p ++ ('|' :: (q ++ [')'])))).length := by
    rw [List.length_append, List.length_append, show (Text.of "(?:").length = 3 from rfl]
    simp only [List.length_cons, List.length_append, List.length_nil]
    omega
  rw [hoffset]
  simp [Group.regex, Group.branch, altAll, sequence]

/-- An expression in multi-line mode is the sequence of its items. -/
theorem read_of_adds {piece : Text} {xs : List Item} (h : Adds piece xs) :
    read (Text.of "(?m)" ++ piece) = .ok (sequence xs) := by
  have hflags : readFrom 0 (⟨0, [], []⟩, []) (Text.of "(?m)" ++ piece) =
      readFrom 4 (⟨0, [], []⟩, []) piece :=
    readFrom_cons ['?', 'm', ')'] rfl rfl
  have hitems := h 4 ⟨0, [], []⟩ [] [] (by omega) (by simp)
  rw [List.append_nil, readFrom_nil] at hitems
  rw [read]
  change (readFrom 0 (⟨0, [], []⟩, []) (Text.of "(?m)" ++ piece) >>= _) = _
  rw [hflags, hitems]
  simp [bind, Except.bind, Group.regex, Group.branch, altAll, sequence, pure, Except.pure]

end DefinitionSite.Regex
