import DefinitionSite.Catalog
import DefinitionSite.Proofs.Regex.Reading

/-! The texts of the catalog are the texts of its expressions: reading one gives the expression,
for every identifier. -/
namespace DefinitionSite.Catalog
open Regex

/-- The sets that occur in the catalog, each with its text behind the opening bracket. -/
def sets : List (String × CharSet) :=
  [(" \\t]", ⟨false, [.char ' ', .char '\t']⟩), ("^\\n]", ⟨true, [.char '\n']⟩),
    ("=|]", ⟨false, [.char '=', .char '|']⟩),
    ("^\\w'\\n]", ⟨true, [.word, .char '\'', .char '\n']⟩),
    ("^=\\n]", ⟨true, [.char '=', .char '\n']⟩), ("^\\n=]", ⟨true, [.char '\n', .char '=']⟩)]

theorem readSet_sets (offset : Nat) (rest : Text) :
    ∀ s ∈ sets, readSet offset (Text.of s.1 ++ rest) = .ok (s.2, rest) := by
  simp [sets, readSet, setMembers, setMembers.member, setMember, escaped?, bind, Except.bind, pure,
    Except.pure, Text.of]

theorem atom_inSets {set : CharSet} (text : String) (h : (text, set) ∈ sets) :
    Atom ('[' :: Text.of text) (.set set) :=
  atom_set fun offset rest => readSet_sets offset rest (text, set) h

/-! The pieces that the expressions are made of. -/

theorem atom_gap : Atom (Text.of "[ \\t]") (.set ⟨false, [.char ' ', .char '\t']⟩) :=
  atom_inSets " \\t]" (by decide)

theorem adds_gaps : Adds (Text.of "[ \\t]*") [.repeated gaps] := atom_gap.star

theorem adds_someGaps : Adds (Text.of "[ \\t]+") [.repeated someGaps] := atom_gap.plus

theorem atom_boundary : Atom (Text.of boundaryText) boundary :=
  atom_either (atom_inSets "^\\w'\\n]" (by decide)).adds adds_lineEnd

theorem adds_lineBreak : Adds (Text.of "\\r?\\n")
    [.repeated (Regex.times true 0 (some 1) (.char '\r')), .plain (.char '\n')] := by
  have hreturn : Atom ['\\', 'r'] (.char '\r') := atom_escaped rfl
  have hfeed : Atom ['\\', 'n'] (.char '\n') := atom_escaped rfl
  exact hreturn.optional.append hfeed.adds (by decide)

theorem adds_typeSign : Adds (Text.of "::") [.plain (.char ':'), .plain (.char ':')] :=
  adds_literal (by decide)

/-- A word and gaps behind it. -/
theorem adds_word (word : String) (h : (Text.of word).all (!isSpecial ·) = true) :
    Adds (Text.of word ++ Text.of "[ \\t]+")
      ((Text.of word).map (fun c => .plain (.char c)) ++ [.repeated someGaps]) :=
  (adds_literal h).append adds_someGaps (by decide)

/-- A keyword at the start of a line, and gaps behind it. -/
theorem adds_keyword (keyword : String) (h : (Text.of keyword).all (!isSpecial ·) = true) :
    Adds (['^'] ++ (Text.of keyword ++ Text.of "[ \\t]+")) ([.anchor .lineStart] ++
      ((Text.of keyword).map (fun c => .plain (.char c)) ++ [.repeated someGaps])) := by
  refine adds_lineStart.append (adds_word keyword h) ?_
  cases hword : Text.of keyword with
  | nil => decide
  | cons c rest =>
    intro hhead
    obtain rfl : c = '?' := by simpa using hhead
    rw [hword] at h
    exact absurd h (by simp [show isSpecial '?' = true by decide])

theorem adds_dataBody : Adds (Text.of "^data[ \\t][^\\n]*?(?:\\r?\\n[ \\t][^\\n]*?)*?")
    ([.anchor .lineStart] ++ (Text.of "data").map (fun c => .plain (.char c)) ++
      [.plain (.set ⟨false, [.char ' ', .char '\t']⟩), .repeated (.star false inLine),
        .repeated (.star false (seqAll (lineBreak ++
          [.set ⟨false, [.char ' ', .char '\t']⟩, .star false inLine])))]) := by
  have hinLine : Atom (Text.of "[^\\n]") inLine := atom_inSets "^\\n]" (by decide)
  have hline : Adds (Text.of "[ \\t][^\\n]*?")
      ([.plain (.set ⟨false, [.char ' ', .char '\t']⟩)] ++ [.repeated (.star false inLine)]) :=
    atom_gap.adds.append hinLine.lazyStar (by decide)
  have hmore := (atom_group (adds_lineBreak.append hline (by decide))).lazyStar
  have hdata : Adds (Text.of "data") ((Text.of "data").map fun c => .plain (.char c)) :=
    adds_literal (by decide)
  have h := adds_lineStart.append (hdata.append (hline.append hmore (by decide)) (by decide))
    (by decide)
  exact h

/-- The sign before a constructor, with a line break behind it or not. -/
theorem adds_sign : Adds (Text.of "[=|][ \\t]*(?:\\r?\\n[ \\t]+)?")
    [.plain (.set ⟨false, [.char '=', .char '|']⟩), .repeated gaps,
      .repeated (Regex.times true 0 (some 1) (seqAll (lineBreak ++ [someGaps])))] := by
  have hsign : Atom (Text.of "[=|]") (.set ⟨false, [.char '=', .char '|']⟩) :=
    atom_inSets "=|]" (by decide)
  have hbelow := (atom_group (adds_lineBreak.append adds_someGaps (by decide))).optional
  exact hsign.adds.append (adds_gaps.append hbelow (by decide)) (by decide)

/-- The context of a class. -/
theorem adds_context : Adds (Text.of "(?:[^\\n=]*=>[ \\t]*)?")
    [.repeated (Regex.times true 0 (some 1) (seqAll
      [.star true (.set ⟨true, [.char '\n', .char '=']⟩), .char '=', .char '>', gaps]))] := by
  have hset : Atom (Text.of "[^\\n=]") (.set ⟨true, [.char '\n', .char '=']⟩) :=
    atom_inSets "^\\n=]" (by decide)
  have himplies : Adds (Text.of "=>") [.plain (.char '='), .plain (.char '>')] :=
    adds_literal (by decide)
  exact (atom_group (hset.star.append (himplies.append adds_gaps (by decide)) (by decide))).optional

theorem adds_binding : Adds (Text.of "[ \\t]*=(?:[^=\\n]|$)") [.repeated gaps, .plain (.char '='),
    .plain (.alt (seqAll [.set ⟨true, [.char '=', .char '\n']⟩]) (seqAll [.lineEnd]))] := by
  have hequals : Atom ['='] (.char '=') := atom_char (by decide)
  have hset : Atom (Text.of "[^=\\n]") (.set ⟨true, [.char '=', .char '\n']⟩) :=
    atom_inSets "^=\\n]" (by decide)
  have hend := atom_either hset.adds adds_lineEnd
  exact adds_gaps.append (hequals.adds.append hend.adds (by decide)) (by decide)

theorem adds_signature : Adds (Text.of "[ \\t]*::")
    [.repeated gaps, .plain (.char ':'), .plain (.char ':')] :=
  adds_gaps.append adds_typeSign (by decide)

/-- The texts around the identifier are read as the items around it. -/
structure Around (kind : Kind) (xs ys : List Item) : Prop where
  before : Adds (Text.of (around kind).1) xs
  after : Adds (Text.of (around kind).2) ys
  head : (Text.of (around kind).2).head? ≠ some '?'
  items : ∀ identifier : Text,
    xs.map Item.regex ++ identifier.map .char ++ ys.map Item.regex = items identifier kind

/-- The texts around the identifier are read as items, whatever the identifier is. -/
theorem exists_around (kind : Kind) : ∃ xs ys, Around kind xs ys := by
  cases kind with
  | signatureSameLine =>
    exact ⟨_, _, adds_lineStart, adds_signature, by decide, fun _ => rfl⟩
  | signatureNextLine =>
    have hbelow := adds_gaps.append (adds_lineBreak.append adds_signature (by decide)) (by decide)
    refine ⟨_, _, adds_lineStart, hbelow, by decide, fun _ => ?_⟩
    simp [items, lineBreak, Item.regex]
  | assignment =>
    exact ⟨_, _, adds_lineStart, adds_binding, by decide, fun _ => rfl⟩
  | dataDecl =>
    exact ⟨_, _, adds_keyword "data" (by decide), atom_boundary.adds, by decide, fun _ => rfl⟩
  | typeDecl =>
    exact ⟨_, _, adds_keyword "type" (by decide), atom_boundary.adds, by decide, fun _ => rfl⟩
  | newtypeDecl =>
    exact ⟨_, _, adds_keyword "newtype" (by decide), atom_boundary.adds, by decide, fun _ => rfl⟩
  | classDecl =>
    have hclass := (adds_keyword "class" (by decide)).append adds_context (by decide)
    exact ⟨_, _, hclass, atom_boundary.adds, by decide, fun _ => rfl⟩
  | constructor =>
    have hsigned := adds_dataBody.append adds_sign (by decide)
    exact ⟨_, _, hsigned, atom_boundary.adds, by decide, fun _ => rfl⟩
  | typeFamily =>
    have hfamily := adds_word "family" (by decide)
    have htype := (adds_keyword "type" (by decide)).append hfamily (by decide)
    exact ⟨_, _, htype, atom_boundary.adds, by decide, fun _ => rfl⟩
  | dataFamily =>
    have hfamily := adds_word "family" (by decide)
    have hdata := (adds_keyword "data" (by decide)).append hfamily (by decide)
    exact ⟨_, _, hdata, atom_boundary.adds, by decide, fun _ => rfl⟩
  | patternSynonym =>
    exact ⟨_, _, adds_keyword "pattern" (by decide), adds_signature, by decide, fun _ => rfl⟩

/-- The text of a kind is read as its items if what stands before and behind the identifier is. -/
theorem Around.read_patternText {kind : Kind} {xs ys : List Item} (h : Around kind xs ys)
    (identifier : Text) :
    Regex.read (patternText identifier kind) = .ok (regex identifier kind) := by
  have hname := (adds_escape identifier).append h.after h.head
  have hnext : (escape identifier ++ Text.of (around kind).2).head? ≠ some '?' := by
    cases hescape : escape identifier with
    | nil => exact h.head
    | cons c rest =>
      have hc := head?_escape identifier
      rw [hescape] at hc
      exact hc
  have hparts : patternText identifier kind = Text.of "(?m)" ++
      (Text.of (around kind).1 ++ (escape identifier ++ Text.of (around kind).2)) := by
    unfold patternText
    simp only [List.append_assoc]
  rw [hparts, read_of_adds (h.before.append hname hnext), regex, ← h.items, Regex.sequence]
  simp [Function.comp_def, Item.regex]

/-- The text of every kind is read as the expression of the kind. -/
theorem read_patternText (identifier : Text) (kind : Kind) :
    Regex.read (patternText identifier kind) = .ok (regex identifier kind) := by
  obtain ⟨xs, ys, h⟩ := exists_around kind
  exact h.read_patternText identifier

theorem compile_patternText (identifier : Text) (kind : Kind) :
    Regex.compile (patternText identifier kind) = .ok (regex identifier kind).findAll := by
  simp only [Regex.compile, read_patternText]

end DefinitionSite.Catalog
