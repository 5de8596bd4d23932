import DefinitionSite.Proofs.Catalog.WholeNames
import DefinitionSite.Proofs.Locator.Searches

/-! The exact meaning of a look-up in a text: the answer is the first line that defines the
identifier in the most authoritative way that occurs, and there is none just if no line does. -/
namespace DefinitionSite.Locator
open Declared

/-- What the answer of a look-up in a text has to be. -/
def IsAnswer (identifier text : Text) : Option Match → Prop
  | none => ∀ kind i, ¬ Defines identifier (Text.physicalLines text) i kind
  | some m => ∃ i : Nat, m.file = .buffer ∧ m.lineIndex = i ∧
      (Text.physicalLines text)[i]? = some m.text ∧
      Defines identifier (Text.physicalLines text) i m.kind ∧
      ∀ kind j, Defines identifier (Text.physicalLines text) j kind →
        m.kind.priority < kind.priority ∨ kind = m.kind ∧ i ≤ j

variable {identifier text : Text}

theorem isAnswer_unique {found other : Option Match} (hfound : IsAnswer identifier text found)
    (hother : IsAnswer identifier text other) : other = found := by
  cases found with
  | none =>
    cases other with
    | none => rfl
    | some m =>
      obtain ⟨i, -, -, -, hm, -⟩ := hother
      exact absurd hm (hfound m.kind i)
  | some m =>
    obtain ⟨i, hfile, hindex, htext, hm, hbest⟩ := hfound
    cases other with
    | none => exact absurd hm (hother m.kind i)
    | some n =>
      obtain ⟨j, hfile', hindex', htext', hn, hbest'⟩ := hother
      have hle := hbest n.kind j hn
      have hge := hbest' m.kind i hm
      have hkind : n.kind = m.kind := by
        rcases hle with hlt | ⟨heq, -⟩
        · rcases hge with hlt' | ⟨heq, -⟩
          · omega
          · exact heq.symm
        · exact heq
      obtain rfl : i = j := by
        rw [hkind] at hle hge
        omega
      have htexts : n.text = m.text := by
        rw [htext] at htext'
        exact (Option.some.inj htext').symm
      obtain ⟨kind, file, index, line⟩ := m
      obtain ⟨kind', file', index', line'⟩ := n
      simp_all

/-- The first match of the most authoritative kind is the answer. -/
theorem isAnswer_head? (hid : Proper identifier) (text : Text) :
    IsAnswer identifier text (Catalog.foundAll identifier text none).head? := by
  have hfirst := fun kind => Catalog.firstFound_head? hid kind text none
  rw [Catalog.foundAll, List.head?_flatMap]
  cases hsome : Kind.all.findSome? fun kind => (Catalog.found identifier kind text none).head? with
  | none =>
    intro kind i
    have hnone := List.findSome?_eq_none_iff.mp hsome kind (mem_all kind)
    have := hfirst kind
    rw [hnone] at this
    exact this i
  | some m =>
    obtain ⟨better, kind, worse, hall, hhead, hnone⟩ := List.findSome?_eq_some_iff.mp hsome
    have hm := hfirst kind
    rw [hhead] at hm
    obtain ⟨i, line, rfl, hget, hdefines, hleast⟩ := hm
    refine ⟨i, rfl, rfl, hget, hdefines, ?_⟩
    intro other j hother
    -- A better kind has no match, the same kind none before this line, and a worse one is worse.
    have hmem : other ∈ better ++ kind :: worse := hall ▸ mem_all other
    simp only [List.mem_append, List.mem_cons] at hmem
    rcases hmem with hmem | rfl | hmem
    · have hno := hfirst other
      rw [hnone other hmem] at hno
      exact absurd hother (hno j)
    · refine Or.inr ⟨rfl, ?_⟩
      by_contra hlt
      exact hleast j (by omega) hother
    · have hsorted := strict_priority
      rw [hall] at hsorted
      have htail := (List.pairwise_append.mp hsorted).2.1
      exact Or.inl (List.rel_of_pairwise_cons htail hmem)

/-- A definition that stands on one line is not indented. -/
theorem not_indented_of_onLine (hid : Proper identifier) {line : Text} {kind : Kind}
    (h : OnLine identifier line kind) : ¬ Indented line := by
  obtain ⟨front, rest, rfl, hfront, -⟩ := h
  rintro ⟨c, after, hgap, hline⟩
  have hname : ∀ more, identifier ++ more ≠ c :: after := by
    intro more heq
    have hhead : identifier.head? = some c := by
      rw [← List.head?_append_of_ne_nil _ hid.ne_nil, heq, List.head?_cons]
    have hblank := (Text.not_blank_of_trim_eq hid.trimmed).1 c hhead
    simp [Catalog.isBlank_of_isGap hgap] at hblank
  cases kind with
  | signatureSameLine | assignment =>
    obtain ⟨gap, -, rfl⟩ := hfront
    exact hname _ (by simpa using hline)
  | signatureNextLine | constructor => exact hfront
  | dataDecl | typeDecl | newtypeDecl =>
    obtain ⟨gap, -, -, rfl⟩ := hfront
    obtain rfl := (List.cons.inj hline).1
    revert hgap
    decide
  | classDecl =>
    obtain ⟨gap, context, -, -, -, rfl⟩ := hfront
    obtain rfl := (List.cons.inj hline).1
    revert hgap
    decide
  | typeFamily | dataFamily =>
    obtain ⟨gap, name, -, -, -, rfl⟩ := hfront
    obtain rfl := (List.cons.inj hline).1
    revert hgap
    decide
  | patternSynonym =>
    obtain ⟨gap, name, ⟨inner, -, -, rfl⟩, -, rfl⟩ := hfront
    obtain rfl := (List.cons.inj hline).1
    revert hgap
    decide

/-- A look-up in a text returns the one right answer. -/
theorem findInText_isAnswer (tree : FileTree) (timeout : Float) (hid : Proper identifier)
    (text : Text) (run : Run) :
    ∃ found, (findInText (InProcess.engine tree timeout) (some identifier) (some text) run).1 =
      .ok found ∧ ∀ other, IsAnswer identifier text other ↔ other = found := by
  have hwanted : wanted (some identifier) = identifier := hid.trimmed
  have hne : wanted (some identifier) ≠ [] := by
    rw [hwanted]
    exact hid.ne_nil
  refine ⟨_, findInText_inProcess tree timeout hne text run, ?_⟩
  rw [hwanted]
  intro other
  constructor
  · exact isAnswer_unique (isAnswer_head? hid text)
  · rintro rfl
    exact isAnswer_head? hid text

/-- A data declaration whose last line goes on from a sign. -/
def leafText : Text := Text.of "data Tree = Node\r\n  |\r\n  Leaf"

theorem physicalLines_leafText : Text.physicalLines leafText =
    [Text.of "data Tree = Node", Text.of "  |", Text.of "  Leaf"] := by decide +kernel

/-- Only the last line holds the name. -/
theorem line_of_holdsName {j : Nat} {line : Text}
    (hget : (Text.physicalLines leafText)[j]? = some line)
    (hholds : HoldsName (Text.of "Leaf") line) : j = 2 ∧ line = Text.of "  Leaf" := by
  have hinfix : Text.of "Leaf" <:+: line := by
    obtain ⟨front, rest, -, -, rfl⟩ := hholds
    exact ⟨front, rest, by simp⟩
  rw [physicalLines_leafText] at hget
  match j with
  | 0 =>
    obtain rfl := Option.some.inj hget
    revert hinfix
    decide +kernel
  | 1 =>
    obtain rfl := Option.some.inj hget
    revert hinfix
    decide +kernel
  | 2 => exact ⟨rfl, (Option.some.inj hget).symm⟩
  | j + 3 => simp at hget

theorem isAnswer_leaf : IsAnswer (Text.of "Leaf") leafText
    (some ⟨.constructor, .buffer, 2, Text.of "  Leaf"⟩) := by
  have hid : Proper (Text.of "Leaf") := ⟨by decide, by decide, by decide⟩
  refine ⟨2, rfl, rfl, by rw [physicalLines_leafText]; rfl, ?_, ?_⟩
  · rw [physicalLines_leafText]
    have hopens : OpensData (Text.of "data Tree = Node") :=
      ⟨' ', Text.of "Tree = Node", by decide, rfl⟩
    refine ⟨0, Text.of "  Leaf", ⟨by omega, ⟨_, rfl, hopens⟩, ?_⟩, rfl,
      .inr ⟨by omega, Text.of "  |", rfl, ?_, ?_⟩⟩
    · intro j hj hj'
      match j with
      | 1 => exact ⟨_, rfl, ' ', Text.of " |", by decide, rfl⟩
      | 2 => exact ⟨_, rfl, ' ', Text.of " Leaf", by decide, rfl⟩
    · exact ⟨Text.of "  ", '|', [], .inr rfl, by simp [Gaps, Text.isGap], rfl⟩
    · exact ⟨Text.of "  ", [], by decide, by simp [Gaps, Text.of, Text.isGap], by simp [Boundary], rfl⟩
  · intro kind j hdefines
    have hline : ∀ line, (Text.physicalLines leafText)[j]? = some line →
        j = 2 ∧ line = Text.of "  Leaf" :=
      fun line hget => line_of_holdsName hget (holdsName_of_defines hget hdefines)
    have hsingle : ¬ ∃ line, (Text.physicalLines leafText)[j]? = some line ∧
        OnLine (Text.of "Leaf") line kind := by
      rintro ⟨line, hget, hon⟩
      obtain ⟨-, rfl⟩ := hline line hget
      exact not_indented_of_onLine hid hon ⟨' ', Text.of " Leaf", by decide, rfl⟩
    cases kind with
    | constructor =>
      obtain ⟨first, line, -, hget, -⟩ := hdefines
      exact .inr ⟨rfl, (hline line hget).1.ge⟩
    | signatureNextLine =>
      obtain ⟨line, next, hget, hnext, -⟩ := hdefines
      obtain ⟨rfl, -⟩ := hline line hget
      rw [physicalLines_leafText] at hnext
      simp at hnext
    | _ => exact absurd hdefines hsingle

/-- The constructor on the last line is found. -/
theorem findInText_isAnswer_leaf :
    Proper (Text.of "Leaf") ∧
      (findInText (InProcess.engine ⟨.dir [], []⟩ 10.0) (some (Text.of "Leaf")) (some leafText)
        .fresh).1 = .ok (some ⟨.constructor, .buffer, 2, Text.of "  Leaf"⟩) ∧
      ∀ other, IsAnswer (Text.of "Leaf") leafText other ↔
        other = some ⟨.constructor, .buffer, 2, Text.of "  Leaf"⟩ := by
  have hid : Proper (Text.of "Leaf") := ⟨by decide, by decide, by decide⟩
  obtain ⟨found, hfound, hanswer⟩ := findInText_isAnswer ⟨.dir [], []⟩ 10.0 hid leafText .fresh
  obtain rfl := (hanswer _).mp isAnswer_leaf
  exact ⟨hid, hfound, hanswer⟩

end DefinitionSite.Locator
