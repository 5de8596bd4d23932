import Mathlib.Data.List.Nodup
import DefinitionSite.LineScan

/-! What the line scan reports, said line by line: a kind is reported for a line just if it is one
of the kinds of the line, given what the lines before have left behind; and for each kind the lines
come in order. -/
namespace DefinitionSite.LineScan

variable {identifier : Text} {file : FileLabel}

/-- Whether the scan is inside a data declaration before the line with an index. -/
def inDataAt (inData : Bool) (lines : List Text) (k : Nat) : Bool :=
  (lines.take k).foldl inDataAfter inData

/-- The line before the one with an index. -/
def previousAt (previous : Text) (lines : List Text) (k : Nat) : Text :=
  (lines.take k).getLast?.getD previous

@[simp] theorem inDataAt_zero (inData : Bool) (lines : List Text) :
    inDataAt inData lines 0 = inData := by
  simp [inDataAt]

@[simp] theorem inDataAt_succ (inData : Bool) (line : Text) (lines : List Text) (k : Nat) :
    inDataAt inData (line :: lines) (k + 1) = inDataAt (inDataAfter inData line) lines k := by
  simp [inDataAt]

@[simp] theorem previousAt_zero (previous : Text) (lines : List Text) :
    previousAt previous lines 0 = previous := by
  simp [previousAt]

@[simp] theorem previousAt_succ (previous line : Text) (lines : List Text) (k : Nat) :
    previousAt previous (line :: lines) (k + 1) = previousAt line lines k := by
  simp only [previousAt, List.take_succ_cons, List.getLast?_cons]
  rfl

/-- The scan reports a kind for the lines that have it. -/
theorem mem_scanLines {index : Nat} {inData : Bool} {previous : Text} {lines : List Text}
    {m : Match} : m ∈ scanLines identifier file index inData previous lines ↔
      ∃ k line, lines[k]? = some line ∧ m = ⟨m.kind, file, (index + k : Nat), line⟩ ∧
        m.kind ∈ kindsOf identifier (inDataAt inData lines k) (previousAt previous lines k) line
          (lines.drop (k + 1)) := by
  induction lines generalizing index inData previous with
  | nil => simp [scanLines]
  | cons line lines ih =>
    rw [scanLines, List.mem_append, ih]
    constructor
    · rintro (h | ⟨k, l, hget, hm, hkind⟩)
      · obtain ⟨kind, hkind, rfl⟩ := List.mem_map.mp h
        exact ⟨0, line, rfl, rfl, by simpa using hkind⟩
      · refine ⟨k + 1, l, hget, ?_, by simpa using hkind⟩
        rw [hm, show index + (k + 1) = index + 1 + k by omega]
    · rintro ⟨k, l, hget, hm, hkind⟩
      cases k with
      | zero =>
        obtain rfl : line = l := by simpa using hget
        exact Or.inl (List.mem_map.mpr ⟨m.kind, by simpa using hkind, hm.symm⟩)
      | succ k =>
        refine Or.inr ⟨k, l, hget, ?_, by simpa using hkind⟩
        rw [hm, show index + (k + 1) = index + 1 + k by omega]

/-- Which kinds a line has. -/
theorem mem_kindsOf {kind : Kind} {inData : Bool} {previous line : Text} {following : List Text} :
    kind ∈ kindsOf identifier inData previous line following ↔
      kind.isSingleLine = true ∧ (Catalog.regex identifier kind).occursIn line = true ∨
      kind = .signatureNextLine ∧ startsSignature identifier line following = true ∨
      kind = .constructor ∧ declaresConstructor identifier inData previous line = true := by
  have hall : kind ∈ Kind.all := by cases kind <;> decide
  simp only [kindsOf, List.mem_append, List.mem_filter, hall, true_and, Bool.and_eq_true]
  constructor
  · rintro ((h | h) | h)
    · exact Or.inl h
    · split at h
      · exact Or.inr (Or.inl ⟨List.mem_singleton.mp h, ‹_›⟩)
      · simp at h
    · split at h
      · exact Or.inr (Or.inr ⟨List.mem_singleton.mp h, ‹_›⟩)
      · simp at h
  · rintro (h | ⟨rfl, h⟩ | ⟨rfl, h⟩)
    · exact Or.inl (Or.inl h)
    · exact Or.inl (Or.inr (by simp [h]))
    · exact Or.inr (by simp [h])

theorem nodup_kindsOf (identifier : Text) (inData : Bool) (previous line : Text)
    (following : List Text) : (kindsOf identifier inData previous line following).Nodup := by
  have hall : Kind.all.Nodup := by decide
  have hsingle : ∀ kind ∈ Kind.all.filter (fun kind => kind.isSingleLine &&
      (Catalog.regex identifier kind).occursIn line), kind.isSingleLine = true := by
    intro kind hkind
    simp only [List.mem_filter, Bool.and_eq_true] at hkind
    exact hkind.2.1
  have hnext : .signatureNextLine ∉ Kind.all.filter (fun kind => kind.isSingleLine &&
      (Catalog.regex identifier kind).occursIn line) := fun h => by
    simpa [Kind.isSingleLine] using hsingle _ h
  have hconstructor : .constructor ∉ Kind.all.filter (fun kind => kind.isSingleLine &&
      (Catalog.regex identifier kind).occursIn line) := fun h => by
    simpa [Kind.isSingleLine] using hsingle _ h
  have hfirst := hall.filter fun kind => kind.isSingleLine &&
    (Catalog.regex identifier kind).occursIn line
  unfold kindsOf
  split <;> split <;> simp [List.nodup_append', hfirst, hnext, hconstructor]

/-- A kind is reported for each line at most once, and for the lines in order. -/
theorem pairwise_scanLines (kind : Kind) (index : Nat) (inData : Bool) (previous : Text)
    (lines : List Text) :
    ((scanLines identifier file index inData previous lines).filter (·.kind = kind)).Pairwise
      fun a b => a.lineIndex < b.lineIndex := by
  induction lines generalizing index inData previous with
  | nil => simp [scanLines]
  | cons line lines ih =>
    rw [scanLines, List.filter_append, List.pairwise_append]
    refine ⟨?_, ih _ _ _, ?_⟩
    · rw [List.filter_map, List.pairwise_map]
      refine ((nodup_kindsOf identifier inData previous line lines).filter _).imp_of_mem ?_
      intro a b ha hb hne
      have hsame : a = b := by
        have ha := (List.mem_filter.mp ha).2
        have hb := (List.mem_filter.mp hb).2
        simp only [Function.comp_apply, decide_eq_true_eq] at ha hb
        rw [ha, hb]
      exact absurd hsame hne
    · intro a ha b hb
      obtain ⟨_, -, rfl⟩ := List.mem_map.mp (List.mem_of_mem_filter ha)
      obtain ⟨k, l, -, hb, -⟩ := mem_scanLines.mp (List.mem_of_mem_filter hb)
      rw [hb]
      simp only
      omega

end DefinitionSite.LineScan
