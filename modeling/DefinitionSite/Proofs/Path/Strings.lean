import DefinitionSite.Path
import DefinitionSite.Proofs.Text.Lines

/-! Paths and their strings: a path that a string spells is read back from its own string, and paths
below one directory have different strings. -/
namespace DefinitionSite.Path

/-- A path that some string spells. -/
structure Spelled (p : Path) : Prop where
  root : p.root = "" ∨ p.root = "/" ∨ p.root = "//"
  parts : ∀ name ∈ p.parts, name ≠ "" ∧ name ≠ "." ∧ '/' ∉ name.toList

theorem spelled_ofString (s : String) : Spelled (ofString s) where
  root := by
    simp only [ofString, rootOf]
    split <;> simp
  parts := by
    intro name hname
    obtain ⟨hmem, hkeep⟩ := List.mem_filter.mp hname
    obtain ⟨piece, hpiece, rfl⟩ := List.mem_map.mp hmem
    simp only [Bool.and_eq_true, bne_iff_ne] at hkeep
    refine ⟨hkeep.1, hkeep.2, ?_⟩
    rw [String.toList_ofList]
    exact Text.not_mem_of_mem_splitAt hpiece

theorem toList_toString {p : Path} (h : p.root ≠ "" ∨ p.parts ≠ []) :
    p.toString.toList = p.root.toList ++ List.intercalate ['/'] (p.parts.map String.toList) := by
  have hsome : (p.root.isEmpty && p.parts.isEmpty) = false := by
    rcases h with h | h <;> simp [h]
  rw [toString, hsome]
  simp [String.toList_intercalate]

theorem head?_intercalate {parts : List String} {c : Char}
    (h : ∀ name ∈ parts, name ≠ "" ∧ name ≠ "." ∧ '/' ∉ name.toList)
    (hc : c ∈ (List.intercalate ['/'] (parts.map String.toList)).head?) : c ≠ '/' := by
  cases parts with
  | nil => simp [List.intercalate] at hc
  | cons name parts =>
    obtain ⟨hne, -, hslash⟩ := h name List.mem_cons_self
    cases hname : name.toList with
    | nil => exact absurd (String.toList_eq_nil_iff.mp hname) hne
    | cons d rest =>
      have hd : d = c := by
        cases parts <;> simpa [List.intercalate, hname] using hc
      rintro rfl
      rw [hname, hd] at hslash
      exact hslash List.mem_cons_self

theorem names_intercalate {parts : List String}
    (h : ∀ name ∈ parts, name ≠ "" ∧ name ≠ "." ∧ '/' ∉ name.toList) :
    names (List.intercalate ['/'] (parts.map String.toList)) = parts := by
  by_cases hparts : parts = []
  · subst hparts
    decide
  · have hpieces : ∀ piece ∈ parts.map String.toList, '/' ∉ piece := by
      intro piece hpiece
      obtain ⟨name, hname, rfl⟩ := List.mem_map.mp hpiece
      exact (h name hname).2.2
    rw [names, Text.splitAt_intercalate (by simpa using hparts) hpieces, List.map_map]
    have hback : String.ofList ∘ String.toList = id := funext fun s => String.ofList_toList
    rw [hback, List.map_id, List.filter_eq_self]
    intro name hname
    simp [(h name hname).1, (h name hname).2.1]

/-- A name spells the path that it alone makes. -/
theorem ofString_name {name : String} (hne : name ≠ "") (hhere : name ≠ ".")
    (hslash : '/' ∉ name.toList) : ofString name = ⟨"", [name]⟩ := by
  have hnames : names name.toList = [name] := by
    simpa using names_intercalate (List.forall_mem_singleton.mpr ⟨hne, hhere, hslash⟩)
  have hroot : rootOf name.toList = "" := by
    cases hname : name.toList with
    | nil => rfl
    | cons c rest =>
      have hc : c ≠ '/' := by
        rintro rfl
        exact hslash (hname ▸ List.mem_cons_self)
      simp [rootOf, hc]
  rw [ofString, hnames, hroot]

theorem names_slash (text : Text) : names ('/' :: text) = names text := by
  have hsplit : Text.splitAt '/' ('/' :: text) = [] :: Text.splitAt '/' text :=
    Text.splitAt_append List.not_mem_nil text
  simp [names, hsplit]

/-- A spelled path is read back from its string. -/
theorem ofString_toString {p : Path} (h : Spelled p) : ofString p.toString = p := by
  obtain ⟨root, parts⟩ := p
  by_cases hempty : root = "" ∧ parts = []
  · obtain ⟨rfl, rfl⟩ := hempty
    decide
  have htext := toList_toString (show (⟨root, parts⟩ : Path).root ≠ "" ∨
    (⟨root, parts⟩ : Path).parts ≠ [] by tauto)
  have hnames := names_intercalate h.parts
  have hslashes : (List.intercalate ['/'] (parts.map String.toList)).takeWhile (· == '/') = [] := by
    have hhead : ∀ c ∈ (List.intercalate ['/'] (parts.map String.toList)).head?, c ≠ '/' :=
      fun c hc => head?_intercalate h.parts hc
    cases hjoin : List.intercalate ['/'] (parts.map String.toList) with
    | nil => rfl
    | cons c rest => simp [hhead c (by simp [hjoin])]
  rw [ofString, htext]
  rcases h.root with rfl | rfl | rfl
  · simp [rootOf, hslashes, hnames]
  · simp [rootOf, hslashes, hnames, names_slash]
  · simp [rootOf, hslashes, hnames, names_slash]

end DefinitionSite.Path
