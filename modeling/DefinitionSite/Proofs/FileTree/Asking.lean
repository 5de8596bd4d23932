import Mathlib.Data.String.Basic
import DefinitionSite.Proofs.FileTree.Walking
import DefinitionSite.Proofs.Path.Strings
import DefinitionSite.Search

/-! Asking whether a path leads to a directory: the answer is given, or the path or one of its names
is too long to be asked about. A search below such a root has no outcome. -/
namespace DefinitionSite

/-- The root of a search cannot be asked about, and its fault says so. -/
inductive RootFault (tree : FileTree) : Source → SearchFault → Prop
  | unaskable {root : Path} {globs skipDirs : List String} {e : FileError}
      (hask : tree.askDir root = .error e) :
      RootFault tree (.directory root globs skipDirs) (.unaskable e)

namespace FileTree

variable {t : FileTree} {p : Path} {name : String} {entries : List (String × Node)}

theorem askDir_error_iff {e : FileError} :
    t.askDir p = .error e ↔ p.holdsNull = false ∧
      (pathLimit < p.toString.utf8ByteSize ∨ t.stat p = .error .nameTooLong) ∧
      e = ⟨.nameTooLong, p.toString⟩ := by
  unfold askDir unaskable?
  cases p.holdsNull with
  | true => simp
  | false =>
    by_cases hlong : pathLimit < p.toString.utf8ByteSize
    · simp [hlong, eq_comm]
    · cases hstat : t.stat p with
      | ok found => simp [hlong]
      | error fault => cases fault <;> simp [hlong, eq_comm]

theorem askDir_true_iff :
    t.askDir p = .ok true ↔ p.holdsNull = false ∧ p.toString.utf8ByteSize ≤ pathLimit ∧
      t.isDir p = true := by
  unfold askDir unaskable? isDir
  cases p.holdsNull with
  | true => simp
  | false =>
    by_cases hlong : pathLimit < p.toString.utf8ByteSize
    · simp [hlong, Nat.not_le.mpr hlong]
    · cases hstat : t.stat p with
      | ok found => simp [hlong, Nat.not_lt.mp hlong]
      | error fault => cases fault <;> simp [hlong, Except.toOption]

theorem isPlain_of_isTooLong (hlong : isTooLong name = true) : IsPlain name where
  ne_empty := by rintro rfl; simp [isTooLong, nameLimit] at hlong
  ne_here := by rintro rfl; revert hlong; decide
  ne_up := by rintro rfl; revert hlong; decide

/-- A name that no file has cannot be asked about in the current directory. -/
theorem askDir_tooLong (hcwd : t.node? t.cwd = some (.dir entries)) (hlong : isTooLong name = true)
    (hnull : '\x00' ∉ name.toList) : t.askDir ⟨"", [name]⟩ = .error ⟨.nameTooLong, name⟩ := by
  have hstat : t.stat ⟨"", [name]⟩ = .error .nameTooLong := by
    simp [stat, start, Path.isAbsolute, walk_plain hcwd (isPlain_of_isTooLong hlong), hlong]
  exact askDir_error_iff.mpr
    ⟨by simpa [Path.holdsNull] using hnull, .inr hstat, by simp [Path.toString]⟩

/-- Three hundred letters, more than the name of any file has. -/
def longName : String := String.ofList (List.replicate 300 'a')

theorem isTooLong_longName : isTooLong longName = true := by
  have hsize : longName.utf8ByteSize = String.utf8Len (List.replicate 300 'a') :=
    String.utf8ByteSize_ofList _
  rw [isTooLong, hsize]
  decide +kernel

theorem eq_of_mem_longName {c : Char} (hc : c ∈ longName.toList) : c = 'a' := by
  have hletters : longName.toList = List.replicate 300 'a' := String.toList_ofList
  exact List.eq_of_mem_replicate (hletters ▸ hc)

theorem askDir_longName (hcwd : t.node? t.cwd = some (.dir entries)) :
    t.askDir (.ofString longName) = .error ⟨.nameTooLong, longName⟩ := by
  have hplain := isPlain_of_isTooLong isTooLong_longName
  have habsent : ∀ {c : Char}, c ≠ 'a' → c ∉ longName.toList :=
    fun hc hmem => hc (eq_of_mem_longName hmem)
  rw [Path.ofString_name hplain.ne_empty hplain.ne_here (habsent (by decide))]
  exact askDir_tooLong hcwd isTooLong_longName (habsent (by decide))

end FileTree
end DefinitionSite
