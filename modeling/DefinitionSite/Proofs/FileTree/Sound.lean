import Mathlib.Data.List.Nodup
import Mathlib.Tactic.Common
import DefinitionSite.FileTree.Resolve

/-! File systems as an operating system admits them: the entries of a directory have different
names, and each is the name of an entry, not a way through the tree. -/
namespace DefinitionSite

/-- Whether an entry of a directory can have the name. -/
def isName (name : String) : Bool :=
  name != "" && name != "." && name != ".." && !name.toList.contains '/' &&
    !name.toList.contains '\x00'

mutual

/-- Whether the entries of every directory from here on have names of their own. -/
def Node.isSound : Node → Bool
  | .dir entries => decide (entries.map (·.1)).Nodup && Node.areSound entries
  | _ => true

/-- Whether the entries of a directory can have their names and are sound themselves. -/
def Node.areSound : List (String × Node) → Bool
  | [] => true
  | (name, node) :: rest => isName name && node.isSound && Node.areSound rest

end

/-- A file system with sound directories. -/
def FileTree.Sound (t : FileTree) : Prop := t.top.isSound = true

variable {name : String} {names : List String} {node found : Node}

theorem isName_iff : isName name = true ↔
    name ≠ "" ∧ name ≠ "." ∧ name ≠ ".." ∧ '/' ∉ name.toList ∧ '\x00' ∉ name.toList := by
  simp [isName, and_assoc]

namespace Node

theorem areSound_iff (entries : List (String × Node)) : areSound entries = true ↔
    ∀ e ∈ entries, isName e.1 = true ∧ e.2.isSound = true := by
  induction entries with
  | nil => simp [areSound]
  | cons e entries ih =>
    obtain ⟨name, node⟩ := e
    simp only [areSound, Bool.and_eq_true, ih, List.forall_mem_cons]

theorem isSound_dir_iff (entries : List (String × Node)) : (dir entries).isSound = true ↔
    (entries.map (·.1)).Nodup ∧ ∀ e ∈ entries, isName e.1 = true ∧ e.2.isSound = true := by
  simp only [isSound, Bool.and_eq_true, decide_eq_true_eq, areSound_iff]

theorem isSound_child (h : node.isSound = true) (hchild : node.child? name = some found) :
    isName name = true ∧ found.isSound = true := by
  cases node with
  | dir entries =>
    simp only [child?, Option.map_eq_some_iff] at hchild
    obtain ⟨e, hfind, rfl⟩ := hchild
    obtain rfl : e.1 = name := by simpa using List.find?_some hfind
    exact ((isSound_dir_iff entries).mp h).2 e (List.mem_of_find?_eq_some hfind)
  | file bytes => simp [child?] at hchild
  | link target => simp [child?] at hchild

theorem at?_append (names rest : List String) (node : Node) :
    node.at? (names ++ rest) = (node.at? names).bind (at? rest) := by
  induction names generalizing node with
  | nil => rfl
  | cons name names ih =>
    simp only [List.cons_append, at?, Option.bind_assoc]
    cases node.child? name with
    | none => rfl
    | some child => exact ih child

theorem isSound_at? (h : node.isSound = true) (hat : node.at? names = some found) :
    (∀ name ∈ names, isName name = true) ∧ found.isSound = true := by
  induction names generalizing node with
  | nil =>
    obtain rfl : node = found := by simpa [at?] using hat
    exact ⟨by simp, h⟩
  | cons name names ih =>
    obtain ⟨child, hchild, hrest⟩ := Option.bind_eq_some_iff.mp hat
    obtain ⟨hname, hsound⟩ := isSound_child h hchild
    obtain ⟨hnames, hfound⟩ := ih hsound hrest
    exact ⟨List.forall_mem_cons.mpr ⟨hname, hnames⟩, hfound⟩

end Node

namespace FileTree

variable {t : FileTree}

theorem node?_concat (names : List String) (name : String) :
    t.node? (names ++ [name]) = (t.node? names).bind (Node.child? name) := by
  rw [node?, node?, Node.at?_append]
  congr 1
  funext node
  simp [Node.at?]

end FileTree
end DefinitionSite
