import DefinitionSite.FileTree.Edit
import DefinitionSite.Proofs.FileTree.Walking

/-! A file system told by its places: what stands at each list of names, apart from what a directory
holds. An entry that is put where nothing stood changes that place and nothing else. -/
namespace DefinitionSite

/-- What stands at a place, apart from what a directory holds. -/
inductive Entry where
  | file (bytes : List UInt8)
  | dir
  | link (target : String)
  deriving Repr, DecidableEq

namespace Node

/-- A node without what a directory holds. -/
def entry : Node → Entry
  | .file bytes => .file bytes
  | .dir _ => .dir
  | .link target => .link target

variable {node new : Node} {entries : List (String × Node)} {name : String} {parent : List String}

theorem entry_eq_dir : node.entry = .dir ↔ ∃ entries, node = .dir entries := by
  cases node <;> simp [entry]

theorem entry_eq_link {target : String} : node.entry = .link target ↔ node = .link target := by
  cases node <;> simp [entry]

/-- An entry that is put into a directory is found under its name, and the others as before. -/
theorem child?_putEntry (entries : List (String × Node)) (name other : String) (new : Node) :
    child? other (.dir (putEntry entries name new)) =
      if other = name then some new else child? other (.dir entries) := by
  have hkey : (fun e : String × Node => e.1 == other) ∘
      (fun e => if e.1 == name then (name, new) else e) = fun e => e.1 == other := by
    funext e
    by_cases he : e.1 = name
    · simp [he]
    · simp [he]
  unfold child? putEntry
  simp only
  split_ifs with hany hname hname
  · subst hname
    obtain ⟨e, hfind⟩ : ∃ e, entries.find? (·.1 == other) = some e := by
      rw [← Option.isSome_iff_exists, List.find?_isSome]
      exact List.any_eq_true.mp hany
    obtain rfl : e.1 = other := by simpa using List.find?_some hfind
    rw [List.find?_map, hkey, hfind]
    simp
  · rw [List.find?_map, hkey]
    cases hfind : entries.find? (·.1 == other) with
    | none => rfl
    | some e =>
      obtain rfl : e.1 = other := by simpa using List.find?_some hfind
      simp [hname]
  · subst hname
    have hnone : entries.find? (·.1 == other) = none := by
      rw [List.find?_eq_none]
      intro e hmem hsame
      exact hany (List.any_eq_true.mpr ⟨e, hmem, hsame⟩)
    simp [List.find?_append, hnone]
  · simp [List.find?_append, Ne.symm hname]

/-- An entry that holds nothing and is put where nothing stood changes what stands there, and
nothing else. -/
theorem at?_put_entry (hparent : node.at? parent = some (.dir entries))
    (hnone : child? name (.dir entries) = none) (hnew : ∀ below, new.child? below = none)
    (names : List String) :
    ((put new (parent ++ [name]) node).at? names).map entry =
      if names = parent ++ [name] then some new.entry else (node.at? names).map entry := by
  induction parent generalizing node names with
  | nil =>
    obtain rfl : node = .dir entries := Option.some.inj hparent
    rw [List.nil_append, put]
    cases names with
    | nil => simp [at?, entry]
    | cons other rest =>
      simp only [at?, child?_putEntry]
      split_ifs with hother hplace hplace
      · obtain ⟨-, rfl⟩ := List.cons_eq_cons.mp hplace
        rfl
      · -- Nothing stands below the new entry, as nothing stood there before.
        cases rest with
        | nil => exact absurd (by rw [hother]) hplace
        | cons next rest => simp [at?, hother, hnone, hnew]
      · exact absurd (List.cons_eq_cons.mp hplace).1 hother
      · rfl
  | cons first parent ih =>
    obtain ⟨child, hchild, hbelow⟩ := Option.bind_eq_some_iff.mp hparent
    obtain ⟨outer, rfl⟩ : ∃ outer, node = .dir outer := by
      cases node with
      | dir outer => exact ⟨outer, rfl⟩
      | file bytes => simp [child?] at hchild
      | link target => simp [child?] at hchild
    have hput : put new (first :: parent ++ [name]) (.dir outer) =
        .dir (putEntry outer first (put new (parent ++ [name]) child)) := by
      cases parent <;> simp [put, hchild]
    rw [hput]
    cases names with
    | nil => simp [at?, entry]
    | cons other rest =>
      simp only [at?, child?_putEntry]
      by_cases hother : other = first
      · subst hother
        simpa [hchild] using ih hbelow rest
      · simp [hother]

end Node

namespace FileTree

/-- What stands at a place, no link followed. -/
def entryAt? (t : FileTree) (names : List String) : Option Entry := (t.node? names).map Node.entry

variable {t : FileTree} {names parent : List String} {entries : List (String × Node)}
  {name target : String} {node : Node}

theorem entryAt?_eq_none : t.entryAt? names = none ↔ t.node? names = none := Option.map_eq_none_iff

theorem entryAt?_eq_dir : t.entryAt? names = some .dir ↔
    ∃ entries, t.node? names = some (.dir entries) := by
  simp [entryAt?, Node.entry_eq_dir, ← exists_and_left, and_comm]

theorem entryAt?_eq_link : t.entryAt? names = some (.link target) ↔
    t.node? names = some (.link target) := by
  simp [entryAt?, Node.entry_eq_link]

theorem entryAt?_of_node? (h : t.node? names = some node) : t.entryAt? names = some node.entry := by
  rw [entryAt?, h, Option.map_some]

/-- A directory stands on the way to what stands below it. -/
theorem entryAt?_dir_of_below {rest : List String} (h : t.entryAt? (names ++ name :: rest) ≠ none) :
    t.entryAt? names = some .dir := by
  obtain ⟨node, hnode⟩ := Option.ne_none_iff_exists'.mp (mt entryAt?_eq_none.mpr h)
  exact entryAt?_eq_dir.mpr (exists_dir_of_node? hnode)

theorem entryAt?_putAt {new : Node} (hparent : t.node? parent = some (.dir entries))
    (hnone : t.node? (parent ++ [name]) = none) (hnew : ∀ below, new.child? below = none)
    (names : List String) : (t.putAt (parent ++ [name]) new).entryAt? names =
      if names = parent ++ [name] then some new.entry else t.entryAt? names :=
  Node.at?_put_entry hparent (by rw [node?_child hparent, hnone]) hnew names

end FileTree
end DefinitionSite
