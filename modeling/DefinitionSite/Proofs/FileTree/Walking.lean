import DefinitionSite.Proofs.FileTree.Leads

/-! Looking names up in two parts: names in front lead somewhere, and the names behind them are
looked up from there. A look-up that fails on the way fails. Names on whose way no link stands lead
to the place of these names. -/
namespace DefinitionSite

/-- A name that stands for itself on a way, whether or not an entry can have it. -/
structure IsPlain (name : String) : Prop where
  ne_empty : name ≠ ""
  ne_here : name ≠ "."
  ne_up : name ≠ ".."

theorem isPlain_of_isName {name : String} (h : isName name = true) : IsPlain name := by
  obtain ⟨h₁, h₂, h₃, -⟩ := isName_iff.mp h
  exact ⟨h₁, h₂, h₃⟩

theorem isPlain_of_unskipped {name : String} (hskip : ¬(name == "" || name == ".") = true)
    (hup : ¬(name == "..") = true) : IsPlain name := by
  simp only [Bool.or_eq_true, beq_iff_eq, not_or] at hskip hup
  exact ⟨hskip.1, hskip.2, hup⟩

namespace FileTree

/-- No name is longer than the name of any file. -/
def Short (names : List String) : Prop := ∀ name ∈ names, isTooLong name = false

variable {t : FileTree} {here there names rest : List String} {name : String} {links : Nat}
  {last : Bool} {node : Node} {entries : List (String × Node)}

theorem short_append : Short (names ++ rest) ↔ Short names ∧ Short rest := by
  simp [Short, or_imp, forall_and]

theorem node?_append (t : FileTree) (names rest : List String) :
    t.node? (names ++ rest) = (t.node? names).bind (Node.at? rest) :=
  Node.at?_append names rest t.top

theorem node?_child (hdir : t.node? here = some (.dir entries)) (name : String) :
    Node.child? name (.dir entries) = t.node? (here ++ [name]) := by
  rw [node?_concat, hdir, Option.bind_some]

/-- A directory stands on the way to every entry below it. -/
theorem exists_dir_of_node? (h : t.node? (here ++ name :: rest) = some node) :
    ∃ entries, t.node? here = some (.dir entries) := by
  rw [node?_append] at h
  obtain ⟨dir, hdir, hbelow⟩ := Option.bind_eq_some_iff.mp h
  obtain ⟨child, hchild, -⟩ := Option.bind_eq_some_iff.mp hbelow
  cases dir with
  | dir entries => exact ⟨entries, hdir⟩
  | file bytes => simp [Node.child?] at hchild
  | link target => simp [Node.child?] at hchild

section Step
variable (hdir : t.node? here = some (.dir entries))
include hdir

theorem walk_skip (hskip : (name == "" || name == ".") = true) :
    t.walk links last here (name :: rest) = t.walk links last here rest := by
  rw [walk, hdir]
  simp only [hskip, ↓reduceIte]

theorem walk_up (hskip : ¬(name == "" || name == ".") = true) (hup : (name == "..") = true) :
    t.walk links last here (name :: rest) = t.walk links last here.dropLast rest := by
  rw [walk, hdir]
  simp only [hskip, hup, Bool.false_eq_true, ↓reduceIte]

/-- What looking up a plain name comes to in a directory. -/
theorem walk_plain (hplain : IsPlain name) :
    t.walk links last here (name :: rest) =
      if isTooLong name then .error .nameTooLong
      else
        match t.node? (here ++ [name]) with
        | none => .error .notFound
        | some (.link target) =>
          if rest.isEmpty && !last then .ok (here ++ [name], .link target)
          else
            match links with
            | 0 => .error .tooManyLinks
            | links + 1 => t.walk links last (targetFrom here target).1
              ((targetFrom here target).2 ++ rest)
        | some _ => t.walk links last (here ++ [name]) rest := by
  have hskip : (name == "" || name == ".") = false := by
    simp [hplain.ne_empty, hplain.ne_here]
  have hup : (name == "..") = false := by simp [hplain.ne_up]
  rw [walk, hdir]
  cases hchild : t.node? (here ++ [name]) with
  | none => simp only [hskip, hup, Bool.false_eq_true, ↓reduceIte, node?_child hdir, hchild]
  | some node =>
    cases node <;> cases links <;>
      simp only [hskip, hup, Bool.false_eq_true, ↓reduceIte, node?_child hdir, hchild]

end Step

/-- Names behind others are looked up from where those lead, over the links that are left, and a
look-up fails where they fail. -/
theorem walk_parts (t : FileTree) (links : Nat) (here names : List String) :
    match t.walk links true here names with
    | .ok (there, _) => ∃ left ≤ links, ∀ last name rest,
        t.walk links last here (names ++ name :: rest) = t.walk left last there (name :: rest)
    | .error fault => ∀ last name rest,
        t.walk links last here (names ++ name :: rest) = .error fault := by
  have hbehind : ∀ (names : List String) name rest, (names ++ name :: rest).isEmpty = false :=
    fun names name rest => List.isEmpty_eq_false_iff.mpr
      (List.append_ne_nil_of_right_ne_nil names (List.cons_ne_nil name rest))
  -- The names behind are carried along; a link that is followed takes one of the links away.
  fun_induction FileTree.walk t links true here names with
  | case1 links here found hfound => exact ⟨links, Nat.le_refl _, fun _ _ _ => rfl⟩
  | case2 links here hnone =>
    intro last name rest
    rw [List.nil_append, walk, hnone]
  | case3 links here first names entries hdir hname ih =>
    simpa only [List.cons_append, walk_skip hdir hname] using ih
  | case4 links here first names entries hdir hskip hname ih =>
    simpa only [List.cons_append, walk_up hdir hskip hname] using ih
  | case5 links here first names entries hdir hskip hup hlong =>
    intro last name rest
    rw [List.cons_append, walk, hdir]
    simp only [hskip, hup, hlong, Bool.false_eq_true, ↓reduceIte]
  | case6 links here first names entries hdir hskip hup hlong hchild =>
    intro last name rest
    rw [List.cons_append, walk, hdir]
    simp only [hskip, hup, hlong, Bool.false_eq_true, ↓reduceIte, hchild]
  | case7 links here first names entries _ _ _ _ target _ hlast => simp at hlast
  | case8 here first names entries hdir hskip hup hlong target hchild =>
    intro last name rest
    rw [List.cons_append, walk, hdir]
    simp only [hskip, hup, hlong, Bool.false_eq_true, ↓reduceIte, hchild, hbehind,
      Bool.false_and]
  | case9 here first names entries hdir hskip hup hlong target hchild _ links start found htarget
      ih =>
    have hstep : ∀ last name rest,
        t.walk (links + 1) last here (first :: names ++ name :: rest) =
          t.walk links last start (found ++ names ++ name :: rest) := by
      intro last name rest
      rw [List.cons_append, walk, hdir]
      simp only [hskip, hup, hlong, Bool.false_eq_true, ↓reduceIte, hchild, htarget, hbehind,
        Bool.false_and, List.append_assoc]
    simp only [hstep]
    split at ih
    · obtain ⟨left, hle, hleft⟩ := ih
      exact ⟨left, by omega, hleft⟩
    · exact ih
  | case10 links here first names entries hdir hskip hup hlong child hlink hchild ih =>
    have hplain := isPlain_of_unskipped hskip hup
    have hstep : ∀ last name rest, t.walk links last here (first :: names ++ name :: rest) =
        t.walk links last (here ++ [first]) (names ++ name :: rest) := by
      intro last name rest
      rw [List.cons_append, walk_plain hdir hplain, if_neg hlong, ← node?_child hdir, hchild]
      cases child with
      | link target => exact absurd rfl (hlink target)
      | dir entries => rfl
      | file bytes => rfl
    simpa only [hstep] using ih
  | case11 links here first names node hnode hdir =>
    intro last name rest
    rw [List.cons_append, walk, hdir]
    cases node with
    | dir entries => exact absurd rfl (hnode entries)
    | file bytes => rfl
    | link target => rfl
  | case12 links here first names hnone =>
    intro last name rest
    rw [List.cons_append, walk, hnone]

theorem walk_append (h : t.walk links true here names = .ok (there, node)) :
    ∃ left ≤ links, ∀ last name rest, t.walk links last here (names ++ name :: rest) =
      t.walk left last there (name :: rest) := by
  have hparts := walk_parts t links here names
  rwa [h] at hparts

/-- Names lead somewhere only if those in front do. -/
theorem exists_walk_front {found : List String × Node}
    (h : t.walk links true here (names ++ rest) = .ok found) :
    ∃ there node, t.walk links true here names = .ok (there, node) := by
  have hparts := walk_parts t links here names
  cases hfront : t.walk links true here names with
  | ok front => exact ⟨front.1, front.2, rfl⟩
  | error fault =>
    rw [hfront] at hparts
    cases rest with
    | nil =>
      rw [List.append_nil, hfront] at h
      cases h
    | cons name rest =>
      rw [hparts] at h
      cases h

/-- Whether the last link is followed makes no difference to whether a look-up ends well, if it
does where the link is followed. -/
theorem exists_walk_unfollowed {found : List String × Node}
    (h : t.walk links true here names = .ok found) :
    ∃ found, t.walk links false here names = .ok found := by
  fun_induction FileTree.walk t links true here names with
  | case1 links here node hnode => exact ⟨(here, node), by rw [walk, hnode]⟩
  | case3 links here first names entries hdir hname ih =>
    rw [walk_skip hdir hname]
    exact ih h
  | case4 links here first names entries hdir hskip hname ih =>
    rw [walk_up hdir hskip hname]
    exact ih h
  | case7 links here first names entries _ _ _ _ target _ hlast => simp at hlast
  | case9 here first names entries hdir hskip hup hlong target hchild _ links start found htarget
      ih =>
    rw [walk, hdir]
    simp only [hskip, hup, hlong, Bool.false_eq_true, ↓reduceIte, hchild, htarget]
    split
    · exact ⟨_, rfl⟩
    · exact ih h
  | case10 links here first names entries hdir hskip hup hlong child hlink hchild ih =>
    have hplain := isPlain_of_unskipped hskip hup
    rw [walk_plain hdir hplain, if_neg hlong, ← node?_child hdir, hchild]
    cases child with
    | link target => exact absurd rfl (hlink target)
    | dir entries => exact ih h
    | file bytes => exact ih h
  | _ => simp at h

/-- What a look-up ends with stands where it ends. -/
theorem node?_of_walk (h : t.walk links last here names = .ok (there, node)) :
    t.node? there = some node := by
  fun_induction FileTree.walk t links last here names with
  | case1 links here found hfound =>
    obtain ⟨rfl, rfl⟩ := Prod.mk.inj (Except.ok.inj h)
    exact hfound
  | case7 links here name rest entries hdir _ _ _ target hchild _ =>
    obtain ⟨rfl, rfl⟩ := Prod.mk.inj (Except.ok.inj h)
    rw [← node?_child hdir, hchild]
  | case3 _ _ _ _ _ _ _ ih => exact ih h
  | case4 _ _ _ _ _ _ _ _ ih => exact ih h
  | case9 _ _ _ _ _ _ _ _ _ _ _ _ _ _ _ ih => exact ih h
  | case10 _ _ _ _ _ _ _ _ _ _ _ _ ih => exact ih h
  | _ => simp at h

/-- A name that is looked up behind others leads to the entry of that name in their directory. -/
theorem walk_concat (h : t.walk links true here names = .ok (there, .dir entries))
    (hplain : IsPlain name) (hname : isTooLong name = false)
    (hnode : t.node? (there ++ [name]) = some node) (hlink : ∀ target, node ≠ .link target) :
    t.walk links true here (names ++ [name]) = .ok (there ++ [name], node) := by
  obtain ⟨left, -, hleft⟩ := walk_append h
  rw [hleft, walk_plain (node?_of_walk h) hplain, hname, hnode]
  simp only [Bool.false_eq_true, ↓reduceIte]
  cases node with
  | link target => exact absurd rfl (hlink target)
  | dir entries => rw [walk, hnode]
  | file bytes => rw [walk, hnode]

/-- A name that is looked up behind others and is none of the entries of their directory is
missed. -/
theorem walk_concat_none (h : t.walk links true here names = .ok (there, .dir entries))
    (hplain : IsPlain name) (hname : isTooLong name = false)
    (hnode : t.node? (there ++ [name]) = none) :
    t.walk links last here (names ++ [name]) = .error .notFound := by
  obtain ⟨left, -, hleft⟩ := walk_append h
  rw [hleft, walk_plain (node?_of_walk h) hplain, hname, hnode]
  rfl

/-- An entry of the directory that a path leads to, unless it is a link. -/
theorem stat_child {p : Path} (hdir : t.stat p = .ok (there, .dir entries))
    (hplain : IsPlain name) (hname : isTooLong name = false)
    (hnode : t.node? (there ++ [name]) = some node) (hlink : ∀ target, node ≠ .link target) :
    t.stat (p.child name) = .ok (there ++ [name], node) :=
  walk_concat hdir hplain hname hnode hlink

theorem stat_child_none {p : Path} (hdir : t.stat p = .ok (there, .dir entries))
    (hplain : IsPlain name) (hname : isTooLong name = false)
    (hnone : t.node? (there ++ [name]) = none) : t.stat (p.child name) = .error .notFound :=
  walk_concat_none hdir hplain hname hnone

/-- A name that no link has exists in a directory just if an entry has it. -/
theorem exists?_child_iff {p : Path} (hdir : t.stat p = .ok (there, .dir entries))
    (hplain : IsPlain name) (hname : isTooLong name = false)
    (hlink : ∀ target, t.node? (there ++ [name]) ≠ some (.link target)) :
    t.exists? (p.child name) = true ↔ t.node? (there ++ [name]) ≠ none := by
  unfold exists?
  cases hnode : t.node? (there ++ [name]) with
  | none => simp [stat_child_none hdir hplain hname hnode, Except.toOption]
  | some node =>
    have hother : ∀ target, node ≠ .link target := by
      rintro target rfl
      exact hlink target hnode
    simp [stat_child hdir hplain hname hnode hother, Except.toOption]

/-- Names are looked up in a directory. -/
theorem exists_dir_of_walk {found : List String × Node}
    (h : t.walk links last here (name :: rest) = .ok found) :
    ∃ entries, t.node? here = some (.dir entries) := by
  rw [walk] at h
  split at h
  · rename_i entries hdir
    exact ⟨entries, hdir⟩
  · cases h
  · cases h

/-- Plain names lead to the place that they name where no link stands. -/
theorem walk_linkless (hlinks : ∀ below target, t.node? (here ++ below) ≠ some (.link target))
    (hplain : ∀ name ∈ names, IsPlain name)
    (h : t.walk links last here names = .ok (there, node)) : there = here ++ names := by
  induction names generalizing here with
  | nil =>
    rw [walk] at h
    split at h
    · rw [(Prod.mk.inj (Except.ok.inj h)).1, List.append_nil]
    · cases h
  | cons name names ih =>
    obtain ⟨entries, hdir⟩ := exists_dir_of_walk h
    obtain ⟨hname, hnames⟩ := List.forall_mem_cons.mp hplain
    have hbelow : ∀ below target, t.node? (here ++ [name] ++ below) ≠ some (.link target) :=
      fun below target => by
        rw [List.append_assoc]
        exact hlinks ([name] ++ below) target
    rw [walk_plain hdir hname] at h
    split at h
    · cases h
    · split at h
      · cases h
      · rename_i target hlink
        exact absurd hlink (hlinks [name] target)
      · rw [ih hbelow hnames h, List.append_assoc, List.singleton_append]

/-- A look-up that ends well has come along no name that is too long. -/
theorem short_of_walk (h : t.walk links true here names = .ok (there, node)) (hhere : Short here) :
    Short there := by
  fun_induction FileTree.walk t links true here names with
  | case1 links here found hfound =>
    obtain ⟨rfl, rfl⟩ := Prod.mk.inj (Except.ok.inj h)
    exact hhere
  | case3 links here name rest entries _ hname ih => exact ih h hhere
  | case4 links here name rest entries _ _ hname ih =>
    exact ih h fun name hmem => hhere name (List.dropLast_subset _ hmem)
  | case7 links here name rest entries _ _ _ _ target _ hlast => simp at hlast
  | case9 here name rest entries hdir _ _ _ target hchild _ links start found htarget ih =>
    refine ih h ?_
    have hstart : start = (targetFrom here target).1 := by rw [htarget]
    rw [hstart, targetFrom]
    split
    · simp [Short]
    · exact hhere
  | case10 links here name rest entries hdir _ _ hlong child hlink hchild ih =>
    exact ih h (short_append.mpr ⟨hhere, by simpa [Short] using hlong⟩)
  | _ => simp at h

/-- Names of an entry lead to it if no link stands there. -/
theorem walk_place (hsound : t.Sound) (hshort : Short names)
    (hnode : t.node? (here ++ names) = some node) (hlink : ∀ target, node ≠ .link target) :
    t.walk links true here names = .ok (here ++ names, node) := by
  induction names generalizing here with
  | nil =>
    rw [List.append_nil] at hnode ⊢
    rw [walk, hnode]
  | cons name names ih =>
    obtain ⟨entries, hdir⟩ := exists_dir_of_node? hnode
    have hplain : IsPlain name :=
      isPlain_of_isName ((Node.isSound_at? hsound hnode).1 name (by simp))
    obtain ⟨hname, hnames⟩ := List.forall_mem_cons.mp hshort
    rw [List.append_cons] at hnode ⊢
    have hthrough := ih hnames hnode
    rw [walk_plain hdir hplain, hname]
    simp only [Bool.false_eq_true, ↓reduceIte]
    rw [node?_append] at hnode
    obtain ⟨child, hchild, hbelow⟩ := Option.bind_eq_some_iff.mp hnode
    rw [hchild]
    cases child with
    | dir entries => exact hthrough
    | file bytes => exact hthrough
    | link target =>
      cases names with
      | nil => exact absurd (Option.some.inj hbelow).symm (hlink target)
      | cons next names => simp [Node.at?, Node.child?] at hbelow

/-- No link stands on the way to a directory. -/
theorem node?_ne_link (hdir : t.node? names = some (.dir entries)) {front : List String}
    (hfront : front <+: names) (target : String) : t.node? front ≠ some (.link target) := by
  intro hlink
  obtain ⟨rest, rfl⟩ := hfront
  rw [node?_append, hlink] at hdir
  cases rest <;> simp [Node.at?, Node.child?] at hdir

/-- A look-up that follows links and starts from no link does not end with one. -/
theorem ne_link_of_walk (h : t.walk links true here names = .ok (there, node))
    (hhere : ∀ target, t.node? here ≠ some (.link target)) : ∀ target, node ≠ .link target := by
  fun_induction FileTree.walk t links true here names with
  | case1 links here found hfound =>
    obtain ⟨rfl, rfl⟩ := Prod.mk.inj (Except.ok.inj h)
    rintro target rfl
    exact hhere target hfound
  | case3 links here name rest entries _ _ ih => exact ih h hhere
  | case4 links here name rest entries hdir _ _ ih =>
    exact ih h (node?_ne_link hdir (List.dropLast_prefix here))
  | case7 links here name rest entries _ _ _ _ target _ hlast => simp at hlast
  | case9 here name rest entries hdir _ _ _ target hchild _ links start found htarget ih =>
    refine ih h ?_
    have hstart : start = (targetFrom here target).1 := by rw [htarget]
    rw [hstart, targetFrom]
    split
    · exact node?_ne_link hdir List.nil_prefix
    · exact hhere
  | case10 links here name rest entries hdir _ _ hlong child hlink hchild ih =>
    refine ih h fun target htarget => hlink target ?_
    rw [← node?_child hdir, hchild] at htarget
    exact Option.some.inj htarget
  | _ => simp at h

end FileTree
end DefinitionSite
