import DefinitionSite.Proofs.FileTree.Sound

/-! Where names lead, said as a relation: from a directory, through links, to an entry, with the
number of links on the way. A look-up that succeeds is such a way, and there is only one. -/
namespace DefinitionSite.FileTree

/-- Names lead from one place to another, over so many links. -/
inductive Leads (t : FileTree) : List String → List String → List String → Nat → Prop where
  | done (here : List String) : Leads t here [] here 0
  | stay {here rest there : List String} {name : String} {links : Nat}
      (hname : name = "" ∨ name = ".") (hrest : Leads t here rest there links) :
      Leads t here (name :: rest) there links
  | up {here rest there : List String} {links : Nat}
      (hrest : Leads t here.dropLast rest there links) :
      Leads t here (".." :: rest) there links
  | down {here rest there : List String} {name : String} {node : Node} {links : Nat}
      (hname : isName name = true) (hnode : t.node? (here ++ [name]) = some node)
      (hlink : ∀ target, node ≠ .link target) (hrest : Leads t (here ++ [name]) rest there links) :
      Leads t here (name :: rest) there links
  | follow {here rest mid there : List String} {name target : String} {links more : Nat}
      (hname : isName name = true) (hnode : t.node? (here ++ [name]) = some (.link target))
      (htarget : Leads t (targetFrom here target).1 (targetFrom here target).2 mid links)
      (hrest : Leads t mid rest there more) :
      Leads t here (name :: rest) there (links + 1 + more)

variable {t : FileTree} {here there names : List String} {links : Nat}

/-- Names lead to one place only, over the same links. -/
theorem Leads.unique {there' : List String} {links' : Nat} (h : Leads t here names there links)
    (h' : Leads t here names there' links') : there = there' ∧ links = links' := by
  induction h generalizing there' links' with
  | done here =>
    cases h'
    exact ⟨rfl, rfl⟩
  | stay hname _ ih =>
    cases h' with
    | stay _ hrest' => exact ih hrest'
    | up _ => simp at hname
    | down hname' => exact absurd hname (by have := isName_iff.mp hname'; tauto)
    | follow hname' => exact absurd hname (by have := isName_iff.mp hname'; tauto)
  | up _ ih =>
    cases h' with
    | stay hname' _ => simp at hname'
    | up hrest' => exact ih hrest'
    | down hname' => simp [isName] at hname'
    | follow hname' => simp [isName] at hname'
  | down hname hnode hlink _ ih =>
    cases h' with
    | stay hname' _ => exact absurd hname' (by have := isName_iff.mp hname; tauto)
    | up _ => simp [isName] at hname
    | down _ _ _ hrest' => exact ih hrest'
    | follow _ hnode' =>
      rw [hnode] at hnode'
      exact absurd (Option.some.inj hnode') (hlink _)
  | follow hname hnode _ _ ihtarget ih =>
    cases h' with
    | stay hname' _ => exact absurd hname' (by have := isName_iff.mp hname; tauto)
    | up _ => simp [isName] at hname
    | down _ hnode' hlink' =>
      rw [hnode] at hnode'
      exact absurd (Option.some.inj hnode').symm (hlink' _)
    | follow _ hnode' htarget' hrest' =>
      rw [hnode] at hnode'
      obtain ⟨rfl⟩ := Node.link.inj (Option.some.inj hnode')
      obtain ⟨rfl, rfl⟩ := ihtarget htarget'
      obtain ⟨rfl, rfl⟩ := ih hrest'
      exact ⟨rfl, rfl⟩

/-- A way falls into two wherever its names do. -/
theorem Leads.split {rest : List String} (h : Leads t here (names ++ rest) there links) :
    ∃ mid first more, Leads t here names mid first ∧ Leads t mid rest there more ∧
      links = first + more := by
  induction names generalizing here links with
  | nil => exact ⟨here, 0, links, .done here, h, by omega⟩
  | cons name names ih =>
    cases h with
    | stay hname hrest =>
      obtain ⟨mid, first, more, hfirst, hmore, rfl⟩ := ih hrest
      exact ⟨mid, first, more, .stay hname hfirst, hmore, rfl⟩
    | up hrest =>
      obtain ⟨mid, first, more, hfirst, hmore, rfl⟩ := ih hrest
      exact ⟨mid, first, more, .up hfirst, hmore, rfl⟩
    | down hname hnode hlink hrest =>
      obtain ⟨mid, first, more, hfirst, hmore, rfl⟩ := ih hrest
      exact ⟨mid, first, more, .down hname hnode hlink hfirst, hmore, rfl⟩
    | follow hname hnode htarget hrest =>
      obtain ⟨mid, first, more, hfirst, hmore, rfl⟩ := ih hrest
      exact ⟨mid, _, more, .follow hname hnode htarget hfirst, hmore, by omega⟩

theorem isName_of_child (hsound : t.Sound) {entries : List (String × Node)} {name : String}
    {child : Node} (hdir : t.node? here = some (.dir entries))
    (hchild : Node.child? name (.dir entries) = some child) :
    isName name = true ∧ t.node? (here ++ [name]) = some child := by
  refine ⟨(Node.isSound_child (Node.isSound_at? hsound hdir).2 hchild).1, ?_⟩
  rw [node?_concat, hdir, Option.bind_some, hchild]

/-- A look-up that succeeds has found the entry at the end of a way, within its limit of links. -/
theorem leads_of_walk (hsound : t.Sound) {node : Node}
    (h : t.walk links true here names = .ok (there, node)) :
    ∃ used ≤ links, Leads t here names there used ∧ t.node? there = some node := by
  fun_induction FileTree.walk t links true here names with
  | case1 links here found hfound =>
    obtain ⟨rfl, rfl⟩ := Prod.mk.inj (Except.ok.inj h)
    exact ⟨0, Nat.zero_le _, .done here, hfound⟩
  | case3 links here name rest entries _ hname ih =>
    obtain ⟨used, hle, hleads, hnode⟩ := ih h
    exact ⟨used, hle, .stay (by simpa using hname) hleads, hnode⟩
  | case4 links here name rest entries _ _ hname ih =>
    obtain ⟨used, hle, hleads, hnode⟩ := ih h
    obtain rfl := beq_iff_eq.mp hname
    exact ⟨used, hle, .up hleads, hnode⟩
  | case7 links here name rest entries _ _ _ _ target _ hlast => simp at hlast
  | case9 here name rest entries hdir _ _ _ target hchild _ links start found htarget ih =>
    obtain ⟨used, hle, hleads, hnode⟩ := ih h
    obtain ⟨hname, hlink⟩ := isName_of_child hsound hdir hchild
    obtain ⟨mid, first, more, hfirst, hmore, rfl⟩ := hleads.split
    refine ⟨first + 1 + more, by omega, .follow hname hlink ?_ hmore, hnode⟩
    rw [htarget]
    exact hfirst
  | case10 links here name rest entries hdir _ _ _ child hlink hchild ih =>
    obtain ⟨used, hle, hleads, hnode⟩ := ih h
    obtain ⟨hname, hfound⟩ := isName_of_child hsound hdir hchild
    exact ⟨used, hle, .down hname hfound hlink hleads, hnode⟩
  | _ => simp at h

end DefinitionSite.FileTree
