import DefinitionSite.Proofs.FileTree.Leads

/-! Every path that leads to an entry has a real path, and it is where the look-up ends: both follow
the same way, and a link that came up again inside its own target would have kept the look-up from
coming to an end. -/
namespace DefinitionSite.FileTree

variable {t : FileTree} {here there names : List String} {name : String} {links : Nat} {p : Path}

theorem tidy_append (done names rest : List String) :
    tidy done (names ++ rest) = tidy (tidy done names) rest := by
  induction names generalizing done with
  | nil => rfl
  | cons name names ih =>
    rw [List.cons_append, tidy, tidy]
    split
    · exact ih done
    · split
      · exact ih done.dropLast
      · exact ih (done ++ [name])

theorem tidy_name (hname : isName name = true) (done : List String) :
    tidy done [name] = done ++ [name] := by
  obtain ⟨h₁, h₂, h₃, -⟩ := isName_iff.mp hname
  simp [tidy, h₁, h₂, h₃]

theorem tidy_names (hnames : ∀ name ∈ names, isName name = true) (done : List String) :
    tidy done names = done ++ names := by
  induction names generalizing done with
  | nil => simp [tidy]
  | cons name names ih =>
    obtain ⟨hname, hrest⟩ := List.forall_mem_cons.mp hnames
    rw [← List.singleton_append, tidy_append, tidy_name hname, ih hrest, List.append_assoc]

theorem namesOf_child (t : FileTree) (hname : isName name = true) (p : Path) :
    t.namesOf (p.child name) = t.namesOf p ++ [name] := by
  rw [namesOf, show t.start (p.child name) ++ (p.child name).parts =
    t.start p ++ p.parts ++ [name] from (List.append_assoc _ _ _).symm, tidy_append,
    tidy_name hname, namesOf]

/-- A path whose names are names of entries, but for steps up in a relative path. -/
def Clean (p : Path) : Prop :=
  ∀ name ∈ p.parts, isName name = true ∨ name = ".." ∧ p.isAbsolute = false

theorem Clean.child (hp : Clean p) (hname : isName name = true) : Clean (p.child name) := by
  intro n hn
  rcases List.mem_append.mp hn with hn | hn
  · exact hp n hn
  · rw [List.mem_singleton.mp hn]
    exact Or.inl hname

theorem Clean.stepUp (hp : Clean p) (t : FileTree) :
    Clean (stepUp p) ∧ t.namesOf (stepUp p) = (t.namesOf p).dropLast := by
  unfold FileTree.stepUp
  split
  · rename_i hcond
    refine ⟨fun n hn => hp n (List.dropLast_subset _ hn), ?_⟩
    rcases List.eq_nil_or_concat p.parts with hnil | ⟨parts, last, hparts⟩
    · -- Above the root there is only the root.
      have habsolute : p.isAbsolute = true := by simpa [hnil] using hcond
      have hparent : p.parent = p := by
        cases p
        simp_all [Path.parent]
      simp [hparent, namesOf, start, habsolute, hnil, tidy]
    · rw [List.concat_eq_append] at hparts
      have hlast : isName last = true := by
        rcases hp last (by simp [hparts]) with h | ⟨rfl, h⟩
        · exact h
        · simp [hparts, h] at hcond
      have hchild : p = Path.child p.parent last := by
        cases p
        simp_all [Path.child, Path.parent]
      conv_rhs => rw [hchild, namesOf_child t hlast, List.dropLast_concat]
  · rename_i hcond
    have hrelative : p.isAbsolute = false := by
      by_contra h
      simp_all
    constructor
    · intro n hn
      rcases List.mem_append.mp hn with hn | hn
      · exact hp n hn
      · exact Or.inr ⟨List.mem_singleton.mp hn, hrelative⟩
    · rw [namesOf, show t.start (p.child "..") ++ (p.child "..").parts =
        t.start p ++ p.parts ++ [".."] from (List.append_assoc _ _ _).symm, tidy_append, namesOf]
      rfl

theorem realFrom_down {fuel : Nat} {active : List Path} {rest : List Step}
    (hname : isName name = true)
    (hnode : ∀ target, t.node? (t.namesOf (p.child name)) ≠ some (.link target)) :
    t.realFrom fuel active p (.name name :: rest) = t.realFrom fuel active (p.child name) rest := by
  obtain ⟨h₁, h₂, h₃, -⟩ := isName_iff.mp hname
  rw [realFrom]
  simp only [h₁, h₂, h₃, beq_iff_eq, Bool.or_eq_true, or_self, ↓reduceIte]

/-- Where a link's target starts from. -/
def targetStart (p : Path) (target : String) : Path :=
  if target.startsWith "/" then .absolute [] else p

theorem realFrom_follow {fuel : Nat} {active : List Path} {rest : List Step} {target : String}
    (hname : isName name = true)
    (hnode : t.node? (t.namesOf (p.child name)) = some (.link target))
    (hactive : p.child name ∉ active) :
    t.realFrom (fuel + 1) active p (.name name :: rest) =
      t.realFrom fuel (p.child name :: active) (targetStart p target)
        ((targetFrom (t.namesOf p) target).2.map .name ++ .linkEnd :: rest) := by
  obtain ⟨h₁, h₂, h₃, -⟩ := isName_iff.mp hname
  have htarget : (targetFrom (t.namesOf p) target).2 =
      (Text.splitAt '/' target.toList).map String.ofList := by
    unfold targetFrom
    split <;> rfl
  rw [realFrom]
  simp only [h₁, h₂, h₃, beq_iff_eq, Bool.or_eq_true, or_self, ↓reduceIte, hnode,
    List.contains_iff_mem, hactive, htarget]
  rfl

theorem Clean.targetStart (hp : Clean p) (t : FileTree) (target : String) :
    Clean (targetStart p target) ∧
      t.namesOf (FileTree.targetStart p target) = (targetFrom (t.namesOf p) target).1 := by
  unfold FileTree.targetStart targetFrom
  split
  · exact ⟨by simp [Clean, Path.absolute], rfl⟩
  · exact ⟨hp, rfl⟩

/-- Each of the links leads on over more than so many links, itself included. -/
def Costly (t : FileTree) (links : Nat) (active : List Path) : Prop :=
  ∀ q ∈ active, ∃ parent name mid cost, q = Path.child parent name ∧
    Leads t (t.namesOf parent) [name] mid cost ∧ links < cost

theorem Costly.mono {less : Nat} {active : List Path} (h : Costly t links active)
    (hle : less ≤ links) : Costly t less active := by
  intro q hq
  obtain ⟨parent, name, mid, cost, heq, hleads, hlt⟩ := h q hq
  exact ⟨parent, name, mid, cost, heq, hleads, by omega⟩

theorem Costly.not_mem {active : List Path} {mid : List String} {cost : Nat}
    (h : Costly t links active) (hleads : Leads t (t.namesOf p) [name] mid cost)
    (hle : cost ≤ links) : p.child name ∉ active := by
  intro hmem
  obtain ⟨parent, name', mid', cost', heq, hleads', hlt⟩ := h _ hmem
  obtain ⟨hroot, hparts⟩ := Path.mk.inj heq
  obtain ⟨hparts, hnames⟩ := List.append_inj' hparts rfl
  obtain rfl : p = parent := by
    cases p
    cases parent
    exact congrArg₂ Path.mk hroot hparts
  obtain rfl : name = name' := by simpa using hnames
  obtain ⟨-, hsame⟩ := hleads.unique hleads'
  omega

/-- Resolving a path follows the way that its names lead. The links that are being worked off cost
more than what is left of the way, so none of them comes up again. -/
theorem realFrom_of_leads (h : Leads t here names there links) {fuel : Nat} {active : List Path}
    (hp : Clean p) (hhere : t.namesOf p = here) (hfuel : links ≤ fuel)
    (hactive : Costly t links active) (rest : List Step) :
    ∃ q, Clean q ∧ t.namesOf q = there ∧
      t.realFrom fuel active p (names.map .name ++ rest) =
        t.realFrom (fuel - links) active q rest := by
  induction h generalizing fuel active p rest with
  | done here => exact ⟨p, hp, hhere, rfl⟩
  | stay hname _ ih =>
    obtain ⟨q, hq, hthere, hreal⟩ := ih hp hhere hfuel hactive rest
    refine ⟨q, hq, hthere, ?_⟩
    rw [List.map_cons, List.cons_append, realFrom, ← hreal]
    simp [hname]
  | up _ ih =>
    obtain ⟨hclean, hup⟩ := hp.stepUp t
    obtain ⟨q, hq, hthere, hreal⟩ := ih hclean (by rw [hup, hhere]) hfuel hactive rest
    refine ⟨q, hq, hthere, ?_⟩
    rw [List.map_cons, List.cons_append, realFrom, ← hreal]
    simp
  | down hname hnode hlink _ ih =>
    have hchild := namesOf_child t hname p
    obtain ⟨q, hq, hthere, hreal⟩ := ih (hp.child hname) (by rw [hchild, hhere]) hfuel hactive rest
    refine ⟨q, hq, hthere, ?_⟩
    rw [List.map_cons, List.cons_append, realFrom_down hname, hreal]
    intro target
    rw [hchild, hhere, hnode]
    exact fun heq => hlink target (Option.some.inj heq)
  | @follow here steps mid there name target links more hname hnode htarget hrest ihtarget ih =>
    subst hhere
    have hcost : Leads t (t.namesOf p) [name] mid (links + 1 + 0) :=
      .follow hname hnode htarget (.done mid)
    have hnotin : p.child name ∉ active := hactive.not_mem hcost (by omega)
    obtain ⟨fuel, rfl⟩ : ∃ n, fuel = n + 1 := ⟨fuel - 1, by omega⟩
    have hfuel₁ : links ≤ fuel := by omega
    have hfuel₂ : more ≤ fuel - links := by omega
    rw [List.map_cons, List.cons_append,
      realFrom_follow hname (by rw [namesOf_child t hname]; exact hnode) hnotin]
    obtain ⟨hclean, hstart⟩ := hp.targetStart t target
    have hinside : Costly t links (p.child name :: active) :=
      List.forall_mem_cons.mpr
        ⟨⟨p, name, mid, _, rfl, hcost, by omega⟩, hactive.mono (by omega)⟩
    obtain ⟨q, hq, hmid, hreal⟩ := ihtarget hclean hstart hfuel₁ hinside
      (.linkEnd :: (steps.map .name ++ rest))
    rw [hreal, realFrom, List.tail_cons]
    obtain ⟨q', hq', hthere, hreal'⟩ := ih hq hmid hfuel₂ (hactive.mono (by omega)) rest
    refine ⟨q', hq', hthere, ?_⟩
    rw [hreal']
    congr 1
    omega

/-- Without links on the way, a look-up cannot meet too many. -/
theorem walk_ne_tooManyLinks (hsound : t.Sound) {node : Node} (links : Nat)
    (hnode : t.node? (here ++ names) = some node) (hlink : ∀ target, node ≠ .link target) :
    t.walk links true here names ≠ .error .tooManyLinks := by
  induction names generalizing here with
  | nil =>
    rw [List.append_nil] at hnode
    simp [walk, hnode]
  | cons name names ih =>
    have hat : (t.node? here).bind (Node.at? (name :: names)) = some node := by
      rw [node?, ← Node.at?_append]
      exact hnode
    obtain ⟨dir, hdir, hrest⟩ := Option.bind_eq_some_iff.mp hat
    obtain ⟨child, hchild, hmore⟩ := Option.bind_eq_some_iff.mp hrest
    obtain ⟨entries, rfl⟩ : ∃ entries, dir = .dir entries := by
      cases dir with
      | dir entries => exact ⟨entries, rfl⟩
      | file bytes => simp [Node.child?] at hchild
      | link target => simp [Node.child?] at hchild
    obtain ⟨hname, -⟩ := isName_of_child hsound hdir hchild
    obtain ⟨h₁, h₂, h₃, -⟩ := isName_iff.mp hname
    have hchildlink : ∀ target, child ≠ .link target := by
      rintro target rfl
      cases names with
      | nil => exact hlink target (by simpa [Node.at?] using hmore.symm)
      | cons next names => simp [Node.at?, Node.child?] at hmore
    rw [walk, hdir]
    simp only [h₁, h₂, h₃, beq_iff_eq, Bool.or_eq_true, or_self, ↓reduceIte]
    split
    · simp
    · rw [hchild]
      cases child with
      | link target => exact absurd rfl (hchildlink target)
      | dir entries => exact ih (by simpa using hnode)
      | file bytes => exact ih (by simpa using hnode)

theorem exists_node_of_walk {found : List String × Node}
    (h : t.walk links true here names = .ok found) : ∃ node, t.node? here = some node := by
  cases hnode : t.node? here with
  | some node => exact ⟨node, rfl⟩
  | none => cases names <;> simp [walk, hnode] at h

theorem Leads.not_holdsNull (h : Leads t here names there links) :
    ∀ name ∈ names, '\x00' ∉ name.toList := by
  induction h with
  | done here => simp
  | stay hname _ ih =>
    refine List.forall_mem_cons.mpr ⟨?_, ih⟩
    rcases hname with rfl | rfl <;> decide
  | up _ ih => exact List.forall_mem_cons.mpr ⟨by decide, ih⟩
  | down hname _ _ _ ih => exact List.forall_mem_cons.mpr ⟨(isName_iff.mp hname).2.2.2.2, ih⟩
  | follow hname _ _ _ _ ih => exact List.forall_mem_cons.mpr ⟨(isName_iff.mp hname).2.2.2.2, ih⟩

/-- The real path of a path that leads to an entry is where it leads. -/
theorem resolve_of_stat (hsound : t.Sound) {node : Node} (hlink : ∀ target, node ≠ .link target)
    (h : t.stat p = .ok (there, node)) : t.resolve p = .ok (.absolute there) := by
  obtain ⟨used, hle, hleads, hnode⟩ := leads_of_walk hsound h
  have hnull : p.holdsNull = false := by
    simpa [Path.holdsNull] using hleads.not_holdsNull
  obtain ⟨origin, horigin, hclean⟩ : ∃ origin : Path,
      origin = (if p.isAbsolute then .absolute [] else ⟨"", []⟩) ∧ Clean origin ∧
        t.namesOf origin = t.start p := by
    obtain ⟨first, hfirst⟩ := exists_node_of_walk h
    by_cases habsolute : p.isAbsolute = true
    · refine ⟨.absolute [], by simp [habsolute], by simp [Clean, Path.absolute], ?_⟩
      rw [start, if_pos habsolute]
      rfl
    · refine ⟨⟨"", []⟩, by simp [habsolute], by simp [Clean], ?_⟩
      have hstart : t.start p = t.cwd := if_neg habsolute
      have hnames := (Node.isSound_at? hsound hfirst).1
      rw [hstart] at hnames ⊢
      have htidy := tidy_names hnames []
      simpa [namesOf, start, Path.isAbsolute] using htidy
  have hlimit : used ≤ resolveLimit := Nat.le_trans hle (by decide)
  have hnone : Costly t used [] := by simp [Costly]
  obtain ⟨q, -, hq, hreal⟩ := realFrom_of_leads hleads hclean.1 hclean.2 hlimit hnone []
  have hresolved : t.namesOf (t.realFrom resolveLimit [] origin (p.parts.map .name)) = there := by
    rw [List.append_nil] at hreal
    rw [hreal, realFrom, hq]
  have hstat : t.stat (.absolute there) ≠ .error .tooManyLinks :=
    walk_ne_tooManyLinks hsound linkLimit hnode hlink
  rw [resolve, hnull]
  simp only [← horigin, hresolved, Bool.false_eq_true, ↓reduceIte]

end DefinitionSite.FileTree
