import DefinitionSite.Dump
import DefinitionSite.Proofs.FileTree.Sources
import DefinitionSite.Proofs.Identifier.ValueNames
import DefinitionSite.Proofs.Locator.Absent
import DefinitionSite.Proofs.Locator.BufferFirst
import DefinitionSite.Proofs.Locator.Faults
import DefinitionSite.Proofs.Locator.PartialFailure
import DefinitionSite.Scripted

/-! What the report on a file tells of its look-ups. Each name that the file uses is looked up once,
in the order of first occurrence, and stands in the report once: with its locations if there are
any, and else among the missing. One look-up has no part in the answer of another, but one that does
not come to its locations, such as one whose root cannot be asked about or whose occurrence has no
text, ends the report, and what the other names have is lost. -/
namespace DefinitionSite

/-- What a look-up answers. -/
abbrev Answer := Except LocateFault (List Location)

namespace Dump

variable {l : Locator} {request : Request} {run : Run} {name : Text} {names : List Text}
  {answer : Answer} {looked : List (Text × Answer)} {locations : List Location} {d : Dump}

/-- The request with one of the names. -/
def requestFor (request : Request) (name : Text) : Request :=
  { request with identifier := some name }

/-- What looking the names up answers, one after the other, each of them with what the ones before
left of the run. -/
def lookUps (l : Locator) (request : Request) (run : Run) : List Text → List (Text × Answer)
  | [] => []
  | name :: rest =>
    let (answer, after) := l.locate (requestFor request name) run.next
    let after := match answer with
      | .error .noRoot => after.say .warning
          ("Skipping '" ++ String.ofList name ++ "': " ++ LocateFault.noRoot.message)
      | _ => after
    (name, answer) :: lookUps l request after rest

/-- The locations that an answer puts into the report, none if there was nowhere to look. A fault of
the locations is not made up for. -/
def kept : Answer → Except LocationFault (List Location)
  | .ok locations => .ok locations
  | .error .noRoot => .ok []
  | .error (.location f) => .error f

/-- The report on look-ups. -/
def summary : List (Text × Answer) → Except LocationFault Dump
  | [] => .ok empty
  | (name, answer) :: rest =>
    match kept answer with
    | .error f => .error f
    | .ok locations => (summary rest).map (add name locations)

theorem locateAll_eq (l : Locator) (request : Request) (run : Run) (names : List Text) :
    (locateAll l request run names).1 = summary (lookUps l request run names) := by
  -- Both say the same warning for a name without a workspace, so they go on with the same run.
  induction names generalizing run with
  | nil => rfl
  | cons name rest ih =>
    unfold locateAll lookUps requestFor
    cases l.locate { request with identifier := some name } run.next with
    | mk answer after =>
      cases answer with
      | ok locations => simp only [summary, kept, ih]
      | error f =>
        cases f with
        | noRoot => simp only [summary, kept, ih]
        | location f => simp only [summary, kept]

section LookUps

theorem map_fst_lookUps (l : Locator) (request : Request) (run : Run) (names : List Text) :
    (lookUps l request run names).map (·.1) = names := by
  induction names generalizing run with
  | nil => rfl
  | cons name rest ih => simp only [lookUps, List.map_cons, ih]

theorem undisturbed_next (run : Run) : run.next.Undisturbed := ⟨rfl, rfl⟩

/-- Every answer is that of a look-up that nobody cancels. -/
theorem exists_locate_of_mem_lookUps {e : Text × Answer} (h : e ∈ lookUps l request run names) :
    ∃ now : Run, now.Undisturbed ∧ e.2 = (l.locate (requestFor request e.1) now).1 := by
  induction names generalizing run with
  | nil => simp [lookUps] at h
  | cons name rest ih =>
    rw [lookUps, List.mem_cons] at h
    rcases h with rfl | h
    · exact ⟨run.next, undisturbed_next run, rfl⟩
    · exact ih h

/-- Where the course of every search is laid down, a look-up answers as it does on its own. -/
theorem locate_fresh {outcome : Source → Kind → Text → Except SearchFault SearchResult}
    (h : ∀ source, l.engine.SettledIn source (outcome source)) (request : Request) {now : Run}
    (hnow : now.Undisturbed) :
    (l.locate request now).1 = (l.locate request .fresh).1 := by
  obtain ⟨answer, after, after', hleft, hright, -⟩ :=
    Locator.alike_locate request rfl
      (fun source => Locator.alike_searchAll (h source) (h source) rfl) now .fresh hnow ⟨rfl, rfl⟩
  rw [hleft]
  exact (congrArg Prod.fst hright).symm

/-- Where the course of every search is laid down, no look-up has a part in another's answer. -/
theorem lookUps_of_settledIn {outcome : Source → Kind → Text → Except SearchFault SearchResult}
    (h : ∀ source, l.engine.SettledIn source (outcome source)) (request : Request) (run : Run)
    (names : List Text) :
    lookUps l request run names =
      names.map fun name => (name, (l.locate (requestFor request name) .fresh).1) := by
  induction names generalizing run with
  | nil => rfl
  | cons name rest ih =>
    have hanswer := locate_fresh h (requestFor request name) (undisturbed_next run)
    simp only [lookUps, List.map_cons, ih, hanswer]

end LookUps

/-- Of all that the look-ups found, locations could be made. -/
def Settled (looked : List (Text × Answer)) : Prop :=
  ∀ e ∈ looked, ∃ locations, kept e.2 = .ok locations

/-- The report tells the look-ups: all of them were settled, and each name stands in it once, in
order, with the locations that were found or among the missing. -/
structure Tells (d : Dump) (looked : List (Text × Answer)) : Prop where
  settled : Settled looked
  names : (d.found.map (·.1) ++ d.missing).Perm (looked.map (·.1))
  foundInOrder : (d.found.map (·.1)).Sublist (looked.map (·.1))
  missingInOrder : d.missing.Sublist (looked.map (·.1))
  found : ∀ name locations,
    (name, locations) ∈ d.found ↔ (name, .ok locations) ∈ looked ∧ locations ≠ []
  missing : ∀ name,
    name ∈ d.missing ↔ (name, .ok []) ∈ looked ∨ (name, .error .noRoot) ∈ looked

section Tells

theorem kept_ok_iff : kept answer = .ok locations ↔
    answer = .ok locations ∨ answer = .error .noRoot ∧ locations = [] := by
  cases answer with
  | ok given => simp [kept]
  | error f => cases f <;> simp [kept, eq_comm]

theorem tells_nil : Tells empty [] where
  settled := by simp [Settled]
  names := .refl _
  foundInOrder := .refl _
  missingInOrder := .refl _
  found := by simp [empty]
  missing := by simp [empty]

theorem Tells.addMissing (h : d.Tells looked) (hanswer : answer = .ok [] ∨ answer = .error .noRoot)
    (name : Text) : Tells { d with missing := name :: d.missing } ((name, answer) :: looked) where
  settled := by
    refine List.forall_mem_cons.mpr ⟨⟨[], kept_ok_iff.mpr ?_⟩, h.settled⟩
    simpa using hanswer
  names := List.perm_middle.trans (h.names.cons name)
  foundInOrder := h.foundInOrder.cons name
  missingInOrder := h.missingInOrder.cons_cons name
  found other given := by
    rcases hanswer with rfl | rfl <;> simp +contextual [h.found]
  missing other := by
    rcases hanswer with rfl | rfl <;> simp [h.missing, or_assoc, or_left_comm]

theorem Tells.addFound (h : d.Tells looked) (hne : locations ≠ []) (name : Text) :
    Tells { d with found := (name, locations) :: d.found }
      ((name, .ok locations) :: looked) where
  settled := List.forall_mem_cons.mpr ⟨⟨locations, rfl⟩, h.settled⟩
  names := h.names.cons name
  foundInOrder := h.foundInOrder.cons_cons name
  missingInOrder := h.missingInOrder.cons name
  found other given := by
    simp only [List.mem_cons, Prod.mk.injEq, h.found, Except.ok.injEq]
    constructor
    · rintro (⟨rfl, rfl⟩ | h)
      · exact ⟨.inl ⟨rfl, rfl⟩, hne⟩
      · exact ⟨.inr h.1, h.2⟩
    · rintro ⟨h | h, hgiven⟩
      · exact .inl h
      · exact .inr ⟨h, hgiven⟩
  missing other := by simp [h.missing, Ne.symm hne]

/-- One more look-up in front is told by one more name in front. -/
theorem Tells.add (h : d.Tells looked) (hkept : kept answer = .ok locations) (name : Text) :
    (Dump.add name locations d).Tells ((name, answer) :: looked) := by
  by_cases hnone : locations = []
  · subst hnone
    exact h.addMissing (by simpa using kept_ok_iff.mp hkept) name
  · obtain rfl : answer = .ok locations := by simpa [hnone] using kept_ok_iff.mp hkept
    have hadd : Dump.add name locations d = { d with found := (name, locations) :: d.found } := by
      simp [Dump.add, hnone]
    rw [hadd]
    exact h.addFound hnone name

/-- Look-ups that are all settled make a report that tells them. -/
theorem exists_summary (h : Settled looked) :
    ∃ d, summary looked = .ok d ∧ d.Tells looked := by
  induction looked with
  | nil => exact ⟨empty, rfl, tells_nil⟩
  | cons e looked ih =>
    obtain ⟨name, answer⟩ := e
    obtain ⟨⟨locations, hkept⟩, hrest⟩ := List.forall_mem_cons.mp h
    obtain ⟨d, hd, htells⟩ := ih hrest
    exact ⟨add name locations d, by simp [summary, hkept, hd, Except.map], htells.add hkept name⟩

/-- The first look-up that is not settled is all that there is. -/
theorem summary_error {before after : List (Text × Answer)} {f : LocationFault}
    (h : Settled before) :
    summary (before ++ (name, .error (.location f)) :: after) = .error f := by
  induction before with
  | nil => rfl
  | cons e before ih =>
    obtain ⟨earlier, answer⟩ := e
    obtain ⟨⟨locations, hkept⟩, hrest⟩ := List.forall_mem_cons.mp h
    simp [summary, hkept, ih hrest, Except.map]

/-- Look-ups are all settled, or there is a first one that is not. -/
theorem settled_or_split (looked : List (Text × Answer)) :
    Settled looked ∨ ∃ before name f after,
      looked = before ++ (name, .error (.location f)) :: after ∧ Settled before := by
  induction looked with
  | nil => simp [Settled]
  | cons e looked ih =>
    obtain ⟨name, answer⟩ := e
    cases hkept : kept answer with
    | ok locations =>
      rcases ih with hall | ⟨before, other, f, after, rfl, hbefore⟩
      · exact .inl (List.forall_mem_cons.mpr ⟨⟨locations, hkept⟩, hall⟩)
      · exact .inr ⟨(name, answer) :: before, other, f, after, rfl,
          List.forall_mem_cons.mpr ⟨⟨locations, hkept⟩, hbefore⟩⟩
    | error f =>
      obtain rfl : answer = .error (.location f) := by
        rcases answer with (_ | g) | given <;> simp_all [kept]
      exact .inr ⟨[], name, f, looked, rfl, by simp [Settled]⟩

end Tells

/-- What the look-ups of the names in a file have in common. -/
def common (file : Path) (text : Text) (root : Option Path) (globs : Option (List String)) :
    Request :=
  { identifier := none, buffer := some text, root, globs, currentFile := some file.toString }

/-- The look-ups for the report on a file with the given text. -/
def lookedUp (l : Locator) (file : Path) (text : Text) (root : Option Path)
    (globs : Option (List String)) (run : Run) : List (Text × Answer) :=
  lookUps l (common file text root globs)
    (run.say .debug ("Found " ++ toString (Identifier.used text true).length ++
      " potential identifiers in " ++ file.toString))
    (Identifier.used text true)

theorem collect_eq {file : Path} {text : Text} (hfile : file.holdsNull = false)
    (htext : l.tree.readText file = .ok text) (root : Option Path) (globs : Option (List String))
    (run : Run) : (collect l file root globs run).1 =
      (summary (lookedUp l file text root globs run)).mapError .location := by
  simp only [collect, hfile, htext, Bool.false_eq_true, ↓reduceIte, lookedUp, common,
    ← locateAll_eq]

/-- The report on a file that can be read tells what looking up each of its names answers, every
name once: where the searches come out the same whenever they are made, that is what looking it up
on its own answers. There is no report just if some look-up does not come to its locations, for a
search without an outcome, a path that cannot be resolved or an occurrence without a text; the first
that does not is the fault then. -/
theorem collect_tells (l : Locator) (file : Path) (root : Option Path)
    (globs : Option (List String)) (run : Run) (text : Text) (hfile : file.holdsNull = false)
    (htext : l.tree.readText file = .ok text) :
    (Identifier.used text true).Nodup ∧
    (lookedUp l file text root globs run).map (·.1) = Identifier.used text true ∧
    (∀ e ∈ lookedUp l file text root globs run, ∃ now : Run, now.Undisturbed ∧
      e.2 = (l.locate (requestFor (common file text root globs) e.1) now).1) ∧
    (∀ outcome : Source → Kind → Text → Except SearchFault SearchResult,
      (∀ source, l.engine.SettledIn source (outcome source)) →
        lookedUp l file text root globs run = (Identifier.used text true).map fun name =>
          (name, (l.locate (requestFor (common file text root globs) name) .fresh).1)) ∧
    ((∃ d, (collect l file root globs run).1 = .ok d ∧
        d.Tells (lookedUp l file text root globs run)) ∨
      ∃ before name f after, lookedUp l file text root globs run =
          before ++ (name, .error (.location f)) :: after ∧ Settled before ∧
        (collect l file root globs run).1 = .error (.location f)) := by
  refine ⟨Identifier.nodup_distinct, map_fst_lookUps _ _ _ _,
    fun e => exists_locate_of_mem_lookUps, fun outcome h => lookUps_of_settledIn h _ _ _, ?_⟩
  rw [collect_eq hfile htext]
  rcases settled_or_split (lookedUp l file text root globs run) with
    hsettled | ⟨before, name, f, after, heq, hbefore⟩
  · obtain ⟨d, hd, htells⟩ := exists_summary hsettled
    exact .inl ⟨d, by rw [hd]; rfl, htells⟩
  · refine .inr ⟨before, name, f, after, heq, hbefore, ?_⟩
    rw [heq, summary_error hbefore]
    rfl

/-- The text of a source file. -/
def helperText : Text := Text.of "go = helper\n"

/-- A directory with that file. -/
def helperTree : FileTree where
  top := .dir [("A.hs", .file (Text.encode helperText))]
  cwd := []

theorem readText_helperTree : helperTree.readText (.ofString "A.hs") = .ok helperText := by
  have hpath : Path.ofString "A.hs" = ⟨"", ["A.hs"]⟩ := by decide
  have hlong : FileTree.isTooLong "A.hs" = false := by decide
  have hstat : helperTree.stat ⟨"", ["A.hs"]⟩ = .ok (["A.hs"], .file (Text.encode helperText)) := by
    simp [FileTree.stat, FileTree.walk, FileTree.start, Path.isAbsolute, FileTree.node?,
        helperTree, Node.at?, Node.child?, hlong]
  have htext : FileTree.sourceText (Text.encode helperText) = helperText := by decide +kernel
  rw [hpath, FileTree.readText, FileTree.readBytes, hstat]
  exact congrArg Except.ok htext

theorem used_helperText :
    Identifier.used helperText true = [Text.of "go", Text.of "helper"] := by
  decide +kernel

/-- Searches of which one finds the first name of the file in a buffer. -/
def helperOutcome (source : Source) (kind : Kind) (pattern : Text) :
    Except SearchFault SearchResult :=
  .ok <| .ofEvents <|
    if source.isBuffer && kind = .assignment &&
        pattern = Catalog.patternText (Text.of "go") .assignment then
      [⟨none, .number 1, .text (Text.of "go = helper")⟩]
    else []

/-- A locator that searches so. -/
def helperLocator : Locator where
  tree := helperTree
  engine := ⟨"scripted", true, fun kind pattern source run =>
    (helperOutcome source kind pattern, run)⟩
  skipDirs := []

theorem settledIn_helperLocator (source : Source) :
    helperLocator.engine.SettledIn source (helperOutcome source) :=
  fun _ _ run hrun => ⟨run, rfl, hrun⟩

/-- What is asked about a name of the file. -/
def helperRequest (root : Option Path) (name : Text) : Request :=
  requestFor (common (.ofString "A.hs") helperText root none) name

/-- Without a workspace the second name of the file is missing; the first is found in the file. -/
theorem collect_tells_helper :
    (Path.ofString "A.hs").holdsNull = false ∧
    helperLocator.tree.readText (.ofString "A.hs") = .ok helperText ∧
    ∃ d, (collect helperLocator (.ofString "A.hs") none none .fresh).1 = .ok d ∧
      (Text.of "go", [⟨.named "A.hs", 0, 11, Text.of "go = helper"⟩]) ∈ d.found ∧
      Text.of "helper" ∈ d.missing := by
  have hnull : (Path.ofString "A.hs").holdsNull = false := by decide
  obtain ⟨-, -, -, halone, hreport⟩ := collect_tells helperLocator (.ofString "A.hs") none
    none .fresh helperText hnull readText_helperTree
  have hgo : (helperLocator.locate (helperRequest none (Text.of "go")) .fresh).1 =
      .ok [⟨.named "A.hs", 0, 11, Text.of "go = helper"⟩] := rfl
  have hhelper : (helperLocator.locate (helperRequest none (Text.of "helper")) .fresh).1 =
      .error .noRoot := rfl
  have hlooked : lookedUp helperLocator (.ofString "A.hs") helperText none none .fresh =
      [(Text.of "go", .ok [⟨.named "A.hs", 0, 11, Text.of "go = helper"⟩]),
        (Text.of "helper", .error .noRoot)] := by
    rw [halone helperOutcome settledIn_helperLocator, used_helperText, ← hgo, ← hhelper]
    rfl
  refine ⟨hnull, readText_helperTree, ?_⟩
  rw [hlooked] at hreport
  rcases hreport with ⟨d, hd, htells⟩ | ⟨before, name, f, after, heq, -⟩
  · exact ⟨d, hd, (htells.found _ _).mpr (by simp), (htells.missing _).mpr (by simp)⟩
  · have hmem : (name, Except.error (LocateFault.location f)) ∈
        before ++ (name, .error (.location f)) :: after := by simp
    simp [← heq] at hmem

/-- A locator that looks through the same file line by line. -/
def scanningLocator : Locator :=
  { helperLocator with engine := { helperLocator.engine with available := false } }

theorem settledIn_scanningLocator (source : Source) :
    scanningLocator.engine.SettledIn source (helperOutcome source) :=
  settledIn_helperLocator source

theorem locate_go : (scanningLocator.locate
    (helperRequest (some (.ofString FileTree.longName)) (Text.of "go")) .fresh).1 =
      .ok [⟨.named "A.hs", 0, 11, Text.of "go = helper"⟩] := by
  have hstart : Run.fresh.Undisturbed := ⟨rfl, rfl⟩
  have hscan : Locator.scanText (Text.of "go") helperText =
      some ⟨.assignment, .buffer, 0, Text.of "go = helper"⟩ := by
    with_unfolding_all rfl
  have hfound : (Locator.findInText scanningLocator.engine (some (Text.of "go"))
      (some helperText) .fresh).1 =
        .ok (some ⟨.assignment, .buffer, 0, Text.of "go = helper"⟩) := by
    rw [Locator.findInText_absent (.inl rfl) (by decide) _ hstart]
    exact congrArg Except.ok hscan
  rw [Locator.locate_hit (settledIn_scanningLocator _) (settledIn_scanningLocator _) rfl rfl
    hstart hstart hfound]
  rfl

theorem locate_helper : (scanningLocator.locate
    (helperRequest (some (.ofString FileTree.longName)) (Text.of "helper")) .fresh).1 =
      .error (.location (.search (.unaskable ⟨.nameTooLong, FileTree.longName⟩))) := by
  have hscan : Locator.scanText (Text.of "helper") helperText = none := by decide +kernel
  refine Locator.locate_unaskable (by decide) rfl ?_ rfl (FileTree.askDir_longName rfl)
  intro text htext
  obtain rfl : helperText = text := Option.some.inj htext
  exact ⟨rfl, hscan⟩

/-- Below a root of three hundred letters the first name of the file is found in the file, but the
second has no answer, and so there is no report on either. -/
theorem collect_longName :
    scanningLocator.tree.readText (.ofString "A.hs") = .ok helperText ∧
    (scanningLocator.locate
        (helperRequest (some (.ofString FileTree.longName)) (Text.of "go")) .fresh).1 =
      .ok [⟨.named "A.hs", 0, 11, Text.of "go = helper"⟩] ∧
    (collect scanningLocator (.ofString "A.hs") (some (.ofString FileTree.longName)) none
        .fresh).1 =
      .error (.location (.search (.unaskable ⟨.nameTooLong, FileTree.longName⟩))) := by
  have hlooked : lookedUp scanningLocator (.ofString "A.hs") helperText
      (some (.ofString FileTree.longName)) none .fresh =
        [(Text.of "go", .ok [⟨.named "A.hs", 0, 11, Text.of "go = helper"⟩]),
          (Text.of "helper",
            .error (.location (.search (.unaskable ⟨.nameTooLong, FileTree.longName⟩))))] := by
    rw [lookedUp, lookUps_of_settledIn settledIn_scanningLocator, used_helperText, ← locate_go,
      ← locate_helper]
    rfl
  refine ⟨readText_helperTree, locate_go, ?_⟩
  rw [collect_eq (by decide) readText_helperTree, hlooked]
  rfl

end Dump
end DefinitionSite
