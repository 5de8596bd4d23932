import DefinitionSite.CommandLine.Run
import DefinitionSite.Proofs.Locator.RootNeeded

/-! A command always has a root at hand. A workspace that is opened has one, so no look-up in it
asks for a root, and a command that ends with the exit code of that was not understood. -/
namespace DefinitionSite.CommandLine
open Locator (locate NeedsRoot ValidPaths Degraded Answers)

section Opened

variable {tree : FileTree} {root file : Option Path} {w : Workspace}

theorem exists_root_of_ofRoot {p : Path} (h : Workspace.ofRoot tree p = .ok w) :
    ∃ real, w.root = some real := by
  unfold Workspace.ofRoot at h
  cases hreal : tree.resolve p with
  | error f => simp [hreal, Except.map] at h
  | ok real =>
    obtain rfl : ⟨some real⟩ = w := by simpa [hreal, Except.map] using h
    exact ⟨real, rfl⟩

/-- A workspace that is opened has a root. -/
theorem exists_root_of_openWorkspace (h : openWorkspace tree root file = .ok w) :
    ∃ real, w.root = some real := by
  unfold openWorkspace at h
  cases root with
  | some root => exact exists_root_of_ofRoot h
  | none =>
    cases hfound : Workspace.discover tree ((file.map Path.parent).getD tree.here) with
    | error f => simp [hfound, bind, Except.bind] at h
    | ok found =>
      simp only [hfound, bind, Except.bind] at h
      split_ifs at h with hroot
      · obtain rfl : found = w := by simpa [pure, Except.pure] using h
        exact Option.isSome_iff_exists.mp hroot
      · exact exists_root_of_ofRoot h

end Opened

section Exit

variable {m : Machine} {tree : FileTree}

@[simp] theorem exitCode_after (err : String) (o : Outcome) :
    (Outcome.after err o).exitCode = o.exitCode := rfl

@[simp] theorem exitCode_ofFault (fault : CommandFault) :
    (Outcome.ofFault tree fault).exitCode = 1 := rfl

@[simp] theorem exitCode_printed (stdout : String) : (Outcome.printed tree stdout).exitCode = 0 :=
  rfl

@[simp] theorem exitCode_failed (code : Nat) (stderr : String) :
    (Outcome.failed tree code stderr).exitCode = code := rfl

theorem exitCode_showLocations (workspace : Workspace) (identifier : Text) (json : Bool)
    (locations : List Location) :
    (showLocations tree workspace identifier json locations).exitCode ≠ 2 := by
  unfold showLocations
  split_ifs <;> simp

/-- A look-up in an opened workspace does not ask for a root, so the command does not tell that
there is none. -/
theorem exitCode_findIn {o : FindOptions} {workspace : Workspace} {root : Path}
    (hroot : workspace.root = some root) (identifier : Text) (p : Prepared) :
    (findIn m o workspace identifier p).exitCode ≠ 2 := by
  unfold findIn
  simp only
  split
  · simp
  · rename_i buffer file _
    generalize hrequest : (Request.mk (some identifier) buffer workspace.root _ _) = request
    generalize hlook : locate _ request .fresh = look
    obtain ⟨result, run⟩ := look
    rw [exitCode_after]
    split
    · simp
    · rename_i hnoRoot
      have hneeds := (Locator.locate_noRoot_iff _ request .fresh).mp (hlook ▸ hnoRoot)
      have hnone := hneeds.noRoot
      rw [← hrequest] at hnone
      cases hnone.symm.trans hroot
    · apply exitCode_showLocations

theorem exitCode_find {o : FindOptions} (h : (find m o).exitCode = 2) :
    ∃ form fault, find m o = .refused m.tree form fault := by
  unfold find at h ⊢
  split at h
  · exact ⟨_, _, rfl⟩
  · simp at h
  · split at h
    · simp at h
    · rename_i workspace hworkspace
      obtain ⟨root, hroot⟩ := exists_root_of_openWorkspace hworkspace
      split at h
      · simp at h
      · rename_i p told hprepared
        exact absurd h (exitCode_findIn hroot _ p)

theorem exitCode_deliver (output : Option Path) (report : String) :
    (deliver m output report).exitCode ≠ 2 := by
  unfold deliver
  split
  · simp
  · split <;> simp

theorem exitCode_dump (o : DumpOptions) : (dump m o).exitCode ≠ 2 := by
  unfold dump
  split
  · simp
  · split
    · simp
    · rw [exitCode_after, dumpIn]
      simp only
      split
      · simp
      · rw [exitCode_after]
        split
        · simp
        · simp
        · simp
        · apply exitCode_deliver

theorem exitCode_init (path : Option Path) : (init m path).exitCode ≠ 2 := by
  unfold init
  simp only
  split
  · simp
  · split
    · simp
    · split
      · simp
      · split <;> simp

theorem exitCode_showSettings (c : Configuration) (globalFile : Path) :
    (showSettings m c globalFile).exitCode ≠ 2 := by
  unfold showSettings
  split
  · simp
  · simp only
    split_ifs
    · split <;> simp
    · simp

theorem exitCode_config (globalOnly : Bool) : (config m globalOnly).exitCode ≠ 2 := by
  unfold config
  simp only
  split
  · simp
  · split
    · simp
    · simp
    · rw [exitCode_after]
      apply exitCode_showSettings

/-- Only a command line that is not understood ends with the exit code of a missing root. -/
theorem refused_of_exitCode {arguments : List String}
    (h : (CommandLine.run m arguments).exitCode = 2) :
    ∃ form fault, CommandLine.run m arguments = .refused m.tree form fault := by
  unfold CommandLine.run at h ⊢
  split at h
  · rename_i form fault _
    cases fault with
    | badPath f => simp at h
    | _ => exact ⟨form, _, rfl⟩
  · rename_i command _
    cases command with
    | help form => simp [Command.run] at h
    | version => simp [Command.run] at h
    | find o => exact exitCode_find h
    | dump o => exact absurd h (exitCode_dump o)
    | init path => exact absurd h (exitCode_init path)
    | config globalOnly => exact absurd h (exitCode_config globalOnly)

end Exit

/-- A look-up asks for a root just if it comes to search a workspace with the engine and none was
given, and when the engine cannot run it answers, unless its root cannot be asked about. A command
opens a workspace that has a root, so no look-up in it asks for one, and none ends with the exit
code of that but when the command line is not understood. -/
theorem lookUps_askForRoot (l : Locator) (request : Request) (run : Run) (m : Machine)
    (arguments : List String) :
    ((locate l request run).1 = .error .noRoot ↔ NeedsRoot l request run) ∧
    (ValidPaths l request → l.engine.ReportsText → l.engine.FailsAtRoots l.tree →
      Degraded l request run → Answers l request (locate l request run).1) ∧
    (∀ root file workspace, openWorkspace m.tree root file = .ok workspace →
      (∃ real, workspace.root = some real) ∧
      (request.root = workspace.root → (locate l request run).1 ≠ .error .noRoot) ∧
      ∀ o identifier p, (findIn m o workspace identifier p).exitCode ≠ 2) ∧
    ((CommandLine.run m arguments).exitCode = 2 →
      ∃ form fault, CommandLine.run m arguments = .refused m.tree form fault) := by
  refine ⟨Locator.locate_noRoot_iff l request run, Locator.answers_locate_degraded, ?_,
    refused_of_exitCode⟩
  intro root file workspace hworkspace
  obtain ⟨real, hreal⟩ := exists_root_of_openWorkspace hworkspace
  refine ⟨⟨real, hreal⟩, fun hroot hnoRoot => ?_, fun o identifier p =>
    exitCode_findIn hreal identifier p⟩
  have hneeds := (Locator.locate_noRoot_iff l request run).mp hnoRoot
  cases (hneeds.noRoot.symm.trans hroot).trans hreal

/-- A machine with an empty file system. -/
def bareMachine : Machine := ⟨⟨.dir [], []⟩, ⟨[], none⟩, .posix, none, ""⟩

/-- A request for a leaf from a buffer that has none, in the workspace of that machine. -/
def bareRequest : Request := { Locator.unsteadyRequest with root := some (.ofString "/") }

theorem openWorkspace_bare : openWorkspace bareMachine.tree (some (.ofString "/")) none =
    .ok ⟨some (.ofString "/")⟩ := by
  have hpath : Path.ofString "/" = .absolute [] := by decide
  rw [hpath]
  simp [openWorkspace, Workspace.ofRoot, FileTree.resolve, FileTree.realFrom, FileTree.stat,
    FileTree.walk, FileTree.node?, FileTree.namesOf, FileTree.tidy, FileTree.start,
    Path.isAbsolute, Path.absolute, Path.holdsNull, Node.at?, bareMachine, Except.map]

theorem reportsText_unsteady : Locator.unsteady.engine.ReportsText := by
  intro kind pattern source now result hresult event hevent
  obtain rfl : Locator.unsteadyOutcome kind pattern source = result := Except.ok.inj hresult
  cases kind <;>
    simp [Locator.unsteadyOutcome, SearchResult.ofEvents, SearchResult.fail] at hevent
  exact ⟨Text.of "leaf = 1", by rw [hevent]⟩

theorem failsAtRoots_unsteady : Locator.unsteady.engine.FailsAtRoots Locator.unsteady.tree := by
  intro identifier kind source now f h
  cases h

/-- The search of the buffer for a constructor cannot run its engine. -/
theorem degraded_unsteady : Degraded Locator.unsteady bareRequest .fresh := by
  have hkinds : ∀ run, ∃ after, Locator.searchKinds Locator.unsteady.engine
      (.buffer (Text.of "tree = 2")) run (Catalog.patterns (Text.of "leaf")) =
        (Kind.all.map fun kind => (kind, .ok (Locator.unsteadyOutcome kind
          (Catalog.patternText (Text.of "leaf") kind) (.buffer (Text.of "tree = 2")))), after) ∧
      True := fun run =>
    Locator.searchKinds_outcomes (fun kind run _ => ⟨run, rfl, trivial⟩) Kind.all trivial
  have hmem : (Kind.constructor, .ok (SearchResult.fail .unavailable "rg: not found")) ∈
      (Locator.bufferSearches Locator.unsteady (Text.of "leaf") (Text.of "tree = 2")
        .fresh).1 := by
    obtain ⟨after, hafter, -⟩ := hkinds (Run.fresh.say .debug _)
    rw [Locator.bufferSearches, hafter]
    exact List.mem_map.mpr ⟨.constructor, Locator.mem_all _, rfl⟩
  exact .inBuffer rfl hmem rfl

theorem askDir_bare : Locator.unsteady.tree.askDir (.ofString "/") = .ok true := by
  refine FileTree.askDir_true_iff.mpr ⟨by decide, by decide, ?_⟩
  have hpath : Path.ofString "/" = .absolute [] := by decide
  simp [hpath, FileTree.isDir, FileTree.stat, FileTree.walk, FileTree.node?, FileTree.start,
    Path.isAbsolute, Path.absolute, Node.at?, Node.isDir, Locator.unsteady, Except.toOption]

/-- The machine is asked to find nothing in particular, and a look-up in its workspace goes on
without the engine. -/
theorem lookUps_askForRoot_bare :
    ValidPaths Locator.unsteady bareRequest ∧ Locator.unsteady.engine.ReportsText ∧
    Locator.unsteady.engine.FailsAtRoots Locator.unsteady.tree ∧
    Degraded Locator.unsteady bareRequest .fresh ∧
    (∃ locations, (locate Locator.unsteady bareRequest .fresh).1 = .ok locations) ∧
    openWorkspace bareMachine.tree (some (.ofString "/")) none = .ok ⟨some (.ofString "/")⟩ ∧
    (locate Locator.unsteady bareRequest .fresh).1 ≠ .error .noRoot ∧
    (CommandLine.run bareMachine ["find"]).exitCode = 2 ∧
    ∃ form fault, CommandLine.run bareMachine ["find"] = .refused bareMachine.tree form fault := by
  have hpaths : ValidPaths Locator.unsteady bareRequest := by
    refine ⟨?_, ?_, ?_⟩
    · show Locator.unsteady.tree.top.isSound = true
      decide
    · intro root hroot
      obtain rfl : .ofString "/" = root := by simpa [bareRequest] using hroot
      apply Path.spelled_ofString
    · simp [bareRequest, Locator.unsteadyRequest]
  have hexit : (CommandLine.run bareMachine ["find"]).exitCode = 2 := by decide +kernel
  obtain ⟨-, hdegraded, hopened, hrefused⟩ :=
    lookUps_askForRoot Locator.unsteady bareRequest .fresh bareMachine ["find"]
  have hanswers : ∃ locations, (locate Locator.unsteady bareRequest .fresh).1 = .ok locations := by
    rcases hdegraded hpaths reportsText_unsteady failsAtRoots_unsteady degraded_unsteady with
      hanswer | ⟨root, e, hroot, hask, -⟩
    · exact hanswer
    · obtain rfl : .ofString "/" = root := by simpa [bareRequest] using hroot
      cases askDir_bare.symm.trans hask
  exact ⟨hpaths, reportsText_unsteady, failsAtRoots_unsteady, degraded_unsteady, hanswers,
    openWorkspace_bare, (hopened _ _ _ openWorkspace_bare).2.1 rfl, hexit, hrefused hexit⟩

/-- A look-up without an engine below a root of three hundred letters does not answer. -/
theorem locate_scan_longName :
    ValidPaths Locator.scanLocator Locator.longRequest ∧
      Degraded Locator.scanLocator Locator.longRequest .fresh ∧
      (locate Locator.scanLocator Locator.longRequest .fresh).1 =
        .error (.location (.search (.unaskable ⟨.nameTooLong, FileTree.longName⟩))) := by
  have hpaths : ValidPaths Locator.scanLocator Locator.longRequest := by
    refine ⟨?_, ?_, ?_⟩
    · show Locator.scanLocator.tree.top.isSound = true
      decide
    · intro root hroot
      obtain rfl : .ofString FileTree.longName = root := by simpa [Locator.longRequest] using hroot
      apply Path.spelled_ofString
    · simp [Locator.longRequest]
  exact ⟨hpaths, .switchedOff rfl, Locator.locate_unaskable (by decide) rfl
    (by simp [Locator.longRequest, Locator.someText]) rfl (FileTree.askDir_longName rfl)⟩

end DefinitionSite.CommandLine
