import DefinitionSite.Proofs.Locator.Later
import DefinitionSite.Proofs.Locator.Origins

/-! A look-up that is cancelled before its last search or scan is over gives no location, whenever
that happens: before it begins, in a search, or after any of its searches and scans. It still fails
where it has no root or cannot ask about its root. -/
namespace DefinitionSite

theorem Ripgrep.engine_failsAtRoots (available : Bool) (executable : String) (timeout : Float)
    (processFor : Kind → Source → Behaviour) (tree : FileTree) :
    (engine available executable timeout processFor).FailsAtRoots tree := by
  intro identifier kind source run f h
  cases h

theorem Script.engine_failsAtRoots (script : Script) (tree : FileTree) (timeout : Float) :
    (script.engine tree timeout).FailsAtRoots tree := by
  intro identifier kind source run f h
  unfold Script.engine at h
  simp only at h
  split at h
  · cases h
  · split at h
    · cases h
    · exact InProcess.engine_failsAtRoots tree timeout identifier kind source _ f h

namespace Locator

variable {engine : Engine} {l : Locator} {identifier : Text} {request : Request}

section Cancelled

/-- What a look-up that is cancelled leaves: nothing, or that no workspace was given where the
engine needs one at once, or that the searches of the engine cannot be put together, or that the
root cannot be asked about. -/
inductive Withheld (l : Locator) (identifier : Text) (request : Request) :
    Except LocateFault (List Location) → Prop
  | nothing : Withheld l identifier request (.ok [])
  | noRoot (havailable : l.engine.available = true) (hroot : request.root = none)
      (hbuffer : someText request.buffer = none) : Withheld l identifier request (.error .noRoot)
  | misread {source : Source} {now after : Run} {f : LocationFault}
      (hsource : l.Searches request source)
      (hsearch : searchAll l.engine identifier source now = (.error f, after)) :
      Withheld l identifier request (.error (.location f))
  | unscanned {root : Path} {e : FileError} (hroot : request.root = some root)
      (hask : l.tree.askDir root = .error e) :
      Withheld l identifier request (.error (.location (.search (.unaskable e))))

variable {run after : Run} {result : Except LocateFault (List Location)}

/-- The line scan looks at the cancellation after the buffer, before each file and at the end. -/
theorem locateByScan_cancelled
    (h : (locateByScan l identifier request run).2.cancelled = true) :
    (locateByScan l identifier request run).1 = .ok [] ∨
      RootUnaskable l request (locateByScan l identifier request run).1 := by
  have hstep := scanStep l identifier request run
  generalize locateByScan l identifier request run = given at h hstep
  cases hstep with
  | cancelledInBuffer | noRoot | noDirectory | cancelled => exact .inl rfl
  | hit hrun htext hscan => exact absurd (h.symm.trans hrun) (by decide)
  | unscanned hroot hask => exact .inr ⟨_, _, hroot, hask, rfl⟩
  | located hroot hscan hnow => exact absurd (h.symm.trans hnow) (by decide)

/-- After a buffer without a match the line scan goes on as one that has no buffer. -/
theorem locateByScan_withoutBuffer (hrun : run.cancelled = false)
    (hnone : ∀ text, someText request.buffer = some text → scanText identifier text = none) :
    locateByScan l identifier request run =
      locateByScan l identifier { request with buffer := none } run := by
  have hbind : ((someText request.buffer).bind fun text =>
      Match.best (LineScan.scan identifier text .buffer)) = none :=
    Option.bind_eq_none_iff.mpr hnone
  unfold locateByScan
  simp only [hbind, hrun, Bool.and_false, Bool.false_eq_true, ↓reduceIte]
  rfl

theorem inBuffer_goOn_cancelled (h : inBuffer l identifier request run = (.goOn, after))
    (hafter : after.cancelled = true) : someText request.buffer = none := by
  have hstep := bufferStep l identifier request run
  rw [h] at hstep
  cases hstep with
  | noBuffer hnone => exact hnone
  | missed htext hall hnow hbest => exact absurd (hafter.symm.trans hnow) (by decide)

theorem inBuffer_cancelled (h : inBuffer l identifier request run = (.answer result, after))
    (hafter : after.cancelled = true) : Withheld l identifier request result := by
  have hstep := bufferStep l identifier request run
  rw [h] at hstep
  cases hstep with
  | misread htext hall => exact .misread (.buffer htext) hall
  | cancelled htext hall hnow => exact .nothing
  | hit htext hall hnow hbest => exact absurd (hafter.symm.trans hnow) (by decide)

theorem inWorkspace_cancelled (havailable : l.engine.available = true)
    (hbuffer : run.cancelled = true → someText request.buffer = none)
    (h : inWorkspace l identifier request run = (.answer result, after))
    (hafter : after.cancelled = true) : Withheld l identifier request result := by
  have hstep := workspaceStep l identifier request run
  rw [h] at hstep
  cases hstep with
  | noRoot hroot => exact .noRoot havailable hroot (hbuffer hafter)
  | misread hroot hall => exact .misread (.workspace hroot) hall
  | cancelled hroot hall hnow => exact .nothing
  | ungrouped hroot hall hnow hgroup => exact absurd (hafter.symm.trans hnow) (by decide)
  | located hroot hall hnow hgroup => exact absurd (hafter.symm.trans hnow) (by decide)

theorem locateByScan_withheld
    (h : (locateByScan l identifier request run).2.cancelled = true) :
    Withheld l identifier request (locateByScan l identifier request run).1 := by
  obtain hnothing | ⟨root, e, hroot, hask, hfault⟩ := locateByScan_cancelled h
  · rw [hnothing]
    exact .nothing
  · rw [hfault]
    exact .unscanned hroot hask

/-- A look-up that ends cancelled withholds what it has found. -/
theorem locate_withheld (h : (locate l request run).2.cancelled = true) :
    Withheld l (wanted request.identifier) request (locate l request run).1 := by
  revert h
  unfold locate
  simp only
  split_ifs with _ havailable
  · intro _
    exact .nothing
  · exact locateByScan_withheld
  · have havailable : l.engine.available = true := by simpa using havailable
    unfold locateByEngine
    cases hbuffer : inBuffer l (wanted request.identifier) request run with
    | mk next now =>
      cases next with
      | answer result => exact inBuffer_cancelled hbuffer
      | scan why => exact locateByScan_withheld
      | goOn =>
        simp only
        cases hworkspace : inWorkspace l (wanted request.identifier) request now with
        | mk next later =>
          cases next with
          | answer result =>
            exact inWorkspace_cancelled havailable (inBuffer_goOn_cancelled hbuffer) hworkspace
          | scan why => exact locateByScan_withheld
          | goOn => exact fun _ => .nothing

end Cancelled

/-- What a cancelled look-up comes to. -/
structure StaysSilent (l : Locator) (request : Request) (run : Run) : Prop where
  noLocation : ∀ locations, (locate l request run).1 = .ok locations → locations = []
  outcome : l.engine.ReportsText → l.engine.FailsAtRoots l.tree →
    (locate l request run).1 = .ok [] ∨
      ((locate l request run).1 = .error .noRoot ∧ l.engine.available = true ∧
        request.root = none ∧ someText request.buffer = none) ∨
      RootUnaskable l request (locate l request run).1
  /-- Between the buffer and the first file of a line scan it may be cancelled, too. -/
  resumed : ∀ identifier now, now.cancelled = false →
    (∀ text, someText request.buffer = some text → scanText identifier text = none) →
    locateByScan l identifier request now =
        locateByScan l identifier { request with buffer := none } now ∧
      ∀ later : Run,
        later.CancelledBy (locateByScan l identifier { request with buffer := none } later).2 →
        (locateByScan l identifier { request with buffer := none } later).1 = .ok [] ∨
          RootUnaskable l request
            (locateByScan l identifier { request with buffer := none } later).1

/-- A look-up that is cancelled by its end does not answer, whenever that happens. -/
theorem locate_staysSilent (l : Locator) (hengine : l.engine.OnlyCancels) (request : Request)
    (run : Run) (hcancelled : run.CancelledBy (locate l request run).2) :
    StaysSilent l request run := by
  have hwithheld := locate_withheld ((later_locate hengine request run).cancelled hcancelled)
  constructor
  · intro locations hresult
    rw [hresult] at hwithheld
    cases hwithheld
    rfl
  · intro hreports hfails
    generalize (locate l request run).1 = result at hwithheld
    cases hwithheld with
    | nothing => exact .inl rfl
    | noRoot havailable hroot hbuffer => exact .inr (.inl ⟨rfl, havailable, hroot, hbuffer⟩)
    | misread hsource hsearch =>
      exact .inr (.inr (rootUnaskable_of_searchAll hreports hfails hsource hsearch))
    | unscanned hroot hask => exact .inr (.inr ⟨_, _, hroot, hask, rfl⟩)
  · intro identifier now hnow hnone
    refine ⟨locateByScan_withoutBuffer hnow hnone, ?_⟩
    intro later hlater
    exact locateByScan_cancelled ((later_locateByScan l identifier _ later).cancelled hlater)

/-- Searches that all report a leaf. -/
def leafy : Script where
  available := true
  waitsForCancel := false
  cancels := fun _ _ => false
  outcome? := fun _ _ => some (.ofEvents [⟨none, .number 1, .text (Text.of "leaf = 1")⟩])

/-- A locator that searches so. -/
def leafyLocator : Locator where
  tree := ⟨.dir [], []⟩
  engine := leafy.engine ⟨.dir [], []⟩ 5.0
  skipDirs := []

/-- A request for the leaf of a buffer. -/
def leafyRequest : Request := ⟨some (Text.of "leaf"), some (Text.of "leaf = 1"), none, none, none⟩

/-- A course whose caller cancels it after the third search. -/
def cutShort : Run := { Run.fresh with cancelAt := some 3 }

theorem reportsText_leafy : leafyLocator.engine.ReportsText := by
  intro kind pattern source run result hresult event hevent
  obtain rfl : SearchResult.ofEvents [⟨none, .number 1, .text (Text.of "leaf = 1")⟩] = result :=
    Except.ok.inj hresult
  obtain rfl := List.mem_singleton.mp hevent
  exact ⟨_, rfl⟩

/-- The look-up finds the leaf, but not when its caller cancels it after the third search. -/
theorem locate_staysSilent_leafy :
    leafyLocator.engine.OnlyCancels ∧ leafyLocator.engine.ReportsText ∧
      leafyLocator.engine.FailsAtRoots leafyLocator.tree ∧
      cutShort.CancelledBy (locate leafyLocator leafyRequest cutShort).2 ∧
      StaysSilent leafyLocator leafyRequest cutShort ∧
      (locate leafyLocator leafyRequest cutShort).1 = .ok [] ∧
      ∃ location, (locate leafyLocator leafyRequest .fresh).1 = .ok [location] := by
  have hengine : leafyLocator.engine.OnlyCancels := leafy.engine_onlyCancels ⟨.dir [], []⟩ 5.0
  have hcancelled : cutShort.CancelledBy (locate leafyLocator leafyRequest cutShort).2 :=
    Or.inr (Or.inl ⟨3, rfl, by decide, by decide⟩)
  exact ⟨hengine, reportsText_leafy, leafy.engine_failsAtRoots ⟨.dir [], []⟩ 5.0, hcancelled,
    locate_staysSilent leafyLocator hengine leafyRequest cutShort hcancelled, rfl, _, rfl⟩

/-- A locator whose engine cannot run. -/
def scanLocator : Locator where
  tree := ⟨.dir [], []⟩
  engine := { leafyLocator.engine with available := false }
  skipDirs := []

/-- A request for a leaf below a root of three hundred letters. -/
def longRequest : Request :=
  ⟨some (Text.of "leaf"), none, some (.ofString FileTree.longName), none, none⟩

/-- The look-up below such a root fails, cancelled as it is before it begins. -/
theorem locate_cancelled_longName :
    Run.fresh.cancel.CancelledBy (locate scanLocator longRequest Run.fresh.cancel).2 ∧
      (locate scanLocator longRequest Run.fresh.cancel).1 =
        .error (.location (.search (.unaskable ⟨.nameTooLong, FileTree.longName⟩))) :=
  ⟨.inl rfl, locate_unaskable (by decide) rfl (by simp [longRequest, someText]) rfl
    (FileTree.askDir_longName rfl)⟩

end Locator
end DefinitionSite
