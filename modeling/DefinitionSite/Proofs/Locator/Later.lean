import DefinitionSite.Proofs.Locator.Outcomes
import DefinitionSite.Proofs.Locator.Steps
import DefinitionSite.Ripgrep.Running
import DefinitionSite.Scripted

/-! How the run of a look-up goes on. A look-up that is cancelled stays so, whatever it does next,
and its caller's plan to cancel it is carried out when its step comes; the engine may cancel the
look-up in the midst of a search. -/
namespace DefinitionSite

/-- The second run is the first at a later moment: it is still cancelled, if it was, and it is so
too if the step came at which its caller planned to cancel it. -/
structure Run.Later (a b : Run) : Prop where
  step : a.step ≤ b.step
  plan : b.cancelAt = a.cancelAt
  kept : a.cancelled = true → b.cancelled = true
  due : ∀ n, a.cancelAt = some n → a.step < n → n ≤ b.step → b.cancelled = true

namespace Run

variable {a b c : Run}

theorem Later.refl (a : Run) : a.Later a :=
  ⟨Nat.le_refl _, rfl, id, fun n _ hlt hle => by omega⟩

theorem Later.trans (hab : a.Later b) (hbc : b.Later c) : a.Later c := by
  refine ⟨Nat.le_trans hab.step hbc.step, hbc.plan.trans hab.plan, hbc.kept ∘ hab.kept, ?_⟩
  intro n hplan hlt hle
  by_cases hn : n ≤ b.step
  · exact hbc.kept (hab.due n hplan hlt hn)
  · exact hbc.due n (hab.plan.trans hplan) (by omega) hle

theorem Later.withLog (h : a.Later b) (log : Log) : a.Later { b with log } :=
  ⟨h.step, h.plan, h.kept, h.due⟩

theorem later_say (run : Run) (level : LogLevel) (message : RawText) :
    run.Later (run.say level message) := (Later.refl run).withLog _

theorem later_tick (run : Run) : run.Later run.tick := by
  constructor
  · exact Nat.le_succ _
  · rfl
  · intro h
    simp [tick, h]
  · intro n hplan hlt hle
    have hn : n = run.step + 1 := by
      have hle : n ≤ run.step + 1 := hle
      omega
    simp [tick, hplan, hn]

/-- The run was cancelled by the time of the second moment. -/
def CancelledBy (start stop : Run) : Prop :=
  start.cancelled = true ∨
    (∃ n, start.cancelAt = some n ∧ start.step < n ∧ n ≤ stop.step) ∨ stop.cancelled = true

theorem Later.cancelled (h : a.Later b) (hcancelled : a.CancelledBy b) : b.cancelled = true := by
  rcases hcancelled with hstart | ⟨n, hplan, hlt, hle⟩ | hstop
  · exact h.kept hstart
  · exact h.due n hplan hlt hle
  · exact hstop

end Run

/-- The engine may cancel the run in a search, but it takes nothing back and makes no steps. -/
def Engine.OnlyCancels (engine : Engine) : Prop :=
  ∀ kind pattern source (run : Run), (engine.search kind pattern source run).2.step = run.step ∧
    (engine.search kind pattern source run).2.cancelAt = run.cancelAt ∧
    (run.cancelled = true → (engine.search kind pattern source run).2.cancelled = true)

section Engines

theorem InProcess.search_run (tree : FileTree) (timeout : Float) (pattern : Text) (source : Source)
    (run : Run) : ∃ log, (search tree timeout pattern source run).2 = { run with log } := by
  unfold search searchWith
  cases Regex.compile pattern with
  | error f => cases f <;> exact ⟨run.log, rfl⟩
  | ok find =>
    cases source with
    | buffer text => exact ⟨run.log, rfl⟩
    | directory root globs skipDirs =>
      simp only
      split
      · exact ⟨run.log, rfl⟩
      · exact ⟨run.log, rfl⟩
      · exact ⟨_, rfl⟩

theorem InProcess.engine_onlyCancels (tree : FileTree) (timeout : Float) :
    (engine tree timeout).OnlyCancels := by
  intro kind pattern source run
  obtain ⟨log, hlog⟩ := search_run tree timeout pattern source run
  simp [engine, hlog]

theorem Ripgrep.attend_cancelled {τ : Type} [TimeScale τ] {p : Behaviour} {deadline : Deadline τ}
    {round rounds : Nat} {input : Option Text} {now : τ} {done : Attended τ}
    (h : attend p deadline round input now true rounds = some done) : done.cancelled = true := by
  cases rounds with
  | zero => cases h
  | succ rounds =>
    obtain rfl := Option.some.inj h
    rfl

theorem Ripgrep.searchWith_cancelled {τ : Type} [TimeScale τ] {p : Behaviour}
    {executable shownLimit : String} {source : Source} {limit now : τ} {rounds : Nat}
    {done : Searched τ}
    (h : searchWith p executable shownLimit source limit now true rounds = some done) :
    done.cancelled = true := by
  unfold searchWith at h
  split at h
  · obtain rfl := Option.some.inj h
    rfl
  · obtain ⟨attended, hattend, rfl⟩ := Option.map_eq_some_iff.mp h
    exact attend_cancelled hattend

theorem Ripgrep.engine_onlyCancels (available : Bool) (executable : String) (timeout : Float)
    (processFor : Kind → Source → Behaviour) :
    (engine available executable timeout processFor).OnlyCancels := by
  intro kind pattern source run
  simp only [engine, search]
  split
  · rename_i done hsearch
    refine ⟨rfl, rfl, fun hcancelled => ?_⟩
    rw [Run.say, hcancelled] at hsearch
    exact searchWith_cancelled hsearch
  · exact ⟨rfl, rfl, id⟩

theorem Script.engine_onlyCancels (script : Script) (tree : FileTree) (timeout : Float) :
    (script.engine tree timeout).OnlyCancels := by
  intro kind pattern source run
  simp only [engine]
  split_ifs with _ hcancels
  · exact ⟨rfl, rfl, fun _ => rfl⟩
  · cases script.outcome? source.isBuffer kind with
    | some result => exact ⟨rfl, rfl, fun _ => rfl⟩
    | none =>
      obtain ⟨log, hlog⟩ := InProcess.search_run tree timeout pattern source run.cancel
      simp only [hlog]
      exact ⟨rfl, rfl, fun _ => rfl⟩
  · cases script.outcome? source.isBuffer kind with
    | some result => exact ⟨rfl, rfl, id⟩
    | none => exact InProcess.engine_onlyCancels tree timeout kind pattern source run

end Engines

theorem Engine.OnlyCancels.later {engine : Engine} (h : engine.OnlyCancels) (kind : Kind)
    (pattern : Text) (source : Source) (run : Run) :
    run.Later (engine.search kind pattern source run).2 := by
  obtain ⟨hstep, hplan, hkept⟩ := h kind pattern source run
  refine ⟨Nat.le_of_eq hstep.symm, hplan, hkept, ?_⟩
  intro n _ hlt hle
  omega

namespace Locator

variable {engine : Engine} {l : Locator} {identifier : Text} {request : Request}

section Later

theorem later_searchKinds (h : engine.OnlyCancels) (source : Source)
    (patterns : List (Kind × Text)) (run : Run) :
    run.Later (searchKinds engine source run patterns).2 := by
  induction patterns generalizing run with
  | nil => exact .refl run
  | cons pattern patterns ih =>
    unfold searchKinds
    exact ((h.later _ _ source run).trans (Run.later_tick _)).trans (ih _)

theorem later_searchAll (h : engine.OnlyCancels) (identifier : Text) (source : Source)
    (run : Run) : run.Later (searchAll engine identifier source run).2 := by
  have hkinds := later_searchKinds h source (Catalog.patterns identifier) run
  unfold searchAll
  obtain ⟨log, hlog⟩ := gather_run (searchKinds engine source run (Catalog.patterns identifier)).2
    (searchKinds engine source run (Catalog.patterns identifier)).1
  simp only [hlog]
  exact hkinds.withLog log

theorem later_scanFile (tree : FileTree) (identifier : Text) (path : Path) (run : Run) :
    run.Later (LineScan.scanFile tree identifier path run).2 := by
  unfold LineScan.scanFile
  cases tree.readText path with
  | error e => exact Run.later_say run _ _
  | ok text => exact .refl run

theorem later_scanFiles (tree : FileTree) (identifier : Text) (found : List Match)
    (files : List Path) (run : Run) :
    run.Later (LineScan.scanFiles tree identifier found run files).2 := by
  induction files generalizing found run with
  | nil => exact .refl run
  | cons path files ih =>
    have hfile := later_scanFile tree identifier path run
    unfold LineScan.scanFiles
    split_ifs
    · apply Run.later_say
    · split
      · rename_i now heq
        rw [heq] at hfile
        exact (hfile.trans (Run.later_tick now)).trans (ih found _)
      · rename_i m now heq
        rw [heq] at hfile
        exact ((hfile.trans (Run.later_say now _ _)).trans (Run.later_tick _)).trans (ih _ _)

theorem later_scanDirectory (tree : FileTree) (identifier : Text) (root : Path)
    (globs skipDirs : List String) (run : Run) :
    run.Later (LineScan.scanDirectory tree identifier root globs skipDirs run).2 := by
  unfold LineScan.scanDirectory
  split
  · exact .refl run
  · exact .refl run
  · apply later_scanFiles

theorem later_of_searchAll (h : engine.OnlyCancels) {source : Source} {run now : Run} {log : Log}
    {given : Except LocationFault Pooled}
    (hall : searchAll engine identifier source { run with log } = (given, now)) :
    run.Later now := by
  have hlater := ((Run.Later.refl run).withLog log).trans (later_searchAll h identifier source _)
  rwa [hall] at hlater

theorem later_locateByScan (l : Locator) (identifier : Text) (request : Request) (run : Run) :
    run.Later (locateByScan l identifier request run).2 := by
  have hscan : ∀ {root : Path} {scanned now}, LineScan.scanDirectory l.tree identifier root
      (globsOf request.globs) l.skipDirs run = (scanned, now) → run.Later now := by
    intro root scanned now hscan
    have hlater := later_scanDirectory l.tree identifier root (globsOf request.globs) l.skipDirs run
    rwa [hscan] at hlater
  have hstep := scanStep l identifier request run
  generalize locateByScan l identifier request run = given at hstep
  cases hstep with
  | cancelledInBuffer hrun => exact .refl run
  | hit hrun htext hbest => exact .refl run
  | noRoot hroot => exact (Run.Later.refl run).withLog _
  | noDirectory hroot hdirectory => exact (hscan hdirectory).withLog _
  | unscanned hroot hask => exact .refl run
  | cancelled hroot hdirectory hnow => exact hscan hdirectory
  | located hroot hdirectory hnow => exact (hscan hdirectory).withLog _

theorem later_inBuffer (h : l.engine.OnlyCancels) (identifier : Text) (request : Request)
    (run : Run) : run.Later (inBuffer l identifier request run).2 := by
  have hstep := bufferStep l identifier request run
  generalize inBuffer l identifier request run = given at hstep
  cases hstep with
  | noBuffer hnone => exact .refl run
  | misread htext hall => exact later_of_searchAll h hall
  | unavailable htext hall => exact later_of_searchAll h hall
  | cancelled htext hall hnow => exact later_of_searchAll h hall
  | missed htext hall hnow hbest => exact later_of_searchAll h hall
  | hit htext hall hnow hbest => exact (later_of_searchAll h hall).withLog _

theorem later_inWorkspace (h : l.engine.OnlyCancels) (identifier : Text) (request : Request)
    (run : Run) : run.Later (inWorkspace l identifier request run).2 := by
  have hstep := workspaceStep l identifier request run
  generalize inWorkspace l identifier request run = given at hstep
  cases hstep with
  | noRoot hroot => exact .refl run
  | misread hroot hall => exact later_of_searchAll h hall
  | unavailable hroot hall => exact later_of_searchAll h hall
  | cancelled hroot hall hnow => exact later_of_searchAll h hall
  | ungrouped hroot hall hnow hgroup => exact later_of_searchAll h hall
  | located hroot hall hnow hgroup => exact (later_of_searchAll h hall).withLog _

theorem later_locateByEngine (h : l.engine.OnlyCancels) (identifier : Text) (request : Request)
    (run : Run) : run.Later (locateByEngine l identifier request run).2 := by
  have hbuffer := later_inBuffer h identifier request run
  unfold locateByEngine
  split
  · rename_i now heq
    rw [heq] at hbuffer
    exact hbuffer.trans (later_inWorkspace h identifier request now)
  · exact hbuffer

/-- A look-up takes no cancellation back, and keeps to what was planned. -/
theorem later_locate (h : l.engine.OnlyCancels) (request : Request) (run : Run) :
    run.Later (locate l request run).2 := by
  unfold locate
  simp only
  split_ifs
  · exact .refl run
  · exact (Run.later_say run _ _).trans (later_locateByScan l _ request _)
  · have hengine := later_locateByEngine h (wanted request.identifier) request run
    split
    · rename_i heq
      rwa [heq] at hengine
    · rename_i why now heq
      rw [heq] at hengine
      exact hengine.trans ((Run.later_say now _ _).trans (later_locateByScan l _ request _))
    · rename_i heq
      rwa [heq] at hengine

end Later

end Locator
end DefinitionSite
