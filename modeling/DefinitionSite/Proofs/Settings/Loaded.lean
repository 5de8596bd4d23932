import DefinitionSite.Proofs.Settings.Layers

/-! The files that loaded settings name as their sources: those that are there and can be
applied. -/
namespace DefinitionSite

/-- The file that was loaded as a layer, if one was. -/
def SettingsSource.file (s : SettingsSource) : Layer → Option String
  | .user => s.globalFile
  | .workspace => s.localFile

namespace Configuration
open Settings

/-- Whether there is a file at a path that can be applied. -/
def loads (tree : FileTree) (path : Path) : Bool :=
  tree.exists? path && (fileFault? tree path).isNone

variable {tree : FileTree} {c d : Configuration} {layer : Layer} {path globalFile : Path}
  {platform : Platform} {env : Environment} {workspace : Option Workspace}

/-- Loading a layer names its file if that can be applied, and leaves the other layer's. -/
theorem loadLayer_file (h : (loadLayer tree c layer path).1 = .ok d) (other : Layer) :
    d.source.file other =
      if other = layer ∧ loads tree path = true then some path.toString
      else c.source.file other := by
  have hstep := layerStep tree c layer path
  rw [h] at hstep
  cases hstep with
  | absent _ hmissing => simp [loads, hmissing]
  | loaded hexists happly =>
    have hloads : loads tree path = true := by
      rw [loads, hexists, ← applyFile_fault c.settings, happly]
      rfl
    cases layer <;> cases other <;> simp [hloads, SettingsSource.loaded, SettingsSource.file]
  | failed hexists happly =>
    have hfails : loads tree path = false := by
      rw [loads, hexists, ← applyFile_fault c.settings, happly]
      rfl
    cases other <;> simp [hfails, SettingsSource.file]

theorem exists_loadLayer (h : loads tree path = true) (c : Configuration) (layer : Layer) :
    ∃ d, (loadLayer tree c layer path).1 = .ok d := by
  obtain ⟨hexists, hfault⟩ := Bool.and_eq_true_iff.mp h
  rw [← applyFile_fault c.settings, Option.isNone_iff_eq_none] at hfault
  have hstep := layerStep tree c layer path
  generalize (loadLayer tree c layer path).1 = result at hstep
  cases hstep with
  | unaskable hunaskable => cases (askable_of_exists hexists).symm.trans hunaskable
  | absent _ hmissing => cases hexists.symm.trans hmissing
  | loaded => exact ⟨_, rfl⟩
  | overflowed _ happly => simp [happly] at hfault
  | failed _ happly => simp [happly] at hfault

theorem applyEnvironment_file (c : Configuration) (env : Environment) (layer : Layer) :
    (c.applyEnvironment env).1.source.file layer = c.source.file layer := by
  unfold applyEnvironment
  split
  · rfl
  · cases layer <;> rfl

theorem bind_eq_ok {ε α β : Type} {x : Except ε α} {f : α → Except ε β} {b : β}
    (h : x.bind f = .ok b) : ∃ a, x = .ok a ∧ f a = .ok b := by
  cases x with
  | error e => cases h
  | ok a => exact ⟨a, rfl, h⟩

/-- The layers in turn: the user's own file, and that of the workspace if there is one. -/
theorem load_ok (hglobal : globalConfigFile platform env = .ok globalFile)
    (h : (load tree platform env workspace).1 = .ok c) :
    ∃ own all, (loadLayer tree initial .user globalFile).1 = .ok own ∧
      (match workspace.bind Workspace.configFile with
        | none => all = own
        | some file => (loadLayer tree own .workspace file).1 = .ok all) ∧
      c = (all.applyEnvironment env).1 := by
  rw [load_eq, layersOf, hglobal] at h
  obtain ⟨all, hall, rfl⟩ : ∃ all,
      (loadLayers tree initial (layers globalFile workspace)).1 = .ok all ∧
        (all.applyEnvironment env).1 = c := by
    cases hlayers : (loadLayers tree initial (layers globalFile workspace)).1 with
    | error f => simp [Except.bind, hlayers, Except.map] at h
    | ok all => exact ⟨all, rfl, by simpa [Except.bind, hlayers, Except.map] using h⟩
  rw [layers, loadLayers_cons] at hall
  obtain ⟨own, hown, hrest⟩ := bind_eq_ok hall
  refine ⟨own, all, hown, ?_, rfl⟩
  cases hfile : workspace.bind Workspace.configFile with
  | none =>
    rw [hfile] at hrest
    exact (Except.ok.inj hrest).symm
  | some file =>
    rw [hfile, Option.map_some, Option.toList_some, loadLayers_cons] at hrest
    obtain ⟨last, hlast, hnil⟩ := bind_eq_ok hrest
    obtain rfl : last = all := Except.ok.inj hnil
    exact hlast

/-- Settings are loaded where every layer is there and can be applied. -/
theorem exists_load (hglobal : globalConfigFile platform env = .ok globalFile)
    (h : ∀ layer ∈ layers globalFile workspace, loads tree layer.2 = true) :
    ∃ c, (load tree platform env workspace).1 = .ok c := by
  have hlayers : ∀ (some : List (Layer × Path)) (c : Configuration),
      (∀ layer ∈ some, loads tree layer.2 = true) → ∃ d, (loadLayers tree c some).1 = .ok d := by
    intro some c hsome
    induction some generalizing c with
    | nil => exact ⟨c, rfl⟩
    | cons layer rest ih =>
      obtain ⟨hlayer, hrest⟩ := List.forall_mem_cons.mp hsome
      obtain ⟨d, hd⟩ := exists_loadLayer hlayer c layer.1
      rw [loadLayers_cons, hd]
      exact ih d hrest
  obtain ⟨c, hc⟩ := hlayers _ initial h
  rw [load_eq, layersOf, hglobal]
  exact ⟨(c.applyEnvironment env).1, by simp [Except.bind, hc, Except.map]⟩

/-- Loaded settings name the user's own file and that of the workspace just if they can be
applied. -/
theorem load_files (hglobal : globalConfigFile platform env = .ok globalFile)
    (h : (load tree platform env workspace).1 = .ok c) :
    c.source.globalFile = (if loads tree globalFile then some globalFile.toString else none) ∧
      c.source.localFile = (workspace.bind Workspace.configFile).bind fun file =>
        if loads tree file then some file.toString else none := by
  obtain ⟨own, all, hown, hall, rfl⟩ := load_ok hglobal h
  have hfiles : ∀ layer, all.source.file layer = match layer with
      | .user => if loads tree globalFile then some globalFile.toString else none
      | .workspace => (workspace.bind Workspace.configFile).bind fun file =>
          if loads tree file then some file.toString else none := by
    cases hfile : workspace.bind Workspace.configFile with
    | none =>
      rw [hfile] at hall
      subst hall
      intro layer
      rw [loadLayer_file hown]
      cases layer <;> simp [initial, SettingsSource.initial, SettingsSource.file]
    | some file =>
      rw [hfile] at hall
      intro layer
      rw [loadLayer_file hall, loadLayer_file hown]
      cases layer <;> simp [initial, SettingsSource.initial, SettingsSource.file]
  exact ⟨(applyEnvironment_file all env .user).trans (hfiles .user),
    (applyEnvironment_file all env .workspace).trans (hfiles .workspace)⟩

end Configuration
end DefinitionSite
