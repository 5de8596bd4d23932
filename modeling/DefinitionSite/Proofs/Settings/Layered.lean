import DefinitionSite.Proofs.Settings.LastWriter
import DefinitionSite.Proofs.Settings.Layers
import DefinitionSite.Proofs.Settings.Reading

/-! The layers of the settings, where every file loads or is absent: the defaults, the user's own
file, that of the workspace and the environment. Each setting has the value of the last of them that
sets it, and the last one that counts is named as the source. -/
namespace DefinitionSite

namespace Settings

section Files

variable {tree : FileTree} {path : Path} {s t : Settings}

/-- What the bytes of a document set, if it can be read. -/
def Partial.ofBytes? (bytes : List UInt8) : Option Partial :=
  (Toml.readBytes bytes).toOption.bind fun document => (ofDocument document).toOption

/-- What the file at a path sets, if there is one that can be read. -/
def Partial.ofFile? (tree : FileTree) (path : Path) : Option Partial :=
  (tree.readBytes path).toOption.bind ofBytes?

/-- A file of settings is absent, or it loads without a fault. -/
inductive Passes (tree : FileTree) (path : Path) : Prop
  | absent (haskable : tree.unaskable? path = none) (h : tree.exists? path = false)
  | loads (hexists : tree.exists? path = true) (h : fileFault? tree path = none)

theorem applyFile_ok (h : s.applyFile tree path = (t, none)) :
    ∃ p, Partial.ofFile? tree path = some p ∧ t = s.override p := by
  unfold applyFile at h
  unfold Partial.ofFile?
  cases hbytes : tree.readBytes path with
  | error e => rw [hbytes] at h; cases h
  | ok bytes =>
    simp only [hbytes] at h
    cases hdocument : Toml.readBytes bytes with
    | error f => rw [hdocument] at h; cases h
    | ok document =>
      simp only [hdocument] at h
      obtain ⟨p, hp, rfl⟩ := applyDocument_ok h
      refine ⟨p, ?_, rfl⟩
      simp [Except.toOption, Partial.ofBytes?, hdocument, hp]

theorem ofFile?_of_absent (h : tree.exists? path = false) : Partial.ofFile? tree path = none := by
  unfold FileTree.exists? at h
  unfold Partial.ofFile? FileTree.readBytes
  cases hstat : tree.stat path with
  | error f => rfl
  | ok node => rw [hstat] at h; cases h

end Files

end Settings

namespace Configuration
open Settings

section Loading

variable {tree : FileTree} {layers : List (Layer × Path)}

/-- A layer that passes overrides the settings by what its file sets, if there is one, and counts as
loaded then. -/
theorem loadLayer_passes {path : Path} (h : Passes tree path) (c : Configuration) (layer : Layer) :
    ∃ d, (loadLayer tree c layer path).1 = .ok d ∧
      (Partial.ofFile? tree path).isSome = tree.exists? path ∧
      d.settings = (Partial.ofFile? tree path).elim c.settings c.settings.override ∧
      d.source.loadedFrom = if tree.exists? path then layer.name else c.source.loadedFrom := by
  have hstep := layerStep tree c layer path
  generalize (loadLayer tree c layer path).1 = result at hstep ⊢
  cases h with
  | absent haskable habsent =>
    cases hstep with
    | absent => exact ⟨c, rfl, by simp [ofFile?_of_absent habsent, habsent]⟩
    | unaskable hunaskable => cases haskable.symm.trans hunaskable
    | loaded hexists => cases habsent.symm.trans hexists
    | overflowed hexists => cases habsent.symm.trans hexists
    | failed hexists => cases habsent.symm.trans hexists
  | loads hexists hfault =>
    have hnone : (c.settings.applyFile tree path).2 = none := (applyFile_fault _ _ _).trans hfault
    cases hstep with
    | loaded _ happly =>
      obtain ⟨p, hp, rfl⟩ := applyFile_ok happly
      refine ⟨_, rfl, by rw [hp, hexists]; rfl, by rw [hp]; rfl, ?_⟩
      rw [if_pos hexists]
      cases layer <;> rfl
    | unaskable hunaskable => cases (askable_of_exists hexists).symm.trans hunaskable
    | absent _ habsent => cases habsent.symm.trans hexists
    | overflowed _ happly => rw [happly] at hnone; cases hnone
    | failed _ happly => rw [happly] at hnone; cases hnone

/-- Layers that pass override the settings one after the other, and the last one that is there
counts as the source. -/
theorem loadLayers_passes (h : ∀ layer ∈ layers, Passes tree layer.2) (c : Configuration) :
    ∃ d, (loadLayers tree c layers).1 = .ok d ∧
      (∀ layer ∈ layers, (Partial.ofFile? tree layer.2).isSome = tree.exists? layer.2) ∧
      d.settings = (layers.filterMap (Partial.ofFile? tree ·.2)).foldl override c.settings ∧
      d.source.loadedFrom = layers.foldl
        (fun source layer => if tree.exists? layer.2 then layer.1.name else source)
        c.source.loadedFrom := by
  induction layers generalizing c with
  | nil => exact ⟨c, rfl, by simp, rfl, rfl⟩
  | cons layer layers ih =>
    obtain ⟨hlayer, hlayers⟩ := List.forall_mem_cons.mp h
    obtain ⟨d, hd, hfile, hsettings, hsource⟩ := loadLayer_passes hlayer c layer.1
    obtain ⟨e, he, hfiles, hsettings', hsource'⟩ := ih hlayers d
    refine ⟨e, ?_, List.forall_mem_cons.mpr ⟨hfile, hfiles⟩, ?_, ?_⟩
    · rw [loadLayers_cons, hd]
      exact he
    · rw [hsettings', hsettings]
      cases hp : Partial.ofFile? tree layer.2 <;> simp [hp]
    · rw [hsource', hsource]
      rfl

end Loading

section Load

variable {tree : FileTree} {platform : Platform} {env : Environment} {globalFile : Path}
  {workspace : Option Workspace}

/-- The files that settings are loaded from. -/
def files (globalFile : Path) (workspace : Option Workspace) : List Path :=
  globalFile :: (workspace.bind Workspace.configFile).toList

/-- What the user's own file, that of the workspace and the environment set, in this order. -/
def sources (tree : FileTree) (env : Environment) (globalFile : Path)
    (workspace : Option Workspace) : List Partial :=
  (Partial.ofFile? tree globalFile).toList ++
    ((workspace.bind Workspace.configFile).bind (Partial.ofFile? tree)).toList ++
    [Partial.ofEnvironment env]

/-- Settings in layers: the defaults, and on top of them what the files and the environment set. -/
structure Layered (tree : FileTree) (env : Environment) (globalFile : Path)
    (workspace : Option Workspace) (c : Configuration) : Prop where
  /-- Every file that is there is a source. -/
  files : ∀ path ∈ files globalFile workspace,
    (Partial.ofFile? tree path).isSome = tree.exists? path
  /-- The last source that sets something decides it. -/
  lastWins : LastWins (.whole .initial :: sources tree env globalFile workspace) c.settings
  /-- What no source sets stays as it is by default, whatever else the sources set. -/
  value {α : Type} (x : Setting α) :
    (∀ p ∈ sources tree env globalFile workspace, x.setBy p = none) →
      x.get c.settings = x.get .initial
  language (name : String) :
    (∀ p ∈ sources tree env globalFile workspace, ∀ e ∈ p.languages, e.1 ≠ name) →
      c.settings.language? name = Settings.initial.language? name
  /-- No language that a source sets is lost. -/
  kept : ∀ p ∈ .whole .initial :: sources tree env globalFile workspace,
    ∀ e ∈ p.languages, (c.settings.language? e.1).isSome
  /-- The environment is named as the source if it sets anything, and the last file that is there
  otherwise. -/
  loadedFrom : c.source.loadedFrom =
    if !(Partial.ofEnvironment env).isSilent then "env"
    else if (workspace.bind Workspace.configFile).any tree.exists? then "local"
    else if tree.exists? globalFile then "global"
    else "default"

/-- The environment overrides the settings by what it sets, and is named as their source if that is
anything. -/
theorem applyEnvironment_eq (c : Configuration) (env : Environment) :
    (c.applyEnvironment env).1 = ⟨c.settings.override (.ofEnvironment env), { c.source with
      loadedFrom := if !(Partial.ofEnvironment env).isSilent then "env"
        else c.source.loadedFrom }⟩ := by
  rw [← foldl_overrides]
  unfold applyEnvironment
  cases hoverrides : overrides env with
  | nil => simp [overrides_eq_nil.mp hoverrides]
  | cons e rest =>
    have hset : (Partial.ofEnvironment env).isSilent = false := by
      rw [← Bool.not_eq_true, ← overrides_eq_nil, hoverrides]
      exact List.cons_ne_nil e rest
    simp [hset]

theorem map_layers : (layers globalFile workspace).map (·.2) = files globalFile workspace := by
  unfold layers files
  cases workspace.bind Workspace.configFile <;> rfl

theorem filterMap_layers : (layers globalFile workspace).filterMap (Partial.ofFile? tree ·.2) ++
    [Partial.ofEnvironment env] = sources tree env globalFile workspace := by
  unfold layers sources
  cases workspace.bind Workspace.configFile with
  | none => cases hglobal : Partial.ofFile? tree globalFile <;> simp [hglobal]
  | some path =>
    cases hglobal : Partial.ofFile? tree globalFile <;>
      cases hlocal : Partial.ofFile? tree path <;> simp [hglobal, hlocal]

/-- Where every file of settings loads or is absent, each setting has the value of the last source
that sets it. -/
theorem load_layered (hglobal : globalConfigFile platform env = .ok globalFile)
    (hpasses : ∀ path ∈ files globalFile workspace, Passes tree path) :
    ∃ c, (load tree platform env workspace).1 = .ok c ∧
      Layered tree env globalFile workspace c := by
  have hlayersOf : layersOf platform env workspace = .ok (layers globalFile workspace) := by
    rw [layersOf, hglobal]
  have hlayers : ∀ layer ∈ layers globalFile workspace, Passes tree layer.2 := by
    rw [← map_layers] at hpasses
    exact List.forall_mem_map.mp hpasses
  obtain ⟨c, hc, hfiles, hsettings, hsource⟩ := loadLayers_passes hlayers initial
  have hlast : LastWins (.whole .initial :: sources tree env globalFile workspace)
      (c.settings.override (.ofEnvironment env)) := by
    -- The environment is the last of the sources, so the layers and it are one run of overriding.
    have hfold := LastWins.initial.foldl_override (sources tree env globalFile workspace)
    rw [← filterMap_layers, List.foldl_append] at hfold
    rw [hsettings, ← filterMap_layers]
    exact hfold
  refine ⟨(c.applyEnvironment env).1, ?_, ?_⟩
  · rw [load_eq, hlayersOf]
    simp only [Except.bind, hc]
    rfl
  rw [applyEnvironment_eq]
  exact
    { files := by
        rw [← map_layers]
        exact List.forall_mem_map.mpr hfiles
      lastWins := hlast
      value := fun x => hlast.value_eq
      language := fun name hsilent =>
        (hlast.language?_eq hsilent).trans (by rw [LastWins.initial.language]; rfl)
      kept := fun p hp e => hlast.language?_isSome hp
      loadedFrom := by
        rw [hsource]
        unfold layers
        cases workspace.bind Workspace.configFile <;> rfl }

section Twice

/-- A file system with a user's own configuration and that of a project. -/
def configuredTwice (own shared : String) : FileTree where
  top := .dir [
    ("home", .dir [(".hsdef", .dir [("config.toml", .file (Text.encode (Text.of own)))])]),
    ("work", .dir [(".hsdef", .dir [("config.toml", .file (Text.encode (Text.of shared)))])])]
  cwd := []

/-- That project. -/
def project : Workspace := ⟨some (.absolute ["work"])⟩

/-- Where its configuration is. -/
def projectPath : Path := .absolute ["work", ".hsdef", "config.toml"]

variable (own shared : String)

theorem stat_configuredTwice : (configuredTwice own shared).stat configuredPath =
      .ok (["home", ".hsdef", "config.toml"], .file (Text.encode (Text.of own))) ∧
    (configuredTwice own shared).stat projectPath =
      .ok (["work", ".hsdef", "config.toml"], .file (Text.encode (Text.of shared))) := by
  have hshort : FileTree.isTooLong "home" = false ∧ FileTree.isTooLong "work" = false ∧
      FileTree.isTooLong ".hsdef" = false ∧ FileTree.isTooLong "config.toml" = false := by decide
  constructor <;>
    simp [FileTree.stat, FileTree.start, FileTree.walk, FileTree.node?, configuredTwice,
      configuredPath, projectPath, Path.isAbsolute, Path.absolute, Node.at?, Node.child?, hshort]

theorem readBytes_configuredTwice :
    (configuredTwice own shared).readBytes configuredPath = .ok (Text.encode (Text.of own)) ∧
    (configuredTwice own shared).readBytes projectPath = .ok (Text.encode (Text.of shared)) := by
  simp [FileTree.readBytes, stat_configuredTwice]

theorem files_project : files configuredPath (some project) = [configuredPath, projectPath] := rfl

/-- A configuration with an engine and a number of workers. -/
def engineConfig : String := "[search]\nengine = \"python\"\nmax_workers = 8\n"

/-- A configuration with another number of workers. -/
def workersConfig : String := "[search]\nmax_workers = 2\n"

/-- An environment with a home directory and the path of the external program. -/
def pathEnvironment : Environment := ⟨[("HOME", "/home"), ("HSDEF_RG_PATH", "/opt/rg")], none⟩

theorem passes_configuredTwice : ∀ path ∈ files configuredPath (some project),
    Passes (configuredTwice engineConfig workersConfig) path := by
  rw [files_project]
  simp only [List.forall_mem_cons, List.not_mem_nil, false_implies, implies_true, and_true]
  constructor
  · refine .loads (by simp [FileTree.exists?, stat_configuredTwice, Except.toOption]) ?_
    simp only [fileFault?, applyFile, readBytes_configuredTwice]
    decide +kernel
  · refine .loads (by simp [FileTree.exists?, stat_configuredTwice, Except.toOption]) ?_
    simp only [fileFault?, applyFile, readBytes_configuredTwice]
    decide +kernel

/-- What a source sets of the engine, the path of the external program and the workers. -/
def searchSettings (p : Partial) : Option EngineChoice × Option String × Option Int :=
  (p.engine, p.ripgrepPath, p.maxWorkers)

theorem sources_configuredTwice : ∃ p q,
    sources (configuredTwice engineConfig workersConfig) pathEnvironment configuredPath
      (some project) = [p, q, .ofEnvironment pathEnvironment] ∧
    searchSettings p = (some .inProcess, none, some 8) ∧
    searchSettings q = (none, none, some 2) := by
  have hown : (Partial.ofBytes? (Text.encode (Text.of engineConfig))).map searchSettings =
      some (some .inProcess, none, some 8) := by
    decide +kernel
  have hshared : (Partial.ofBytes? (Text.encode (Text.of workersConfig))).map searchSettings =
      some (none, none, some 2) := by
    decide +kernel
  have hproject : (some project).bind Workspace.configFile = some projectPath := rfl
  obtain ⟨p, hp, hpset⟩ := Option.map_eq_some_iff.mp hown
  obtain ⟨q, hq, hqset⟩ := Option.map_eq_some_iff.mp hshared
  refine ⟨p, q, ?_, hpset, hqset⟩
  simp [sources, hproject, Partial.ofFile?, readBytes_configuredTwice, Except.toOption, hp, hq]

/-- The user's own file chooses the engine, the project's the number of workers and the environment
the path. -/
theorem load_layered_twice :
    ∃ c, (load (configuredTwice engineConfig workersConfig) .posix pathEnvironment
        (some project)).1 = .ok c ∧
      c.settings.engine = .inProcess ∧ c.settings.maxWorkers = 2 ∧
      c.settings.ripgrepPath = "/opt/rg" ∧ c.source.loadedFrom = "env" := by
  have hglobal : globalConfigFile .posix pathEnvironment = .ok configuredPath := by decide
  obtain ⟨c, hc, hlayered⟩ := load_layered hglobal passes_configuredTwice
  obtain ⟨p, q, hsources, hp, hq⟩ := sources_configuredTwice
  have henvironment : searchSettings (.ofEnvironment pathEnvironment) =
      (none, some "/opt/rg", none) := by
    decide
  simp only [searchSettings, Prod.mk.injEq] at hp hq henvironment
  have hvalue {α : Type} (x : Setting α) := (hlayered.lastWins.value x).symm
  rw [hsources] at hvalue
  refine ⟨c, hc, ?_, ?_, ?_, ?_⟩
  · simpa [Setting.setBy, Setting.get, hp, hq, henvironment] using hvalue .engine
  · simpa [Setting.setBy, Setting.get, hp, hq, henvironment] using hvalue .maxWorkers
  · simpa [Setting.setBy, Setting.get, hp, hq, henvironment] using hvalue .ripgrepPath
  · rw [hlayered.loadedFrom]
    simp [Partial.isSilent, henvironment]

end Twice

end Load
end Configuration
end DefinitionSite
