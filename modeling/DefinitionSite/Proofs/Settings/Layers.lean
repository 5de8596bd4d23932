import DefinitionSite.Proofs.Settings.Changes
import DefinitionSite.Settings.Load

/-! Loading the layers of the settings. A file that fails is reported and its layer does not count
as loaded, but the changes that were made before it failed stay. The loading itself breaks down only
where no home directory is known, a layer cannot be asked about or a number overflows; otherwise it
reports every file that fails, in the order of the layers. -/
namespace DefinitionSite

namespace Settings

/-- What a file that fails leaves, and why it fails. A file that is no document changes nothing; the
changes of a document are made up to the first that cannot be made. -/
inductive Halts (s : Settings) (tree : FileTree) (path : Path) : Settings → SettingsFault → Prop
  | unreadable {e : FileError} (h : tree.readBytes path = .error e) :
      Halts s tree path s (.unreadable e)
  | noDocument {bytes : List UInt8} {f : Toml.ReadFault} (hbytes : tree.readBytes path = .ok bytes)
      (h : Toml.readBytes bytes = .error f) : Halts s tree path s (.document f)
  | midway {bytes : List UInt8} {document : Toml.Table} {made rest : List Change}
      {refused : Change} {after : Settings} {f : SettingsFault}
      (hbytes : tree.readBytes path = .ok bytes) (hdocument : Toml.readBytes bytes = .ok document)
      (hchanges : changes document = made ++ refused :: rest)
      (hmade : applyAll s made = (after, none)) (hrefused : refused after = .error f) :
      Halts s tree path after f

section ApplyFile

variable {s after : Settings} {tree : FileTree} {path : Path} {f : SettingsFault}

theorem applyFile_fault_iff :
    s.applyFile tree path = (after, some f) ↔ Halts s tree path after f := by
  constructor
  · intro h
    unfold applyFile at h
    cases hbytes : tree.readBytes path with
    | error e =>
      simp only [hbytes, Prod.mk.injEq, Option.some.injEq] at h
      obtain ⟨rfl, rfl⟩ := h
      exact .unreadable hbytes
    | ok bytes =>
      simp only [hbytes] at h
      cases hdocument : Toml.readBytes bytes with
      | error g =>
        simp only [hdocument, Prod.mk.injEq, Option.some.injEq] at h
        obtain ⟨rfl, rfl⟩ := h
        exact .noDocument hbytes hdocument
      | ok document =>
        simp only [hdocument] at h
        obtain ⟨made, refused, rest, hchanges, hmade, hrefused⟩ := applyAll_fault_iff.mp h
        exact .midway hbytes hdocument hchanges hmade hrefused
  · intro h
    unfold applyFile
    cases h with
    | unreadable h => simp only [h]
    | noDocument hbytes h => simp only [hbytes, h]
    | midway hbytes hdocument hchanges hmade hrefused =>
      simp only [hbytes, hdocument]
      exact applyAll_fault_iff.mpr ⟨_, _, _, hchanges, hmade, hrefused⟩

theorem Halts.leaves (h : Halts s tree path after f) :
    after.skipDirs = s.skipDirs ∧ after.debug = s.debug := by
  cases h with
  | unreadable => exact ⟨rfl, rfl⟩
  | noDocument => exact ⟨rfl, rfl⟩
  | midway hbytes hdocument hchanges hmade hrefused =>
    exact applyDocument_leaves (applyAll_fault_iff.mpr ⟨_, _, _, hchanges, hmade, hrefused⟩)

/-- Why a file fails, if it does. -/
def fileFault? (tree : FileTree) (path : Path) : Option SettingsFault :=
  (initial.applyFile tree path).2

/-- Whether a file fails, and why, does not depend on the settings it is applied to. -/
theorem applyFile_fault (s : Settings) (tree : FileTree) (path : Path) :
    (s.applyFile tree path).2 = fileFault? tree path := by
  unfold fileFault? applyFile
  cases tree.readBytes path with
  | error e => rfl
  | ok bytes =>
    simp only
    cases Toml.readBytes bytes with
    | error f => rfl
    | ok document => exact applyAll_fault_eq (fun _ => makes_changes) s initial

end ApplyFile

end Settings

namespace Configuration
open Settings

section Layer

variable {tree : FileTree} {c : Configuration} {layer : Layer} {path : Path}

/-- All that loading a layer can come to. -/
inductive LayerStep (tree : FileTree) (c : Configuration) (layer : Layer) (path : Path) :
    Except LoadFault Configuration → Prop
  | unaskable {e : FileError} (h : tree.unaskable? path = some e) :
      LayerStep tree c layer path (.error (.file e))
  | absent (haskable : tree.unaskable? path = none) (h : tree.exists? path = false) :
      LayerStep tree c layer path (.ok c)
  | loaded {after : Settings} (hexists : tree.exists? path = true)
      (h : c.settings.applyFile tree path = (after, none)) :
      LayerStep tree c layer path (.ok ⟨after, c.source.loaded layer path.toString⟩)
  | overflowed {after : Settings} {o : Overflow} (hexists : tree.exists? path = true)
      (h : c.settings.applyFile tree path = (after, some (.overflow o))) :
      LayerStep tree c layer path (.error (.overflow o))
  | failed {after : Settings} {f : SettingsFault} (hexists : tree.exists? path = true)
      (h : c.settings.applyFile tree path = (after, some f)) (hfits : ∀ o, f ≠ .overflow o) :
      LayerStep tree c layer path (.ok ⟨after,
        { c.source with errors := c.source.errors ++ [layer.name ++ ": " ++ f.message] }⟩)

theorem layerStep (tree : FileTree) (c : Configuration) (layer : Layer) (path : Path) :
    LayerStep tree c layer path (loadLayer tree c layer path).1 := by
  unfold loadLayer
  cases haskable : tree.unaskable? path with
  | some e => exact .unaskable haskable
  | none =>
    cases hexists : tree.exists? path with
    | false => exact .absent haskable hexists
    | true =>
      simp only [Bool.not_true, Bool.false_eq_true, ↓reduceIte]
      split
      · rename_i h
        exact .loaded hexists h
      · rename_i h
        exact .overflowed hexists h
      · rename_i hfits h
        exact .failed hexists h fun o hoverflow => hfits o (by rw [hoverflow])

theorem askable_of_exists (h : tree.exists? path = true) : tree.unaskable? path = none := by
  unfold FileTree.exists? at h
  unfold FileTree.unaskable?
  split
  · rename_i hstat
    simp [hstat, Except.toOption] at h
  · rfl

theorem loadLayer_failed {after : Settings} {f : SettingsFault} (hexists : tree.exists? path = true)
    (h : c.settings.applyFile tree path = (after, some f)) (hfits : ∀ o, f ≠ .overflow o) :
    (loadLayer tree c layer path).1 = .ok ⟨after,
      { c.source with errors := c.source.errors ++ [layer.name ++ ": " ++ f.message] }⟩ := by
  unfold loadLayer
  simp only [askable_of_exists hexists, hexists, h, Bool.not_true, Bool.false_eq_true, ↓reduceIte]

end Layer

theorem loadLayers_cons (tree : FileTree) (c : Configuration) (layer : Layer × Path)
    (layers : List (Layer × Path)) : (loadLayers tree c (layer :: layers)).1 =
      (loadLayer tree c layer.1 layer.2).1.bind fun d => (loadLayers tree d layers).1 := by
  rw [loadLayers]
  generalize loadLayer tree c layer.1 layer.2 = result
  obtain ⟨loaded, log⟩ := result
  cases loaded <;> rfl

/-- The layers that are loaded, where the user's home directory is known. -/
def layersOf (platform : Platform) (env : Environment) (workspace : Option Workspace) :
    Except LoadFault (List (Layer × Path)) :=
  match globalConfigFile platform env with
  | .error e => .error (.noHome e)
  | .ok globalFile => .ok (layers globalFile workspace)

theorem load_eq (tree : FileTree) (platform : Platform) (env : Environment)
    (workspace : Option Workspace) : (load tree platform env workspace).1 =
      (layersOf platform env workspace).bind fun layers =>
        (loadLayers tree initial layers).1.map fun c => (c.applyEnvironment env).1 := by
  unfold load layersOf
  cases globalConfigFile platform env with
  | error e => rfl
  | ok globalFile =>
    simp only [Except.bind]
    generalize loadLayers tree initial (layers globalFile workspace) = result
    obtain ⟨loaded, log⟩ := result
    cases loaded <;> rfl

section Configured

/-- A file system with a user's own configuration and nothing else. -/
def configured (text : String) : FileTree where
  top := .dir [("home", .dir [(".hsdef", .dir
    [("config.toml", .file (Text.encode (Text.of text)))])])]
  cwd := []

/-- Where that configuration is. -/
def configuredPath : Path := .absolute ["home", ".hsdef", "config.toml"]

theorem stat_configured (text : String) : (configured text).stat configuredPath =
    .ok (["home", ".hsdef", "config.toml"], .file (Text.encode (Text.of text))) := by
  have hshort : FileTree.isTooLong "home" = false ∧ FileTree.isTooLong ".hsdef" = false ∧
      FileTree.isTooLong "config.toml" = false := by decide
  simp [FileTree.stat, FileTree.start, FileTree.walk, FileTree.node?, configured, configuredPath,
    Path.isAbsolute, Path.absolute, Node.at?, Node.child?, hshort]

theorem layersOf_configured :
    layersOf .posix ⟨[("HOME", "/home")], none⟩ none = .ok [(.user, configuredPath)] := by
  decide

theorem exists_configured (text : String) : (configured text).exists? configuredPath = true := by
  simp [FileTree.exists?, stat_configured, Except.toOption]

theorem readBytes_configured (text : String) :
    (configured text).readBytes configuredPath = .ok (Text.encode (Text.of text)) := by
  simp [FileTree.readBytes, stat_configured]

/-- A configuration with an engine and a time limit that is no number. -/
def fastConfig : String := "[search]\nengine = \"python\"\ntimeout = \"fast\"\n"

/-- Whether a reading is a table with two strings. -/
def holdsStrings (table : String) (first second : String × String) :
    Except Toml.ReadFault Toml.Table → Bool
  | .ok [(name, .table [(key, .string value), (key', .string value')])] =>
    (name, (key, value), (key', value')) == (table, first, second)
  | _ => false

theorem eq_of_holdsStrings {table : String} {first second : String × String}
    {reading : Except Toml.ReadFault Toml.Table}
    (h : holdsStrings table first second reading = true) :
    reading = .ok [(table,
      .table [(first.1, .string first.2), (second.1, .string second.2)])] := by
  unfold holdsStrings at h
  split at h
  · obtain ⟨rfl, rfl, rfl⟩ : _ = table ∧ _ = first ∧ _ = second := by
      simpa only [beq_iff_eq, Prod.mk.injEq] using h
    rfl
  · cases h

theorem applyFile_fastConfig (s : Settings) :
    s.applyFile (configured fastConfig) configuredPath =
      ({ s with engine := .inProcess }, some (.floatText "fast")) := by
  have hread : holdsStrings "search" ("engine", "python") ("timeout", "fast")
      (Toml.readBytes (Text.encode (Text.of fastConfig))) = true := by
    decide +kernel
  unfold applyFile
  simp only [readBytes_configured, eq_of_holdsStrings hread]
  rfl

end Configured

/-- A layer whose file fails leaves what was changed before the failure, though never other
directories to skip or another log, and the layers after it are loaded on top of that, with the
failure reported. -/
theorem loadLayers_failed {tree : FileTree} {c : Configuration} {layer : Layer} {path : Path}
    {after : Settings} {f : SettingsFault} (hexists : tree.exists? path = true)
    (h : c.settings.applyFile tree path = (after, some f)) (hfits : ∀ o, f ≠ .overflow o) :
    Halts c.settings tree path after f ∧
      after.skipDirs = c.settings.skipDirs ∧ after.debug = c.settings.debug ∧
      ∀ rest, (loadLayers tree c ((layer, path) :: rest)).1 =
        (loadLayers tree ⟨after,
          { c.source with errors := c.source.errors ++ [layer.name ++ ": " ++ f.message] }⟩
          rest).1 := by
  have hhalts := applyFile_fault_iff.mp h
  refine ⟨hhalts, hhalts.leaves.1, hhalts.leaves.2, fun rest => ?_⟩
  rw [loadLayers_cons, loadLayer_failed hexists h hfits]
  rfl

/-- The engine of a file whose time limit is no number counts. -/
theorem loadLayers_failed_fast : (configured fastConfig).exists? configuredPath = true ∧
    initial.settings.applyFile (configured fastConfig) configuredPath =
      ({ initial.settings with engine := .inProcess }, some (.floatText "fast")) ∧
    (∀ o, SettingsFault.floatText "fast" ≠ .overflow o) ∧
    ∀ rest, (loadLayers (configured fastConfig) initial ((.user, configuredPath) :: rest)).1 =
      (loadLayers (configured fastConfig)
        ⟨{ initial.settings with engine := .inProcess }, { SettingsSource.initial with
          errors := ["global: could not convert string to float: 'fast'"] }⟩ rest).1 :=
  have hexists := exists_configured fastConfig
  have hfault := applyFile_fastConfig initial.settings
  have hfits : ∀ o, SettingsFault.floatText "fast" ≠ .overflow o := by simp
  ⟨hexists, hfault, hfits, (loadLayers_failed hexists hfault hfits).2.2.2⟩

/-- A user's own file that fails is reported, and yet another engine is chosen than without it. -/
theorem load_fastConfig :
    ∃ c, (load (configured fastConfig) .posix ⟨[("HOME", "/home")], none⟩ none).1 = .ok c ∧
      c.source.errors = ["global: could not convert string to float: 'fast'"] ∧
      c.settings.engine ≠ initial.settings.engine := by
  rw [load_eq, layersOf_configured]
  simp only [Except.bind]
  rw [loadLayers_cons, loadLayer_failed (exists_configured fastConfig)
    (applyFile_fastConfig initial.settings) (by simp)]
  exact ⟨_, rfl, rfl, by decide⟩

/-- Why the file of a layer fails, if there is one and it does. -/
def failure? (tree : FileTree) (layer : Layer × Path) : Option SettingsFault :=
  if tree.exists? layer.2 then fileFault? tree layer.2 else none

/-- What is reported of a layer. -/
def report? (tree : FileTree) (layer : Layer × Path) : Option String :=
  (failure? tree layer).map fun f => layer.1.name ++ ": " ++ f.message

/-- The overflow that a file fails with, if it fails with one. -/
def overflow? : SettingsFault → Option Overflow
  | .overflow o => some o
  | _ => none

theorem overflow?_eq_none {f : SettingsFault} (h : ∀ o, f ≠ .overflow o) : overflow? f = none := by
  cases f with
  | overflow o => exact absurd rfl (h o)
  | _ => rfl

/-- What ends the loading at a layer: its path cannot be asked about, or a number overflows. -/
def breakdown? (tree : FileTree) (layer : Layer × Path) : Option LoadFault :=
  match tree.unaskable? layer.2 with
  | some e => some (.file e)
  | none => ((failure? tree layer).bind overflow?).map .overflow

theorem failure?_of_applyFile {tree : FileTree} {s after : Settings} {layer : Layer × Path}
    {fault : Option SettingsFault} (hexists : tree.exists? layer.2 = true)
    (h : s.applyFile tree layer.2 = (after, fault)) : failure? tree layer = fault := by
  rw [failure?, if_pos hexists, ← applyFile_fault s, h]

/-- A layer ends the loading, or it is passed and reported if it fails. -/
theorem loadLayer_reports (tree : FileTree) (c : Configuration) (layer : Layer × Path) :
    match breakdown? tree layer with
    | some f => (loadLayer tree c layer.1 layer.2).1 = .error f
    | none => ∃ d, (loadLayer tree c layer.1 layer.2).1 = .ok d ∧
        d.source.errors = c.source.errors ++ (report? tree layer).toList := by
  have hstep := layerStep tree c layer.1 layer.2
  generalize (loadLayer tree c layer.1 layer.2).1 = result at hstep ⊢
  cases hstep with
  | unaskable h => simp only [breakdown?, h]
  | absent haskable h =>
    have hfailure : failure? tree layer = none := by simp [failure?, h]
    simp only [breakdown?, haskable, hfailure]
    exact ⟨c, rfl, by simp [report?, hfailure]⟩
  | loaded hexists h =>
    have hfailure := failure?_of_applyFile hexists h
    simp only [breakdown?, askable_of_exists hexists, hfailure]
    refine ⟨_, rfl, ?_⟩
    cases layer.1 <;> simp [report?, hfailure, SettingsSource.loaded]
  | overflowed hexists h =>
    simp only [breakdown?, askable_of_exists hexists, failure?_of_applyFile hexists h]
    rfl
  | failed hexists h hfits =>
    have hfailure := failure?_of_applyFile hexists h
    simp only [breakdown?, askable_of_exists hexists, hfailure, Option.bind_some,
      overflow?_eq_none hfits]
    exact ⟨_, rfl, by simp [report?, hfailure]⟩

/-- The first layer that ends the loading decides; without one, every layer that fails is reported,
in order. -/
theorem loadLayers_reports (tree : FileTree) (c : Configuration) (layers : List (Layer × Path)) :
    match layers.findSome? (breakdown? tree) with
    | some f => (loadLayers tree c layers).1 = .error f
    | none => ∃ d, (loadLayers tree c layers).1 = .ok d ∧
        d.source.errors = c.source.errors ++ layers.filterMap (report? tree) := by
  induction layers generalizing c with
  | nil => exact ⟨c, rfl, by simp⟩
  | cons layer layers ih =>
    have hlayer := loadLayer_reports tree c layer
    rw [loadLayers_cons, List.findSome?_cons]
    cases hbreak : breakdown? tree layer with
    | some f =>
      rw [hbreak] at hlayer
      rw [hlayer]
      rfl
    | none =>
      rw [hbreak] at hlayer
      obtain ⟨d, hd, herrors⟩ := hlayer
      have hreports : d.source.errors ++ layers.filterMap (report? tree) =
          c.source.errors ++ (layer :: layers).filterMap (report? tree) := by
        rw [herrors, List.append_assoc, List.filterMap_cons]
        cases report? tree layer <;> rfl
      rw [hd, ← hreports]
      exact ih d

theorem applyEnvironment_errors (c : Configuration) (env : Environment) :
    (c.applyEnvironment env).1.source.errors = c.source.errors := by
  unfold applyEnvironment
  split <;> rfl

/-- Loading breaks down where no home directory is known or a layer ends it, and otherwise gives
settings and reports every layer that fails, in order. -/
theorem load_reports (tree : FileTree) (platform : Platform) (env : Environment)
    (workspace : Option Workspace) :
    match layersOf platform env workspace with
    | .error f => (load tree platform env workspace).1 = .error f
    | .ok layers =>
      match layers.findSome? (breakdown? tree) with
      | some f => (load tree platform env workspace).1 = .error f
      | none => ∃ c, (load tree platform env workspace).1 = .ok c ∧
          c.source.errors = layers.filterMap (report? tree) := by
  rw [load_eq]
  cases layersOf platform env workspace with
  | error f => rfl
  | ok layers =>
    have hlayers := loadLayers_reports tree initial layers
    simp only [Except.bind]
    cases hbreak : layers.findSome? (breakdown? tree) with
    | some f =>
      rw [hbreak] at hlayers
      rw [hlayers]
      rfl
    | none =>
      rw [hbreak] at hlayers
      obtain ⟨c, hc, herrors⟩ := hlayers
      rw [hc]
      exact ⟨_, rfl, (applyEnvironment_errors c env).trans herrors⟩

/-- Infinitely many workers in the user's own file end the loading. -/
theorem load_infiniteWorkers :
    (load (configured "[search]\nmax_workers = inf\n") .posix ⟨[("HOME", "/home")], none⟩ none).1 =
      .error (.overflow .infinityToWhole) := by
  have hbreak : breakdown? (configured "[search]\nmax_workers = inf\n") (.user, configuredPath) =
      some (.overflow .infinityToWhole) := by
    simp only [breakdown?, failure?, fileFault?, applyFile, exists_configured, readBytes_configured,
      askable_of_exists (exists_configured _), ↓reduceIte]
    decide +kernel
  have hlayer := loadLayer_reports (configured "[search]\nmax_workers = inf\n") initial
    (.user, configuredPath)
  rw [hbreak] at hlayer
  rw [load_eq, layersOf_configured]
  simp only [Except.bind]
  rw [loadLayers_cons, hlayer]
  rfl

end Configuration
end DefinitionSite
