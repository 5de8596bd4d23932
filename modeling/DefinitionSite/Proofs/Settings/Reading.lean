import DefinitionSite.Proofs.Settings.Changes
import DefinitionSite.Proofs.Settings.Partial
import DefinitionSite.Settings.Load

/-! Applying a source of settings. Each change of a document reads one setting and puts it in place,
so a document that loads overrides the settings by what it sets, whatever they were; and the
variables of the environment override them by what the environment sets. -/
namespace DefinitionSite.Settings

open Toml (Value Table)

section Document

variable {s t : Settings} {change : Change} {changes rest : List Change} {document : Table}

theorem applyAll_cons_ok (h : applyAll s (change :: rest) = (t, none)) :
    ∃ u, change s = .ok u ∧ applyAll u rest = (t, none) := by
  rw [applyAll] at h
  cases hchange : change s with
  | error f => rw [hchange] at h; cases h
  | ok u => exact ⟨u, rfl, by rw [hchange] at h; exact h⟩

theorem applyAll_append_ok (h : applyAll s (changes ++ rest) = (t, none)) :
    ∃ u, applyAll s changes = (u, none) ∧ applyAll u rest = (t, none) := by
  rw [applyAll_append] at h
  generalize applyAll s changes = result at h ⊢
  obtain ⟨u, _ | f⟩ := result
  · exact ⟨u, rfl, h⟩
  · cases h

theorem settingChange_ok {α : Type} {x : Setting α} {key : String} {v : Value}
    (h : settingChange x key v s = .ok t) :
    ∃ value, ((under? key v).filter x.counts).mapM x.read = .ok value ∧
      t = x.put s (value.getD (x.get s)) := by
  unfold settingChange at h
  cases hmember : member? key v with
  | error f => rw [hmember] at h; cases h
  | ok found =>
    rw [hmember] at h
    rw [← member?_ok hmember]
    simp only [bind, Except.bind] at h
    cases hfound : found.filter x.counts with
    | none =>
      rw [hfound] at h
      exact ⟨none, rfl, (Except.ok.inj h).symm.trans (x.put_get s).symm⟩
    | some w =>
      simp only [hfound] at h
      cases hread : x.read w with
      | error f => rw [hread] at h; cases h
      | ok value =>
        rw [hread] at h
        exact ⟨some value, by simp [hread], (Except.ok.inj h).symm⟩

/-- A section of a document begins by setting what stands under a key. -/
theorem changesUnder_cons_ok {α : Type} {x : Setting α} {sectionName key : String}
    {more : Value → List Change}
    (h : applyAll s (changesUnder document sectionName fun v => settingChange x key v :: more v) =
      (t, none)) :
    ∃ value, (((Toml.entry? sectionName document).bind (under? key)).filter x.counts).mapM x.read =
        .ok value ∧
      applyAll (x.put s (value.getD (x.get s))) (changesUnder document sectionName more) =
        (t, none) := by
  unfold changesUnder at h ⊢
  cases hsection : Toml.entry? sectionName document with
  | none =>
    rw [hsection] at h
    exact ⟨none, rfl, by rw [Option.getD_none, x.put_get]; exact h⟩
  | some v =>
    rw [hsection] at h
    obtain ⟨u, hchange, hrest⟩ := applyAll_cons_ok h
    obtain ⟨value, hvalue, rfl⟩ := settingChange_ok hchange
    exact ⟨value, hvalue, hrest⟩

theorem changesUnder_nil_ok {sectionName : String}
    (h : applyAll s (changesUnder document sectionName fun _ => []) = (t, none)) : t = s := by
  unfold changesUnder at h
  cases hsection : Toml.entry? sectionName document with
  | none => rw [hsection] at h; exact (Prod.mk.inj h).1.symm
  | some v => rw [hsection] at h; exact (Prod.mk.inj h).1.symm

theorem searchUnder_ok (h : applyAll s (changesUnder document "search" fun v =>
      [engineChange v, ripgrepPathChange v, timeoutChange v, workersChange v]) = (t, none)) :
    ∃ engine ripgrepPath timeout maxWorkers,
      Setting.engine.inDocument document = .ok engine ∧
      Setting.ripgrepPath.inDocument document = .ok ripgrepPath ∧
      Setting.timeout.inDocument document = .ok timeout ∧
      Setting.maxWorkers.inDocument document = .ok maxWorkers ∧
      t = { s with
        engine := engine.getD s.engine
        ripgrepPath := ripgrepPath.getD s.ripgrepPath
        timeout := timeout.getD s.timeout
        maxWorkers := maxWorkers.getD s.maxWorkers } := by
  simp only [engineChange_eq, ripgrepPathChange_eq, timeoutChange_eq, workersChange_eq] at h
  obtain ⟨engine, hengine, h⟩ := changesUnder_cons_ok h
  obtain ⟨ripgrepPath, hripgrepPath, h⟩ := changesUnder_cons_ok h
  obtain ⟨timeout, htimeout, h⟩ := changesUnder_cons_ok h
  obtain ⟨maxWorkers, hmaxWorkers, h⟩ := changesUnder_cons_ok h
  exact ⟨engine, ripgrepPath, timeout, maxWorkers, hengine, hripgrepPath, htimeout, hmaxWorkers,
    changesUnder_nil_ok h⟩

theorem workspaceUnder_ok
    (h : applyAll s (changesUnder document "workspace" fun v => [skipDirsChange v]) = (t, none)) :
    ∃ skipDirs, Setting.skipDirs.inDocument document = .ok skipDirs ∧
      t = { s with skipDirs := skipDirs.getD s.skipDirs } := by
  simp only [skipDirsChange_eq] at h
  obtain ⟨skipDirs, hskipDirs, h⟩ := changesUnder_cons_ok h
  exact ⟨skipDirs, hskipDirs, changesUnder_nil_ok h⟩

theorem languageChange_ok {language : String} {v : Value}
    (h : languageChange language v s = .ok t) :
    ∃ globs, globsOf v = .ok globs ∧ t = s.setLanguage language globs := by
  unfold languageChange at h
  split at h
  · exact ⟨_, rfl, (Except.ok.inj h).symm⟩
  · rename_i hstring
    cases hitems : itemsOf v with
    | error f => rw [hitems] at h; cases h
    | ok globs =>
      rw [hitems] at h
      refine ⟨globs, ?_, (Except.ok.inj h).symm⟩
      cases v with
      | string glob => exact absurd rfl (hstring glob)
      | _ => exact hitems

theorem languageChanges_ok {entries : Table}
    (h : applyAll s (entries.map fun e => languageChange e.1 e.2) = (t, none)) :
    ∃ languages, entries.mapM (fun e => (globsOf e.2).map (e.1, ·)) = .ok languages ∧
      t = s.setLanguages languages := by
  induction entries generalizing s with
  | nil => exact ⟨[], rfl, (Prod.mk.inj h).1.symm⟩
  | cons e entries ih =>
    obtain ⟨u, hchange, hrest⟩ := applyAll_cons_ok h
    obtain ⟨globs, hglobs, rfl⟩ := languageChange_ok hchange
    obtain ⟨languages, hlanguages, rfl⟩ := ih hrest
    refine ⟨(e.1, globs) :: languages, ?_, rfl⟩
    simp only [List.mapM_cons, hglobs, hlanguages]
    rfl

theorem languagesUnder_ok
    (h : applyAll s (changesUnder document "languages" languageChanges) = (t, none)) :
    ∃ languages, (Partial.languagesIn document).mapM
        (fun e => (globsOf e.2).map (e.1, ·)) = .ok languages ∧ t = s.setLanguages languages := by
  unfold changesUnder at h
  unfold Partial.languagesIn
  cases hsection : Toml.entry? "languages" document with
  | none =>
    rw [hsection] at h
    exact ⟨[], rfl, (Prod.mk.inj h).1.symm⟩
  | some v =>
    rw [hsection] at h
    cases v with
    | table entries => exact languageChanges_ok h
    | _ => cases h

theorem debugUnder_ok
    (h : applyAll s (changesUnder document "debug" fun v => [debugChange v]) = (t, none)) :
    ∃ value, Setting.debug.inDocument document = .ok value ∧
      t = { s with debug := value.getD s.debug } := by
  unfold changesUnder at h
  unfold Setting.inDocument Setting.mentioned?
  cases hdebug : Toml.entry? "debug" document with
  | none => rw [hdebug] at h; exact ⟨none, rfl, (Prod.mk.inj h).1.symm⟩
  | some v => rw [hdebug] at h; exact ⟨some v.isTruthy, rfl, (Prod.mk.inj h).1.symm⟩

/-- A document that loads can be read, and the settings are overridden by what it sets. -/
theorem applyDocument_ok (h : s.applyDocument document = (t, none)) :
    ∃ p, Partial.ofDocument document = .ok p ∧ t = s.override p := by
  obtain ⟨s₃, h, hlast⟩ := applyAll_append_ok h
  obtain ⟨s₂, h, hthird⟩ := applyAll_append_ok h
  obtain ⟨s₁, hfirst, hsecond⟩ := applyAll_append_ok h
  obtain ⟨engine, ripgrepPath, timeout, maxWorkers, hengine, hripgrepPath, htimeout, hmaxWorkers,
    hs₁⟩ := searchUnder_ok hfirst
  obtain ⟨languages, hlanguages, rfl⟩ := languagesUnder_ok hsecond
  obtain ⟨skipDirs, hskipDirs, rfl⟩ := workspaceUnder_ok hthird
  obtain ⟨debug, hdebug, rfl⟩ := debugUnder_ok hlast
  refine ⟨⟨engine, ripgrepPath, timeout, maxWorkers, languages, skipDirs, debug⟩, ?_, ?_⟩
  · simp only [Partial.ofDocument, hengine, hripgrepPath, htimeout, hmaxWorkers, hlanguages,
      hskipDirs, hdebug]
    rfl
  · -- The languages are set after the search, which leaves them alone, so they could be set first.
    have hsame : s₁.languages = s.languages := by rw [hs₁]
    rw [override, setLanguages_eq hsame, hs₁]

end Document

section Environment

variable {env : Environment}

theorem debugOverride_eq : debugOverride env =
    (Partial.ofEnvironment env).debug.map fun value s => Setting.debug.put s value := by
  unfold debugOverride Partial.ofEnvironment
  simp only [List.contains_iff_mem]
  split <;> rfl

/-- A variable overrides a setting where the environment sets it. -/
theorem overrides_eq : overrides env =
    [("HSDEF_ENGINE", (Partial.ofEnvironment env).engine.map fun value s =>
        Setting.engine.put s value),
      ("HSDEF_RG_PATH", (Partial.ofEnvironment env).ripgrepPath.map fun value s =>
        Setting.ripgrepPath.put s value),
      ("HSDEF_SEARCH_TIMEOUT", (Partial.ofEnvironment env).timeout.map fun value s =>
        Setting.timeout.put s value),
      ("HSDEF_MAX_WORKERS", (Partial.ofEnvironment env).maxWorkers.map fun value s =>
        Setting.maxWorkers.put s value),
      ("HSDEF_DEBUG", (Partial.ofEnvironment env).debug.map fun value s =>
        Setting.debug.put s value)].filterMap fun e => e.2.map fun change => (e.1, change) := by
  rw [overrides, debugOverride_eq]
  rfl

theorem overrides_eq_nil : overrides env = [] ↔ (Partial.ofEnvironment env).isSilent = true := by
  rw [overrides_eq]
  simp [Partial.isSilent, Partial.ofEnvironment, and_assoc]

theorem getD_map_put {α : Type} (x : Setting α) (value : Option α) (s : Settings) :
    (value.map fun v s => x.put s v).getD id s = x.put s (value.getD (x.get s)) := by
  cases value with
  | none => exact (x.put_get s).symm
  | some v => rfl

/-- Of named changes, those that are missing are passed over. -/
theorem foldl_named_cons (name : String) (change : Option (Settings → Settings))
    (rest : List (String × Option (Settings → Settings))) (s : Settings) :
    (((name, change) :: rest).filterMap fun e => e.2.map fun c => (e.1, c)).foldl
        (fun s e => e.2 s) s =
      (rest.filterMap fun e => e.2.map fun c => (e.1, c)).foldl (fun s e => e.2 s)
        (change.getD id s) := by
  cases change <;> rfl

/-- The environment overrides the settings by what it sets. -/
theorem foldl_overrides (s : Settings) :
    (overrides env).foldl (fun s e => e.2 s) s = s.override (Partial.ofEnvironment env) := by
  rw [overrides_eq]
  simp only [foldl_named_cons, getD_map_put]
  rfl

end Environment
end DefinitionSite.Settings
