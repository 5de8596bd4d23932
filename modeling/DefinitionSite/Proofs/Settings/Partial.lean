import DefinitionSite.Environment
import DefinitionSite.Proofs.Settings.Setting

/-! What one source of settings sets. A document that loads can be read into partial settings
without knowing the settings it is applied to, and so can the environment; applying either puts what
it sets in place and leaves the rest. -/
namespace DefinitionSite.Settings

open Toml (Value Table)

/-- Partial settings: those that one source sets. Languages are listed as they are set. -/
structure Partial where
  engine : Option EngineChoice
  ripgrepPath : Option String
  timeout : Option Float
  maxWorkers : Option Int
  languages : List (String × List String)
  skipDirs : Option (List String)
  debug : Option Bool

/-- A value as the file name patterns of a language: a string is a single pattern. -/
def globsOf : Value → Except SettingsFault (List String)
  | .string glob => .ok [glob]
  | v => itemsOf v

namespace Setting

variable {α : Type}

/-- The value that a source sets. -/
def setBy (p : Partial) : Setting α → Option α
  | .engine => p.engine
  | .ripgrepPath => p.ripgrepPath
  | .timeout => p.timeout
  | .maxWorkers => p.maxWorkers
  | .skipDirs => p.skipDirs
  | .debug => p.debug

/-- What a document has where a setting is mentioned. -/
def mentioned? (document : Table) : Setting α → Option Value
  | .engine => (Toml.entry? "search" document).bind (under? "engine")
  | .ripgrepPath => (Toml.entry? "search" document).bind (under? "ripgrep_path")
  | .timeout => (Toml.entry? "search" document).bind (under? "timeout")
  | .maxWorkers => (Toml.entry? "search" document).bind (under? "max_workers")
  | .skipDirs => (Toml.entry? "workspace" document).bind (under? "skip_dirs")
  | .debug => Toml.entry? "debug" document

/-- What a document sets. A value that does not count is passed over; one that counts has to be
readable. -/
def inDocument (document : Table) (x : Setting α) : Except SettingsFault (Option α) :=
  ((x.mentioned? document).filter x.counts).mapM x.read

end Setting

namespace Partial

/-- Settings as a source that sets all of them. -/
def whole (s : Settings) : Partial :=
  ⟨s.engine, s.ripgrepPath, s.timeout, s.maxWorkers, s.languages, s.skipDirs, s.debug⟩

/-- Whether nothing is set. -/
def isSilent (p : Partial) : Bool :=
  p.engine.isNone && p.ripgrepPath.isNone && p.timeout.isNone && p.maxWorkers.isNone &&
    p.languages.isEmpty && p.skipDirs.isNone && p.debug.isNone

/-- The languages of a document. -/
def languagesIn (document : Table) : Table :=
  match Toml.entry? "languages" document with
  | some (.table entries) => entries
  | _ => []

/-- What a document sets, if everything that counts in it can be read. -/
def ofDocument (document : Table) : Except SettingsFault Partial := do
  return {
    engine := ← Setting.engine.inDocument document
    ripgrepPath := ← Setting.ripgrepPath.inDocument document
    timeout := ← Setting.timeout.inDocument document
    maxWorkers := ← Setting.maxWorkers.inDocument document
    languages := ← (languagesIn document).mapM fun e => (globsOf e.2).map (e.1, ·)
    skipDirs := ← Setting.skipDirs.inDocument document
    debug := ← Setting.debug.inDocument document }

/-- What the environment sets: an engine that there is, a path, numbers that can be read, and never
that less is logged. -/
def ofEnvironment (env : Environment) : Partial where
  engine := (env.given? "HSDEF_ENGINE").bind EngineChoice.ofName?
  ripgrepPath := env.given? "HSDEF_RG_PATH"
  timeout := (env.given? "HSDEF_SEARCH_TIMEOUT").bind fun v => Decimal.readFloat? v.toList
  maxWorkers :=
    (env.given? "HSDEF_MAX_WORKERS").bind fun v => (Decimal.readInt v.toList).toOption
  languages := []
  skipDirs := none
  debug :=
    let asked := ((env.get? "HSDEF_DEBUG").getD "").toList.map Char.toLower
    if String.ofList asked ∈ ["1", "true", "yes"] then some true else none

end Partial

/-- The settings with languages set one after the other. -/
def setLanguages (s : Settings) (languages : List (String × List String)) : Settings :=
  languages.foldl (fun s e => s.setLanguage e.1 e.2) s

/-- The settings with what a source sets in place of what they were. -/
def override (s : Settings) (p : Partial) : Settings :=
  { s.setLanguages p.languages with
    engine := p.engine.getD s.engine
    ripgrepPath := p.ripgrepPath.getD s.ripgrepPath
    timeout := p.timeout.getD s.timeout
    maxWorkers := p.maxWorkers.getD s.maxWorkers
    skipDirs := p.skipDirs.getD s.skipDirs
    debug := p.debug.getD s.debug }

/-- Setting languages concerns the languages alone, and only the languages matter for it. -/
theorem setLanguages_eq {s t : Settings} (h : t.languages = s.languages)
    (languages : List (String × List String)) :
    t.setLanguages languages = { t with languages := (s.setLanguages languages).languages } := by
  induction languages generalizing s t with
  | nil => rw [setLanguages, setLanguages, List.foldl_nil, List.foldl_nil, ← h]
  | cons e languages ih =>
    have hset : (t.setLanguage e.1 e.2).languages = (s.setLanguage e.1 e.2).languages := by
      simp only [setLanguage, h]
    exact ih hset

end DefinitionSite.Settings
