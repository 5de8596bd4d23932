import Mathlib.Tactic.Common
import DefinitionSite.Settings.Document

/-! The settings that have a single value. A change of one of them is the same for each: what stands
under its key is read, if it counts, and put in place. -/
namespace DefinitionSite.Settings

open Toml (Value)

/-- The settings that have a single value, by the type of that value. All but the languages do. -/
inductive Setting : Type → Type where
  | engine : Setting EngineChoice
  | ripgrepPath : Setting String
  | timeout : Setting Float
  | maxWorkers : Setting Int
  | skipDirs : Setting (List String)
  | debug : Setting Bool

/-- A value as the name of an engine. -/
def engineOf (v : Value) : Except SettingsFault EngineChoice := do
  let name ← stringOf v
  match EngineChoice.ofName? name with
  | some engine => return engine
  | none => throw (.unknownEngine ⟨name⟩)

namespace Setting

variable {α : Type}

/-- The value of a setting. -/
def get (s : Settings) : Setting α → α
  | .engine => s.engine
  | .ripgrepPath => s.ripgrepPath
  | .timeout => s.timeout
  | .maxWorkers => s.maxWorkers
  | .skipDirs => s.skipDirs
  | .debug => s.debug

/-- The settings with one of them changed. -/
def put (s : Settings) : Setting α → α → Settings
  | .engine, value => { s with engine := value }
  | .ripgrepPath, value => { s with ripgrepPath := value }
  | .timeout, value => { s with timeout := value }
  | .maxWorkers, value => { s with maxWorkers := value }
  | .skipDirs, value => { s with skipDirs := value }
  | .debug, value => { s with debug := value }

/-- Whether a value counts where a setting is mentioned: one that is empty chooses neither an engine
nor a path. -/
def counts : Setting α → Value → Bool
  | .engine, v | .ripgrepPath, v => v.isTruthy
  | _, _ => true

/-- A value of a document as that of a setting. -/
def read : Setting α → Value → Except SettingsFault α
  | .engine => engineOf
  | .ripgrepPath => stringOf
  | .timeout => floatOf
  | .maxWorkers => wholeOf
  | .skipDirs => itemsOf
  | .debug => fun v => .ok v.isTruthy

theorem put_get (s : Settings) (x : Setting α) : x.put s (x.get s) = s := by cases x <;> rfl

end Setting

/-- The value under a key of a value that is looked into. -/
def under? (key : String) : Value → Option Value
  | .table entries => Toml.entry? key entries
  | _ => none

/-- A value that is no table and can be looked into anyway does not have the key. -/
theorem member?_ok {key : String} {v : Value} {found : Option Value}
    (h : member? key v = .ok found) : found = under? key v := by
  cases v with
  | table entries => exact (Except.ok.inj h).symm
  | string s =>
    rw [member?] at h
    split at h
    · cases h
    · exact (Except.ok.inj h).symm
  | array items =>
    rw [member?] at h
    split at h
    · cases h
    · exact (Except.ok.inj h).symm
  | _ => cases h

/-- The change of one setting: what counts under a key is read and put in place. -/
def settingChange {α : Type} (x : Setting α) (key : String) (v : Value) : Change := fun s => do
  match (← member? key v).filter x.counts with
  | none => return s
  | some w => return x.put s (← x.read w)

theorem engineChange_eq (v : Value) : engineChange v = settingChange .engine "engine" v := by
  funext s
  unfold engineChange settingChange
  rcases member? "engine" v with f | (_ | w)
  · rfl
  · rfl
  · simp only [bind, Except.bind, Option.filter, Setting.counts, Setting.read, engineOf]
    by_cases htruthy : w.isTruthy = true
    · simp only [htruthy, Bool.not_true, Bool.false_eq_true, ↓reduceIte]
      rcases stringOf w with f | name
      · rfl
      · rcases hengine : EngineChoice.ofName? name with _ | engine <;> simp only [hengine] <;> rfl
    · simp only [htruthy, Bool.not_false, Bool.false_eq_true, ↓reduceIte]

theorem ripgrepPathChange_eq (v : Value) :
    ripgrepPathChange v = settingChange .ripgrepPath "ripgrep_path" v := by
  funext s
  unfold ripgrepPathChange settingChange
  rcases member? "ripgrep_path" v with f | (_ | w)
  · rfl
  · rfl
  · simp only [bind, Except.bind, Option.filter, Setting.counts]
    by_cases htruthy : w.isTruthy = true <;> simp only [htruthy, Bool.false_eq_true, ↓reduceIte]
    rfl

theorem timeoutChange_eq (v : Value) : timeoutChange v = settingChange .timeout "timeout" v := by
  funext s
  unfold timeoutChange settingChange
  rcases member? "timeout" v with f | (_ | w) <;> rfl

theorem workersChange_eq (v : Value) :
    workersChange v = settingChange .maxWorkers "max_workers" v := by
  funext s
  unfold workersChange settingChange
  rcases member? "max_workers" v with f | (_ | w) <;> rfl

theorem skipDirsChange_eq (v : Value) :
    skipDirsChange v = settingChange .skipDirs "skip_dirs" v := by
  funext s
  unfold skipDirsChange settingChange
  rcases member? "skip_dirs" v with f | (_ | w) <;> rfl

end DefinitionSite.Settings
