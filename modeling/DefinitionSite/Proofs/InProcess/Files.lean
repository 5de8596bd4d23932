import Mathlib.Tactic.Common
import DefinitionSite.InProcess
import DefinitionSite.Proofs.FileTree.Asking

/-! The search of files one after another. Before each file it looks whether it is to stop, and it
is cut short at the first file before which it is; otherwise it reads every file and puts together
what is in those that can be read. -/
namespace DefinitionSite.InProcess

/-- What a file adds to a search: its occurrences if it can be read. -/
def eventsIn (find : Text → List Regex.Span) (file : Path × Except FileError Text) : List Event :=
  match file.2 with
  | .error _ => []
  | .ok text => Event.ofSpans (find text) text (some (.name (.text file.1.toString)))

/-- What is logged of a file: that it is skipped if it cannot be read. -/
def skipLine (file : Path × Except FileError Text) : Log :=
  match file.2 with
  | .error e =>
    [⟨.debug, "Skipping unreadable file " ++ file.1.toString ++ ": " ++ e.message⟩]
  | .ok _ => []

/-- What a search ends with if it is cut short by what can be seen before a file. A cancellation
comes before the limit. -/
def stopAt (deadline : Deadline Float) (seen : Sight) : Option SearchResult :=
  if seen.cancelled then some (.fail .cancelled "Search cancelled")
  else if deadline.expired seen.now then
    some (.fail .timeout ("Search timed out after " ++ Decimal.text deadline.limit ++ "s"))
  else none

theorem stopAt_eq_none_iff {deadline : Deadline Float} {seen : Sight} :
    stopAt deadline seen = none ↔
      seen.cancelled = false ∧ deadline.expired seen.now = false := by
  unfold stopAt
  split_ifs with hcancelled hexpired <;> simp_all

/-- A search that is cut short reports nothing. -/
theorem status_of_stopAt {deadline : Deadline Float} {seen : Sight} {result : SearchResult}
    (h : stopAt deadline seen = some result) :
    (result.status = .timeout ∨ result.status = .cancelled) ∧ result.events = [] := by
  unfold stopAt at h
  split_ifs at h
  · obtain rfl := Option.some.inj h
    exact ⟨.inr rfl, rfl⟩
  · obtain rfl := Option.some.inj h
    exact ⟨.inl rfl, rfl⟩

variable {find : Text → List Regex.Span} {deadline : Deadline Float} {sight : Nat → Sight}

theorem searchFiles_cons (number : Nat) (found : List Event) (log : Log)
    (file : Path × Except FileError Text) (files : List (Path × Except FileError Text)) :
    searchFiles find deadline sight number found log (file :: files) =
      match stopAt deadline (sight number) with
      | some result => (result, log)
      | none => searchFiles find deadline sight (number + 1) (found ++ eventsIn find file)
          (log ++ skipLine file) files := by
  obtain ⟨path, content⟩ := file
  by_cases hcancelled : (sight number).cancelled = true
  · simp only [searchFiles, stopAt, hcancelled, ↓reduceIte]
  by_cases hexpired : deadline.expired (sight number).now = true
  · simp only [searchFiles, stopAt, hcancelled, hexpired, Bool.false_eq_true, ↓reduceIte]
  cases content <;>
    simp only [searchFiles, stopAt, hcancelled, hexpired, Bool.false_eq_true, ↓reduceIte, eventsIn,
      skipLine, List.append_nil]

/-- All that a search of files can come to, with what was found and logged before: it is cut short
at the first file before which it is to stop, or it is never to stop. -/
inductive Ends (find : Text → List Regex.Span) (deadline : Deadline Float) (sight : Nat → Sight)
    (number : Nat) (found : List Event) (log : Log)
    (files : List (Path × Except FileError Text)) : SearchResult × Log → Prop
  | cutShort {n : Nat} {result : SearchResult} (hn : n < files.length)
      (hbefore : ∀ k < n, stopAt deadline (sight (number + k)) = none)
      (h : stopAt deadline (sight (number + n)) = some result) :
      Ends find deadline sight number found log files
        (result, log ++ (files.take n).flatMap skipLine)
  | whole (h : ∀ k < files.length, stopAt deadline (sight (number + k)) = none) :
      Ends find deadline sight number found log files
        (.ofEvents (found ++ files.flatMap (eventsIn find)), log ++ files.flatMap skipLine)

/-- A first file before which the search is not to stop. -/
theorem Ends.cons {number : Nat} {found : List Event} {log : Log}
    {file : Path × Except FileError Text} {files : List (Path × Except FileError Text)}
    {result : SearchResult × Log} (hfirst : stopAt deadline (sight number) = none)
    (h : Ends find deadline sight (number + 1) (found ++ eventsIn find file)
      (log ++ skipLine file) files result) :
    Ends find deadline sight number found log (file :: files) result := by
  have hshift : ∀ k, number + 1 + k = number + (k + 1) := by omega
  have hbefore : ∀ n, (∀ k < n, stopAt deadline (sight (number + 1 + k)) = none) →
      ∀ k < n + 1, stopAt deadline (sight (number + k)) = none := by
    intro n hlater k hk
    cases k with
    | zero => exact hfirst
    | succ k => exact hshift k ▸ hlater k (by omega)
  cases h with
  | @cutShort n result hn hlater h =>
    have hcut : Ends find deadline sight number found log (file :: files)
        (result, log ++ ((file :: files).take (n + 1)).flatMap skipLine) :=
      .cutShort (Nat.succ_lt_succ hn) (hbefore _ hlater) (hshift _ ▸ h)
    simpa only [List.take_succ_cons, List.flatMap_cons, List.append_assoc] using hcut
  | whole h =>
    have hwhole : Ends find deadline sight number found log (file :: files)
        (.ofEvents (found ++ (file :: files).flatMap (eventsIn find)),
          log ++ (file :: files).flatMap skipLine) := .whole (hbefore _ h)
    simpa only [List.flatMap_cons, List.append_assoc] using hwhole

theorem searchFiles_ends (find : Text → List Regex.Span) (deadline : Deadline Float)
    (sight : Nat → Sight) (number : Nat) (found : List Event) (log : Log)
    (files : List (Path × Except FileError Text)) :
    Ends find deadline sight number found log files
      (searchFiles find deadline sight number found log files) := by
  induction files generalizing number found log with
  | nil =>
    have hwhole : Ends find deadline sight number found log []
        (.ofEvents (found ++ [].flatMap (eventsIn find)), log ++ [].flatMap skipLine) :=
      .whole (by simp)
    simpa only [searchFiles, List.flatMap_nil, List.append_nil] using hwhole
  | cons file files ih =>
    rw [searchFiles_cons]
    cases hstop : stopAt deadline (sight number) with
    | none => exact (ih _ _ _).cons hstop
    | some result =>
      have hcut : Ends find deadline sight number found log (file :: files)
          (result, log ++ ((file :: files).take 0).flatMap skipLine) :=
        .cutShort (Nat.succ_pos _) (by simp) hstop
      simpa only [List.take_zero, List.flatMap_nil, List.append_nil] using hcut

/-- A search that is never to stop reads every file. -/
theorem searchFiles_whole {number : Nat} {files : List (Path × Except FileError Text)}
    (h : ∀ k < files.length, stopAt deadline (sight (number + k)) = none) (found : List Event)
    (log : Log) : searchFiles find deadline sight number found log files =
      (.ofEvents (found ++ files.flatMap (eventsIn find)), log ++ files.flatMap skipLine) := by
  have hends := searchFiles_ends find deadline sight number found log files
  generalize searchFiles find deadline sight number found log files = result at hends ⊢
  cases hends with
  | cutShort hn _ hstop => exact absurd (h _ hn) (by simp [hstop])
  | whole => rfl

/-- Whatever the expressions are, one that compiles leaves the root as all that can keep a search
from an outcome. -/
theorem rootFault_of_compile {compile : Regex.Compiler} {tree : FileTree} {timeout : Float}
    {pattern : Text} {source : Source} {run : Run} {f : SearchFault}
    (hcompile : compile pattern = .ok find)
    (h : (searchWith compile tree timeout pattern source run).1 = .error f) :
    RootFault tree source f := by
  unfold searchWith at h
  simp only [hcompile] at h
  cases source with
  | buffer text => simp at h
  | directory root globs skipDirs =>
    cases hask : tree.askDir root with
    | error e =>
      obtain rfl : .unaskable e = f := by simpa [hask] using h
      exact .unaskable hask
    | ok isDir => cases isDir <;> simp [hask] at h

end DefinitionSite.InProcess
