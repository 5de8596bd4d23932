import DefinitionSite.Proofs.Catalog.ByLines
import DefinitionSite.Proofs.Locator.Absent
import DefinitionSite.Proofs.Text.LineEndings

/-! Carriage returns in front of line feeds change no answer: neither of the search for a single
kind, nor of a look-up in a text, whether the in-process engine makes it or the line scan. -/
namespace DefinitionSite.Locator
open Declared

variable {identifier text : Text}

theorem foundAll_rebreak (hid : Proper identifier) (hreturn : '\r' ∉ text) (pick : Nat → Bool) :
    Catalog.foundAll identifier (Text.rebreak pick text) none =
      Catalog.foundAll identifier text none := by
  unfold Catalog.foundAll
  congr 1
  funext kind
  exact Catalog.found_eq_of_lines hid kind none (Text.lines_rebreak hreturn pick).1

theorem scan_rebreak (identifier : Text) (hreturn : '\r' ∉ text) (pick : Nat → Bool)
    (file : FileLabel) :
    LineScan.scan identifier (Text.rebreak pick text) file =
      LineScan.scan identifier text file := by
  have hempty : (Text.rebreak pick text).isEmpty = text.isEmpty := by
    rw [Bool.eq_iff_iff, List.isEmpty_iff, List.isEmpty_iff, Text.rebreak_eq_nil_iff]
  unfold LineScan.scan
  rw [hempty, (Text.lines_rebreak hreturn pick).2]

/-- A look-up in a text without an engine sees no carriage return in front of a line feed. -/
theorem scanText_rebreak (identifier : Text) (hreturn : '\r' ∉ text) (pick : Nat → Bool) :
    (someText (some (Text.rebreak pick text))).bind (scanText identifier) =
      (someText (some text)).bind (scanText identifier) := by
  have hscan : scanText identifier (Text.rebreak pick text) = scanText identifier text := by
    unfold scanText
    rw [scan_rebreak identifier hreturn]
  have hempty : Text.rebreak pick text = [] ↔ text = [] := Text.rebreak_eq_nil_iff pick
  by_cases htext : text = []
  · subst htext
    rfl
  · simp [someText, Option.filter, htext, mt hempty.mp htext, hscan]

/-- Two texts between which neither a look-up nor the search for a kind tells a difference. -/
structure SameAnswers (identifier text other : Text) : Prop where
  inProcess : ∀ tree timeout run, ∃ found,
    (findInText (InProcess.engine tree timeout) (some identifier) (some text) run).1 = .ok found ∧
    (findInText (InProcess.engine tree timeout) (some identifier) (some other) run).1 = .ok found
  byScan : ∀ (engine : Engine) (run : Run), engine.Absent → run.Undisturbed → ∃ found,
    (findInText engine (some identifier) (some text) run).1 = .ok found ∧
    (findInText engine (some identifier) (some other) run).1 = .ok found
  ofKind : ∀ kind path, ∃ expression ms,
    Regex.read (Catalog.patternText identifier kind) = .ok expression ∧
    Match.ofEvents kind (Event.find expression text path) = .ok ms ∧
    Match.ofEvents kind (Event.find expression other path) = .ok ms

/-- Carriage returns in front of any of the line feeds of a text that has none change no answer. -/
theorem sameAnswers_rebreak (hid : Proper identifier) (hreturn : '\r' ∉ text)
    (pick : Nat → Bool) : SameAnswers identifier text (Text.rebreak pick text) := by
  have hwanted : wanted (some identifier) = identifier := hid.trimmed
  have hne : wanted (some identifier) ≠ [] := by
    rw [hwanted]
    exact hid.ne_nil
  constructor
  · intro tree timeout run
    refine ⟨_, findInText_inProcess tree timeout hne text run, ?_⟩
    rw [findInText_inProcess tree timeout hne, hwanted, foundAll_rebreak hid hreturn]
  · intro engine run habsent hrun
    refine ⟨_, findInText_absent habsent hne (some text) hrun, ?_⟩
    rw [findInText_absent habsent hne _ hrun, scanText_rebreak _ hreturn]
  · intro kind path
    have hfound := Catalog.found_eq_of_lines hid kind path (Text.lines_rebreak hreturn pick).1
    refine ⟨_, _, Catalog.read_patternText identifier kind, Match.ofEvents_find kind _ text path,
      ?_⟩
    unfold Catalog.found at hfound
    rw [Match.ofEvents_find, hfound]

theorem sameAnswers_rebreak_leaf :
    Proper (Text.of "Leaf") ∧ '\r' ∉ Text.of "data Tree =\n  Node |\n  Leaf\nLeaf\n  :: Tree" ∧
      SameAnswers (Text.of "Leaf") (Text.of "data Tree =\n  Node |\n  Leaf\nLeaf\n  :: Tree")
        (Text.of "data Tree =\r\n  Node |\n  Leaf\r\nLeaf\r\n  :: Tree") := by
  have hid : Proper (Text.of "Leaf") := ⟨by decide, by decide, by decide⟩
  have hreturn : '\r' ∉ Text.of "data Tree =\n  Node |\n  Leaf\nLeaf\n  :: Tree" := by decide
  exact ⟨hid, hreturn, sameAnswers_rebreak hid hreturn (· != 1)⟩

end DefinitionSite.Locator
