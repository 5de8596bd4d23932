import DefinitionSite.Proofs.Catalog.Reading
import DefinitionSite.Proofs.InProcess.Files

/-! The catalog as templates with a hole for the identifier. Whatever the identifier is, the text of
a kind is read as the items of the text before the hole, the characters of the identifier one by one
and the items of the text behind the hole; so the identifier changes nothing about how the text
around it is read, and the in-process engine refuses no text of the catalog. -/
namespace DefinitionSite

namespace Catalog
open Regex

/-- An expression with a hole: the items before the hole and those behind it. -/
structure Template where
  before : List Regex
  after : List Regex

namespace Template

/-- The template with the characters of an identifier in its hole. -/
def fill (t : Template) (identifier : Text) : Regex :=
  seqAll (t.before ++ identifier.map .char ++ t.after)

/-- On its own, each text around the hole of a kind is read as the items of the template there. -/
structure Reads (t : Template) (kind : Kind) : Prop where
  before : Regex.read (Text.of "(?m)" ++ Text.of (around kind).1) = .ok (seqAll t.before)
  after : Regex.read (Text.of "(?m)" ++ Text.of (around kind).2) = .ok (seqAll t.after)

end Template

/-- A kind has a template, which gives its expressions. -/
theorem exists_template (kind : Kind) :
    ∃ t : Template, t.Reads kind ∧ ∀ identifier, t.fill identifier = regex identifier kind := by
  obtain ⟨xs, ys, h⟩ := exists_around kind
  refine ⟨⟨xs.map Item.regex, ys.map Item.regex⟩, ⟨?_, ?_⟩, ?_⟩
  · exact read_of_adds h.before
  · exact read_of_adds h.after
  · intro identifier
    rw [Template.fill, regex, ← h.items]

end Catalog

namespace InProcess

/-- A search of files does not fail: it comes to its end, or it is cut short. -/
theorem status_searchFiles (find : Text → List Regex.Span) (deadline : Deadline Float)
    (sight : Nat → Sight) (number : Nat) (found : List Event) (log : Log)
    (files : List (Path × Except FileError Text)) :
    (searchFiles find deadline sight number found log files).1.status ≠ .failed := by
  have hends := searchFiles_ends find deadline sight number found log files
  generalize searchFiles find deadline sight number found log files = result at hends ⊢
  cases hends with
  | cutShort _ _ h => rcases (status_of_stopAt h).1 with h | h <;> simp [h]
  | whole =>
    rw [SearchResult.ofEvents]
    split <;> simp

/-- A search with an expression that compiles fails only where there is no directory to search. -/
theorem failed_of_compile {pattern : Text} {find : Text → List Regex.Span}
    (hcompile : Regex.compile pattern = .ok find) {tree : FileTree} {timeout : Float}
    {source : Source} {run : Run} {error : String}
    (h : (search tree timeout pattern source run).1 = .ok (.fail .failed error)) :
    ∃ root globs skipDirs, source = .directory root globs skipDirs ∧
      error = "Path not found: " ++ root.toString := by
  unfold search searchWith at h
  simp only [hcompile] at h
  cases source with
  | buffer text =>
    have hstatus := congrArg SearchResult.status (Except.ok.inj h)
    simp only [SearchResult.ofEvents, SearchResult.fail] at hstatus
    split at hstatus <;> simp at hstatus
  | directory root globs skipDirs =>
    cases hask : tree.askDir root with
    | error e => simp [hask] at h
    | ok isDir =>
      simp only [hask] at h
      cases isDir with
      | false =>
        exact ⟨root, globs, skipDirs, rfl, (congrArg SearchResult.error (Except.ok.inj h)).symm⟩
      | true =>
        exact absurd (congrArg SearchResult.status (Except.ok.inj h)) (by apply status_searchFiles)

end InProcess

namespace Catalog

/-- The text of every kind is read as its template with the identifier in the hole, and the
in-process engine neither refuses it nor breaks on it. -/
theorem patterns_fillTemplates : ∃ template : Kind → Template,
    (∀ kind, (template kind).Reads kind) ∧
    ∀ identifier : Text,
      (patterns identifier).map (fun pair => (pair.1, Regex.read pair.2)) =
        Kind.all.map (fun kind => (kind, .ok ((template kind).fill identifier))) ∧
      ∀ kind tree timeout source run why,
        (InProcess.search tree timeout (patternText identifier kind) source run).1 ≠
            .ok (.fail .failed ("Invalid regex pattern: " ++ why)) ∧
          (InProcess.search tree timeout (patternText identifier kind) source run).1 ≠
            .error (.expression why) := by
  choose template hreads hfill using exists_template
  refine ⟨template, hreads, fun identifier => ⟨?_, ?_⟩⟩
  · simp only [patterns, List.map_map, Function.comp_def, read_patternText, hfill]
  · intro kind tree timeout source run why
    have hcompile := compile_patternText identifier kind
    refine ⟨fun hrefused => ?_, fun hbroken => ?_⟩
    · obtain ⟨root, -, -, -, herror⟩ := InProcess.failed_of_compile hcompile hrefused
      have hhead := congrArg (fun error : String => error.toList.head?) herror
      simp [String.toList_append] at hhead
    · cases InProcess.rootFault_of_compile hcompile hbroken

end Catalog
end DefinitionSite
