import DefinitionSite.Proofs.Json.Compact
import DefinitionSite.Proofs.Location.Stopped
import DefinitionSite.Proofs.Locator.Origins
import DefinitionSite.Proofs.Ripgrep.Strays

/-! What keeps a look-up with the external engine from an answer. There is no root to search or no
asking about it, or a path cannot be resolved, or a value strayed from the output of a process that
ended well into the lines or the file of an event.

Names are those that the records were read to have: a surrogate that stands alone in a name was
replaced when its record was read, so no name is at fault for one. -/
namespace DefinitionSite

namespace Locator
open Ripgrep (Behaviour inputOf parse textStrays pathStrays)

variable {l : Locator} {request : Request} {processFor : Kind → Source → Behaviour}

/-- The names of files that a look-up comes across: that of the current file, those that a process
reports, the one that stands for no name, and those that are scanned. -/
inductive Meets (l : Locator) (request : Request) (processFor : Kind → Source → Behaviour) :
    RawText → Prop
  | current {file : String} (h : request.currentFile = some file) :
      Meets l request processFor (.text file)
  | reported {kind : Kind} {source : Source} {event : Event} {name : RawText}
      (hexit : (processFor kind source).exitCode = 0)
      (hevent : event ∈ parse (processFor kind source).stdout (inputOf source).isSome)
      (h : event.path = some (.name name)) : Meets l request processFor name
  | unnamed : Meets l request processFor (.text "<buffer>")
  | scanned {root p : Path} (hroot : request.root = some root)
      (h : p ∈ l.tree.sourceFiles root (globsOf request.globs) l.skipDirs) :
      Meets l request processFor (.text p.toString)

/-- Where a fault of a look-up comes from: no root to search, one that cannot be asked about when
the line scan stands in, a path that cannot be resolved where there is a current file to leave out,
or a value that strayed from the output of a process. -/
inductive Blamed (l : Locator) (request : Request) (processFor : Kind → Source → Behaviour) :
    LocateFault → Prop
  | noRoot (h : request.root = none) : Blamed l request processFor .noRoot
  | unaskable {root : Path} {e : FileError} (hroot : request.root = some root)
      (h : l.tree.askDir root = .error e) :
      Blamed l request processFor (.location (.search (.unaskable e)))
  | path {file : String} {name : RawText} {f : PathFault}
      (hfile : request.currentFile = some file) (hne : file ≠ "")
      (hname : Meets l request processFor name) (h : l.tree.resolve (.ofRaw name) = .error f) :
      Blamed l request processFor (.location (.path f))
  | text {kind : Kind} {source : Source} {v : Json}
      (hexit : (processFor kind source).exitCode = 0)
      (hv : v ∈ textStrays (processFor kind source).stdout (inputOf source).isSome) :
      Blamed l request processFor (.location (.shape (.textNeeded v)))
  | name {kind : Kind} {source : Source} {v : Json} {f : ShapeFault}
      (hexit : (processFor kind source).exitCode = 0)
      (hv : v ∈ pathStrays (processFor kind source).stdout (inputOf source).isSome)
      (hf : f.OfName v) : Blamed l request processFor (.location (.shape f))

section External

variable {available : Bool} {executable : String} {timeout : Float} {identifier : Text}
  {source : Source}

theorem exists_of_reported {result : Except ShapeFault Match}
    (h : Reported (Ripgrep.engine available executable timeout processFor) identifier source
      result) :
    ∃ kind, (processFor kind source).exitCode = 0 ∧
      ∃ event ∈ parse (processFor kind source).stdout (inputOf source).isSome,
        Match.ofEvent kind event = result := by
  obtain ⟨kind, now, found, hsearch, event, hevent, hresult⟩ := h
  obtain ⟨hexit, hevent⟩ := Ripgrep.mem_events_engine hsearch hevent
  exact ⟨kind, hexit, event, hevent, hresult⟩

/-- What keeps the searches from being put together is a value that strayed. -/
theorem blamed_of_misread {f : LocationFault}
    (h : Traced (Raised (Ripgrep.engine available executable timeout processFor) identifier source)
      (Reported (Ripgrep.engine available executable timeout processFor) identifier source)
      (.error f)) : Blamed l request processFor (.location f) := by
  cases f with
  | search f =>
    obtain ⟨kind, now, hraised⟩ := h
    cases hraised
  | path f => exact h.elim
  | shape f =>
    obtain ⟨kind, hexit, event, hevent, hfault⟩ := exists_of_reported h
    unfold Match.ofEvent at hfault
    split at hfault
    · cases hfault
    · rename_i v hv
      obtain rfl := Except.error.inj hfault
      exact .text hexit (Ripgrep.mem_textStrays.mpr ⟨event, hevent, hv⟩)

/-- A match is in the file that its record names, or in none. -/
theorem file_of_reported {m : Match}
    (h : Reported (Ripgrep.engine available executable timeout processFor) identifier source
      (.ok m)) :
    m.file = .buffer ∨ ∃ kind, (processFor kind source).exitCode = 0 ∧
      ∃ event ∈ parse (processFor kind source).stdout (inputOf source).isSome,
        event.path = some m.file := by
  obtain ⟨kind, hexit, event, hevent, hmatch⟩ := exists_of_reported h
  unfold Match.ofEvent at hmatch
  split at hmatch
  · obtain rfl := Except.ok.inj hmatch
    cases hpath : event.path with
    | none => exact .inl rfl
    | some file => exact .inr ⟨kind, hexit, event, hevent, hpath⟩
  · cases hmatch

theorem blamed_of_value {m : Match} {v : Json} {f : ShapeFault}
    (h : Reported (Ripgrep.engine available executable timeout processFor) identifier source
      (.ok m)) (hv : m.file = .value v) (hf : f.OfName v) :
    Blamed l request processFor (.location (.shape f)) := by
  rcases file_of_reported h with hbuffer | ⟨kind, hexit, event, hevent, hpath⟩
  · cases hv.symm.trans hbuffer
  · rw [hv] at hpath
    exact .name hexit (Ripgrep.mem_pathStrays.mpr ⟨event, hevent, hpath⟩) hf

theorem meets_of_name {m : Match} {name : RawText}
    (h : Reported (Ripgrep.engine available executable timeout processFor) identifier source
      (.ok m)) (hname : m.file = .name name) : Meets l request processFor name := by
  rcases file_of_reported h with hbuffer | ⟨kind, hexit, event, hevent, hpath⟩
  · obtain rfl := FileLabel.name.inj (hname.symm.trans hbuffer)
    exact .unnamed
  · rw [hname] at hpath
    exact .reported hexit hevent hpath

/-- What keeps the best matches in files from being locations. -/
theorem blamed_of_stopped
    (hengine : l.engine = Ripgrep.engine available executable timeout processFor) {root : Path}
    (hroot : request.root = some root) {found : List Match}
    (hfound : l.BestInFiles identifier root (globsOf request.globs) found) {f : LocationFault}
    (h : Location.Stopped l.tree request.currentFile found f) :
    Blamed l request processFor (.location f) := by
  rcases hfound with ⟨cs, hgives, hbest⟩ | ⟨now, after, hscan⟩
  · rw [hengine] at hgives
    have hreported := fun {m} (hm : m ∈ found) =>
      reported_of_gives hgives (Match.mem_of_bestPerFile hbest hm)
    cases h with
    | path hfile hne hname hresolve =>
      refine .path hfile hne ?_ hresolve
      rcases hname with rfl | ⟨m, hm, hname⟩
      · exact .current hfile
      · exact meets_of_name (hreported hm) hname
    | name hm hv hf => exact blamed_of_value (hreported hm) hv hf
  · obtain ⟨-, hmem⟩ := exists_of_scanDirectory hscan
    have hscanned : ∀ m ∈ found, ∃ p ∈ l.tree.sourceFiles root (globsOf request.globs) l.skipDirs,
        m.file = FileLabel.named p.toString := by
      intro m hm
      obtain ⟨p, hp, text, -, hm⟩ := hmem m hm
      exact ⟨p, hp, LineScan.file_of_mem_scan hm⟩
    cases h with
    | path hfile hne hname hresolve =>
      refine .path hfile hne ?_ hresolve
      rcases hname with rfl | ⟨m, hm, hname⟩
      · exact .current hfile
      · obtain ⟨p, hp, hlabel⟩ := hscanned m hm
        obtain rfl := FileLabel.name.inj (hname.symm.trans hlabel)
        exact .scanned hroot hp
    | name hm hv hf =>
      obtain ⟨p, hp, hlabel⟩ := hscanned _ hm
      cases hv.symm.trans hlabel

/-- Whatever the processes put out, a fault of a look-up has one of a few causes. -/
theorem blamed_locate
    (hengine : l.engine = Ripgrep.engine available executable timeout processFor) {run : Run}
    {f : LocateFault} (h : (locate l request run).1 = .error f) :
    Blamed l request processFor f := by
  have horigin := origin_locate l request run
  rw [h] at horigin
  cases horigin with
  | noRoot hroot => exact .noRoot hroot
  | unscanned hroot hask => exact .unaskable hroot hask
  | @misread source now after f _ _ hsearch =>
    have htraced := traced_searchAll l.engine (wanted request.identifier) source now
    rw [hsearch, hengine] at htraced
    exact blamed_of_misread htraced
  | ungrouped hroot hgives hgroup =>
    rw [hengine] at hgives
    obtain ⟨m, hm, v, hv, hf⟩ := Match.exists_of_bestPerFile hgroup
    exact blamed_of_value (reported_of_gives hgives hm) hv hf
  | @workspace root found now _ hroot hfound hresult =>
    cases hlocations : (Location.ofMatches l.tree request.currentFile found now).1 with
    | ok locations => simp [hlocations, Except.mapError] at hresult
    | error g =>
      obtain rfl : .location g = f := by simpa [hlocations, Except.mapError] using hresult
      exact blamed_of_stopped hengine hroot hfound (Location.stopped_ofMatches hlocations)

/-- An event is out of shape just where a value strays into it, occurrences are read as matches of a
kind just where none strays into their lines, and a look-up has no fault but for one of a few
causes. -/
theorem strays_harm (available : Bool) (executable : String) (timeout : Float)
    (processFor : Kind → Source → Behaviour) (tree : FileTree) (skipDirs : List String)
    (request : Request) (run : Run) :
    (∀ output fromBuffer,
      ((∀ event ∈ parse output fromBuffer, event.Readable) ↔ textStrays output fromBuffer = []) ∧
      ((∀ event ∈ parse output fromBuffer, ∀ file ∈ event.path, file.IsName) ↔
        pathStrays output fromBuffer = []) ∧
      ∀ kind, (∃ ms, Match.ofEvents kind (parse output fromBuffer) = .ok ms) ↔
        textStrays output fromBuffer = []) ∧
    match (locate ⟨tree, Ripgrep.engine available executable timeout processFor, skipDirs⟩ request
      run).1 with
    | .ok _ => True
    | .error f => Blamed ⟨tree, Ripgrep.engine available executable timeout processFor, skipDirs⟩
        request processFor f := by
  constructor
  · intro output fromBuffer
    exact ⟨Ripgrep.readable_iff, Ripgrep.isName_iff,
      fun kind => Ripgrep.ofEvents_ok_iff.trans Ripgrep.readable_iff⟩
  · split
    · trivial
    · rename_i f h
      exact blamed_locate rfl h

end External

/-- An output whose only match has a number for its lines. -/
def numberOutput : Text :=
  Json.compact (.obj [("type", .str "match"), ("data", .obj [("path", .obj [("text", .str "A.hs")]),
    ("lines", .obj [("text", .int 5)]), ("line_number", .int 1)])]) ++ ['\n']

/-- A locator whose processes all put that out. -/
def numberLocator : Locator where
  tree := ⟨.dir [], []⟩
  engine := Ripgrep.engine true "rg" 5.0 fun _ _ => ⟨none, some 0, none, 0, numberOutput, []⟩
  skipDirs := []

/-- Whether a look-up stops at lines that are this number. -/
def stopsAt (n : Int) : Except LocateFault (List Location) → Bool
  | .error (.location (.shape (.textNeeded (.int m)))) => m == n
  | _ => false

theorem eq_of_stopsAt {n : Int} {result : Except LocateFault (List Location)}
    (h : stopsAt n result = true) :
    result = .error (.location (.shape (.textNeeded (.int n)))) := by
  unfold stopsAt at h
  split at h
  · rw [beq_iff_eq.mp h]
  · cases h

/-- A number in the place of the lines comes through, and there is no match for any kind and no
answer. -/
theorem strays_harm_number :
    (∃ event ∈ parse numberOutput false, ¬ event.Readable) ∧
    (∀ kind, ¬ ∃ ms, Match.ofEvents kind (parse numberOutput false) = .ok ms) ∧
    (locate numberLocator ⟨some (Text.of "leaf"), none, some (.ofString "/"), none, none⟩
      .fresh).1 = .error (.location (.shape (.textNeeded (.int 5)))) := by
  have hstray : (textStrays numberOutput false).isEmpty = false := by decide +kernel
  have hunreadable : ¬ ∀ event ∈ parse numberOutput false, event.Readable := by
    rw [Ripgrep.readable_iff]
    intro hnil
    rw [hnil] at hstray
    cases hstray
  refine ⟨by simpa using hunreadable, fun kind => ?_, ?_⟩
  · rw [Ripgrep.ofEvents_ok_iff]
    exact hunreadable
  · exact eq_of_stopsAt (by decide +kernel)

end Locator
end DefinitionSite
