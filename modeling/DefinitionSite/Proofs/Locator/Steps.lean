import DefinitionSite.Locator
import DefinitionSite.Proofs.Location.Ordered

/-! All that the steps of a look-up can come to: what each looked at, what it gives, and the run it
leaves. Between a step and its search only the log may grow. -/
namespace DefinitionSite

/-- The files below a root are not scanned if it cannot be asked about. -/
theorem LineScan.askDir_of_scanDirectory {tree : FileTree} {identifier : Text} {root : Path}
    {globs skipDirs : List String} {e : FileError} {run after : Run}
    (h : scanDirectory tree identifier root globs skipDirs run = (.error (.unaskable e), after)) :
    tree.askDir root = .error e ∧ after = run := by
  unfold scanDirectory at h
  split at h
  · rename_i hask
    obtain ⟨hfault, rfl⟩ := Prod.mk.inj h
    simpa [hask] using hfault
  · simp at h
  · simp at h

namespace Locator

/-- All that the search of the buffer by the engine can come to. -/
inductive BufferStep (l : Locator) (identifier : Text) (request : Request) (run : Run) :
    Next × Run → Prop
  | noBuffer (hnone : someText request.buffer = none) :
      BufferStep l identifier request run (.goOn, run)
  | misread {text : Text} {log : Log} {f : LocationFault} {now : Run}
      (htext : someText request.buffer = some text)
      (hall : searchAll l.engine identifier (.buffer text) { run with log } = (.error f, now)) :
      BufferStep l identifier request run (.answer (.error (.location f)), now)
  | unavailable {text : Text} {log : Log} {why : String} {now : Run}
      (htext : someText request.buffer = some text)
      (hall : searchAll l.engine identifier (.buffer text) { run with log } =
        (.ok (.unavailable why), now)) : BufferStep l identifier request run (.scan why, now)
  | cancelled {text : Text} {log : Log} {candidates : List Match} {now : Run}
      (htext : someText request.buffer = some text)
      (hall : searchAll l.engine identifier (.buffer text) { run with log } =
        (.ok (.found candidates), now)) (hnow : now.cancelled = true) :
      BufferStep l identifier request run (.answer (.ok []), now)
  | missed {text : Text} {log : Log} {candidates : List Match} {now : Run}
      (htext : someText request.buffer = some text)
      (hall : searchAll l.engine identifier (.buffer text) { run with log } =
        (.ok (.found candidates), now)) (hnow : now.cancelled = false)
      (hbest : Match.best candidates = none) : BufferStep l identifier request run (.goOn, now)
  | hit {text : Text} {log said : Log} {candidates : List Match} {now : Run} {m : Match}
      (htext : someText request.buffer = some text)
      (hall : searchAll l.engine identifier (.buffer text) { run with log } =
        (.ok (.found candidates), now)) (hnow : now.cancelled = false)
      (hbest : Match.best candidates = some m) : BufferStep l identifier request run
        (.answer (.ok [.ofMatchIn (bufferFile request.currentFile) m]), { now with log := said })

theorem bufferStep (l : Locator) (identifier : Text) (request : Request) (run : Run) :
    BufferStep l identifier request run (inBuffer l identifier request run) := by
  unfold inBuffer
  cases htext : someText request.buffer with
  | none => exact .noBuffer htext
  | some text =>
    simp only
    split
    · rename_i hall
      exact .misread htext hall
    · rename_i hall
      exact .unavailable htext hall
    · rename_i now hall
      split_ifs with hnow
      · exact .cancelled htext hall hnow
      · have hnow : now.cancelled = false := by simpa using hnow
        split
        · rename_i hbest
          exact .missed htext hall hnow hbest
        · rename_i hbest
          exact .hit htext hall hnow hbest

/-- The source that a workspace is searched as. -/
def workspaceSource (l : Locator) (request : Request) (root : Path) : Source :=
  .directory root (globsOf request.globs) l.skipDirs

/-- All that the search of the workspace by the engine can come to. -/
inductive WorkspaceStep (l : Locator) (identifier : Text) (request : Request) (run : Run) :
    Next × Run → Prop
  | noRoot (hroot : request.root = none) :
      WorkspaceStep l identifier request run (.answer (.error .noRoot), run)
  | misread {root : Path} {log : Log} {f : LocationFault} {now : Run}
      (hroot : request.root = some root)
      (hall : searchAll l.engine identifier (workspaceSource l request root) { run with log } =
        (.error f, now)) :
      WorkspaceStep l identifier request run (.answer (.error (.location f)), now)
  | unavailable {root : Path} {log : Log} {why : String} {now : Run}
      (hroot : request.root = some root)
      (hall : searchAll l.engine identifier (workspaceSource l request root) { run with log } =
        (.ok (.unavailable why), now)) : WorkspaceStep l identifier request run (.scan why, now)
  | cancelled {root : Path} {log : Log} {candidates : List Match} {now : Run}
      (hroot : request.root = some root)
      (hall : searchAll l.engine identifier (workspaceSource l request root) { run with log } =
        (.ok (.found candidates), now)) (hnow : now.cancelled = true) :
      WorkspaceStep l identifier request run (.answer (.ok []), now)
  | ungrouped {root : Path} {log : Log} {candidates : List Match} {now : Run} {f : ShapeFault}
      (hroot : request.root = some root)
      (hall : searchAll l.engine identifier (workspaceSource l request root) { run with log } =
        (.ok (.found candidates), now)) (hnow : now.cancelled = false)
      (hgroup : Match.bestPerFile candidates = .error f) :
      WorkspaceStep l identifier request run (.answer (.error (.location (.shape f))), now)
  | located {root : Path} {log said : Log} {candidates found : List Match} {now : Run}
      (hroot : request.root = some root)
      (hall : searchAll l.engine identifier (workspaceSource l request root) { run with log } =
        (.ok (.found candidates), now)) (hnow : now.cancelled = false)
      (hgroup : Match.bestPerFile candidates = .ok found) :
      WorkspaceStep l identifier request run (.answer
        ((Location.ofMatches l.tree request.currentFile found .fresh).1.mapError .location),
          { now with log := said })

theorem workspaceStep (l : Locator) (identifier : Text) (request : Request) (run : Run) :
    WorkspaceStep l identifier request run (inWorkspace l identifier request run) := by
  unfold inWorkspace
  cases hroot : request.root with
  | none => exact .noRoot hroot
  | some root =>
    simp only
    split
    · rename_i hall
      exact .misread hroot hall
    · rename_i hall
      exact .unavailable hroot hall
    · rename_i now hall
      split_ifs with hnow
      · exact .cancelled hroot hall hnow
      · have hnow : now.cancelled = false := by simpa using hnow
        split
        · rename_i hgroup
          exact .ungrouped hroot hall hnow hgroup
        · rename_i found hgroup
          obtain ⟨said, hsaid⟩ := Location.ofMatches_run l.tree request.currentFile found now
          simp only [hsaid]
          exact .located hroot hall hnow hgroup

/-- All that a look-up by the line scan can come to. -/
inductive ScanStep (l : Locator) (identifier : Text) (request : Request) (run : Run) :
    Except LocateFault (List Location) × Run → Prop
  | cancelledInBuffer (hrun : run.cancelled = true) :
      ScanStep l identifier request run (.ok [], run)
  | hit {text : Text} {m : Match} (hrun : run.cancelled = false)
      (htext : someText request.buffer = some text) (hscan : scanText identifier text = some m) :
      ScanStep l identifier request run
        (.ok [.ofMatchIn (bufferFile request.currentFile) m], run)
  | noRoot {log : Log} (hroot : request.root = none) :
      ScanStep l identifier request run (.ok [], { run with log })
  | noDirectory {root : Path} {log : Log} {e : LineScan.ScanFault} {now : Run}
      (hroot : request.root = some root)
      (hscan : LineScan.scanDirectory l.tree identifier root (globsOf request.globs) l.skipDirs
        run = (.error e, now)) : ScanStep l identifier request run (.ok [], { now with log })
  | unscanned {root : Path} {e : FileError} (hroot : request.root = some root)
      (hask : l.tree.askDir root = .error e) :
      ScanStep l identifier request run (.error (.location (.search (.unaskable e))), run)
  | cancelled {root : Path} {found : List Match} {now : Run} (hroot : request.root = some root)
      (hscan : LineScan.scanDirectory l.tree identifier root (globsOf request.globs) l.skipDirs
        run = (.ok found, now)) (hnow : now.cancelled = true) :
      ScanStep l identifier request run (.ok [], now)
  | located {root : Path} {log : Log} {found : List Match} {now : Run}
      (hroot : request.root = some root)
      (hscan : LineScan.scanDirectory l.tree identifier root (globsOf request.globs) l.skipDirs
        run = (.ok found, now)) (hnow : now.cancelled = false) :
      ScanStep l identifier request run
        ((Location.ofMatches l.tree request.currentFile found .fresh).1.mapError .location,
          { now with log })

theorem scanStep (l : Locator) (identifier : Text) (request : Request) (run : Run) :
    ScanStep l identifier request run (locateByScan l identifier request run) := by
  unfold locateByScan
  simp only
  split_ifs with hcancelled
  · exact .cancelledInBuffer (Bool.and_eq_true_iff.mp hcancelled).2
  · split
    · rename_i m hbest
      obtain ⟨text, htext, hscan⟩ := Option.bind_eq_some_iff.mp hbest
      have hrun : run.cancelled = false := by simpa [htext] using hcancelled
      exact .hit hrun htext hscan
    · split
      · rename_i hroot
        exact .noRoot hroot
      · rename_i root hroot
        split
        · rename_i hscan
          obtain ⟨hask, rfl⟩ := LineScan.askDir_of_scanDirectory hscan
          exact .unscanned hroot hask
        · rename_i hscan
          exact .noDirectory hroot hscan
        · rename_i found now hscan
          split_ifs with hnow
          · exact .cancelled hroot hscan hnow
          · have hnow : now.cancelled = false := by simpa using hnow
            obtain ⟨log, hlog⟩ := Location.ofMatches_run l.tree request.currentFile found now
            simp only [hlog]
            exact .located hroot hscan hnow

end Locator
end DefinitionSite
