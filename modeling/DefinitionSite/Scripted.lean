import DefinitionSite.InProcess

/-! An engine whose course is laid down in advance: some searches are cancelled, some have a given
outcome, and the others are made in process. -/
namespace DefinitionSite

def Source.isBuffer : Source → Bool
  | .buffer _ => true
  | .directory .. => false

/-- What is laid down: whether the engine can run, whether every search waits to be cancelled, which
searches cancel the look-up when they start, and which have an outcome already. The flag tells a
search of the buffer. -/
structure Script where
  available : Bool
  waitsForCancel : Bool
  cancels : Bool → Kind → Bool
  outcome? : Bool → Kind → Option SearchResult

def Script.engine (script : Script) (tree : FileTree) (timeout : Float) : Engine :=
  { name := "scripted"
    available := script.available
    search := fun kind pattern source run =>
      if script.waitsForCancel then (.ok (.fail .cancelled "Search cancelled"), run.cancel)
      else
        let run := if script.cancels source.isBuffer kind then run.cancel else run
        match script.outcome? source.isBuffer kind with
        | some result => (.ok result, run)
        | none => InProcess.search tree timeout pattern source run }

end DefinitionSite
