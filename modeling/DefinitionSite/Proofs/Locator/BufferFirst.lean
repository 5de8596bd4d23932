import DefinitionSite.Proofs.Location.Ordered
import DefinitionSite.Proofs.Locator.Outcomes
import DefinitionSite.Scripted

/-! A hit in the buffer is the only answer. It is the one that the look-up in the text alone gives,
and the workspace has no part in it: it is neither looked at nor asked for. -/
namespace DefinitionSite.Locator

variable {engine : Engine} {l : Locator} {identifier text : Text} {request : Request} {run : Run}
  {outcome : Kind → Text → Except SearchFault SearchResult} {m : Match}

/-- The location of a match in the buffer: in the current file, if one is given, and else in the
buffer itself. -/
def inCurrentFile (currentFile : Option String) (m : Match) : Location where
  file := (currentFile.filter fun file => !file.isEmpty).elim .buffer FileLabel.named
  lineIndex := m.lineIndex
  length := m.text.length
  text := m.text

theorem ofMatchIn_bufferFile (currentFile : Option String) (m : Match) :
    .ofMatchIn (bufferFile currentFile) m = inCurrentFile currentFile m := by
  unfold Location.ofMatchIn inCurrentFile bufferFile
  cases currentFile with
  | none => rfl
  | some file =>
    cases hempty : file.isEmpty with
    | true => simp [hempty, Option.filter]
    | false => simp [hempty, Option.filter, FileLabel.named]

theorem locateByScan_hit (hrun : run.Undisturbed) (htext : someText request.buffer = some text)
    (hscan : scanText identifier text = some m) :
    locateByScan l identifier request run = (.ok [inCurrentFile request.currentFile m], run) := by
  have hbind : ((someText request.buffer).bind fun text =>
      Match.best (LineScan.scan identifier text .buffer)) = some m := by
    rw [htext]
    exact hscan
  unfold locateByScan
  simp only [hbind, hrun.running, Bool.and_false, Bool.false_eq_true, ↓reduceIte,
    ofMatchIn_bufferFile]

theorem inBuffer_hit (h : l.engine.SettledIn (.buffer text) outcome) (hrun : run.Undisturbed)
    (htext : someText request.buffer = some text) {candidates : List Match}
    (hgiven : (gathered fun kind => outcome kind (Catalog.patternText identifier kind)) =
      .ok (.found candidates)) (hbest : Match.best candidates = some m) :
    ∃ after, inBuffer l identifier request run =
      (.answer (.ok [inCurrentFile request.currentFile m]), after) := by
  unfold inBuffer
  simp only [htext]
  generalize hsay : run.say .debug _ = start
  obtain ⟨after, hafter, hall⟩ := searchAll_settled h identifier (hsay ▸ hrun.say _ _)
  simp only [hall, hgiven, hafter.running, hbest, ofMatchIn_bufferFile]
  exact ⟨_, rfl⟩

/-- The engine, or the line scan in its place, gives the look-up what it gives in the text alone. -/
theorem locate_hit (hengine : engine.SettledIn (.buffer text) outcome)
    (hsettled : l.engine.SettledIn (.buffer text) outcome)
    (havailable : l.engine.available = engine.available) (htext : request.buffer = some text)
    {now : Run} (hnow : now.Undisturbed) (hrun : run.Undisturbed)
    (hfound : (findInText engine request.identifier (some text) now).1 = .ok (some m)) :
    (locate l request run).1 = .ok [inCurrentFile request.currentFile m] := by
  rw [findInText_eq] at hfound
  unfold locate
  cases hsome : someText (some text) with
  | none => simp [hsome] at hfound
  | some content =>
    obtain rfl : text = content := Option.some.inj (Option.filter_eq_some_iff.mp hsome).1
    have hbuffer : someText request.buffer = some text := htext ▸ hsome
    simp only [hsome] at hfound
    split_ifs at hfound with hempty hruns
    · simp at hfound
    · obtain ⟨_, -, hall⟩ := searchAll_settled hengine (wanted request.identifier) hnow
      rw [hall] at hfound
      simp only [hempty, havailable, hruns]
      cases hgiven : gathered fun kind =>
          outcome kind (Catalog.patternText (wanted request.identifier) kind) with
      | error f => simp [hgiven, answerFrom] at hfound
      | ok pooled =>
        rw [hgiven] at hfound
        cases pooled with
        | unavailable why =>
          obtain ⟨after, hscan, hafter⟩ := inBuffer_scan hsettled hrun hbuffer hgiven
          unfold locateByEngine
          simp only [hscan]
          exact congrArg Prod.fst
            (locateByScan_hit (hafter.say _ _) hbuffer (Except.ok.inj hfound))
        | found candidates =>
          obtain ⟨after, hhit⟩ := inBuffer_hit hsettled hrun hbuffer hgiven (Except.ok.inj hfound)
          unfold locateByEngine
          simp only [hhit]
          rfl
    · simp only [hempty, havailable, hruns]
      exact congrArg Prod.fst (locateByScan_hit (hrun.say _ _) hbuffer (Except.ok.inj hfound))

/-- A look-up that nobody cancels answers with the hit in the buffer, and so does any other from the
same buffer, whatever its workspace. -/
theorem locate_bufferFirst (engine : Engine) (l : Locator) (text : Text)
    (outcome : Kind → Text → Except SearchFault SearchResult)
    (hengine : engine.SettledIn (.buffer text) outcome)
    (hsettled : l.engine.SettledIn (.buffer text) outcome)
    (havailable : l.engine.available = engine.available) (request : Request)
    (htext : request.buffer = some text) (now run : Run) (hnow : now.Undisturbed)
    (hrun : run.Undisturbed) (m : Match)
    (hfound : (findInText engine request.identifier (some text) now).1 = .ok (some m)) :
    (locate l request run).1 = .ok [inCurrentFile request.currentFile m] ∧
      ∀ (other : Locator) (root : Option Path) (globs : Option (List String)) (later : Run),
        other.engine.SettledIn (.buffer text) outcome →
        other.engine.available = engine.available → later.Undisturbed →
        (locate other { request with root, globs } later).1 = (locate l request run).1 := by
  have hhit := locate_hit hengine hsettled havailable htext hnow hrun hfound
  refine ⟨hhit, ?_⟩
  intro other root globs later hother hruns hlater
  rw [hhit]
  exact locate_hit hengine hother hruns htext hnow hlater hfound

/-- Searches of which one finds a leaf in the buffer, and all find another in the workspace. -/
def leafTwice : Script where
  available := true
  waitsForCancel := false
  cancels := fun _ _ => false
  outcome? := fun inBuffer kind =>
    some <| .ofEvents <|
      if !inBuffer then [⟨some (.named "Leaf.hs"), .number 1, .text (Text.of "leaf :: Int")⟩]
      else if kind = .assignment then [⟨none, .number 2, .text (Text.of "leaf = 1")⟩]
      else []

/-- A locator that searches so. -/
def leafTwiceLocator : Locator where
  tree := ⟨.dir [], []⟩
  engine := leafTwice.engine ⟨.dir [], []⟩ 5.0
  skipDirs := []

/-- A request for the leaf, from a buffer of the file given. -/
def leafTwiceRequest : Request where
  identifier := some (Text.of "leaf")
  buffer := some (Text.of "\nleaf = 1")
  root := some (.ofString "/src")
  globs := none
  currentFile := some "Tree.hs"

/-- What the searches of the buffer come to. -/
def leafInBuffer (kind : Kind) (_ : Text) : Except SearchFault SearchResult :=
  .ok <| .ofEvents <|
    if kind = .assignment then [⟨none, .number 2, .text (Text.of "leaf = 1")⟩] else []

/-- The leaf in the buffer is the answer, though the workspace has a signature. -/
theorem locate_bufferFirst_leafTwice :
    leafTwiceLocator.engine.SettledIn (.buffer (Text.of "\nleaf = 1")) leafInBuffer ∧
      (findInText leafTwiceLocator.engine leafTwiceRequest.identifier
        (some (Text.of "\nleaf = 1")) .fresh).1 =
          .ok (some ⟨.assignment, .buffer, 1, Text.of "leaf = 1"⟩) ∧
      (locate leafTwiceLocator leafTwiceRequest .fresh).1 =
        .ok [⟨.named "Tree.hs", 1, 8, Text.of "leaf = 1"⟩] := by
  have hsettled : leafTwiceLocator.engine.SettledIn (.buffer (Text.of "\nleaf = 1"))
      leafInBuffer := fun _ _ run hrun => ⟨run, rfl, hrun⟩
  have hfound : (findInText leafTwiceLocator.engine leafTwiceRequest.identifier
      (some (Text.of "\nleaf = 1")) .fresh).1 =
        .ok (some ⟨.assignment, .buffer, 1, Text.of "leaf = 1"⟩) := rfl
  exact ⟨hsettled, hfound, (locate_bufferFirst leafTwiceLocator.engine leafTwiceLocator _ _ hsettled
    hsettled rfl leafTwiceRequest rfl .fresh .fresh ⟨rfl, rfl⟩ ⟨rfl, rfl⟩ _ hfound).1⟩

end DefinitionSite.Locator
