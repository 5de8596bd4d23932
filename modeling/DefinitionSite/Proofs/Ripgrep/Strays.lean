import DefinitionSite.Proofs.Location.Ordered
import DefinitionSite.Proofs.Locator.Outcomes
import DefinitionSite.Ripgrep.Running

/-! Values that stray into events. The lines of an event are text and its file is a name or nothing,
whatever the record looks like, but for one field each: a value of another type in that field comes
through as it is. -/
namespace DefinitionSite

theorem RawText.canonical_ofBytes (bytes : List UInt8) : (RawText.ofBytes bytes).Canonical := by
  unfold ofBytes
  split
  · trivial
  · assumption

namespace Json

/-- The value under names of fields, one within the other. -/
def at? (names : List String) (v : Json) : Option Json :=
  names.foldlM (fun v name => v.field? name) v

/-- Whether the value is taken for text and is none. What does not count as present is taken for
empty text. -/
def straysAsText : Json → Bool
  | .str _ => false
  | v => v.isTruthy

/-- Whether the value is taken for a name and is none. Only null is taken for no name. -/
def straysAsName : Json → Bool
  | .str _ => false
  | .null => false
  | _ => true

end Json

namespace Ripgrep

/-- The value that a record has in the place of the lines, if it strays. -/
def strayText? (record : Json) : Option Json :=
  (record.at? ["data", "lines", "text"]).filter Json.straysAsText

/-- The value that a record has in the place of the file, if it strays. A name that is given by its
bytes leaves no place for one, and in a search of a buffer there is none. -/
def strayPath? (fromBuffer : Bool) (record : Json) : Option Json :=
  if fromBuffer || (record.at? ["data", "path", "bytes"]).isSome then none
  else (record.at? ["data", "path", "text"]).filter Json.straysAsName

section Event

variable {fromBuffer : Bool} {record v : Json} {event : Event} {field : Option Json}

theorem linesOf?_cases {text : EventText} (h : linesOf? field = some text) :
    match (field.bind (·.field? "text")).filter Json.straysAsText with
    | some v => text = .value v
    | none => ∃ t, text = .text t := by
  unfold linesOf? at h
  cases field with
  | none =>
    obtain rfl := Option.some.inj h
    exact ⟨[], rfl⟩
  | some wrapper =>
    cases wrapper with
    | obj fields =>
      simp only [Option.bind_some]
      cases htext : Json.field? "text" (.obj fields) with
      | some v =>
        simp only [htext] at h
        obtain rfl := Option.some.inj h
        by_cases htruthy : v.isTruthy = true
        · cases v with
          | str s => exact ⟨s.toList, rfl⟩
          | _ => simp [Option.filter, Json.straysAsText, htruthy]
        · cases v with
          | str s => exact ⟨s.toList, rfl⟩
          | _ => simp [Option.filter, Json.straysAsText, htruthy]
      | none =>
        cases hbytes : Json.field? "bytes" (.obj fields) with
        | some b =>
          simp only [htext, hbytes] at h
          obtain ⟨value, hvalue, rfl⟩ := Option.map_eq_some_iff.mp h
          obtain ⟨bytes, -, rfl⟩ := Option.map_eq_some_iff.mp hvalue
          exact ⟨_, rfl⟩
        | none =>
          simp only [htext, hbytes] at h
          obtain rfl := Option.some.inj h
          exact ⟨[], rfl⟩
    | _ =>
      obtain rfl := Option.some.inj h
      exact ⟨[], rfl⟩

theorem pathOf?_cases {path : Option FileLabel} (h : pathOf? field = some path) :
    match if (field.bind (·.field? "bytes")).isSome then none
      else (field.bind (·.field? "text")).filter Json.straysAsName with
    | some v => path = some (.value v)
    | none => ∀ file ∈ path, file.IsName := by
  unfold pathOf? at h
  cases field with
  | none =>
    obtain rfl := Option.some.inj h
    simp
  | some wrapper =>
    cases wrapper with
    | obj fields =>
      simp only [Option.bind_some]
      cases hbytes : Json.field? "bytes" (.obj fields) with
      | some b =>
        simp only [hbytes] at h
        obtain ⟨bytes, -, rfl⟩ := Option.map_eq_some_iff.mp h
        intro file hfile
        exact ⟨_, RawText.canonical_ofBytes bytes, (Option.some.inj hfile).symm⟩
      | none =>
        cases htext : Json.field? "text" (.obj fields) with
        | none =>
          simp only [hbytes, htext] at h
          obtain rfl := Option.some.inj h
          simp
        | some v =>
          simp only [hbytes, htext] at h
          cases v with
          | null =>
            obtain rfl := Option.some.inj h
            simp [Option.filter, Json.straysAsName]
          | str s =>
            obtain rfl := Option.some.inj h
            intro file hfile
            exact ⟨.text s, trivial, (Option.some.inj hfile).symm⟩
          | _ => exact (Option.some.inj h).symm
    | _ =>
      obtain rfl := Option.some.inj h
      simp [Json.field?]

theorem exists_of_eventOf? (h : eventOf? fromBuffer record = some event) :
    ∃ data, record.field? "data" = some data ∧
      linesOf? (data.field? "lines") = some event.text ∧
      (if fromBuffer then some none else pathOf? (data.field? "path")) = some event.path := by
  unfold eventOf? at h
  simp only [Option.bind_eq_bind] at h
  obtain ⟨kind, -, h⟩ := Option.bind_eq_some_iff.mp h
  split at h
  · obtain ⟨data, hdata, h⟩ := Option.bind_eq_some_iff.mp h
    obtain ⟨number, -, h⟩ := Option.bind_eq_some_iff.mp h
    obtain ⟨line, -, h⟩ := Option.bind_eq_some_iff.mp h
    obtain ⟨text, htext, h⟩ := Option.bind_eq_some_iff.mp h
    refine ⟨data, hdata, ?_⟩
    cases fromBuffer with
    | true =>
      obtain rfl := Option.some.inj h
      exact ⟨htext, rfl⟩
    | false =>
      obtain ⟨path, hpath, h⟩ := Option.bind_eq_some_iff.mp h
      obtain rfl := Option.some.inj h
      exact ⟨htext, hpath⟩
  · cases h

/-- The lines of an event are text, unless a value strays into their place. -/
theorem eventOf?_text (h : eventOf? fromBuffer record = some event) :
    match strayText? record with
    | some v => event.text = .value v
    | none => event.Readable := by
  obtain ⟨data, hdata, htext, -⟩ := exists_of_eventOf? h
  have hat : record.at? ["data", "lines", "text"] =
      (data.field? "lines").bind (·.field? "text") := by
    simp [Json.at?, hdata]
  rw [strayText?, hat]
  exact linesOf?_cases htext

theorem strayText?_eq_some_iff (h : eventOf? fromBuffer record = some event) :
    strayText? record = some v ↔ event.text = .value v := by
  have htext := eventOf?_text h
  cases hstray : strayText? record with
  | some w =>
    rw [hstray] at htext
    rw [htext, Option.some.injEq, EventText.value.injEq]
  | none =>
    rw [hstray] at htext
    obtain ⟨t, ht⟩ := htext
    simp [ht]

/-- The file of an event is nothing or a name, unless a value strays into its place. -/
theorem eventOf?_path (h : eventOf? fromBuffer record = some event) :
    match strayPath? fromBuffer record with
    | some v => event.path = some (.value v)
    | none => ∀ file ∈ event.path, file.IsName := by
  obtain ⟨data, hdata, -, hpath⟩ := exists_of_eventOf? h
  cases fromBuffer with
  | true =>
    have hnone := Option.some.inj hpath
    simp [strayPath?, ← hnone]
  | false =>
    have hat : ∀ name, record.at? ["data", "path", name] =
        (data.field? "path").bind (·.field? name) := by
      intro name
      simp [Json.at?, hdata]
    rw [strayPath?, hat, hat]
    exact pathOf?_cases hpath

theorem strayPath?_eq_some_iff (h : eventOf? fromBuffer record = some event) :
    strayPath? fromBuffer record = some v ↔ event.path = some (.value v) := by
  have hpath := eventOf?_path h
  cases hstray : strayPath? fromBuffer record with
  | some w =>
    rw [hstray] at hpath
    rw [hpath, Option.some.injEq, Option.some.injEq, FileLabel.value.injEq]
  | none =>
    rw [hstray] at hpath
    simp only [reduceCtorEq, false_iff]
    intro hvalue
    obtain ⟨name, -, hname⟩ := hpath _ hvalue
    cases hname

end Event

/-- The values of an output: its lines that are JSON. -/
def records (output : Text) : List Json :=
  (Text.recordLines output).filterMap fun line =>
    if line.all Text.isBlank then none else Json.read? line

/-- The values that stray from the records of an output that make an event. -/
def strays (stray? : Json → Option Json) (output : Text) (fromBuffer : Bool) : List Json :=
  (records output).filterMap fun record => (eventOf? fromBuffer record).bind fun _ => stray? record

/-- The values that stray into the lines of the events of an output. -/
def textStrays (output : Text) (fromBuffer : Bool) : List Json :=
  strays strayText? output fromBuffer

/-- The values that stray into the files of the events of an output. -/
def pathStrays (output : Text) (fromBuffer : Bool) : List Json :=
  strays (strayPath? fromBuffer) output fromBuffer

section Output

variable {output : Text} {fromBuffer : Bool} {event : Event} {v : Json}

theorem mem_parse : event ∈ parse output fromBuffer ↔
    ∃ record ∈ records output, eventOf? fromBuffer record = some event := by
  simp only [parse, records, List.mem_filterMap]
  constructor
  · rintro ⟨line, hline, h⟩
    split_ifs at h with hblank
    obtain ⟨record, hread, hevent⟩ := Option.bind_eq_some_iff.mp h
    exact ⟨record, ⟨line, hline, by rw [if_neg hblank, hread]⟩, hevent⟩
  · rintro ⟨record, ⟨line, hline, hread⟩, hevent⟩
    split_ifs at hread with hblank
    exact ⟨line, hline, by rw [if_neg hblank, hread]; exact hevent⟩

/-- What strays is just what comes through in an event. -/
theorem mem_strays {stray? : Json → Option Json} {holds : Event → Prop}
    (h : ∀ {record event}, eventOf? fromBuffer record = some event →
      (stray? record = some v ↔ holds event)) :
    v ∈ strays stray? output fromBuffer ↔ ∃ event ∈ parse output fromBuffer, holds event := by
  simp only [strays, List.mem_filterMap, mem_parse]
  constructor
  · rintro ⟨record, hrecord, hstray⟩
    obtain ⟨event, hevent, hv⟩ := Option.bind_eq_some_iff.mp hstray
    exact ⟨event, ⟨record, hrecord, hevent⟩, (h hevent).mp hv⟩
  · rintro ⟨event, ⟨record, hrecord, hevent⟩, hholds⟩
    exact ⟨record, hrecord, Option.bind_eq_some_iff.mpr ⟨event, hevent, (h hevent).mpr hholds⟩⟩

theorem mem_textStrays : v ∈ textStrays output fromBuffer ↔
    ∃ event ∈ parse output fromBuffer, event.text = .value v :=
  mem_strays strayText?_eq_some_iff

theorem mem_pathStrays : v ∈ pathStrays output fromBuffer ↔
    ∃ event ∈ parse output fromBuffer, event.path = some (.value v) :=
  mem_strays strayPath?_eq_some_iff

theorem readable_iff : (∀ event ∈ parse output fromBuffer, event.Readable) ↔
    textStrays output fromBuffer = [] := by
  rw [List.eq_nil_iff_forall_not_mem]
  constructor
  · intro h v hv
    obtain ⟨event, hevent, hvalue⟩ := mem_textStrays.mp hv
    obtain ⟨t, ht⟩ := h event hevent
    rw [ht] at hvalue
    cases hvalue
  · intro h event hevent
    cases htext : event.text with
    | text t => exact ⟨t, htext⟩
    | value v => exact absurd (mem_textStrays.mpr ⟨event, hevent, htext⟩) (h v)

theorem isName_iff : (∀ event ∈ parse output fromBuffer, ∀ file ∈ event.path, file.IsName) ↔
    pathStrays output fromBuffer = [] := by
  rw [List.eq_nil_iff_forall_not_mem]
  constructor
  · intro h v hv
    obtain ⟨event, hevent, hvalue⟩ := mem_pathStrays.mp hv
    obtain ⟨name, -, hname⟩ := h event hevent _ hvalue
    cases hname
  · intro h event hmem
    obtain ⟨record, -, hevent⟩ := mem_parse.mp hmem
    have hpath := eventOf?_path hevent
    cases hstray : strayPath? fromBuffer record with
    | none => rwa [hstray] at hpath
    | some v =>
      rw [hstray] at hpath
      exact absurd (mem_pathStrays.mpr ⟨event, hmem, hpath⟩) (h v)

end Output

theorem ofEvents_ok_iff {kind : Kind} {events : List Event} :
    (∃ ms, Match.ofEvents kind events = .ok ms) ↔ ∀ event ∈ events, event.Readable := by
  constructor
  · rintro ⟨ms, h⟩
    unfold Match.ofEvents at h
    induction events generalizing ms with
    | nil => simp
    | cons event events ih =>
      rw [List.mapM_cons] at h
      cases htext : event.text with
      | value v => simp [Match.ofEvent, htext, bind, Except.bind] at h
      | text t =>
        cases hrest : events.mapM (Match.ofEvent kind) with
        | error f => simp [Match.ofEvent, htext, hrest, bind, Except.bind] at h
        | ok rest => exact List.forall_mem_cons.mpr ⟨⟨t, htext⟩, ih rest hrest⟩
  · intro h
    exact ⟨_, Match.ofEvents_readable h⟩

theorem mem_events_resultOf {p : Behaviour} {fromBuffer : Bool} {event : Event}
    (h : event ∈ (resultOf p fromBuffer).events) :
    p.exitCode = 0 ∧ event ∈ parse p.stdout fromBuffer := by
  unfold resultOf at h
  split_ifs at h with hexit
  · refine ⟨by simpa using hexit, ?_⟩
    unfold SearchResult.ofEvents at h
    split_ifs at h
    · simp at h
    · exact h
  · simp at h
  all_goals simp [SearchResult.fail] at h

/-- The engine reports what stands in the output of its process, and only if that ended well. -/
theorem mem_events_engine {available : Bool} {executable : String} {timeout : Float}
    {processFor : Kind → Source → Behaviour} {kind : Kind} {pattern : Text} {source : Source}
    {run : Run} {result : SearchResult} {event : Event}
    (hresult : ((engine available executable timeout processFor).search kind pattern source run).1 =
      .ok result) (h : event ∈ result.events) :
    (processFor kind source).exitCode = 0 ∧
      event ∈ parse (processFor kind source).stdout (inputOf source).isSome := by
  obtain rfl : (search (processFor kind source) executable timeout pattern source run).1 = result :=
    Except.ok.inj hresult
  simp only [search] at h
  split at h
  · rename_i done hsearch
    unfold searchWith at hsearch
    split at hsearch
    · obtain rfl := Option.some.inj hsearch
      simp [SearchResult.fail] at h
    · obtain ⟨attended, -, rfl⟩ := Option.map_eq_some_iff.mp hsearch
      cases houtcome : attended.outcome with
      | returned => exact mem_events_resultOf (by simpa [concluded, houtcome] using h)
      | cancelled => simp [concluded, houtcome, SearchResult.fail] at h
      | timedOut => simp [concluded, houtcome, SearchResult.fail] at h
  · simp [SearchResult.fail] at h

end Ripgrep
end DefinitionSite
