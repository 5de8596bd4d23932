import Mathlib.Tactic.Common
import DefinitionSite.Proofs.Json.Fragments
import DefinitionSite.Ripgrep.Record

/-! The engine's output and the events that are read from it. The engine writes each record as
compact JSON on a line of its own. Every record that stays on one line comes back as the event it
stands for, in order. A record whose strings hold a line end that JSON leaves as it is falls into
pieces, and no piece gives an event. -/
namespace DefinitionSite.Ripgrep
open Json (compact Plain Piece)

/-- A record of the engine: a match, with what else it says of it, or one of another kind. -/
inductive Record where
  | hit (path : String) (line : Int) (text : String) (more : List (String × Json))
  | other (kind : String) (hkind : kind ≠ "match") (fields : List (String × Json))

namespace Record

/-- The value that the engine writes. -/
def json : Record → Json
  | hit path line text more =>
    .obj [("type", .str "match"), ("data", .obj (("path", .obj [("text", .str path)]) ::
      ("lines", .obj [("text", .str text)]) :: ("line_number", .int line) :: more))]
  | other kind _ fields => .obj (("type", .str kind) :: fields)

/-- The event that a record stands for. -/
def event? (fromBuffer : Bool) : Record → Option Event
  | hit path line text _ =>
    some
      { path := if fromBuffer then none else some (.name (.text path))
        line := .number line
        text := .text text.toList }
  | other .. => none

/-- Whether none of the line ends that JSON leaves as they are stands in the record. -/
def isWhole (r : Record) : Bool :=
  (compact r.json).all fun c => !(c == '\u0085' || c == '\u2028' || c == '\u2029')

end Record

/-- The output that holds the records. -/
def write (records : List Record) : Text :=
  records.flatMap fun r => compact r.json ++ ['\n']

/-- Any file and any text may stand in a match, and any line number that may be written. -/
theorem plain_hit {line : Int} (hline : Decimal.isWritable line = true)
    {more : List (String × Json)}
    (hnames : (["path", "lines", "line_number"] ++ more.map (·.1)).Nodup)
    (hmore : ∀ f ∈ more, Plain f.2) (path text : String) :
    Plain (Record.hit path line text more).json := by
  have htext : ∀ s, Plain (.obj [("text", .str s)]) := by
    intro s
    exact .obj (by simp) (by simp [Plain.str])
  have hdata : Plain (.obj (("path", .obj [("text", .str path)]) ::
      ("lines", .obj [("text", .str text)]) :: ("line_number", .int line) :: more)) := by
    refine .obj hnames ?_
    simp only [List.forall_mem_cons]
    exact ⟨htext path, htext text, .int hline, hmore⟩
  refine .obj (by simp) ?_
  simp [Plain.str, hdata]

/-! Lines of the output. -/

theorem recordLines_cons {c : Char} (hc : c ≠ '\r') (rest : Text) :
    Text.recordLines (c :: rest) =
      if Text.endsRecord c then [] :: Text.recordLines rest
      else
        match Text.recordLines rest with
        | [] => [[c]]
        | line :: lines => (c :: line) :: lines := by
  rw [Text.recordLines.eq_def]
  split
  · contradiction
  · rename_i heq
    exact absurd (List.cons_eq_cons.mp heq).1 hc
  · rename_i heq
    obtain ⟨rfl, rfl⟩ := List.cons_eq_cons.mp heq
    rfl

theorem recordLines_line {line : Text} {x : Char} (h : ∀ c ∈ line, Text.endsRecord c = false)
    (hx : Text.endsRecord x = true) (hreturn : x ≠ '\r') (rest : Text) :
    Text.recordLines (line ++ x :: rest) = line :: Text.recordLines rest := by
  induction line with
  | nil => rw [List.nil_append, recordLines_cons hreturn, if_pos hx]
  | cons c line ih =>
    obtain ⟨hc, h⟩ := List.forall_mem_cons.mp h
    have hne : c ≠ '\r' := by
      rintro rfl
      exact absurd hc (by decide)
    rw [List.cons_append, recordLines_cons hne, hc, ih h]
    rfl

/-- The event of one line. -/
def lineEvent? (fromBuffer : Bool) (line : Text) : Option Event :=
  if line.all Text.isBlank then none else (Json.read? line).bind (eventOf? fromBuffer)

theorem parse_line {line : Text} {x : Char} (h : ∀ c ∈ line, Text.endsRecord c = false)
    (hx : Text.endsRecord x = true) (hreturn : x ≠ '\r') (rest : Text) (fromBuffer : Bool) :
    parse (line ++ x :: rest) fromBuffer =
      (lineEvent? fromBuffer line).toList ++ parse rest fromBuffer := by
  unfold parse
  rw [recordLines_line h hx hreturn]
  show (line :: Text.recordLines rest).filterMap (lineEvent? fromBuffer) = _
  rw [List.filterMap_cons]
  cases lineEvent? fromBuffer line <;> rfl

/-- A text has no line end, or there is a first one. -/
theorem exists_line (text : Text) :
    (∀ c ∈ text, Text.endsRecord c = false) ∨
      ∃ line x rest, text = line ++ x :: rest ∧ (∀ c ∈ line, Text.endsRecord c = false) ∧
        Text.endsRecord x = true := by
  induction text with
  | nil => simp
  | cons c text ih =>
    by_cases hc : Text.endsRecord c = true
    · exact .inr ⟨[], c, text, rfl, by simp, hc⟩
    · rw [Bool.not_eq_true] at hc
      rcases ih with h | ⟨line, x, rest, rfl, hline, hx⟩
      · exact .inl (List.forall_mem_cons.mpr ⟨hc, h⟩)
      · exact .inr ⟨c :: line, x, rest, rfl, List.forall_mem_cons.mpr ⟨hc, hline⟩, hx⟩

/-! Whole records. -/

theorem eventOf?_json (fromBuffer : Bool) (r : Record) :
    eventOf? fromBuffer r.json = r.event? fromBuffer := by
  cases r with
  | hit path line text more => cases fromBuffer <;> rfl
  | other kind hkind fields =>
    have htype : Json.field? "type" (Record.other kind hkind fields).json = some (.str kind) := rfl
    unfold eventOf?
    rw [htype]
    simp only [Option.bind_eq_bind, Option.bind_some]
    split
    · rename_i heq
      exact absurd (Json.str.inj heq) hkind
    · rfl

theorem lineEvent?_json {r : Record} (h : Plain r.json) (fromBuffer : Bool) :
    lineEvent? fromBuffer (compact r.json) = r.event? fromBuffer := by
  have hblank : (compact r.json).all Text.isBlank = false := by
    cases r <;> simp [Record.json, compact, show Text.isBlank '\x7b' = false by decide]
  unfold lineEvent?
  rw [hblank, Json.read?_compact h]
  exact eventOf?_json fromBuffer r

/-! Pieces of records. -/

theorem lineEvent?_cutOff {line : Text} (h : Piece false line true) (fromBuffer : Bool) :
    lineEvent? fromBuffer line = none := by
  unfold lineEvent?
  rw [Json.read?_cutOff h]
  split <;> rfl

theorem lineEvent?_inside {line : Text} {stop : Bool} (h : Piece true line stop)
    (fromBuffer : Bool) : lineEvent? fromBuffer line = none := by
  unfold lineEvent?
  split
  · rfl
  · cases hread : Json.read? line with
    | none => rfl
    | some v =>
      have htype : v.field? "type" = none := by
        have hnamed := Json.named_of_inside h hread
        unfold Json.field?
        split
        · rename_i fields
          rw [Option.map_eq_none_iff, List.find?_eq_none]
          intro f hf hname
          -- No mark is the second letter of `type`.
          have hmarks := hnamed fields rfl f hf
          rw [beq_iff_eq.mp hname] at hmarks
          exact absurd (hmarks 'y' (by decide)) (by decide)
        · rfl
      show eventOf? fromBuffer v = none
      simp [eventOf?, htype]

theorem ne_return_of_piece {start stop : Bool} {line rest : Text} {x : Char}
    (h : Piece start (line ++ x :: rest) stop) : x ≠ '\r' := by
  rintro rfl
  exact absurd (h.printable '\r' (by simp)) (by decide)

/-- What stands on a record's lines behind its first cut gives no event. -/
theorem parse_inside {text : Text} (h : Piece true text false) (rest : Text) (fromBuffer : Bool) :
    parse (text ++ '\n' :: rest) fromBuffer = parse rest fromBuffer := by
  -- Every cut leaves a shorter text that starts inside a string.
  induction hlength : text.length using Nat.strong_induction_on generalizing text with
  | _ n ih =>
    rcases exists_line text with hline | ⟨line, x, behind, rfl, hline, hx⟩
    · rw [parse_line hline (by decide) (by decide), lineEvent?_inside h]
      rfl
    · obtain ⟨hfirst, hbehind⟩ := h.cut hx
      rw [List.append_assoc, List.cons_append, parse_line hline hx (ne_return_of_piece h),
        lineEvent?_inside hfirst]
      exact ih behind.length (by simp [← hlength]; omega) hbehind rfl

theorem endsRecord_printable {c : Char} (h : 32 ≤ c.toNat) :
    Text.endsRecord c = (c == '\u0085' || c == '\u2028' || c == '\u2029') := by
  have hnot : ∀ d : Char, d.toNat < 32 → (c == d) = false := by
    intro d hd
    rw [beq_eq_false_iff_ne]
    rintro rfl
    omega
  unfold Text.endsRecord
  simp only [hnot '\n' (by decide), hnot '\r' (by decide), hnot '\x0b' (by decide),
    hnot '\x0c' (by decide), hnot '\x1c' (by decide), hnot '\x1d' (by decide),
    hnot '\x1e' (by decide), Bool.false_or]

theorem isWhole_iff {r : Record} (h : Plain r.json) :
    r.isWhole = true ↔ ∀ c ∈ compact r.json, Text.endsRecord c = false := by
  have hprintable := (Json.piece_compact h).printable
  unfold Record.isWhole
  rw [List.all_eq_true]
  apply forall₂_congr
  intro c hc
  rw [endsRecord_printable (hprintable c hc), Bool.not_eq_true']

theorem parse_record {r : Record} (h : Plain r.json) (rest : Text) (fromBuffer : Bool) :
    parse (compact r.json ++ '\n' :: rest) fromBuffer =
      (if r.isWhole then r.event? fromBuffer else none).toList ++ parse rest fromBuffer := by
  rcases exists_line (compact r.json) with hline | ⟨line, x, behind, htext, hline, hx⟩
  · rw [parse_line hline (by decide) (by decide), lineEvent?_json h,
      if_pos ((isWhole_iff h).mpr hline)]
  · have hcut : ¬ r.isWhole = true := by
      intro hwhole
      have hends := (isWhole_iff h).mp hwhole x (by simp [htext])
      simp [hends] at hx
    have hpiece := Json.piece_compact h
    rw [htext] at hpiece ⊢
    obtain ⟨hfirst, hbehind⟩ := hpiece.cut hx
    rw [List.append_assoc, List.cons_append, parse_line hline hx (ne_return_of_piece hpiece),
      lineEvent?_cutOff hfirst, parse_inside hbehind, if_neg hcut]

/-- The events of the records that are whole come back in order, and nothing else does. -/
theorem parse_write {records : List Record} (h : ∀ r ∈ records, Plain r.json)
    (fromBuffer : Bool) :
    parse (write records) fromBuffer =
      (records.filter (·.isWhole)).filterMap (·.event? fromBuffer) := by
  induction records with
  | nil => rfl
  | cons r records ih =>
    obtain ⟨hr, h⟩ := List.forall_mem_cons.mp h
    have htext : write (r :: records) = compact r.json ++ '\n' :: write records := by
      simp [write]
    rw [htext, parse_record hr, ih h]
    cases hwhole : r.isWhole with
    | false => simp [hwhole]
    | true => cases hevent : r.event? fromBuffer <;> simp [hwhole, hevent]

/-- Three records of one file, the last of them about a line that holds a line separator. -/
def leafRecords : List Record :=
  [.other "begin" (by decide) [("data", .obj [("path", .obj [("text", .str "A.hs")])])],
    .hit "A.hs" 3 "leaf = 1 -- \"one\"\n" [("absolute_offset", .int 40)],
    .hit "A.hs" 4 "leaf = 2 --\u2028 two\n" [("absolute_offset", .int 58)]]

theorem parse_write_leaf :
    (∀ r ∈ leafRecords, Plain r.json) ∧
      parse (write leafRecords) false =
        [{ path := some (.name (.text "A.hs"))
           line := .number 3
           text := .text (Text.of "leaf = 1 -- \"one\"\n") }] := by
  have hplain : ∀ r ∈ leafRecords, Plain r.json := by
    simp only [leafRecords, List.forall_mem_cons]
    refine ⟨?_, ?_, ?_, by simp⟩
    · refine .obj (by simp) ?_
      simp only [List.forall_mem_cons]
      have hpath : Plain (.obj [("text", .str "A.hs")]) := .obj (by simp) (by simp [Plain.str])
      exact ⟨.str _, .obj (by simp) (by simpa using hpath), by simp⟩
    · have hoffset : Plain (.int 40) := .int (by decide +kernel)
      exact plain_hit (by decide +kernel) (by simp) (by simpa using hoffset) _ _
    · have hoffset : Plain (.int 58) := .int (by decide +kernel)
      exact plain_hit (by decide +kernel) (by simp) (by simpa using hoffset) _ _
  refine ⟨hplain, ?_⟩
  rw [parse_write hplain]
  rfl

/-- The record of a line that holds a line separator is lost. -/
theorem parse_lineSeparator :
    (Record.hit "A.hs" 1 "x = 1 --\u2028 y\n" []).event? false ≠ none ∧
      parse (write [.hit "A.hs" 1 "x = 1 --\u2028 y\n" []]) false = [] := by
  refine ⟨by simp [Record.event?], ?_⟩
  decide +kernel

end DefinitionSite.Ripgrep
