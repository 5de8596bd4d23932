import DefinitionSite.Proofs.Text.LineEndings

/-! Cutting a text into lines undoes the writing of lines one after the other, each with a line
break of its own behind it. Every text is written so, up to what stands behind its last line feed:
only the line breaks are lost, and one line is left for each of them. -/
namespace DefinitionSite.Text

/-- The two line breaks of a source file. -/
inductive LineBreak where
  | feed
  | returnFeed

def LineBreak.text : LineBreak → Text
  | .feed => ['\n']
  | .returnFeed => ['\r', '\n']

/-- Lines one after the other, each with the line break that stands behind it. -/
def joined (lines : List (Text × LineBreak)) : Text :=
  lines.flatMap fun (line, br) => line ++ br.text

/-- What a line can hold: no line feed, and no carriage return at its end, where it would belong to
the line break. -/
@[mk_iff]
structure IsLine (line : Text) : Prop where
  no_feed : '\n' ∉ line
  no_return : line.getLast? ≠ some '\r'

instance : DecidablePred IsLine := fun line => decidable_of_iff _ (isLine_iff line).symm

section Joined

variable {line : Text} {br : LineBreak} {lines : List (Text × LineBreak)}

@[simp] theorem joined_nil : joined [] = [] := rfl

theorem joined_cons : joined ((line, br) :: lines) = line ++ (br.text ++ joined lines) :=
  List.append_assoc line br.text (joined lines)

theorem LineBreak.text_cases (br : LineBreak) : br.text = ['\n'] ∨ br.text = ['\r', '\n'] := by
  cases br with
  | feed => exact Or.inl rfl
  | returnFeed => exact Or.inr rfl

@[simp] theorem LineBreak.count_text (br : LineBreak) : br.text.count '\n' = 1 := by
  cases br <;> decide

theorem joined_eq_nil_iff : joined lines = [] ↔ lines = [] := by
  cases lines with
  | nil => simp
  | cons first lines =>
    obtain ⟨line, br⟩ := first
    cases br <;> simp [joined_cons, LineBreak.text]

theorem getLast?_joined (hne : lines ≠ []) : (joined lines).getLast? = some '\n' := by
  induction lines with
  | nil => exact absurd rfl hne
  | cons first lines ih =>
    obtain ⟨line, br⟩ := first
    rw [joined_cons, ← List.append_assoc, List.getLast?_append]
    by_cases hlines : lines = []
    · subst hlines
      cases br <;> simp [LineBreak.text]
    · rw [ih hlines, Option.some_or]

/-- A text ends with a line feed if lines are joined in it and nothing stands behind them. -/
theorem getLast?_joined_append {last : Text} (hlast : '\n' ∉ last) :
    (joined lines ++ last).getLast? = some '\n' ↔ lines ≠ [] ∧ last = [] := by
  rw [List.getLast?_append]
  by_cases hempty : last = []
  · subst hempty
    by_cases hlines : lines = []
    · simp [hlines]
    · simp [getLast?_joined hlines, hlines]
  · have hother : last.getLast hempty ≠ '\n' := fun h => hlast (h ▸ List.getLast_mem hempty)
    simp [List.getLast?_eq_some_getLast hempty, hother, hempty]

theorem count_joined (h : ∀ line ∈ lines.map Prod.fst, '\n' ∉ line) :
    (joined lines).count '\n' = lines.length := by
  induction lines with
  | nil => rfl
  | cons first lines ih =>
    obtain ⟨line, br⟩ := first
    obtain ⟨hline, hlines⟩ := List.forall_mem_cons.mp h
    rw [joined_cons, List.count_append, List.count_append, List.count_eq_zero.mpr hline,
      br.count_text, ih hlines, List.length_cons]
    omega

/-- Joined lines come apart again where they were joined. -/
theorem splitLines_joined (hne : lines ≠ []) (h : ∀ line ∈ lines.map Prod.fst, IsLine line) :
    splitLines (joined lines) = lines.map Prod.fst := by
  induction lines with
  | nil => exact absurd rfl hne
  | cons first lines ih =>
    obtain ⟨line, br⟩ := first
    obtain ⟨hline, hlines⟩ := List.forall_mem_cons.mp h
    rw [joined_cons, splitLines_append_either hline.no_feed hline.no_return br.text_cases]
    by_cases hempty : lines = []
    · subst hempty
      rfl
    · rw [if_neg (mt joined_eq_nil_iff.mp hempty), ih hempty hlines, List.map_cons]

end Joined

/-- A carriage return at the end of a raw line makes the line break behind it. -/
theorem exists_lineBreak (raw : Text) :
    ∃ br : LineBreak, raw ++ ['\n'] = dropReturn raw ++ br.text := by
  rcases dropReturn_cases raw with h | h
  · refine ⟨.returnFeed, ?_⟩
    calc raw ++ ['\n'] = dropReturn raw ++ ['\r'] ++ ['\n'] := congrArg (· ++ ['\n']) h
      _ = dropReturn raw ++ LineBreak.returnFeed.text := List.append_assoc _ _ _
  · exact ⟨.feed, congrArg (· ++ ['\n']) h⟩

/-- Every text is its lines joined, and a last line that has no line break behind it. An empty one
counts only if it is the whole text. -/
theorem exists_joined (text : Text) :
    ∃ lines last, text = joined lines ++ last ∧ '\n' ∉ last ∧
      splitLines text = lines.map Prod.fst ++ if lines ≠ [] ∧ last = [] then [] else [last] := by
  induction text using line_induction with
  | last line hline => exact ⟨[], line, rfl, hline, by simp [splitLines_last hline]⟩
  | more raw rest hraw ih =>
    obtain ⟨lines, last, hrest, hlast, hsplit⟩ := ih
    obtain ⟨br, hbr⟩ := exists_lineBreak raw
    refine ⟨(dropReturn raw, br) :: lines, last, ?_, hlast, ?_⟩
    · calc raw ++ '\n' :: rest = (raw ++ ['\n']) ++ rest := by simp
        _ = joined ((dropReturn raw, br) :: lines) ++ last := by
          rw [hbr, hrest, joined_cons]
          simp only [List.append_assoc]
    · -- Nothing stands behind the line feed exactly if the rest has no lines and no last one.
      have hnil : rest = [] ↔ lines = [] ∧ last = [] := by
        rw [hrest, List.append_eq_nil_iff, joined_eq_nil_iff]
      rw [splitLines_break hraw, hsplit]
      by_cases hlines : lines = [] <;> by_cases hempty : last = [] <;>
        simp [hnil, hlines, hempty]

theorem splitLines_ne_nil (text : Text) : splitLines text ≠ [] := by
  obtain ⟨lines, last, -, -, hsplit⟩ := exists_joined text
  rw [hsplit]
  split_ifs with h
  · simpa using h.1
  · simp

/-- A text has a line for each of its line feeds, and one more unless it ends with the last. -/
theorem length_splitLines (text : Text) :
    (splitLines text).length =
      text.count '\n' + 1 - if text.getLast? = some '\n' then 1 else 0 := by
  obtain ⟨lines, last, htext, hlast, hsplit⟩ := exists_joined text
  have hcount : text.count '\n' = lines.length := by
    have hlines : ∀ line ∈ lines.map Prod.fst, '\n' ∉ line := fun line hmem =>
      not_mem_of_mem_splitLines (hsplit ▸ List.mem_append_left _ hmem)
    rw [htext, List.count_append, count_joined hlines, List.count_eq_zero.mpr hlast, Nat.add_zero]
  have hends : text.getLast? = some '\n' ↔ lines ≠ [] ∧ last = [] := by
    rw [htext, getLast?_joined_append hlast]
  rw [hsplit, hcount]
  by_cases h : text.getLast? = some '\n'
  · simp [h, hends.mp h]
  · rw [if_neg h, if_neg (mt hends.mpr h)]
    simp

/-- Cutting into lines undoes their joining. A text falls into at least one line, none of which
holds a line feed, and the number of them is that of its line feeds and one more, unless the last
line feed ends the text. -/
theorem splitLines_inverts :
    (∀ lines : List (Text × LineBreak), lines ≠ [] →
      (∀ line ∈ lines.map Prod.fst, IsLine line) →
      splitLines (joined lines) = lines.map Prod.fst) ∧
    ∀ text : Text, splitLines text ≠ [] ∧ (∀ line ∈ splitLines text, '\n' ∉ line) ∧
      (splitLines text).length =
        text.count '\n' + 1 - if text.getLast? = some '\n' then 1 else 0 := by
  constructor
  · intro lines hne hlines
    exact splitLines_joined hne hlines
  · intro text
    refine ⟨splitLines_ne_nil text, ?_, length_splitLines text⟩
    intro line hline
    exact not_mem_of_mem_splitLines hline

/-- Empty lines stay at the start and at the end, and so does a carriage return inside a line. -/
theorem splitLines_inverts_mixed :
    (∀ line ∈ [[], Text.of "a\rb", [], Text.of "c", []], IsLine line) ∧
      splitLines (Text.of "\r\na\rb\n\r\nc\r\n\n") =
        [[], Text.of "a\rb", [], Text.of "c", []] := by
  have hlines : ∀ line ∈ [[], Text.of "a\rb", [], Text.of "c", []], IsLine line := by decide
  exact ⟨hlines, splitLines_inverts.1 [([], .returnFeed), (Text.of "a\rb", .feed),
    ([], .returnFeed), (Text.of "c", .returnFeed), ([], .feed)] (by simp) hlines⟩

end DefinitionSite.Text
