import DefinitionSite.Proofs.Catalog.DataBlock

/-! Where a constructor is found: on the first line of the declaration on which the identifier
stands behind a sign, on the same line or at the end of the line before. -/
namespace DefinitionSite.Catalog
open Regex Declared Cursor

variable {identifier : Text}

/-- The identifier opens the text behind the given gaps. -/
def Names (identifier gap text : Text) : Prop :=
  ∃ rest, Boundary rest ∧ text = gap ++ (identifier ++ rest)

/-- What follows the line, and a carriage return at its end, have no part in the name that opens
it. -/
theorem names_line (hid : Proper identifier) {gap line tail : Text} (hgap : Gaps gap)
    (htail : EndsLine tail) :
    Names identifier gap (line ++ tail) ↔ Names identifier gap (Text.dropReturn line) := by
  have hne : gap ++ identifier ≠ [] := by simp [hid.ne_nil]
  have hlast : (gap ++ identifier).getLast? ≠ some '\r' := by
    rw [List.getLast?_append_of_ne_nil _ hid.ne_nil]
    intro hcr
    have hblank := (Text.not_blank_of_trim_eq hid.trimmed).2 '\r' hcr
    simp [isBlank_return] at hblank
  have hbreak : '\n' ∉ gap ++ identifier := by simp [gaps_not_mem hgap, hid.one_line]
  have hend : ∀ cr, cr = [] ∨ cr = ['\r'] → EndsHere (cr ++ tail) := by
    rintro cr (rfl | rfl)
    · exact endsHere_of_endsLine htail
    · simp [EndsHere]
  constructor
  · rintro ⟨rest, hb, heq⟩
    rw [← List.append_assoc] at heq
    obtain ⟨r, cr, hline, hcr, rfl⟩ := Text.exists_dropReturn_eq htail hbreak hlast heq
    exact ⟨r, (boundary_append (hend cr hcr)).mp hb, by rw [hline, List.append_assoc]⟩
  · rintro ⟨rest, hb, heq⟩
    obtain ⟨cr, hcr, hline⟩ := Text.exists_eq_dropReturn_append line
    refine ⟨rest ++ (cr ++ tail), (boundary_append (hend cr hcr)).mpr hb, ?_⟩
    rw [hline, heq]
    simp

/-- The identifier is found on a line of the declaration whose lines are given, the first of them
being part of it. -/
def OccursAt (identifier : Text) : List Text → Nat → Prop
  | line :: _, 0 => BehindSign identifier line
  | line :: next :: lines, k + 1 => Indented next ∧
      (k = 0 ∧ BehindBreak identifier line next ∨ OccursAt identifier (next :: lines) k)
  | _, _ => False

theorem behindSign_cons (c : Char) (line : Text) : BehindSign identifier (c :: line) ↔
    (Sign c ∧ ∃ gap, Gaps gap ∧ Names identifier gap line) ∨ BehindSign identifier line := by
  constructor
  · rintro ⟨front, sign, gap, rest, hs, hg, hb, heq⟩
    cases front with
    | nil =>
      obtain ⟨rfl, rfl⟩ := List.cons_eq_cons.mp heq
      exact Or.inl ⟨hs, gap, hg, rest, hb, by simp⟩
    | cons d front =>
      obtain ⟨rfl, rfl⟩ := List.cons_eq_cons.mp heq
      exact Or.inr ⟨front, sign, gap, rest, hs, hg, hb, rfl⟩
  · rintro (⟨hs, gap, hg, rest, hb, rfl⟩ | ⟨front, sign, gap, rest, hs, hg, hb, rfl⟩)
    · exact ⟨[], c, gap, rest, hs, hg, hb, by simp⟩
    · exact ⟨c :: front, sign, gap, rest, hs, hg, hb, rfl⟩

theorem signedHere_iff {c : Char} {text : Text} : SignedHere identifier (c :: text) ↔
    Sign c ∧ ∃ gap, Gaps gap ∧ Names identifier gap text := by
  constructor
  · rintro ⟨sign, gap, rest, hs, hg, hb, heq⟩
    obtain ⟨rfl, rfl⟩ := List.cons_eq_cons.mp heq
    exact ⟨hs, gap, hg, rest, hb, rfl⟩
  · rintro ⟨hs, gap, hg, rest, hb, rfl⟩
    exact ⟨c, gap, rest, hs, hg, hb, rfl⟩

theorem signedBelow_iff {c : Char} {text : Text} : SignedBelow identifier (c :: text) ↔
    Sign c ∧ ∃ gap br gap' rest, Gaps gap ∧ (br = ['\n'] ∨ br = ['\r', '\n']) ∧ gap' ≠ [] ∧
      Gaps gap' ∧ Names identifier gap' rest ∧ text = gap ++ (br ++ rest) := by
  constructor
  · rintro ⟨sign, gap, br, gap', rest, hs, hg, hbr, hne, hg', hb, heq⟩
    obtain ⟨rfl, rfl⟩ := List.cons_eq_cons.mp heq
    exact ⟨hs, gap, br, gap', _, hg, hbr, hne, hg', ⟨rest, hb, rfl⟩, rfl⟩
  · rintro ⟨hs, gap, br, gap', _, hg, hbr, hne, hg', ⟨rest, hb, rfl⟩, rfl⟩
    exact ⟨c, gap, br, gap', rest, hs, hg, hbr, hne, hg', hb, rfl⟩

theorem behindSign_dropReturn_cons (hid : Proper identifier) {c : Char} {line tail : Text}
    (htail : EndsLine tail) (hno : ¬ SignedHere identifier (c :: (line ++ tail))) :
    BehindSign identifier (Text.dropReturn (c :: line)) ↔
      BehindSign identifier (Text.dropReturn line) := by
  by_cases hcr : c = '\r' ∧ line = []
  · obtain ⟨rfl, rfl⟩ := hcr
    rfl
  rw [Text.dropReturn_cons hcr, behindSign_cons]
  refine or_iff_right ?_
  rintro ⟨hs, gap, hg, hn⟩
  exact hno (signedHere_iff.mpr ⟨hs, gap, hg, (names_line hid hg htail).mpr hn⟩)

theorem behindBreak_dropReturn_cons (hid : Proper identifier) {c : Char} {line next tail : Text}
    (htail : EndsLine tail)
    (hno : ¬ SignedBelow identifier (c :: (line ++ '\n' :: (next ++ tail)))) :
    BehindBreak identifier (Text.dropReturn (c :: line)) (Text.dropReturn next) ↔
      BehindBreak identifier (Text.dropReturn line) (Text.dropReturn next) := by
  by_cases hcr : c = '\r' ∧ line = []
  · obtain ⟨rfl, rfl⟩ := hcr
    rfl
  rw [Text.dropReturn_cons hcr]
  constructor
  · rintro ⟨⟨front, sign, gap, hs, hg, heq⟩, gap', rest, hne, hg', hb, hnext⟩
    refine ⟨?_, gap', rest, hne, hg', hb, hnext⟩
    cases front with
    | nil =>
      obtain ⟨rfl, hline⟩ := List.cons_eq_cons.mp heq
      obtain ⟨cr, hcr, hraw⟩ := Text.exists_eq_dropReturn_append line
      have hname : Names identifier gap' (next ++ tail) :=
        (names_line hid hg' htail).mpr ⟨rest, hb, by simpa using hnext⟩
      refine absurd (signedBelow_iff.mpr ⟨hs, gap, cr ++ ['\n'], gap', next ++ tail, hg, ?_, hne,
        hg', hname, ?_⟩) hno
      · rcases hcr with rfl | rfl <;> simp
      · rw [hraw, hline]
        simp
    | cons d front =>
      obtain ⟨rfl, hline⟩ := List.cons_eq_cons.mp heq
      exact ⟨front, sign, gap, hs, hg, hline⟩
  · rintro ⟨⟨front, sign, gap, hs, hg, hline⟩, hnext⟩
    exact ⟨⟨c :: front, sign, gap, hs, hg, by rw [hline]; rfl⟩, hnext⟩

/-- A character that opens no name behind a sign has no part in where the name is found. -/
theorem occursAt_cons (hid : Proper identifier) {c : Char} {text : Text} (hc : c ≠ '\n')
    (hno : ¬ (SignedHere identifier (c :: text) ∨ SignedBelow identifier (c :: text))) (k : Nat) :
    OccursAt identifier (Text.physicalLines (c :: text)) k ↔
      OccursAt identifier (Text.physicalLines text) k := by
  obtain ⟨hhere, hbelow⟩ := not_or.mp hno
  by_cases hbreak : '\n' ∈ text
  · obtain ⟨line, rest, rfl, hline⟩ := List.eq_append_cons_of_mem hbreak
    have hcline : '\n' ∉ c :: line := by simp [hline, hc.symm]
    rw [← List.cons_append, Text.physicalLines_append hcline, Text.physicalLines_append hline]
    obtain ⟨next, tail, rfl, -, htail, hfirst⟩ := Text.exists_first_line rest
    obtain ⟨lines, hlines⟩ : ∃ lines, Text.physicalLines (next ++ tail) =
        Text.dropReturn next :: lines := by
      cases hp : Text.physicalLines (next ++ tail) with
      | nil => simp [hp] at hfirst
      | cons l lines => exact ⟨lines, by simpa [hp] using hfirst⟩
    rw [hlines]
    cases k with
    | zero => exact behindSign_dropReturn_cons hid (by simp [EndsLine]) hhere
    | succ k => simp only [OccursAt, behindBreak_dropReturn_cons hid htail hbelow]
  · have hctext : '\n' ∉ c :: text := by simp [hbreak, hc.symm]
    rw [Text.physicalLines_last hctext, Text.physicalLines_last hbreak]
    cases k with
    | zero =>
      have hnil : EndsLine [] := by simp [EndsLine]
      exact behindSign_dropReturn_cons hid hnil (by simpa using hhere)
    | succ k => simp only [OccursAt]

/-- The first line on which the identifier is found. -/
def FirstAt (identifier : Text) (lines : List Text) (k : Nat) : Prop :=
  OccursAt identifier lines k ∧ ∀ j < k, ¬ OccursAt identifier lines j

/-- Where a run through the lines of a declaration may end. -/
def EndsAtFirst (identifier before text : Text) : Option Cursor → Prop
  | none => ∀ k, ¬ OccursAt identifier (Text.physicalLines text) k
  | some e => ∃ word after, text = word ++ after ∧ e = between (before ++ word) after ∧
      FirstAt identifier (Text.physicalLines text) (word.count '\n')

theorem sign_ne_return {c : Char} (h : Sign c) : c ≠ '\r' := by
  rcases h with rfl | rfl <;> decide

theorem firstAt_of_signedHere (hid : Proper identifier) {text : Text}
    (h : SignedHere identifier text) : FirstAt identifier (Text.physicalLines text) 0 := by
  refine ⟨?_, fun j hj => absurd hj (Nat.not_lt_zero j)⟩
  cases text with
  | nil =>
    obtain ⟨_, _, _, _, _, _, heq⟩ := h
    simp at heq
  | cons c text =>
    obtain ⟨hs, gap, hg, hname⟩ := signedHere_iff.mp h
    obtain ⟨line, tail, rfl, hline, htail, -⟩ := Text.exists_first_line text
    have hc : c ≠ '\n' := by rcases hs with rfl | rfl <;> decide
    have hcline : '\n' ∉ c :: line := by simp [hline, hc.symm]
    have hfound : BehindSign identifier (Text.dropReturn (c :: line)) := by
      rw [Text.dropReturn_cons (by simp [sign_ne_return hs]), behindSign_cons]
      exact Or.inl ⟨hs, gap, hg, (names_line hid hg htail).mp hname⟩
    obtain ⟨more, hmore⟩ := Text.exists_physicalLines_append htail (c :: line)
    rw [← List.cons_append, hmore, Text.physicalLines_last hcline]
    exact hfound

/-- The identifier has a character that is no gap. -/
theorem not_gaps_name (hid : Proper identifier) : ¬ Gaps identifier := by
  intro hg
  obtain ⟨c, rest, rfl⟩ := List.exists_cons_of_ne_nil hid.ne_nil
  have hblank := (Text.not_blank_of_trim_eq hid.trimmed).1 c rfl
  rw [isBlank_of_isGap (hg c (by simp))] at hblank
  simp at hblank

theorem firstAt_of_signedBelow (hid : Proper identifier) {text : Text}
    (h : SignedBelow identifier text) : FirstAt identifier (Text.physicalLines text) 1 := by
  cases text with
  | nil =>
    obtain ⟨_, _, _, _, _, _, _, _, _, _, _, heq⟩ := h
    simp at heq
  | cons c text =>
    obtain ⟨hs, gap, br, gap', rest, hg, hbr, hne, hg', hname, rfl⟩ := signedBelow_iff.mp h
    have hc : c ≠ '\n' := by rcases hs with rfl | rfl <;> decide
    have hline : '\n' ∉ c :: gap := by simp [gaps_not_mem hg, hc.symm]
    have hlast : (c :: gap).getLast? ≠ some '\r' := by
      intro hcr
      rcases List.mem_cons.mp (List.mem_of_getLast? hcr) with heq | hmem
      · exact sign_ne_return hs heq.symm
      · simpa [Text.isGap] using hg _ hmem
    obtain ⟨next, tail, rfl, -, htail, hfirst⟩ := Text.exists_first_line rest
    obtain ⟨stop, hb, hnext⟩ := (names_line hid hg' htail).mp hname
    rw [← List.cons_append, Text.physicalLines_append_break hline hlast hbr]
    cases hp : Text.physicalLines (next ++ tail) with
    | nil => simp [hp] at hfirst
    | cons l lines =>
      obtain rfl : l = Text.dropReturn next := by simpa [hp] using hfirst
      constructor
      · refine ⟨?_, Or.inl ⟨rfl, ⟨[], c, gap, hs, hg, rfl⟩, gap', stop, hne, hg', hb, ?_⟩⟩
        · obtain ⟨g, gs, rfl⟩ := List.exists_cons_of_ne_nil hne
          exact ⟨g, gs ++ (identifier ++ stop), hg' g (by simp), hnext⟩
        · rw [hnext, List.append_assoc]
      · intro j hj hfound
        obtain rfl : j = 0 := by omega
        rcases (behindSign_cons c gap).mp hfound with ⟨-, g, -, r, -, heq⟩ | hbehind
        · exact not_gaps_name hid fun x hx => hg x (by simp [heq, hx])
        · obtain ⟨front, sign, g, r, -, -, -, heq⟩ := hbehind
          exact not_gaps_name hid fun x hx => hg x (by simp [heq, hx])

theorem needsSign_signed (identifier : Text) :
    NeedsSign fun e => (seqAll (signed identifier)).matchEnd? false e := by
  intro before text h
  rw [matchEnd?_eq_none_iff, opens_signed]
  rintro (⟨sign, gap, rest, hs, -, -, rfl⟩ | ⟨sign, gap, br, gap', rest, hs, -, -, -, -, -, rfl⟩)
  · exact h sign rfl hs
  · exact h sign rfl hs

theorem EndsAtFirst.cons (hid : Proper identifier) {before text : Text} {c : Char} (hc : c ≠ '\n')
    (hno : ¬ (SignedHere identifier (c :: text) ∨ SignedBelow identifier (c :: text)))
    {found : Option Cursor} (h : EndsAtFirst identifier (before ++ [c]) text found) :
    EndsAtFirst identifier before (c :: text) found := by
  cases found with
  | none => exact fun k hk => h k ((occursAt_cons hid hc hno k).mp hk)
  | some e =>
    obtain ⟨word, after, rfl, rfl, hat, hfirst⟩ := h
    refine ⟨c :: word, after, rfl, by simp, ?_⟩
    rw [List.count_cons_of_ne hc]
    exact ⟨(occursAt_cons hid hc hno _).mpr hat,
      fun j hj hk => hfirst j hj ((occursAt_cons hid hc hno j).mp hk)⟩

theorem not_behindSign_nil (identifier : Text) : ¬ BehindSign identifier [] := by
  rintro ⟨front, sign, gap, rest, -, -, -, heq⟩
  simp at heq

theorem indented_iff {text line : Text} (h : (Text.physicalLines text)[0]? = some line) :
    Indented line ↔ Indented text := by
  have hsame : ∀ c, Text.isGap c = true →
      ((∃ rest, line = c :: rest) ↔ ∃ rest, text = c :: rest) := by
    intro c hc
    have hbreak : '\n' ∉ [c] := by simpa using (isGap_ne_break hc).symm
    have hlast : [c].getLast? ≠ some '\r' := by
      rintro heq
      obtain rfl : c = '\r' := by simpa using heq
      simp [Text.isGap] at hc
    exact Text.exists_firstLine_eq_append hbreak hlast h
  constructor
  · rintro ⟨c, rest, hc, hline⟩
    obtain ⟨rest', htext⟩ := (hsame c hc).mp ⟨rest, hline⟩
    exact ⟨c, rest', hc, htext⟩
  · rintro ⟨c, rest, hc, htext⟩
    obtain ⟨rest', hline⟩ := (hsame c hc).mpr ⟨rest, htext⟩
    exact ⟨c, rest', hc, hline⟩

/-- An empty line holds no sign, so the identifier is found behind it or not at all. -/
theorem occursAt_break (text : Text) (k : Nat) :
    OccursAt identifier (Text.physicalLines ('\n' :: text)) k ↔
      ∃ j, k = j + 1 ∧ Indented text ∧
        OccursAt identifier (Text.physicalLines text) j := by
  have hlines : Text.physicalLines ('\n' :: text) = [] :: Text.physicalLines text :=
    Text.physicalLines_append List.not_mem_nil text
  rw [hlines]
  cases hp : Text.physicalLines text with
  | nil =>
    obtain ⟨_, _, rfl, -, -, hfirst⟩ := Text.exists_first_line text
    simp [hp] at hfirst
  | cons next more =>
    have hindent : Indented next ↔ Indented text := indented_iff (by simp [hp])
    cases k with
    | zero => simp [OccursAt, not_behindSign_nil]
    | succ k =>
      have hnobreak : ¬ BehindBreak identifier [] next := by
        rintro ⟨⟨front, sign, gap, -, -, heq⟩, -⟩
        simp at heq
      simp only [OccursAt, hnobreak, and_false, false_or, hindent]
      constructor
      · rintro ⟨hin, hat⟩
        exact ⟨k, rfl, hin, hat⟩
      · rintro ⟨j, heq, hin, hat⟩
        obtain rfl : k = j := by omega
        exact ⟨hin, hat⟩

/-- Characters that are no signs have no part in where the identifier is found. -/
theorem EndsAtFirst.skip (hid : Proper identifier) {before text : Text} (letters : Text)
    (hletters : ∀ c ∈ letters, c ≠ '\n' ∧ ¬ Sign c) {found : Option Cursor}
    (h : EndsAtFirst identifier (before ++ letters) text found) :
    EndsAtFirst identifier before (letters ++ text) found := by
  induction letters generalizing before with
  | nil => simpa using h
  | cons c letters ih =>
    obtain ⟨hc, hrest⟩ := List.forall_mem_cons.mp hletters
    refine (ih hrest (by simpa using h)).cons hid hc.1 ?_
    simp [signedHere_iff, signedBelow_iff, hc.2]

theorem not_sign_of_isGap {c : Char} (hc : Text.isGap c = true) : ¬ Sign c := by
  rintro (rfl | rfl) <;> simp [Text.isGap] at hc

/-- A line break before an indented line takes the search one line further. -/
theorem EndsAtFirst.break {before text : Text} {g : Char} (hg : Text.isGap g = true)
    {found : Option Cursor} (h : EndsAtFirst identifier (before ++ ['\n']) (g :: text) found) :
    EndsAtFirst identifier before ('\n' :: g :: text) found := by
  have hin : Indented (g :: text) := ⟨g, text, hg, rfl⟩
  cases found with
  | none =>
    intro k hk
    obtain ⟨j, -, -, hat⟩ := (occursAt_break _ k).mp hk
    exact h j hat
  | some e =>
    obtain ⟨word, after, heq, rfl, hat, hfirst⟩ := h
    refine ⟨'\n' :: word, after, by simp [heq], by simp, ?_⟩
    rw [List.count_cons_self]
    refine ⟨(occursAt_break _ _).mpr ⟨_, rfl, hin, hat⟩, fun k hk hfound => ?_⟩
    obtain ⟨j, rfl, -, hj⟩ := (occursAt_break _ k).mp hfound
    exact hfirst j (by omega) hj

/-- A run through the lines of a declaration ends on the first line on which the identifier is
found. -/
theorem throughBody_signed (hid : Proper identifier) (before text : Text) :
    EndsAtFirst identifier before text
      (throughBody (fun e => (seqAll (signed identifier)).matchEnd? false e) before text) := by
  have hsign := needsSign_signed identifier
  induction hn : text.length using Nat.strongRecOn generalizing before text with
  | ind n ih =>
    cases text with
    | nil =>
      rw [throughBody_nil hsign]
      intro k
      cases k with
      | zero => exact not_behindSign_nil identifier
      | succ k => exact id
    | cons c text =>
      by_cases hc : c = '\n'
      · subst hc
        rw [throughBody_break hsign]
        by_cases hindent : Indented text
        · obtain ⟨g, rest, hg, rfl⟩ := hindent
          have hshorter : rest.length < n := by
            simp only [List.length_cons] at hn
            omega
          have hgo := ih rest.length hshorter (before ++ ['\n'] ++ [g]) rest rfl
          have hline : throughLine (fun e => (seqAll (signed identifier)).matchEnd? false e) before
              ('\n' :: g :: rest) = _ := throughLine_break (Or.inl rfl) hg before rest
          rw [hline]
          have hno : ∀ c ∈ [g], c ≠ '\n' ∧ ¬ Sign c := by
            simp [isGap_ne_break hg, not_sign_of_isGap hg]
          exact (EndsAtFirst.skip hid [g] hno hgo).break hg
        · rw [throughLine_eq_none]
          · intro k hk
            obtain ⟨_, -, hin, -⟩ := (occursAt_break text k).mp hk
            exact hindent hin
          · rintro br c rest (rfl | rfl) hg heq
            · exact hindent ⟨c, rest, hg, (List.cons_eq_cons.mp heq).2⟩
            · simp at heq
      · rw [throughBody_cons hsign before text hc]
        cases hm : (seqAll (signed identifier)).matchEnd? false (between before (c :: text)) with
        | some e =>
          obtain ⟨word, after, heq, hw, rfl⟩ := matchEnd?_eq_some hm
          refine ⟨word, after, heq, rfl, ?_⟩
          rw [heq]
          rcases count_of_spells_signed hid.one_line hw with ⟨hcount, hs⟩ | ⟨hcount, hs⟩
          · rw [hcount]
            exact firstAt_of_signedHere hid hs
          · rw [hcount]
            exact firstAt_of_signedBelow hid hs
        | none =>
          rw [matchEnd?_eq_none_iff, opens_signed] at hm
          have hgo := ih text.length (by simp [← hn]) (before ++ [c]) text rfl
          exact hgo.cons hid hc hm

end DefinitionSite.Catalog
