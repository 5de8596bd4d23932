import DefinitionSite.Proofs.Text.Lines

/-! Line feeds with and without a carriage return in front of them: in a text that has no carriage
return of its own, they make no difference to the lines. -/
namespace DefinitionSite.Text

/-- The text with a carriage return in front of the line feeds that are picked by their number. -/
def rebreak (pick : Nat → Bool) : Text → Text
  | [] => []
  | c :: rest =>
    if c = '\n' then
      (if pick 0 then ['\r', '\n'] else ['\n']) ++ rebreak (fun i => pick (i + 1)) rest
    else c :: rebreak pick rest

variable {line text : Text}

theorem rebreak_of_not_mem (h : '\n' ∉ line) (pick : Nat → Bool) : rebreak pick line = line := by
  induction line with
  | nil => rfl
  | cons c line ih =>
    obtain ⟨hc, hline⟩ : '\n' ≠ c ∧ '\n' ∉ line := by simpa using h
    simp [rebreak, Ne.symm hc, ih hline]

/-- The first line feed gets its carriage return or not, and the others are left to the rest. -/
theorem exists_rebreak_append (h : '\n' ∉ line) (pick : Nat → Bool) (rest : Text) :
    ∃ br, (br = ['\n'] ∨ br = ['\r', '\n']) ∧ rebreak pick (line ++ '\n' :: rest) =
      line ++ (br ++ rebreak (fun i => pick (i + 1)) rest) := by
  refine ⟨if pick 0 then ['\r', '\n'] else ['\n'], ?_, ?_⟩
  · split
    · exact Or.inr rfl
    · exact Or.inl rfl
  · induction line with
    | nil => simp [rebreak]
    | cons c line ih =>
      obtain ⟨hc, hline⟩ : '\n' ≠ c ∧ '\n' ∉ line := by simpa using h
      rw [List.cons_append, rebreak, if_neg (Ne.symm hc), ih hline, List.cons_append]

theorem rebreak_eq_nil_iff (pick : Nat → Bool) : rebreak pick text = [] ↔ text = [] := by
  cases text with
  | nil => simp [rebreak]
  | cons c rest =>
    unfold rebreak
    split_ifs <;> simp

theorem getLast?_ne_return (h : '\r' ∉ line) : line.getLast? ≠ some '\r' :=
  fun hlast => h (List.mem_of_getLast? hlast)

/-- A line that is cut off at either line break leaves the lines behind it. -/
theorem splitLines_append_either {br : Text} (hline : '\n' ∉ line)
    (hlast : line.getLast? ≠ some '\r') (hbr : br = ['\n'] ∨ br = ['\r', '\n']) (rest : Text) :
    splitLines (line ++ (br ++ rest)) = line :: if rest = [] then [] else splitLines rest := by
  obtain ⟨raw, hraw, hdrop, heq⟩ : ∃ raw, '\n' ∉ raw ∧ dropReturn raw = line ∧
      line ++ (br ++ rest) = raw ++ '\n' :: rest := by
    rcases hbr with rfl | rfl
    · exact ⟨line, hline, dropReturn_of_getLast? hlast, rfl⟩
    · exact ⟨line ++ ['\r'], by simp [hline], dropReturn_append_return line, by simp⟩
  rw [heq, splitLines_break hraw, hdrop]

/-- Carriage returns in front of line feeds are not part of any line. -/
theorem lines_rebreak (h : '\r' ∉ text) (pick : Nat → Bool) :
    physicalLines (rebreak pick text) = physicalLines text ∧
      splitLines (rebreak pick text) = splitLines text := by
  induction text using line_induction generalizing pick with
  | last line hline => simp only [rebreak_of_not_mem hline, and_self]
  | more line rest hline ih =>
    have hlast : line.getLast? ≠ some '\r' := getLast?_ne_return fun hmem => h (by simp [hmem])
    have hrest : '\r' ∉ rest := fun hmem => h (by simp [hmem])
    obtain ⟨br, hbr, hbreak⟩ := exists_rebreak_append hline pick rest
    obtain ⟨hphysical, hsplit⟩ := ih hrest fun i => pick (i + 1)
    have hfeed := splitLines_append_either hline hlast (Or.inl rfl) rest
    rw [List.singleton_append] at hfeed
    rw [hbreak]
    constructor
    · rw [physicalLines_append_break hline hlast hbr, physicalLines_append hline,
        dropReturn_of_getLast? hlast, hphysical]
    · rw [splitLines_append_either hline hlast hbr, hfeed, hsplit]
      simp only [rebreak_eq_nil_iff]

end DefinitionSite.Text
