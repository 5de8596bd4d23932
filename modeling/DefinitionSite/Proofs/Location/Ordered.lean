import Mathlib.Data.List.Nodup
import Mathlib.Tactic.Common
import DefinitionSite.Location
import DefinitionSite.Proofs.Match.Grouping
import DefinitionSite.Proofs.Text.Names

/-! The locations of matches that stand in files of different names: those in the current file are
left out, none is dropped as seen before, and the rest come in the order of their names. -/
namespace DefinitionSite

namespace FileLabel

/-- The label of a file with the given name. -/
def named (s : String) : FileLabel := .name (.text s)

theorem named_inj {s t : String} (h : named s = named t) : s = t := by
  simpa [named] using h

/-- The label names a file, by text or by bytes that are no text. -/
def IsName (file : FileLabel) : Prop := ∃ s : RawText, s.Canonical ∧ file = .name s

theorem isName_named (s : String) : (named s).IsName := ⟨.text s, trivial, rfl⟩

theorem exists_name {ms : List Match} (h : ∀ m ∈ ms, m.file.IsName) :
    ∀ m ∈ ms, ∃ s, m.file = .name s := by
  intro m hm
  obtain ⟨s, -, hs⟩ := h m hm
  exact ⟨s, hs⟩

theorem before_name (s t : RawText) :
    (FileLabel.name s).before (.name t) = decide (s.points < t.points) := rfl

/-- Of two different names one comes before the other. -/
theorem before_or_before {a b : FileLabel} (ha : a.IsName) (hb : b.IsName) (h : a ≠ b) :
    a.before b = true ∨ b.before a = true := by
  obtain ⟨s, hs, rfl⟩ := ha
  obtain ⟨t, ht, rfl⟩ := hb
  simp only [before_name, decide_eq_true_eq]
  by_contra hnot
  obtain ⟨hst, hts⟩ := not_or.mp hnot
  have hpoints := List.le_antisymm (List.not_lt.mp hts) (List.not_lt.mp hst)
  exact h (congrArg _ (RawText.points_injective hs ht hpoints))

end FileLabel

namespace Location
open FileLabel
open scoped List

variable {tree : FileTree} {excluded : Option Path} {ms : List Match}

/-- The real path of the current file, if there is one. -/
def leftOut (tree : FileTree) (currentFile : Option String) : Except PathFault (Option Path) :=
  match currentFile with
  | none => .ok none
  | some file =>
    if file.isEmpty then .ok none else (tree.resolve (.ofString file)).map some

/-- Matches in files of different names are kept just if they are not in the excluded file. -/
theorem distinct_eq_filter {inside : Match → Bool}
    (hinside : ∀ m ∈ ms, isIn tree excluded m = .ok (inside m))
    (hms : ms.Pairwise fun a b => b.file.same a.file = false) {seen : List Match}
    (hseen : ∀ m ∈ ms, ∀ x ∈ seen, m.file.same x.file = false) :
    (distinct tree excluded seen ms).1 = .ok (ms.filter fun m => !inside m) := by
  induction ms generalizing seen with
  | nil => rfl
  | cons m ms ih =>
    obtain ⟨hm, hinside⟩ := List.forall_mem_cons.mp hinside
    obtain ⟨hnew, hseen⟩ := List.forall_mem_cons.mp hseen
    obtain ⟨hfirst, hms⟩ := List.pairwise_cons.mp hms
    rw [distinct, hm]
    cases hcase : inside m with
    | true =>
      simp only [ih hinside hms hseen, List.filter_cons, hcase, Bool.not_true, Bool.false_eq_true,
        ↓reduceIte]
    | false =>
      have hunseen : seen.any (samePlace m) = false := by
        rw [List.any_eq_false]
        intro x hx
        simp [samePlace, hnew x hx]
      have hlater : ∀ x ∈ ms, ∀ y ∈ m :: seen, x.file.same y.file = false := fun x hx =>
        List.forall_mem_cons.mpr ⟨hfirst x hx, hseen x hx⟩
      have hrest := ih hinside hms hlater
      simp only [hunseen, Bool.false_eq_true, ↓reduceIte, hrest, Except.map, List.filter_cons,
        hcase, Bool.not_false]

/-- Whatever is kept was given, and is not in the excluded file. -/
theorem distinct_kept {seen kept : List Match}
    (h : (distinct tree excluded seen ms).1 = .ok kept) :
    kept.Sublist ms ∧ ∀ m ∈ kept, isIn tree excluded m = .ok false := by
  induction ms generalizing seen kept with
  | nil =>
    obtain rfl : [] = kept := Except.ok.inj h
    simp
  | cons m ms ih =>
    have hskip : ∀ {seen : List Match}, (distinct tree excluded seen ms).1 = .ok kept →
        kept.Sublist (m :: ms) ∧ ∀ m ∈ kept, isIn tree excluded m = .ok false := by
      intro seen hrest
      obtain ⟨hsub, hout⟩ := ih hrest
      exact ⟨hsub.cons m, hout⟩
    unfold distinct at h
    split at h
    · simp at h
    · exact hskip h
    · rename_i hm
      split at h
      · exact hskip h
      · cases hrest : (distinct tree excluded (m :: seen) ms).1 with
        | error f => simp [hrest, Except.map] at h
        | ok others =>
          obtain rfl : m :: others = kept := by simpa [hrest, Except.map] using h
          obtain ⟨hsub, hout⟩ := ih hrest
          exact ⟨hsub.cons_cons m, List.forall_mem_cons.mpr ⟨hm, hout⟩⟩

theorem firstUnordered_names {locations : List Location}
    (hnames : ∀ a ∈ locations, a.file.IsName) : firstUnordered locations = none := by
  induction locations with
  | nil => rfl
  | cons a rest ih =>
    cases rest with
    | nil => rfl
    | cons b rest =>
      obtain ⟨s, -, hs⟩ := hnames a (by simp)
      obtain ⟨t, -, ht⟩ := hnames b (by simp)
      have hcomparable : a.file.comparable b.file = true := by
        rw [hs, ht]
        rfl
      rw [firstUnordered, if_pos hcomparable]
      exact ih fun x hx => hnames x (List.mem_cons_of_mem _ hx)

/-- The code points of a name. -/
def pointsOf (a : Location) : List Nat :=
  match a.file with
  | .name t => t.points
  | .value _ => []

/-- Locations in files of different names have one order. -/
theorem sort_names {locations : List Location} (hnames : ∀ a ∈ locations, a.file.IsName)
    (hdistinct : (locations.map (·.file)).Nodup) :
    ∃ found, sort locations = .ok found ∧ found ~ locations ∧
      found.Pairwise fun a b => a.file.before b.file = true := by
  have hperm := List.mergeSort_perm locations fun a b => !b.file.before a.file
  refine ⟨_, by rw [sort, firstUnordered_names hnames], hperm, ?_⟩
  -- On names the order is that of their code points.
  have hpoints : (locations.mergeSort fun a b => !b.file.before a.file).map pointsOf =
      (locations.map pointsOf).mergeSort fun x y => !decide (y < x) := by
    refine List.map_mergeSort fun a ha b hb => ?_
    obtain ⟨s, -, hs⟩ := hnames a ha
    obtain ⟨t, -, ht⟩ := hnames b hb
    simp only [pointsOf, hs, ht, before_name]
  have hle : ((locations.map pointsOf).mergeSort fun x y => !decide (y < x)).Pairwise
      fun x y => (!decide (y < x)) = true := by
    refine List.pairwise_mergeSort (fun x y z hxy hyz => ?_) (fun x y => ?_) _
    · simp only [Bool.not_eq_true', decide_eq_false_iff_not] at hxy hyz ⊢
      exact List.not_lt.mpr (List.le_trans (List.not_lt.mp hxy) (List.not_lt.mp hyz))
    · rcases List.le_total x y with h | h
      · simp [List.not_lt.mpr h]
      · simp [List.not_lt.mpr h]
  rw [← hpoints, List.pairwise_map] at hle
  have hne := List.pairwise_map.mp ((hperm.map (·.file)).nodup_iff.mpr hdistinct)
  refine (hle.and hne).imp_of_mem fun {a b} ha hb hab => ?_
  have hna := hnames a (hperm.mem_iff.mp ha)
  have hnb := hnames b (hperm.mem_iff.mp hb)
  rcases before_or_before hna hnb hab.2 with h | h
  · exact h
  · have hnot := hab.1
    obtain ⟨s, -, hs⟩ := hna
    obtain ⟨t, -, ht⟩ := hnb
    rw [hs, ht, before_name] at h
    simp only [pointsOf, hs, ht, Bool.not_eq_true', decide_eq_false_iff_not] at hnot
    exact absurd (of_decide_eq_true h) hnot

theorem ofMatches_eq (tree : FileTree) (currentFile : Option String) (ms : List Match) (run : Run) :
    (ofMatches tree currentFile ms run).1 =
      match leftOut tree currentFile with
      | .error f => .error (.path f)
      | .ok excluded =>
        (distinct tree excluded [] ms).1.bind fun kept => sort (kept.map ofMatch) := by
  cases currentFile with
  | none => rfl
  | some file =>
    simp only [ofMatches, leftOut, keyOf, Path.ofRaw]
    split_ifs
    · rfl
    · cases tree.resolve (.ofString file) <;> rfl

/-- Locations do not depend on the run, to which they add only what is said. -/
theorem ofMatches_run (tree : FileTree) (currentFile : Option String) (ms : List Match)
    (run : Run) : ∃ log, ofMatches tree currentFile ms run =
      ((ofMatches tree currentFile ms .fresh).1, { run with log }) := by
  have hresult : (ofMatches tree currentFile ms run).1 =
      (ofMatches tree currentFile ms .fresh).1 := by
    rw [ofMatches_eq, ofMatches_eq]
  have hrun : ∃ log, (ofMatches tree currentFile ms run).2 = { run with log } := by
    simp only [ofMatches]
    split
    · exact ⟨run.log, rfl⟩
    · exact ⟨_, rfl⟩
  obtain ⟨log, hlog⟩ := hrun
  exact ⟨log, Prod.ext hresult hlog⟩

theorem pairwise_other_file (hnames : ∀ m ∈ ms, m.file.IsName)
    (hdistinct : (ms.map (·.file)).Nodup) : ms.Pairwise fun a b => b.file.same a.file = false := by
  refine (List.pairwise_map.mp hdistinct).imp_of_mem fun {a b} ha hb hne => ?_
  obtain ⟨s, -, hs⟩ := hnames a ha
  obtain ⟨t, -, ht⟩ := hnames b hb
  rw [hs, ht] at hne ⊢
  rw [Match.same_name, beq_eq_false_iff_ne]
  rintro rfl
  exact hne rfl

/-- The locations of matches in files of different names, when it is known of each whether it is
left out. -/
theorem ofMatches_inside {inside : Match → Bool} {currentFile : Option String} {run : Run}
    (hnames : ∀ m ∈ ms, m.file.IsName) (hdistinct : (ms.map (·.file)).Nodup)
    (hexcluded : leftOut tree currentFile = .ok excluded)
    (hinside : ∀ m ∈ ms, isIn tree excluded m = .ok (inside m)) :
    ∃ found, (ofMatches tree currentFile ms run).1 = .ok found ∧
      found ~ (ms.filter fun m => !inside m).map ofMatch ∧
      found.Pairwise fun a b => a.file.before b.file = true := by
  have hkept : (distinct tree excluded [] ms).1 = _ :=
    distinct_eq_filter hinside (pairwise_other_file hnames hdistinct) (by simp)
  have hlocations : ∀ a ∈ (ms.filter fun m => !inside m).map ofMatch, a.file.IsName := by
    intro a ha
    obtain ⟨m, hm, rfl⟩ := List.mem_map.mp ha
    exact hnames m (List.mem_of_mem_filter hm)
  rw [ofMatches_eq, hexcluded]
  simp only [hkept, Except.bind]
  refine sort_names hlocations ?_
  rw [List.map_map]
  exact (List.filter_sublist.map Match.file).nodup hdistinct

/-- The locations of matches in files of different names, each of which has a real path. -/
theorem ofMatches_names {real : FileLabel → Path} (hnames : ∀ m ∈ ms, ∃ s, m.file = named s)
    (hreal : ∀ m ∈ ms, keyOf tree m.file = .ok (real m.file))
    (hdistinct : (ms.map (·.file)).Nodup) (currentFile : Option String) (run : Run) :
    match leftOut tree currentFile with
    | .error f => (ofMatches tree currentFile ms run).1 = .error (.path f)
    | .ok excluded => ∃ found, (ofMatches tree currentFile ms run).1 = .ok found ∧
        found ~ (ms.filter fun m => !excluded.any (real m.file == ·)).map ofMatch ∧
        found.Pairwise fun a b => a.file.before b.file = true := by
  cases hexcluded : leftOut tree currentFile with
  | error f =>
    rw [ofMatches_eq, hexcluded]
  | ok excluded =>
    have hlabels : ∀ m ∈ ms, m.file.IsName := by
      intro m hm
      obtain ⟨s, hs⟩ := hnames m hm
      rw [hs]
      exact isName_named s
    refine ofMatches_inside hlabels hdistinct hexcluded fun m hm => ?_
    cases excluded with
    | none => rfl
    | some path => simp [isIn, hreal m hm, Except.map]

section Kept

variable {currentFile : Option String} {run : Run} {locations : List Location}

/-- Locations are those of some matches, none of which is in the current file. -/
theorem exists_of_ofMatches (h : (ofMatches tree currentFile ms run).1 = .ok locations) :
    ∃ (excluded : Option Path) (kept : List Match), leftOut tree currentFile = .ok excluded ∧
      kept.Sublist ms ∧
      (∀ m ∈ kept, isIn tree excluded m = .ok false) ∧ sort (kept.map ofMatch) = .ok locations := by
  rw [ofMatches_eq] at h
  cases hexcluded : leftOut tree currentFile with
  | error f => simp [hexcluded] at h
  | ok excluded =>
    simp only [hexcluded] at h
    cases hkept : (distinct tree excluded [] ms).1 with
    | error f => simp [hkept, Except.bind] at h
    | ok kept =>
      obtain ⟨hsub, hout⟩ := distinct_kept hkept
      exact ⟨excluded, kept, rfl, hsub, hout, by simpa [hkept, Except.bind] using h⟩

theorem mem_of_ofMatches (h : (ofMatches tree currentFile ms run).1 = .ok locations)
    {a : Location} (ha : a ∈ locations) : ∃ m ∈ ms, a = ofMatch m := by
  obtain ⟨excluded, kept, -, hsub, -, hsort⟩ := exists_of_ofMatches h
  unfold sort at hsort
  split at hsort
  · simp at hsort
  · obtain rfl := Except.ok.inj hsort
    obtain ⟨m, hm, rfl⟩ := List.mem_map.mp (List.mem_mergeSort.mp ha)
    exact ⟨m, hsub.subset hm, rfl⟩

/-- Locations of matches in different files come in the order of their names. -/
theorem ofMatches_kept (hnames : ∀ m ∈ ms, m.file.IsName) (hdistinct : (ms.map (·.file)).Nodup)
    (h : (ofMatches tree currentFile ms run).1 = .ok locations) :
    locations.Pairwise (fun a b => a.file.before b.file = true) ∧
      ∃ excluded, leftOut tree currentFile = .ok excluded ∧
        ∀ a ∈ locations, ∃ m ∈ ms, a = ofMatch m ∧ isIn tree excluded m = .ok false := by
  obtain ⟨excluded, kept, hexcluded, hsub, hout, hsort⟩ := exists_of_ofMatches h
  have hfiles : (kept.map ofMatch).map (·.file) = kept.map (·.file) := by
    rw [List.map_map]
    rfl
  have hlocations : ∀ a ∈ kept.map ofMatch, a.file.IsName := by
    intro a ha
    obtain ⟨m, hm, rfl⟩ := List.mem_map.mp ha
    exact hnames m (hsub.subset hm)
  have hnodup : ((kept.map ofMatch).map (·.file)).Nodup := by
    rw [hfiles]
    exact (hsub.map Match.file).nodup hdistinct
  obtain ⟨found, hfound, hperm, hordered⟩ := sort_names hlocations hnodup
  rw [hsort] at hfound
  obtain rfl := Except.ok.inj hfound
  refine ⟨hordered, excluded, hexcluded, ?_⟩
  intro a ha
  obtain ⟨m, hm, rfl⟩ := List.mem_map.mp (hperm.mem_iff.mp ha)
  exact ⟨m, hsub.subset hm, rfl, hout m hm⟩

end Kept

end Location
end DefinitionSite
