import Mathlib.Data.List.Induction
import Mathlib.Data.List.Nodup
import Mathlib.Tactic.Common
import DefinitionSite.Proofs.Match.Best

/-! Grouping matches by file: every file that has a match gets one group, which holds its matches in
their order, and the groups come in the order in which the files are first seen. -/
namespace DefinitionSite.Match

@[simp] theorem same_name (s t : RawText) : (FileLabel.name s).same (.name t) = (s == t) := rfl

/-- The groups of matches by the given names. -/
def groupsOf (names : List RawText) (ms : RawText → List Match) : Groups :=
  names.map fun s => (.name s, ms s)

theorem add_groupsOf {m : Match} {s : RawText} (hm : m.file = .name s) {names : List RawText}
    (hnodup : names.Nodup) (ms : RawText → List Match) :
    (groupsOf names ms).add m =
      if s ∈ names then groupsOf names fun t => if t = s then ms t ++ [m] else ms t
      else groupsOf names ms ++ [(.name s, [m])] := by
  induction names with
  | nil => simp [groupsOf, Groups.add, hm]
  | cons t names ih =>
    obtain ⟨ht, hnodup⟩ := List.nodup_cons.mp hnodup
    rw [groupsOf, List.map_cons, Groups.add, hm, same_name]
    by_cases hts : t = s
    · subst hts
      have hkeep : groupsOf names (fun u => if u = t then ms u ++ [m] else ms u) =
          groupsOf names ms := by
        refine List.map_congr_left fun u hu => ?_
        have hne : u ≠ t := by
          rintro rfl
          exact ht hu
        simp [hne]
      simp only [groupsOf] at hkeep
      simp [groupsOf, hkeep]
    · have ih := ih hnodup
      simp only [groupsOf] at ih
      have hmem : s ∈ t :: names ↔ s ∈ names := by simp [Ne.symm hts]
      simp only [beq_iff_eq, hts, ↓reduceIte, hmem, ih]
      split <;> simp [groupsOf, hts]

/-- The name of the file of a match. -/
def nameOf? (m : Match) : Option RawText :=
  match m.file with
  | .name s => some s
  | .value _ => none

@[simp] theorem nameOf?_eq_some {m : Match} {s : RawText} :
    m.nameOf? = some s ↔ m.file = .name s := by
  unfold nameOf?
  split <;> simp [*]

/-- The names of the files that have a match, in the order in which they are first seen. -/
def firstSeen (ms : List Match) : List RawText := (ms.filterMap nameOf?).eraseDups

theorem mem_firstSeen {cs : List Match} {s : RawText} :
    s ∈ firstSeen cs ↔ ∃ m ∈ cs, m.file = .name s := by
  simp [firstSeen]

section Concat

variable {cs : List Match} {m : Match} {s : RawText}

theorem firstSeen_concat (cs : List Match) (hm : m.file = .name s) :
    firstSeen (cs ++ [m]) =
      if s ∈ firstSeen cs then firstSeen cs else firstSeen cs ++ [s] := by
  have hlast : [m].filterMap nameOf? = [s] := by
    simp [nameOf?_eq_some.mpr hm]
  simp only [firstSeen, List.filterMap_append, hlast, List.eraseDups_append, List.mem_eraseDups]
  split_ifs with hs
  · simp [List.removeAll, hs]
  · simp [List.removeAll, hs, List.eraseDups_cons]

theorem filter_concat (cs : List Match) (hm : m.file = .name s) (t : RawText) :
    (cs ++ [m]).filter (·.file.same (.name t)) =
      if t = s then cs.filter (·.file.same (.name t)) ++ [m]
      else cs.filter (·.file.same (.name t)) := by
  by_cases hts : t = s
  · simp [hts, hm]
  · simp [hts, hm, Ne.symm hts]

/-- The matches of a file have its name. -/
theorem mem_filter_same {t : RawText} (hcs : ∀ m ∈ cs, ∃ t, m.file = .name t) :
    m ∈ cs.filter (·.file.same (.name t)) ↔ m ∈ cs ∧ m.file = .name t := by
  rw [List.mem_filter, and_congr_right_iff]
  intro hm
  obtain ⟨u, hu⟩ := hcs m hm
  simp [hu]

theorem filter_eq_nil (hcs : ∀ m ∈ cs, ∃ t, m.file = .name t) (hs : s ∉ firstSeen cs) :
    cs.filter (·.file.same (.name s)) = [] := by
  rw [List.eq_nil_iff_forall_not_mem]
  intro x hx
  exact hs (mem_firstSeen.mpr ⟨x, (mem_filter_same hcs).mp hx⟩)

end Concat

theorem nodup_firstSeen {cs : List Match} (hcs : ∀ m ∈ cs, ∃ t, m.file = .name t) :
    (firstSeen cs).Nodup := by
  induction cs using List.reverseRecOn with
  | nil => exact List.nodup_nil
  | append_singleton cs m ih =>
    obtain ⟨s, hm⟩ := hcs m (by simp)
    have hnodup := ih fun x hx => hcs x (by simp [hx])
    rw [firstSeen_concat cs hm]
    split_ifs with hs
    · exact hnodup
    · exact List.nodup_append'.mpr ⟨hnodup, List.nodup_singleton s, by simpa using hs⟩

theorem groupByFile_concat (cs : List Match) (m : Match) :
    groupByFile (cs ++ [m]) = do
      let groups ← groupByFile cs
      m.file.checkKey
      return groups.add m := by
  unfold groupByFile
  rw [List.foldlM_append]
  simp

/-- Each file gets one group with its matches. -/
theorem groupByFile_eq {cs : List Match} (hcs : ∀ m ∈ cs, ∃ s, m.file = .name s) :
    groupByFile cs =
      .ok (groupsOf (firstSeen cs) fun s => cs.filter (·.file.same (.name s))) := by
  induction cs using List.reverseRecOn with
  | nil => rfl
  | append_singleton cs m ih =>
    have hfront : ∀ x ∈ cs, ∃ s, x.file = .name s := fun x hx => hcs x (by simp [hx])
    obtain ⟨s, hm⟩ := hcs m (by simp)
    have hstep : groupByFile (cs ++ [m]) =
        .ok ((groupsOf (firstSeen cs) fun s => cs.filter (·.file.same (.name s))).add m) := by
      rw [groupByFile_concat, ih hfront]
      simp [hm, FileLabel.checkKey, bind, Except.bind, pure, Except.pure]
    rw [hstep, add_groupsOf hm (nodup_firstSeen hfront), firstSeen_concat cs hm]
    by_cases hs : s ∈ firstSeen cs
    · simp only [hs, ↓reduceIte, filter_concat cs hm]
    · simp only [hs, ↓reduceIte, groupsOf, List.map_append, List.map_cons, List.map_nil,
        filter_concat cs hm, filter_eq_nil hfront hs, List.nil_append]
      congr 2
      refine List.map_congr_left fun t ht => ?_
      have hne : t ≠ s := by
        rintro rfl
        exact hs ht
      simp [hne]

/-- The best match of each file that has one. -/
theorem bestPerFile_eq {cs : List Match} (hcs : ∀ m ∈ cs, ∃ s, m.file = .name s) :
    bestPerFile cs =
      .ok ((firstSeen cs).filterMap fun s => best (cs.filter (·.file.same (.name s)))) := by
  rw [bestPerFile, groupByFile_eq hcs]
  simp [bind, Except.bind, pure, Except.pure, groupsOf, List.filterMap_map]

/-- The match is the best of those in the file with the given name. -/
def IsBestIn (cs : List Match) (s : RawText) (m : Match) : Prop :=
  m.file = .name s ∧ best (cs.filter (·.file.same (.name s))) = some m

theorem exists_isBestIn {cs : List Match} (hcs : ∀ m ∈ cs, ∃ s, m.file = .name s) {s : RawText}
    (hs : s ∈ firstSeen cs) : ∃ m, IsBestIn cs s m := by
  obtain ⟨x, hx⟩ := mem_firstSeen.mp hs
  have hmem := (mem_filter_same hcs).mpr hx
  cases hbest : best (cs.filter (·.file.same (.name s))) with
  | none =>
    rw [best_eq_firstBest, firstBest_eq_none] at hbest
    rw [hbest] at hmem
    cases hmem
  | some m => exact ⟨m, ((mem_filter_same hcs).mp (mem_of_best hbest)).2, hbest⟩

/-- Each file that has a match gets its best one, where it is first seen. -/
theorem bestPerFile_forall₂ {cs : List Match} (hcs : ∀ m ∈ cs, ∃ s, m.file = .name s) :
    ∃ found, bestPerFile cs = .ok found ∧ List.Forall₂ (IsBestIn cs) (firstSeen cs) found := by
  refine ⟨_, bestPerFile_eq hcs, ?_⟩
  have hbest : ∀ s ∈ firstSeen cs, ∃ m, IsBestIn cs s m := fun s => exists_isBestIn hcs
  generalize firstSeen cs = names at hbest ⊢
  induction names with
  | nil => exact .nil
  | cons s names ih =>
    obtain ⟨⟨m, hm⟩, hrest⟩ := List.forall_mem_cons.mp hbest
    simp only [List.filterMap_cons, hm.2]
    exact .cons hm (ih hrest)

theorem mem_of_mem_add {groups : Groups} {m x : Match} {g : FileLabel × List Match}
    (hg : g ∈ groups.add m) (hx : x ∈ g.2) : x = m ∨ ∃ g ∈ groups, x ∈ g.2 := by
  induction groups with
  | nil =>
    obtain rfl := List.mem_singleton.mp hg
    exact Or.inl (List.mem_singleton.mp hx)
  | cons first groups ih =>
    obtain ⟨file, ms⟩ := first
    unfold Groups.add at hg
    split_ifs at hg
    · rcases List.mem_cons.mp hg with rfl | hg
      · rcases List.mem_append.mp hx with hx | hx
        · exact Or.inr ⟨_, List.mem_cons_self, hx⟩
        · exact Or.inl (List.mem_singleton.mp hx)
      · exact Or.inr ⟨g, List.mem_cons_of_mem _ hg, hx⟩
    · rcases List.mem_cons.mp hg with rfl | hg
      · exact Or.inr ⟨_, List.mem_cons_self, hx⟩
      · refine (ih hg).imp_right ?_
        rintro ⟨g, hg, hx⟩
        exact ⟨g, List.mem_cons_of_mem _ hg, hx⟩

/-- Groups hold nothing but the matches that were grouped. -/
theorem mem_of_groupByFile {cs : List Match} {groups : Groups} (h : groupByFile cs = .ok groups)
    {g : FileLabel × List Match} (hg : g ∈ groups) {m : Match} (hm : m ∈ g.2) : m ∈ cs := by
  induction cs using List.reverseRecOn generalizing groups g with
  | nil =>
    obtain rfl : [] = groups := Except.ok.inj h
    simp at hg
  | append_singleton cs last ih =>
    rw [groupByFile_concat] at h
    cases hfront : groupByFile cs with
    | error f => simp [hfront, bind, Except.bind] at h
    | ok front =>
      cases hkey : last.file.checkKey with
      | error f => simp [hfront, hkey, bind, Except.bind] at h
      | ok _ =>
        obtain rfl : Groups.add front last = groups := by
          simpa [hfront, hkey, bind, Except.bind, pure, Except.pure] using h
        rcases mem_of_mem_add hg hm with rfl | ⟨g, hg, hm⟩
        · simp
        · exact List.mem_append_left _ (ih hfront hg hm)

theorem mem_of_bestPerFile {cs found : List Match} (h : bestPerFile cs = .ok found) {m : Match}
    (hm : m ∈ found) : m ∈ cs := by
  unfold bestPerFile at h
  cases hgroups : groupByFile cs with
  | error f => simp [hgroups, bind, Except.bind] at h
  | ok groups =>
    obtain rfl : groups.filterMap (fun g => best g.2) = found := by
      simpa [hgroups, bind, Except.bind, pure, Except.pure] using h
    obtain ⟨g, hg, hbest⟩ := List.mem_filterMap.mp hm
    exact mem_of_groupByFile hgroups hg (mem_of_best hbest)

theorem map_file_of_forall₂ {cs found : List Match} {names : List RawText}
    (h : List.Forall₂ (IsBestIn cs) names found) : found.map (·.file) = names.map .name := by
  induction h with
  | nil => rfl
  | cons hm _ ih => rw [List.map_cons, List.map_cons, hm.1, ih]

/-- No two of the best matches of files are in the same file. -/
theorem nodup_bestPerFile {cs found : List Match} (hcs : ∀ m ∈ cs, ∃ s, m.file = .name s)
    (h : bestPerFile cs = .ok found) : (found.map (·.file)).Nodup := by
  obtain ⟨_, hfound, hbest⟩ := bestPerFile_forall₂ hcs
  obtain rfl := Except.ok.inj (h.symm.trans hfound)
  rw [map_file_of_forall₂ hbest]
  exact (nodup_firstSeen hcs).map fun _ _ => FileLabel.name.inj

/-- A match in a file that has none yet is the best there and changes no other. -/
theorem bestPerFile_concat {cs found : List Match} {m : Match} {s : RawText}
    (hcs : ∀ x ∈ cs, ∃ t, x.file = .name t) (hm : m.file = .name s) (hs : s ∉ firstSeen cs)
    (h : bestPerFile cs = .ok found) : bestPerFile (cs ++ [m]) = .ok (found ++ [m]) := by
  have hall : ∀ x ∈ cs ++ [m], ∃ t, x.file = .name t :=
    List.forall_mem_append.mpr ⟨hcs, by simpa using ⟨s, hm⟩⟩
  have hothers : ∀ t ∈ firstSeen cs, best ((cs ++ [m]).filter (·.file.same (.name t))) =
      best (cs.filter (·.file.same (.name t))) := by
    intro t ht
    have hne : t ≠ s := by
      rintro rfl
      exact hs ht
    rw [filter_concat cs hm, if_neg hne]
  have hown : best ((cs ++ [m]).filter (·.file.same (.name s))) = some m := by
    rw [filter_concat cs hm, if_pos rfl, filter_eq_nil hcs hs, List.nil_append, best_eq_firstBest]
    rfl
  rw [bestPerFile_eq hcs] at h
  obtain rfl := Except.ok.inj h
  rw [bestPerFile_eq hall, firstSeen_concat cs hm, if_neg hs, List.filterMap_append,
    List.filterMap_congr hothers]
  simp only [List.filterMap_cons, hown, List.filterMap_nil]

/-- One match for each file is the best there. -/
theorem bestPerFile_of_nodup {cs : List Match} (hcs : ∀ m ∈ cs, ∃ s, m.file = .name s)
    (h : (cs.map (·.file)).Nodup) : bestPerFile cs = .ok cs := by
  induction cs using List.reverseRecOn with
  | nil => rfl
  | append_singleton cs m ih =>
    have hfront : ∀ x ∈ cs, ∃ s, x.file = .name s := fun x hx => hcs x (by simp [hx])
    obtain ⟨s, hm⟩ := hcs m (by simp)
    rw [List.map_append, List.nodup_append'] at h
    obtain ⟨hnodup, -, hdisjoint⟩ := h
    refine bestPerFile_concat hfront hm (fun hs => ?_) (ih hfront hnodup)
    obtain ⟨x, hx, hfile⟩ := mem_firstSeen.mp hs
    exact hdisjoint (List.mem_map_of_mem hx) (by simp [hfile, hm])

section Pooled
open scoped List

variable {κ φ : Type} {files : List φ} {label : φ → RawText}
  {ms : κ → φ → List Match}

/-- Of the matches of several files, the ones with a file's name are its own. -/
theorem filter_flatMap_files (hlabel : (files.map label).Nodup)
    (hms : ∀ kind file, ∀ m ∈ ms kind file, m.file = .name (label file)) {file : φ}
    (hfile : file ∈ files) (kind : κ) :
    (files.flatMap (ms kind)).filter (·.file.same (.name (label file))) = ms kind file := by
  have hown : (ms kind file).filter (·.file.same (.name (label file))) = ms kind file := by
    rw [List.filter_eq_self]
    intro m hm
    simp [hms kind file m hm]
  have hothers : ∀ part : List φ, (∀ other ∈ part, label other ≠ label file) →
      (part.flatMap (ms kind)).filter (·.file.same (.name (label file))) = [] := by
    intro part hne
    rw [List.filter_eq_nil_iff]
    intro m hm
    obtain ⟨other, hother, hm⟩ := List.mem_flatMap.mp hm
    simpa [hms kind other m hm] using hne other hother
  obtain ⟨front, rest, rfl⟩ := List.append_of_mem hfile
  rw [List.map_append, List.map_cons, List.nodup_append', List.nodup_cons] at hlabel
  obtain ⟨-, ⟨hrest, -⟩, hfront⟩ := hlabel
  rw [List.flatMap_append, List.flatMap_cons, List.filter_append, List.filter_append, hown,
    hothers front, hothers rest, List.nil_append, List.append_nil]
  · intro other hother heq
    exact hrest (heq ▸ List.mem_map_of_mem hother)
  · intro other hother heq
    exact hfront (List.mem_map_of_mem hother) (heq ▸ List.mem_cons_self)

/-- When the matches of several files come kind by kind, the best match of each file is the best of
its own matches. -/
theorem bestPerFile_flatMap (kinds : List κ) (hlabel : (files.map label).Nodup)
    (hms : ∀ kind file, ∀ m ∈ ms kind file, m.file = .name (label file)) :
    ∃ found, bestPerFile (kinds.flatMap fun kind => files.flatMap (ms kind)) = .ok found ∧
      found ~ files.filterMap fun file => best (kinds.flatMap fun kind => ms kind file) := by
  have hcs : ∀ m ∈ kinds.flatMap fun kind => files.flatMap (ms kind), ∃ file ∈ files,
      m.file = .name (label file) := by
    simp only [List.mem_flatMap]
    rintro m ⟨kind, -, file, hfile, hm⟩
    exact ⟨file, hfile, hms kind file m hm⟩
  have hlabels : ∀ m ∈ kinds.flatMap fun kind => files.flatMap (ms kind), ∃ s,
      m.file = .name s := by
    intro m hm
    obtain ⟨file, -, hfile⟩ := hcs m hm
    exact ⟨label file, hfile⟩
  refine ⟨_, bestPerFile_eq hlabels, ?_⟩
  set names := firstSeen (kinds.flatMap fun kind => files.flatMap (ms kind))
  have hnodup : names.Nodup := nodup_firstSeen hlabels
  set bestOf := fun s => best ((kinds.flatMap fun kind => files.flatMap (ms kind)).filter
    (·.file.same (.name s))) with hbestOf
  have hown : ∀ file ∈ files,
      bestOf (label file) = best (kinds.flatMap fun kind => ms kind file) := by
    intro file hfile
    simp only [hbestOf]
    rw [List.filter_flatMap]
    simp only [filter_flatMap_files hlabel hms hfile]
  -- A file without a match has no group and no best match.
  have hnone : ∀ s, s ∉ names → bestOf s = none := by
    intro s hs
    simp only [hbestOf, filter_eq_nil hlabels hs]
    rfl
  have hperm : names ~ (files.map label).filter (· ∈ names) := by
    refine (List.perm_ext_iff_of_nodup hnodup (hlabel.filter _)).mpr fun s => ?_
    simp only [List.mem_filter, decide_eq_true_eq, iff_and_self]
    intro hs
    obtain ⟨m, hm, hfile⟩ := mem_firstSeen.mp hs
    obtain ⟨file, hmem, heq⟩ := hcs m hm
    rw [hfile] at heq
    exact List.mem_map.mpr ⟨file, hmem, (FileLabel.name.inj heq).symm⟩
  calc names.filterMap bestOf
    _ ~ ((files.map label).filter (· ∈ names)).filterMap bestOf := hperm.filterMap bestOf
    _ = (files.map label).filterMap bestOf := by
      rw [List.filterMap_filter]
      refine List.filterMap_congr fun s _ => ?_
      by_cases hs : s ∈ names
      · simp [hs]
      · simp [hs, hnone s hs]
    _ = files.filterMap fun file => best (kinds.flatMap fun kind => ms kind file) := by
      rw [List.filterMap_map]
      exact List.filterMap_congr hown

end Pooled
end DefinitionSite.Match
