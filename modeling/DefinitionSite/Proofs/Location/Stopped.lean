import DefinitionSite.Proofs.Location.Ordered

/-! What keeps matches from being locations: a path that cannot be resolved where there is a current
file to leave out, or a file without a name. -/
namespace DefinitionSite

/-- The fault is one of a file's name that is this value. -/
inductive ShapeFault.OfName (v : Json) : ShapeFault → Prop
  | key : OfName v (.keyNeeded v)
  | path : OfName v (.pathNeeded v)
  | later (earlier : String) : OfName v (.orderNeeded v.typeName earlier)
  | earlier (later : String) : OfName v (.orderNeeded later v.typeName)

namespace Match

theorem exists_of_checkKey {file : FileLabel} {f : ShapeFault} (h : file.checkKey = .error f) :
    ∃ v, file = .value v ∧ f.OfName v := by
  unfold FileLabel.checkKey at h
  split at h
  · obtain rfl := Except.error.inj h
    exact ⟨_, rfl, .key⟩
  · obtain rfl := Except.error.inj h
    exact ⟨_, rfl, .key⟩
  · cases h

/-- Matches that cannot be grouped are in a file without a name. -/
theorem exists_of_groupByFile {cs : List Match} {f : ShapeFault} (h : groupByFile cs = .error f) :
    ∃ m ∈ cs, ∃ v, m.file = .value v ∧ f.OfName v := by
  induction cs using List.reverseRecOn with
  | nil => cases h
  | append_singleton cs last ih =>
    rw [groupByFile_concat] at h
    cases hfront : groupByFile cs with
    | error g =>
      obtain rfl : g = f := by simpa [hfront, bind, Except.bind] using h
      obtain ⟨m, hm, hfault⟩ := ih hfront
      exact ⟨m, List.mem_append_left _ hm, hfault⟩
    | ok groups =>
      cases hkey : last.file.checkKey with
      | ok _ => simp [hfront, hkey, bind, Except.bind, pure, Except.pure] at h
      | error g =>
        obtain rfl : g = f := by simpa [hfront, hkey, bind, Except.bind] using h
        exact ⟨last, by simp, exists_of_checkKey hkey⟩

theorem exists_of_bestPerFile {cs : List Match} {f : ShapeFault} (h : bestPerFile cs = .error f) :
    ∃ m ∈ cs, ∃ v, m.file = .value v ∧ f.OfName v := by
  unfold bestPerFile at h
  cases hgroups : groupByFile cs with
  | ok groups => simp [hgroups, bind, Except.bind, pure, Except.pure] at h
  | error g =>
    obtain rfl : g = f := by simpa [hgroups, bind, Except.bind] using h
    exact exists_of_groupByFile hgroups

end Match

namespace Location

variable {tree : FileTree} {ms : List Match} {f : LocationFault}

/-- What keeps matches from being locations: a path cannot be resolved, of the current file or of a
match, or a match is in a file without a name. -/
inductive Stopped (tree : FileTree) (currentFile : Option String) (ms : List Match) :
    LocationFault → Prop
  | path {file : String} {name : RawText} {f : PathFault} (hfile : currentFile = some file)
      (hne : file ≠ "") (hname : name = .text file ∨ ∃ m ∈ ms, m.file = .name name)
      (h : tree.resolve (.ofRaw name) = .error f) : Stopped tree currentFile ms (.path f)
  | name {m : Match} {v : Json} {f : ShapeFault} (hm : m ∈ ms) (hv : m.file = .value v)
      (hf : f.OfName v) : Stopped tree currentFile ms (.shape f)

theorem exists_of_distinct {excluded : Option Path} {seen : List Match}
    (h : (distinct tree excluded seen ms).1 = .error f) :
    excluded ≠ none ∧ ∃ m ∈ ms, keyOf tree m.file = .error f := by
  induction ms generalizing seen with
  | nil => cases h
  | cons m ms ih =>
    have hlater : ∀ {seen : List Match}, (distinct tree excluded seen ms).1 = .error f →
        excluded ≠ none ∧ ∃ x ∈ m :: ms, keyOf tree x.file = .error f := by
      intro seen hrest
      obtain ⟨hexcluded, x, hx, hkey⟩ := ih hrest
      exact ⟨hexcluded, x, List.mem_cons_of_mem _ hx, hkey⟩
    unfold distinct at h
    split at h
    · rename_i g hin
      obtain rfl := Except.error.inj h
      cases excluded with
      | none => cases hin
      | some path =>
        cases hkey : keyOf tree m.file with
        | ok real => simp [isIn, hkey, Except.map] at hin
        | error g' =>
          obtain rfl : g' = g := by simpa [isIn, hkey, Except.map] using hin
          exact ⟨by simp, m, by simp, hkey⟩
    · exact hlater h
    · split at h
      · exact hlater h
      · cases hrest : (distinct tree excluded (m :: seen) ms).1 with
        | ok kept => simp [hrest, Except.map] at h
        | error g =>
          obtain rfl : g = f := by simpa [hrest, Except.map] using h
          exact hlater hrest

theorem exists_of_firstUnordered {locations : List Location} {later earlier : Location}
    (h : firstUnordered locations = some (later, earlier)) :
    later ∈ locations ∧ earlier ∈ locations ∧ earlier.file.comparable later.file = false := by
  induction locations with
  | nil => cases h
  | cons a rest ih =>
    cases rest with
    | nil => cases h
    | cons b rest =>
      unfold firstUnordered at h
      split_ifs at h with hcomparable
      · obtain ⟨hlater, hearlier, hnot⟩ := ih h
        exact ⟨List.mem_cons_of_mem _ hlater, List.mem_cons_of_mem _ hearlier, hnot⟩
      · obtain ⟨rfl, rfl⟩ := Prod.mk.inj (Option.some.inj h)
        exact ⟨by simp, by simp, by simpa using hcomparable⟩

/-- Locations that cannot be put in order are in a file without a name. -/
theorem exists_of_sort {locations : List Location} (h : sort locations = .error f) :
    ∃ a ∈ locations, ∃ v g, a.file = .value v ∧ f = .shape g ∧ g.OfName v := by
  unfold sort at h
  split at h
  · rename_i later earlier hfirst
    obtain rfl := Except.error.inj h
    obtain ⟨hlater, hearlier, hnot⟩ := exists_of_firstUnordered hfirst
    cases hv : earlier.file with
    | value v => exact ⟨earlier, hearlier, v, _, hv, rfl, .earlier later.file.typeName⟩
    | name s =>
      cases hw : later.file with
      | value w => exact ⟨later, hlater, w, _, hw, rfl, .later _⟩
      | name t => simp [hv, hw, FileLabel.comparable] at hnot
  · cases h

theorem leftOut_eq (tree : FileTree) {currentFile : Option String}
    (h : leftOut tree currentFile ≠ .ok none) :
    ∃ file, currentFile = some file ∧ file ≠ "" ∧
      leftOut tree currentFile = (tree.resolve (.ofString file)).map some := by
  cases currentFile with
  | none => exact absurd rfl h
  | some file =>
    simp only [leftOut] at h ⊢
    split_ifs at h ⊢ with hempty
    · exact absurd rfl h
    · exact ⟨file, rfl, by simpa using hempty, rfl⟩

/-- Only a path or a name that is none keeps matches from being locations. -/
theorem stopped_ofMatches {currentFile : Option String} {run : Run}
    (h : (ofMatches tree currentFile ms run).1 = .error f) : Stopped tree currentFile ms f := by
  rw [ofMatches_eq] at h
  cases hexcluded : leftOut tree currentFile with
  | error g =>
    rw [hexcluded] at h
    obtain rfl := Except.error.inj h
    obtain ⟨file, hfile, hne, heq⟩ := leftOut_eq tree (by rw [hexcluded]; simp)
    refine .path hfile hne (.inl rfl) ?_
    cases hresolve : tree.resolve (.ofString file) with
    | ok path => simp [hexcluded, hresolve, Except.map] at heq
    | error g' =>
      obtain rfl : g = g' := by simpa [hexcluded, hresolve, Except.map] using heq
      exact hresolve
  | ok excluded =>
    simp only [hexcluded] at h
    cases hkept : (distinct tree excluded [] ms).1 with
    | error g =>
      obtain rfl : g = f := by simpa [hkept, Except.bind] using h
      obtain ⟨hsome, m, hm, hkey⟩ := exists_of_distinct hkept
      unfold keyOf at hkey
      cases hlabel : m.file with
      | value v =>
        rw [hlabel] at hkey
        obtain rfl := Except.error.inj hkey
        exact .name hm hlabel .path
      | name t =>
        obtain ⟨file, hfile, hne, -⟩ := leftOut_eq tree (by rw [hexcluded]; simpa using hsome)
        cases hresolve : tree.resolve (.ofRaw t) with
        | ok path => simp [hlabel, hresolve] at hkey
        | error g' =>
          obtain rfl : .path g' = g := by simpa [hlabel, hresolve] using hkey
          exact .path hfile hne (.inr ⟨m, hm, hlabel⟩) hresolve
    | ok kept =>
      simp only [hkept, Except.bind] at h
      obtain ⟨a, ha, v, g, hv, rfl, hg⟩ := exists_of_sort h
      obtain ⟨m, hm, rfl⟩ := List.mem_map.mp ha
      exact .name ((distinct_kept hkept).1.subset hm) hv hg

end Location

end DefinitionSite
