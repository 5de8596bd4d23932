import DefinitionSite.Proofs.Settings.Partial

/-! Which of several sources counts. Where settings are overridden by one source after the other,
each of them has the value of the last source that sets it, whatever the sources set besides.
Languages are set one by one, so none that an earlier source sets is lost. -/
namespace DefinitionSite

namespace Settings

section Languages

/-- The file name patterns that are the last to be listed for a language. -/
def lastGlobs? (languages : List (String × List String)) (name : String) : Option (List String) :=
  (languages.filter (·.1 == name)).getLast?.map (·.2)

theorem lastGlobs?_append (xs ys : List (String × List String)) (name : String) :
    lastGlobs? (xs ++ ys) name = (lastGlobs? ys name).or (lastGlobs? xs name) := by
  unfold lastGlobs?
  rw [List.filter_append, List.getLast?_append, Option.map_or]

theorem lastGlobs?_isSome {languages : List (String × List String)} {e : String × List String}
    (h : e ∈ languages) : (lastGlobs? languages e.1).isSome := by
  have hmem : e ∈ languages.filter (·.1 == e.1) := List.mem_filter.mpr ⟨h, beq_self_eq_true _⟩
  rw [lastGlobs?, Option.isSome_map, List.getLast?_isSome]
  exact List.ne_nil_of_mem hmem

theorem lastGlobs?_eq_none {languages : List (String × List String)} {name : String}
    (h : ∀ e ∈ languages, e.1 ≠ name) : lastGlobs? languages name = none := by
  have hnil : languages.filter (·.1 == name) = [] := by
    simpa [List.filter_eq_nil_iff] using h
  rw [lastGlobs?, hnil]
  rfl

/-- Setting a language changes what is known of that language alone. -/
theorem language?_setLanguage (s : Settings) (language name : String) (globs : List String) :
    (s.setLanguage language globs).language? name =
      if language = name then some globs else s.language? name := by
  unfold setLanguage language?
  simp only
  split
  · rename_i hknown
    have hkey : ((fun e : String × List String => e.1 == name) ∘
        fun e => if e.1 == language then (language, globs) else e) = fun e => e.1 == name := by
      funext e
      rw [Function.comp_apply]
      split
      · rename_i he
        rw [beq_iff_eq.mp he]
      · rfl
    rw [List.find?_map, hkey]
    cases hfound : s.languages.find? (·.1 == name) with
    | none =>
      have hname : language ≠ name := by
        rintro rfl
        obtain ⟨e, he, hkey⟩ := List.any_eq_true.mp hknown
        exact List.find?_eq_none.mp hfound e he hkey
      simp [hname]
    | some e =>
      have he : e.1 = name := by simpa using List.find?_some hfound
      by_cases hname : language = name
      · simp [he, hname]
      · simp [he, hname, Ne.symm hname]
  · rename_i hnew
    rw [List.find?_append]
    by_cases hname : language = name
    · subst hname
      have hnone : s.languages.find? (·.1 == language) = none := by
        rw [List.find?_eq_none]
        intro e he hkey
        exact hnew (List.any_eq_true.mpr ⟨e, he, hkey⟩)
      simp [hnone]
    · simp [hname]

/-- Of the languages that are set one after the other, the last of a name counts. -/
theorem language?_setLanguages (s : Settings) (languages : List (String × List String))
    (name : String) : (s.setLanguages languages).language? name =
      (lastGlobs? languages name).or (s.language? name) := by
  induction languages generalizing s with
  | nil => rfl
  | cons e languages ih =>
    rw [← List.singleton_append, lastGlobs?_append, Option.or_assoc]
    refine (ih (s.setLanguage e.1 e.2)).trans (congrArg _ ?_)
    rw [language?_setLanguage]
    by_cases hname : e.1 = name <;> simp [lastGlobs?, hname]

end Languages

theorem get_override {α : Type} (s : Settings) (p : Partial) (x : Setting α) :
    x.get (s.override p) = (x.setBy p).getD (x.get s) := by
  cases x <;> rfl

theorem language?_override (s : Settings) (p : Partial) (name : String) :
    (s.override p).language? name = (lastGlobs? p.languages name).or (s.language? name) :=
  language?_setLanguages s p.languages name

/-- Settings that have every value from the last of the sources that set it. -/
structure LastWins (sources : List Partial) (s : Settings) : Prop where
  value {α : Type} (x : Setting α) : (sources.filterMap (x.setBy ·)).getLast? = some (x.get s)
  language (name : String) : s.language? name = lastGlobs? (sources.flatMap (·.languages)) name

namespace LastWins

variable {s t : Settings} {p : Partial} {sources later : List Partial}

theorem initial : LastWins [.whole .initial] .initial where
  value x := by cases x <;> rfl
  language name := by
    by_cases hname : "haskell" = name <;>
      simp [language?, Settings.initial, Partial.whole, lastGlobs?, hname]

/-- One more source counts more than those before it. -/
theorem override (h : LastWins sources s) : LastWins (sources ++ [p]) (s.override p) where
  value x := by
    rw [List.filterMap_append, List.getLast?_append, h.value, get_override]
    cases hset : x.setBy p <;> simp [hset]
  language name := by
    rw [List.flatMap_append, lastGlobs?_append, language?_override, h.language]
    simp

theorem foldl_override (h : LastWins sources s) (later : List Partial) :
    LastWins (sources ++ later) (later.foldl Settings.override s) := by
  induction later generalizing sources s with
  | nil => rw [List.append_nil]; exact h
  | cons p later ih =>
    rw [← List.singleton_append, ← List.append_assoc]
    exact ih h.override

/-- A setting that no later source sets is as the first one has it. -/
theorem value_eq {α : Type} {x : Setting α} (h : LastWins (.whole t :: later) s)
    (hsilent : ∀ p ∈ later, x.setBy p = none) : x.get s = x.get t := by
  have hlater : later.filterMap (x.setBy ·) = [] := List.filterMap_eq_nil_iff.mpr hsilent
  have hfirst : x.setBy (.whole t) = some (x.get t) := by cases x <;> rfl
  have hlast := h.value x
  rw [List.filterMap_cons, hfirst, hlater] at hlast
  exact (Option.some.inj hlast).symm

/-- A language that no later source sets is as the first one has it. -/
theorem language?_eq {name : String} (h : LastWins (p :: later) s)
    (hsilent : ∀ q ∈ later, ∀ e ∈ q.languages, e.1 ≠ name) :
    s.language? name = lastGlobs? p.languages name := by
  have hnone : lastGlobs? (later.flatMap (·.languages)) name = none := by
    refine lastGlobs?_eq_none fun e he => ?_
    obtain ⟨q, hq, heq⟩ := List.mem_flatMap.mp he
    exact hsilent q hq e heq
  rw [h.language, List.flatMap_cons, lastGlobs?_append, hnone, Option.none_or]

/-- No language that a source sets is lost. -/
theorem language?_isSome (h : LastWins sources s) (hp : p ∈ sources) {e : String × List String}
    (he : e ∈ p.languages) : (s.language? e.1).isSome := by
  rw [h.language]
  exact lastGlobs?_isSome (List.mem_flatMap.mpr ⟨p, hp, he⟩)

end LastWins

end Settings
end DefinitionSite
