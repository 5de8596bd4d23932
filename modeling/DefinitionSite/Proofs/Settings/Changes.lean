import DefinitionSite.Proofs.Settings.Setting

/-! What the changes of a configuration file come to. Each of them can be made in all settings, or
in none. They are made in order up to the first that cannot be made, and those before it stay made;
so a file that fails may have changed the settings, though never those that its last changes are
about. -/
namespace DefinitionSite.Settings

open Toml (Value Table)

/-- A change can be made in all settings, and then by one update of the given kind, or else in none,
and then for one reason. -/
inductive Change.Makes (kind : (Settings → Settings) → Prop) (change : Change) : Prop
  | refused (f : SettingsFault) (h : ∀ s, change s = .error f)
  | made (update : Settings → Settings) (hkind : kind update) (h : ∀ s, change s = .ok (update s))

namespace Change.Makes

variable {kind kind' : (Settings → Settings) → Prop} {change : Change}

theorem mono (h : change.Makes kind) (hkind : ∀ update, kind update → kind' update) :
    change.Makes kind' := by
  cases h with
  | refused f h => exact .refused f h
  | made update hupdate h => exact .made update (hkind update hupdate) h

/-- A change that first computes something from the document. -/
theorem bind {α : Type} (x : Except SettingsFault α) {next : α → Change}
    (h : ∀ a, (next a).Makes kind) : Change.Makes kind fun s => x >>= fun a => next a s := by
  cases x with
  | error f => exact .refused f fun _ => rfl
  | ok a => exact h a

end Change.Makes

/-- The change of one setting puts a value in place, or it does nothing. -/
theorem makes_settingChange {α : Type} (x : Setting α) (key : String) (v : Value) :
    (settingChange x key v).Makes fun update =>
      update = id ∨ ∃ value, update = fun s => x.put s value := by
  unfold settingChange
  apply Change.Makes.bind
  intro found
  cases found.filter x.counts with
  | none => exact .made id (.inl rfl) fun _ => rfl
  | some w => exact .bind _ fun value => .made _ (.inr ⟨value, rfl⟩) fun _ => rfl

theorem makes_languageChange (language : String) (globs : Value) :
    (languageChange language globs).Makes fun update =>
      ∃ globs, update = fun s => s.setLanguage language globs := by
  unfold languageChange
  split
  · rename_i glob
    exact .made _ ⟨[glob], rfl⟩ fun _ => rfl
  · exact .bind _ fun globs => .made _ ⟨globs, rfl⟩ fun _ => rfl

section Document

variable {document : Table} {change : Change}

theorem mem_changesUnder {key : String} {f : Value → List Change} :
    change ∈ changesUnder document key f ↔
      ∃ v, Toml.entry? key document = some v ∧ change ∈ f v := by
  unfold changesUnder
  cases Toml.entry? key document <;> simp

/-- The changes that a document makes before those of the directories and of the log. -/
def firstChanges (document : Table) : List Change :=
  changesUnder document "search" (fun v =>
    [engineChange v, ripgrepPathChange v, timeoutChange v, workersChange v]) ++
  changesUnder document "languages" languageChanges

/-- The update leaves the skipped directories and the log as they are. -/
def LeavesLast (update : Settings → Settings) : Prop :=
  ∀ s, (update s).skipDirs = s.skipDirs ∧ (update s).debug = s.debug

theorem makes_firstChanges (h : change ∈ firstChanges document) : change.Makes LeavesLast := by
  rcases List.mem_append.mp h with h | h
  · obtain ⟨v, -, h⟩ := mem_changesUnder.mp h
    simp only [List.mem_cons, List.not_mem_nil, or_false, engineChange_eq, ripgrepPathChange_eq,
      timeoutChange_eq, workersChange_eq] at h
    rcases h with rfl | rfl | rfl | rfl
    all_goals
      refine (makes_settingChange _ _ v).mono ?_
      rintro update (rfl | ⟨value, rfl⟩) <;> exact fun s => ⟨rfl, rfl⟩
  · obtain ⟨v, -, h⟩ := mem_changesUnder.mp h
    unfold languageChanges at h
    split at h
    · obtain ⟨e, -, rfl⟩ := List.mem_map.mp h
      refine (makes_languageChange e.1 e.2).mono ?_
      rintro update ⟨globs, rfl⟩
      exact fun s => ⟨rfl, rfl⟩
    · rw [List.mem_singleton.mp h]
      exact .refused _ fun _ => rfl

/-- Whether a change can be made does not depend on the settings. -/
theorem makes_changes (h : change ∈ changes document) : change.Makes fun _ => True := by
  rcases List.mem_append.mp h with h | h
  · rcases List.mem_append.mp h with h | h
    · exact (makes_firstChanges h).mono fun _ _ => trivial
    · obtain ⟨v, -, h⟩ := mem_changesUnder.mp h
      rw [List.mem_singleton.mp h, skipDirsChange_eq]
      exact (makes_settingChange _ _ v).mono fun _ _ => trivial
  · obtain ⟨v, -, h⟩ := mem_changesUnder.mp h
    rw [List.mem_singleton.mp h]
    exact .made _ trivial fun _ => rfl

end Document

section ApplyAll

variable {s after : Settings} {f : SettingsFault} {cs : List Change}

theorem applyAll_append (s : Settings) (xs ys : List Change) :
    applyAll s (xs ++ ys) =
      match applyAll s xs with
      | (s, none) => applyAll s ys
      | (s, some f) => (s, some f) := by
  induction xs generalizing s with
  | nil => rfl
  | cons change xs ih =>
    rw [List.cons_append, applyAll, applyAll]
    cases change s with
    | error f => rfl
    | ok s => exact ih s

/-- Changes stop at the first that cannot be made, and those before it stay made. -/
theorem applyAll_fault_iff : applyAll s cs = (after, some f) ↔
    ∃ made refused rest, cs = made ++ refused :: rest ∧ applyAll s made = (after, none) ∧
      refused after = .error f := by
  constructor
  · intro h
    induction cs generalizing s with
    | nil => simp [applyAll] at h
    | cons change cs ih =>
      rw [applyAll] at h
      cases hchange : change s with
      | error g =>
        rw [hchange] at h
        obtain ⟨rfl, hfault⟩ := Prod.mk.inj h
        obtain rfl := Option.some.inj hfault
        exact ⟨[], change, cs, rfl, rfl, hchange⟩
      | ok next =>
        rw [hchange] at h
        obtain ⟨made, refused, rest, rfl, hmade, hrefused⟩ := ih h
        exact ⟨change :: made, refused, rest, rfl, by rw [applyAll, hchange]; exact hmade, hrefused⟩
  · rintro ⟨made, refused, rest, rfl, hmade, hrefused⟩
    rw [applyAll_append, hmade]
    simp only [applyAll, hrefused]

/-- Where changes stop does not depend on the settings. -/
theorem applyAll_fault_eq (h : ∀ change ∈ cs, change.Makes fun _ => True) (s t : Settings) :
    (applyAll s cs).2 = (applyAll t cs).2 := by
  induction cs generalizing s t with
  | nil => rfl
  | cons change cs ih =>
    obtain ⟨hchange, h⟩ := List.forall_mem_cons.mp h
    rw [applyAll, applyAll]
    cases hchange with
    | refused f hrefused => rw [hrefused, hrefused]
    | made update _ hmade =>
      rw [hmade, hmade]
      exact ih h (update s) (update t)

theorem applyAll_leaves (h : ∀ change ∈ cs, change.Makes LeavesLast) (s : Settings) :
    (applyAll s cs).1.skipDirs = s.skipDirs ∧ (applyAll s cs).1.debug = s.debug := by
  induction cs generalizing s with
  | nil => exact ⟨rfl, rfl⟩
  | cons change cs ih =>
    obtain ⟨hchange, h⟩ := List.forall_mem_cons.mp h
    rw [applyAll]
    cases hchange with
    | refused f hrefused =>
      rw [hrefused]
      exact ⟨rfl, rfl⟩
    | made update hupdate hmade =>
      rw [hmade]
      obtain ⟨hskipDirs, hdebug⟩ := ih h (update s)
      exact ⟨hskipDirs.trans (hupdate s).1, hdebug.trans (hupdate s).2⟩

end ApplyAll

/-- A document that fails leaves the skipped directories and the log as they are: the change of the
log cannot fail, and that of the directories comes just before it. -/
theorem applyDocument_leaves {s after : Settings} {document : Table} {f : SettingsFault}
    (h : s.applyDocument document = (after, some f)) :
    after.skipDirs = s.skipDirs ∧ after.debug = s.debug := by
  have hmakes : ∀ change ∈ firstChanges document, change.Makes LeavesLast :=
    fun _ => makes_firstChanges
  have hfirst := applyAll_leaves hmakes s
  have hdebug : ∀ t, (applyAll t (changesUnder document "debug" fun v => [debugChange v])).2 =
      none := by
    intro t
    unfold changesUnder
    cases Toml.entry? "debug" document <;> rfl
  have hchanges : changes document = firstChanges document ++
      (changesUnder document "workspace" (fun v => [skipDirsChange v]) ++
        changesUnder document "debug" (fun v => [debugChange v])) := by
    simp only [changes, firstChanges, List.append_assoc]
  rw [applyDocument, hchanges, applyAll_append] at h
  generalize applyAll s (firstChanges document) = first at h hfirst
  obtain ⟨between, fault⟩ := first
  cases fault with
  | some g =>
    obtain ⟨rfl, -⟩ := Prod.mk.inj h
    exact hfirst
  | none =>
    have hafter : after = between := by
      simp only [applyAll_append] at h
      cases hworkspace : Toml.entry? "workspace" document with
      | none =>
        simp only [changesUnder, hworkspace, applyAll] at h
        exact absurd (hdebug between) (by simp [changesUnder, h])
      | some v =>
        simp only [changesUnder, hworkspace, applyAll] at h
        cases hskipDirs : skipDirsChange v between with
        | error g =>
          rw [hskipDirs] at h
          exact (Prod.mk.inj h).1.symm
        | ok t =>
          rw [hskipDirs] at h
          exact absurd (hdebug t) (by simp [changesUnder, h])
    rw [hafter]
    exact hfirst

end DefinitionSite.Settings
