import Mathlib.Data.List.Forall2
import DefinitionSite.Proofs.Catalog.Found

/-! What a search finds is a matter of the lines of a text alone. A match ends inside the last line
that it touches, so the search goes on with the line behind that one; the starts of the matches are
therefore the greedy choice among the lines on which a definition starts. -/
namespace DefinitionSite.Catalog
open Regex Declared Cursor

variable {identifier before text : Text} {kind : Kind}

/-- The last line of the match that starts on a line. -/
def ReachesTo (identifier : Text) (lines : List Text) (d r : Nat) : Kind → Prop
  | .constructor => NamedAt identifier lines d r .constructor
  | .signatureNextLine => r = d + 1
  | _ => r = d

/-- The lines on which the matches start that a search finds from a line on. -/
inductive FoundFrom (identifier : Text) (lines : List Text) (kind : Kind) : Nat → List Nat → Prop
  | none {n : Nat} (hnone : ∀ d, n ≤ d → ¬ StartsAt identifier lines d kind) :
      FoundFrom identifier lines kind n []
  | next {n d r : Nat} {ds : List Nat} (hle : n ≤ d) (hd : StartsAt identifier lines d kind)
      (hfirst : ∀ e, n ≤ e → e < d → ¬ StartsAt identifier lines e kind)
      (hreach : ReachesTo identifier lines d r kind)
      (hmore : FoundFrom identifier lines kind (r + 1) ds) :
      FoundFrom identifier lines kind n (d :: ds)

theorem FirstAt.unique {lines : List Text} {j k : Nat} (hj : FirstAt identifier lines j)
    (hk : FirstAt identifier lines k) : j = k := by
  by_contra hne
  rcases Nat.lt_or_gt_of_ne hne with hlt | hlt
  · exact hk.2 j hlt hj.1
  · exact hj.2 k hlt hk.1

theorem NamedAt.unique {lines : List Text} {d i j : Nat} (hi : NamedAt identifier lines d i kind)
    (hj : NamedAt identifier lines d j kind) : i = j := by
  by_cases hkind : kind = .constructor
  · subst hkind
    obtain ⟨hle, hi⟩ := hi
    obtain ⟨hle', hj⟩ := hj
    have hsame := hi.unique hj
    omega
  · rw [namedAt_of_ne hkind] at hi hj
    omega

theorem ReachesTo.unique {lines : List Text} {d r s : Nat}
    (hr : ReachesTo identifier lines d r kind) (hs : ReachesTo identifier lines d s kind) :
    r = s := by
  cases kind with
  | constructor =>
    unfold ReachesTo at hr hs
    exact hr.unique hs
  | _ => exact hr.trans hs.symm

/-- The greedy choice leaves nothing open. -/
theorem FoundFrom.unique {lines : List Text} {n : Nat} {ds es : List Nat}
    (hds : FoundFrom identifier lines kind n ds) (hes : FoundFrom identifier lines kind n es) :
    ds = es := by
  induction hds generalizing es with
  | none hnone =>
    cases hes with
    | none => rfl
    | next hle hd => exact absurd hd (hnone _ hle)
  | @next n d r ds hle hd hfirst hreach _ ih =>
    cases hes with
    | none hnone => exact absurd hd (hnone d hle)
    | @next _ e s es hle' he hfirst' hreach' hmore' =>
      obtain rfl : d = e := by
        by_contra hne
        rcases Nat.lt_or_gt_of_ne hne with hlt | hlt
        · exact hfirst' d hle hlt hd
        · exact hfirst e hle' hlt he
      obtain rfl := hreach.unique hreach'
      rw [ih hmore']

/-- The line with which a search from behind a beginning of the text goes on. -/
def resume (before : Text) : Nat :=
  before.count '\n' + if before.getLast?.all (· == '\n') then 0 else 1

theorem resume_of_startsLine (h : StartsLine before) : resume before = before.count '\n' := by
  have hall : before.getLast?.all (· == '\n') = true := by
    cases hlast : before.getLast? with
    | none => rfl
    | some c => simpa using h c hlast
  simp [resume, hall]

theorem resume_append {word : Text} (hne : word ≠ []) (hlast : word.getLast? ≠ some '\n') :
    resume (before ++ word) = before.count '\n' + word.count '\n' + 1 := by
  obtain ⟨c, hc⟩ := Option.isSome_iff_exists.mp (List.getLast?_isSome.mpr hne)
  have hbreak : c ≠ '\n' := by
    rintro rfl
    exact hlast hc
  unfold resume
  rw [List.getLast?_append_of_ne_nil _ hne, hc, List.count_append]
  simp [hbreak]

theorem count_le_resume (before : Text) : before.count '\n' ≤ resume before := by
  unfold resume
  omega

/-- A line start at or behind the line with which the search goes on is not behind it. -/
theorem exists_append_of_resume_le {start rest : Text} (heq : before ++ text = start ++ rest)
    (hstart : StartsLine start) (hle : resume before ≤ start.count '\n') :
    ∃ u, start = before ++ u ∧ text = u ++ rest := by
  rcases List.append_eq_append_iff.mp heq with ⟨u, rfl, rfl⟩ | ⟨u, rfl, rfl⟩
  · exact ⟨u, rfl, rfl⟩
  · by_cases hu : u = []
    · subst hu
      exact ⟨[], by simp, by simp⟩
    · exfalso
      have hcount : (start ++ u).count '\n' = start.count '\n' + u.count '\n' :=
        List.count_append
      have hbreak : u.count '\n' = 0 := by
        have := count_le_resume (start ++ u)
        omega
      have hmem := List.count_eq_zero.mp hbreak
      have hlast : u.getLast? ≠ some '\n' := fun h => hmem (List.mem_of_getLast? h)
      rw [resume_append hu hlast] at hle
      omega

/-- A search that goes on with a line starts no match before it. -/
theorem resume_le_count {skipped : Text} (hstart : StartsLine (before ++ skipped)) :
    resume before ≤ (before ++ skipped).count '\n' := by
  by_cases hbefore : StartsLine before
  · rw [resume_of_startsLine hbefore, List.count_append]
    omega
  · have hmem : '\n' ∈ skipped := by
      by_contra hno
      by_cases hskipped : skipped = []
      · subst hskipped
        exact hbefore (by simpa using hstart)
      · exact Text.not_startsLine_append hskipped hno hstart
    have hpos := List.count_pos_iff.mpr hmem
    rw [List.count_append]
    unfold resume
    split <;> omega

/-- The match that starts on a line ends on the last line of its definition. -/
theorem reachesTo_of_matchEnd? (hid : Proper identifier) {word after : Text}
    (hstart : StartsLine before) (hw : Spells (regex identifier kind) before word after)
    (hend : (regex identifier kind).matchEnd? false (between before (word ++ after)) =
      some (between (before ++ word) after)) :
    ReachesTo identifier (Text.physicalLines (before ++ (word ++ after))) (before.count '\n')
      (before.count '\n' + word.count '\n') kind := by
  have hopens : Opens (regex identifier kind) before (word ++ after) := ⟨word, after, rfl, hw⟩
  by_cases hone : kind.isSingleLine = true
  · have hbreak := not_mem_of_avoids (avoids_regex hid.one_line hone) hw
    rw [List.count_eq_zero.mpr hbreak]
    cases kind <;> simp_all [ReachesTo, Kind.isSingleLine]
  · cases kind with
    | constructor =>
      have hfirst := endsAtFirst_constructor hid hstart (opensData_of_opens hopens)
      rw [hend] at hfirst
      obtain ⟨word', after', heq, hcursor, hfirst⟩ := hfirst
      obtain ⟨-, -, rfl⟩ : _ ∧ _ ∧ after = after' := Cursor.mk.inj hcursor
      obtain rfl := List.append_cancel_right heq
      refine ⟨Nat.le_add_right _ _, ?_⟩
      rw [Text.drop_physicalLines hstart, Nat.add_sub_cancel_left]
      exact hfirst
    | signatureNextLine =>
      obtain ⟨front, gap, rfl, hfront, hgap⟩ := exists_of_spells_nextLine hid.one_line hw
      have hcount : (front ++ '\n' :: (gap ++ Text.of "::")).count '\n' = 1 := by
        simp [List.count_eq_zero.mpr hfront, List.count_eq_zero.mpr (gaps_not_mem hgap)]
      rw [hcount]
      rfl
    | _ => simp [Kind.isSingleLine] at hone

/-- From every place the search finds the greedy choice among the lines that are still to come. -/
theorem foundFrom_matchesFrom (hid : Proper identifier) (kind : Kind) (before text : Text) :
    FoundFrom identifier (Text.physicalLines (before ++ text)) kind (resume before)
      (((regex identifier kind).matchesFrom false (between before text)).map fun p =>
        ((before ++ text).take ((before ++ text).length - p.1.left)).count '\n') := by
  have hr := consumes_regex hid.ne_nil kind
  -- Every match consumes some of the text ahead.
  induction hn : text.length using Nat.strongRecOn generalizing before text with
  | ind n ih =>
    cases hs : (regex identifier kind).searchFrom false before.getLast? text.length text with
    | none =>
      rw [matchesFrom_of_none hs, List.map_nil]
      apply FoundFrom.none
      intro d hle hd
      obtain ⟨start, rest, heq, hstart, rfl, hopens⟩ := exists_opens hid hd
      obtain ⟨u, rfl, rfl⟩ := exists_append_of_resume_le heq hstart hle
      exact searchFrom_eq_none hs u rest rfl hopens
    | some p =>
      obtain ⟨c, e⟩ := p
      rw [matchesFrom_of_some hr hs, List.map_cons]
      obtain ⟨skipped, rest, rfl, rfl, hend, hfirst⟩ := searchFrom_eq_some hs
      obtain ⟨word, after, rfl, hw, rfl⟩ := matchEnd?_eq_some hend
      have hopens : Opens (regex identifier kind) (before ++ skipped) (word ++ after) :=
        ⟨word, after, rfl, hw⟩
      have hstart := startsLine_of_opens hopens
      obtain ⟨hne, hlast⟩ := getLast?_of_spells hid.ne_nil hid.one_line hw
      have hwhole : before ++ (skipped ++ (word ++ after)) =
          before ++ skipped ++ (word ++ after) := by simp
      have hplace : ((before ++ (skipped ++ (word ++ after))).take
          ((before ++ (skipped ++ (word ++ after))).length -
            (between (before ++ skipped) (word ++ after)).left)).count '\n' =
          (before ++ skipped).count '\n' := by
        rw [hwhole, between_left, List.length_append, Nat.add_sub_cancel, List.take_left]
      rw [hplace]
      refine FoundFrom.next (resume_le_count hstart) ?_ ?_
        (r := (before ++ skipped).count '\n' + word.count '\n') ?_ ?_
      · rw [hwhole]
        exact (opens_iff_startsAt hid hstart).mp hopens
      · intro d hle hlt hd
        obtain ⟨start, rest, heq, hstart', rfl, hopens'⟩ := exists_opens hid hd
        obtain ⟨u, rfl, hrest⟩ := exists_append_of_resume_le heq hstart' hle
        -- The line starts before the match, so the search has passed it.
        rcases List.append_eq_append_iff.mp hrest with ⟨v, rfl, -⟩ | ⟨v, rfl, rfl⟩
        · rw [← List.append_assoc, List.count_append] at hlt
          omega
        · refine hfirst u v rfl ?_ hopens'
          rintro rfl
          simp at hlt
      · rw [hwhole]
        exact reachesTo_of_matchEnd? hid hstart hw hend
      · have hlt : after.length < n := by
          have hpos := List.length_pos_iff.mpr hne
          simp only [← hn, List.length_append]
          omega
        have hrest := ih after.length hlt (before ++ skipped ++ word) after rfl
        rw [resume_append hne hlast, List.append_assoc] at hrest
        rw [hwhole]
        exact hrest

/-- The matches of a kind start on the greedy choice of lines. -/
theorem foundFrom_startLines (hid : Proper identifier) (kind : Kind) (text : Text) :
    FoundFrom identifier (Text.physicalLines text) kind 0 (startLines identifier kind text) := by
  have hall := foundFrom_matchesFrom hid kind [] text
  rw [startLines, findAll, start_eq_between, List.map_map]
  exact hall

/-- Two lists whose elements have the same keys in the same order are related one by one, if
elements with the same key are. -/
theorem forall₂_of_keys {α β κ : Type} {R : α → β → Prop} {key : α → κ} {key' : β → κ}
    {xs : List α} {ys : List β} (hkeys : xs.map key = ys.map key')
    (h : ∀ x ∈ xs, ∀ y ∈ ys, key x = key' y → R x y) : List.Forall₂ R xs ys := by
  induction xs generalizing ys with
  | nil =>
    cases ys with
    | nil => exact List.Forall₂.nil
    | cons y ys => simp at hkeys
  | cons x xs ih =>
    cases ys with
    | nil => simp at hkeys
    | cons y ys =>
      obtain ⟨hkey, hkeys⟩ := List.cons_eq_cons.mp hkeys
      refine List.Forall₂.cons (h x (by simp) y (by simp) hkey) (ih hkeys ?_)
      exact fun x hx y hy => h x (by simp [hx]) y (by simp [hy])

/-- Texts with the same lines have the same matches. -/
theorem found_eq_of_lines (hid : Proper identifier) (kind : Kind) (path : Option FileLabel)
    {text other : Text} (h : Text.physicalLines text = Text.physicalLines other) :
    found identifier kind text path = found identifier kind other path := by
  have hstarts : startLines identifier kind text = startLines identifier kind other := by
    have htext := foundFrom_startLines hid kind text
    rw [h] at htext
    exact htext.unique (foundFrom_startLines hid kind other)
  rw [found, found, ← List.forall₂_eq_eq_eq, List.forall₂_map_left_iff,
    List.forall₂_map_right_iff]
  apply forall₂_of_keys hstarts
  intro span hspan span' hspan' hkey
  obtain ⟨-, i, line, hnamed, hget, hmatch⟩ := named_of_mem hid path hspan
  obtain ⟨-, j, line', hnamed', hget', hmatch'⟩ := named_of_mem hid path hspan'
  rw [h] at hnamed hget
  rw [hkey] at hnamed
  obtain rfl := hnamed.unique hnamed'
  rw [hget] at hget'
  rw [hmatch, hmatch', Option.some.inj hget']

end DefinitionSite.Catalog
