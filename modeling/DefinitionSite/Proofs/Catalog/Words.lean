import DefinitionSite.Proofs.Catalog.OneLine
import DefinitionSite.Proofs.Regex.Matches

/-! Properties of all words that the expressions of the catalog spell: they start a line, they are
not empty, they do not end with a line feed, and those of a kind that stands on one line stay on
it. So a search for a kind on one line never loses a definition to another one. -/
namespace DefinitionSite.Catalog
open Regex Declared

variable {identifier : Text} {kind : Kind}

theorem avoids_literal {text : Text} {c : Char} (h : c ∉ text) :
    (text.map Regex.char).all (·.avoids c) = true := by
  simp only [List.all_map, List.all_eq_true, Function.comp_apply, avoids, bne_iff_ne]
  rintro d hd rfl
  exact h hd

theorem avoids_regex (hid : '\n' ∉ identifier) (hkind : kind.isSingleLine = true) :
    (regex identifier kind).avoids '\n' = true := by
  have hname := avoids_literal hid
  have hkey := fun k hk => avoids_literal (keyword_not_mem k hk)
  have hgaps : gaps.avoids '\n' = true := by decide
  have hsome : someGaps.avoids '\n' = true := by decide
  have hboundary : boundary.avoids '\n' = true := by decide
  rw [regex, avoids_seqAll]
  cases kind with
  | signatureSameLine => simp [items, hname, hgaps, avoids]
  | assignment =>
    have hset : (⟨true, [.char '=', .char '\n']⟩ : CharSet).has '\n' = false := by decide
    simp [items, hname, hgaps, avoids, seqAll, hset]
  | dataDecl => simp [items, declaration, hname, hsome, hboundary, avoids, hkey "data"]
  | typeDecl => simp [items, declaration, hname, hsome, hboundary, avoids, hkey "type"]
  | newtypeDecl => simp [items, declaration, hname, hsome, hboundary, avoids, hkey "newtype"]
  | classDecl =>
    have hcontext : (Regex.times true 0 (some 1) (seqAll
        [.star true (.set ⟨true, [.char '\n', .char '=']⟩), .char '=', .char '>', gaps])).avoids
        '\n' = true := by decide
    simp [items, hname, hsome, hboundary, avoids, hcontext, hkey "class"]
  | typeFamily =>
    simp [items, family, hname, hsome, hboundary, avoids, hkey "type", hkey "family"]
  | dataFamily =>
    simp [items, family, hname, hsome, hboundary, avoids, hkey "data", hkey "family"]
  | patternSynonym => simp [items, hname, hgaps, hsome, avoids, hkey "pattern"]
  | signatureNextLine => simp [Kind.isSingleLine] at hkind
  | constructor => simp [Kind.isSingleLine] at hkind

/-- Every expression of the catalog starts with a line start. -/
theorem items_head (identifier : Text) (kind : Kind) :
    ∃ rs, items identifier kind = .lineStart :: rs := by
  cases kind <;> exact ⟨_, rfl⟩

theorem startsLine_of_opens {before text : Text}
    (h : Opens (regex identifier kind) before text) : StartsLine before := by
  obtain ⟨rs, hrs⟩ := items_head identifier kind
  rw [regex, hrs, opens_lineStart_cons] at h
  exact h.1

/-- Every expression of the catalog ends with items that consume something and avoid the line
feed. -/
theorem items_end (hne : identifier ≠ []) (hid : '\n' ∉ identifier) (kind : Kind) :
    ∃ zs, zs <:+ items identifier kind ∧ (seqAll zs).avoids '\n' = true ∧
      (seqAll zs).moves = true := by
  have hend : (seqAll (identifier.map Regex.char ++ [boundary])).avoids '\n' = true ∧
      (seqAll (identifier.map Regex.char ++ [boundary])).moves = true := by
    obtain ⟨c, rest, rfl⟩ := List.exists_cons_of_ne_nil hne
    have hboundary : boundary.avoids '\n' = true := by decide
    rw [avoids_seqAll, moves_seqAll, List.all_append, avoids_literal hid]
    simp [hboundary, moves]
  cases kind with
  | signatureSameLine | signatureNextLine | patternSynonym =>
    exact ⟨[.char ':', .char ':'], ⟨_, List.append_assoc _ [gaps] _⟩, by decide, by decide⟩
  | assignment =>
    exact ⟨[.char '=', .alt (seqAll [.set ⟨true, [.char '=', .char '\n']⟩]) (seqAll [.lineEnd])],
      ⟨_, List.append_assoc _ [gaps] _⟩, by decide, by decide⟩
  | dataDecl | typeDecl | newtypeDecl | classDecl | constructor | typeFamily | dataFamily =>
    exact ⟨_, ⟨_, (List.append_assoc _ _ _).symm⟩, hend⟩

/-- A word of the catalog is not empty and does not end with a line feed. -/
theorem getLast?_of_spells (hne : identifier ≠ []) (hid : '\n' ∉ identifier)
    {before word after : Text} (h : Spells (regex identifier kind) before word after) :
    word ≠ [] ∧ word.getLast? ≠ some '\n' := by
  obtain ⟨zs, ⟨rs, hrs⟩, havoids, hmoves⟩ := items_end hne hid kind
  rw [regex, ← hrs, spells_seqAll_append] at h
  obtain ⟨u, v, rfl, -, hv⟩ := h
  have hv0 := consumes_of_moves hmoves _ v after hv
  refine ⟨by simp [hv0], ?_⟩
  rw [List.getLast?_append_of_ne_nil _ hv0]
  intro hlast
  exact not_mem_of_avoids havoids hv (List.mem_of_getLast? hlast)

theorem consumes_regex (hne : identifier ≠ []) (kind : Kind) :
    (regex identifier kind).Consumes := by
  apply consumes_of_moves
  obtain ⟨c, rest, rfl⟩ := List.exists_cons_of_ne_nil hne
  rw [regex, moves_seqAll]
  cases kind <;> simp [items, declaration, family, moves]

/-- Words that stay on their line never overlap, as each starts a line. -/
theorem neverOverlaps_regex (hid : '\n' ∉ identifier) (hkind : kind.isSingleLine = true) :
    (regex identifier kind).NeverOverlaps := by
  intro before u v after hu _ hw hopens
  have hbreak := not_mem_of_avoids (avoids_regex hid hkind) hw
  exact Text.not_startsLine_append hu (fun hmem => hbreak (by simp [hmem]))
    (startsLine_of_opens hopens)

end DefinitionSite.Catalog
