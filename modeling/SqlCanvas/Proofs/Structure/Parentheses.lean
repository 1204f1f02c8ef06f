import SqlCanvas.Proofs.Structure.Atom

/-!
# Redundant parentheses

A disjunction of conjunctions of atoms is read as such, however many pairs of parentheses are put
around the whole, around a conjunction or around an atom.
-/

namespace SqlCanvas

open Text Nesting Pattern

/-- The text in as many pairs of parentheses. -/
def Text.wrapped : Nat → Text → Text
  | 0, t => t
  | depth + 1, t => '(' :: (wrapped depth t ++ [')'])

namespace Text

theorem wrapped_eq_enclosed (depth : Nat) (t : Text) :
    t.wrapped depth = enclosed (List.replicate depth .tight) t := by
  induction depth with
  | zero => rfl
  | succ depth ih =>
    rw [wrapped, ih]
    rfl

theorem closed_wrapped {t : Text} (h : Closed t) (depth : Nat) : Closed (t.wrapped depth) := by
  rw [wrapped_eq_enclosed]
  exact closed_enclosed h _

theorem stripParens_wrapped {t : Text} (h : Closed t) (depth : Nat) :
    (t.wrapped depth).stripParens = t.stripParens := by
  rw [wrapped_eq_enclosed]
  exact stripParens_enclosed h _

theorem exists_part_wrapped {ts : List Token} (h : Part Filter.orWord ts) (depth : Nat) :
    ∃ us, textOf us = (textOf ts).wrapped depth ∧ Part Filter.orWord us := by
  cases depth with
  | zero => exact ⟨ts, rfl, h⟩
  | succ depth =>
    have inside : Closed ((textOf ts).wrapped depth) := closed_wrapped (closed_textOf ts) depth
    refine ⟨[.shelter _ (.parens inside)], by simp [Token.text, wrapped], ?_⟩
    exact .of_misses Filter.shy_orWord Filter.ledBy_orWord (.singleton rfl) (by simp [Token.Misses])

end Text

structure WrappedAtom where
  atom : Text
  isAtom : IsAtom atom
  depth : Nat

namespace WrappedAtom

def text (a : WrappedAtom) : Text :=
  a.atom.wrapped a.depth

theorem exists_part (a : WrappedAtom) : ∃ p : FilterPart, p.text = a.text := by
  obtain ⟨atom, isAtom, depth⟩ := a
  cases depth with
  | zero => exact isAtom.exists_part
  | succ depth =>
    have sheltered : Sheltered (atom.wrapped (depth + 1)) :=
      .parens (closed_wrapped isAtom.closed depth)
    refine ⟨.whole [.shelter _ sheltered] ⟨.singleton rfl, by simp [Token.Misses]⟩, ?_⟩
    simp [FilterPart.text, FilterPart.tokens, Token.text, text]

theorem stripParens_text (a : WrappedAtom) : a.text.stripParens = a.atom := by
  rw [text, stripParens_wrapped a.isAtom.closed, a.isAtom.stripParens]

end WrappedAtom

/-- Atoms with `AND` between them, together in some pairs of parentheses. -/
structure WrappedConjunction where
  atoms : List WrappedAtom
  ne_nil : atoms ≠ []
  depth : Nat

namespace WrappedConjunction

def bare (c : WrappedConjunction) : Text :=
  " AND ".toList.intercalate (c.atoms.map WrappedAtom.text)

def text (c : WrappedConjunction) : Text :=
  c.bare.wrapped c.depth

theorem exists_parts (c : WrappedConjunction) :
    ∃ ps : List FilterPart, ps ≠ [] ∧ ps.map FilterPart.text = c.atoms.map WrappedAtom.text ∧
      Filter.joined .and ps = c.bare := by
  obtain ⟨ps, hps⟩ : ∃ ps : List FilterPart,
      List.Forall₂ (fun (a : WrappedAtom) p => a.text = p.text) c.atoms ps :=
    exists_forall₂ fun a _ => ⟨a.exists_part.choose, a.exists_part.choose_spec.symm⟩
  have texts : ps.map FilterPart.text = c.atoms.map WrappedAtom.text :=
    (map_eq_map_of_forall₂ hps fun _ _ h => h).symm
  refine ⟨ps, ?_, texts, by rw [Filter.joined, texts]; rfl⟩
  rintro rfl
  exact c.ne_nil (List.map_eq_nil_iff.mp texts.symm)

theorem closed_bare (c : WrappedConjunction) : Closed c.bare := by
  obtain ⟨ps, hne, -, hbare⟩ := c.exists_parts
  rw [← hbare]
  exact Filter.closed_joined .and hne

theorem exists_stripped (c : WrappedConjunction) :
    ∃ ps : List FilterPart, ps ≠ [] ∧ c.text.stripParens = Filter.joined .and ps ∧
      (ps.map FilterPart.text).map stripParens = c.atoms.map WrappedAtom.atom := by
  obtain ⟨ps, hne, htexts, hbare⟩ := c.exists_parts
  rw [text, stripParens_wrapped c.closed_bare]
  match ps, hne with
  | [p], _ =>
    -- a single atom loses its own parentheses as well
    obtain ⟨a, ha⟩ : ∃ a, c.atoms = [a] := by
      apply List.length_eq_one_iff.mp
      simpa using (congrArg List.length htexts).symm
    obtain ⟨q, hq⟩ := a.isAtom.exists_part
    have single : c.bare = a.text := by simp [bare, ha]
    refine ⟨[q], List.cons_ne_nil q [], ?_, ?_⟩
    · rw [single, a.stripParens_text, Filter.joined_singleton, hq]
    · simp [ha, hq, a.isAtom.stripParens]
  | p :: q :: ps, hne =>
    refine ⟨p :: q :: ps, hne, ?_, ?_⟩
    · rw [← hbare, Filter.stripParens_joined]
    · rw [htexts, List.map_map]
      exact List.map_congr_left fun a _ => a.stripParens_text

theorem splitOr_stripParens (c : WrappedConjunction) :
    (Filter.splitOr c.text.stripParens).length = 1 := by
  obtain ⟨ps, hne, hstripped, -⟩ := c.exists_stripped
  rw [hstripped, Filter.splitOr_joined_and hne, List.length_singleton]

theorem splitConjuncts_stripParens (c : WrappedConjunction) :
    (Filter.splitConjuncts c.text.stripParens).map stripParens = c.atoms.map WrappedAtom.atom := by
  obtain ⟨ps, hne, hstripped, hatoms⟩ := c.exists_stripped
  rw [hstripped, Filter.splitConjuncts_joined hne, hatoms]

def conditions (scope : Scope) (c : WrappedConjunction) : List FilterCondition :=
  c.atoms.filterMap fun a => (Filter.readCondition scope a.atom).toOption.join

/-- None of the atoms is refused. -/
def Readable (scope : Scope) (c : WrappedConjunction) : Prop :=
  ∀ a ∈ c.atoms, ∃ found, Filter.readCondition scope a.atom = .ok found

theorem readConditions_stripParens {scope : Scope} {c : WrappedConjunction} (h : c.Readable scope) :
    Filter.readConditions scope (Filter.splitConjuncts c.text.stripParens) =
      .ok (c.conditions scope) := by
  have atomic : (c.atoms.map WrappedAtom.atom).filter Filter.isAtomic =
      c.atoms.map WrappedAtom.atom := by
    apply List.filter_eq_self.mpr
    intro t ht
    obtain ⟨a, -, rfl⟩ := List.mem_map.mp ht
    exact a.isAtom.isAtomic
  have found : (c.atoms.map WrappedAtom.atom).mapM (Filter.readCondition scope) =
      .ok (c.atoms.map fun a => (Filter.readCondition scope a.atom).toOption.join) := by
    rw [List.mapM_map]
    refine mapM_of_forall₂ (R := fun x y => x = y ∧ y ∈ c.atoms) ?_ ?_
    · exact List.forall₂_same.mpr fun a ha => ⟨rfl, ha⟩
    · rintro a _ ⟨rfl, ha⟩
      obtain ⟨found, hfound⟩ := h a ha
      simp [hfound, Except.toOption]
  rw [Filter.readConditions, c.splitConjuncts_stripParens, atomic, found, conditions]
  change Except.ok _ = _
  rw [List.filterMap_map]
  rfl

def nodes (scope : Scope) (c : WrappedConjunction) : List FilterNode :=
  if 1 < c.atoms.length then [.group .and ((c.conditions scope).map .condition)]
  else (c.conditions scope).map .condition

theorem readBranch_text {scope : Scope} {c : WrappedConjunction} (h : c.Readable scope) :
    Filter.readBranch scope c.text = .ok (c.nodes scope) := by
  have length : (Filter.splitConjuncts c.text.stripParens).length = c.atoms.length := by
    simpa using congrArg List.length c.splitConjuncts_stripParens
  simp only [Filter.readBranch, readConditions_stripParens h, length, nodes]
  rfl

theorem exists_tokens (c : WrappedConjunction) :
    ∃ ts, textOf ts = c.text ∧ Part Filter.orWord ts := by
  obtain ⟨ps, hne, -, hbare⟩ := c.exists_parts
  obtain ⟨ts, htext, hpart⟩ := exists_part_wrapped (Filter.part_joined_and hne) c.depth
  rw [Filter.textOf_joinedTokens, hbare] at htext
  exact ⟨ts, htext, hpart⟩

end WrappedConjunction

/-- Conjunctions with `OR` between them, together in some pairs of parentheses. -/
structure WrappedDisjunction where
  conjunctions : List WrappedConjunction
  ne_nil : conjunctions ≠ []
  depth : Nat

namespace WrappedDisjunction

def bare (d : WrappedDisjunction) : Text :=
  " OR ".toList.intercalate (d.conjunctions.map WrappedConjunction.text)

def text (d : WrappedDisjunction) : Text :=
  d.bare.wrapped d.depth

def group (scope : Scope) (d : WrappedDisjunction) : FilterGroup :=
  match d.conjunctions with
  | [c] => ⟨.and, (c.conditions scope).map .condition⟩
  | cs => ⟨.or, cs.flatMap (WrappedConjunction.nodes scope)⟩

theorem exists_series (d : WrappedDisjunction) :
    ∃ x : Series (WordGap "OR") (List Token), textOf (x.tokens WordGap.tokens id) = d.bare ∧
      x.items.map textOf = d.conjunctions.map WrappedConjunction.text ∧
      ∀ ts ∈ x.items, Part Filter.orWord ts := by
  obtain ⟨tss, htss⟩ : ∃ tss, List.Forall₂ (fun (c : WrappedConjunction) ts => c.text = textOf ts ∧
      Part Filter.orWord ts) d.conjunctions tss :=
    exists_forall₂ fun c _ => by
      obtain ⟨ts, htext, hpart⟩ := c.exists_tokens
      exact ⟨ts, htext.symm, hpart⟩
  have texts := (map_eq_map_of_forall₂ htss fun _ _ h => h.1).symm
  have ne_nil : tss ≠ [] := by
    rintro rfl
    exact d.ne_nil (List.map_eq_nil_iff.mp texts.symm)
  refine ⟨.ofList (.capital "OR" isKeyword_or) tss ne_nil, ?_, ?_, ?_⟩
  · rw [textOf_ofList, WordGap.textOf_capital, bare, ← texts]
    rfl
  · rw [Series.items_ofList, texts]
  · rw [Series.items_ofList]
    intro ts hts
    obtain ⟨c, -, -, hpart⟩ := exists_of_forall₂_right htss ts hts
    exact hpart

theorem closed_bare (d : WrappedDisjunction) : Closed d.bare := by
  obtain ⟨x, htext, -, -⟩ := d.exists_series
  rw [← htext]
  exact closed_textOf _

theorem splitOr_bare (d : WrappedDisjunction) :
    Filter.splitOr d.bare = d.conjunctions.map WrappedConjunction.text := by
  obtain ⟨x, htext, hitems, hparts⟩ := d.exists_series
  have split : (textOf (x.tokens WordGap.tokens id)).splitTopLevel Filter.orWord =
      x.items.map fun ts => textOf (id ts) :=
    splitTopLevel_series Filter.shy_orWord (fun s _ => s.separates) hparts
  rw [← htext, Filter.splitOr, split, ← hitems]
  rfl

/-- Parentheses around the first of several conjunctions are not around the whole. -/
theorem stripParens_bare (d : WrappedDisjunction) (several : 1 < d.conjunctions.length) :
    d.bare.stripParens = d.bare := by
  obtain ⟨⟨first, rest⟩, htext, hitems, hparts⟩ := d.exists_series
  have solid : Solid (Series.tokens WordGap.tokens id ⟨first, rest⟩) :=
    Series.solid (fun s _ _ _ => s.solid) fun ts hts => (hparts ts hts).solid
  have hfirst : Solid first := (hparts first List.mem_cons_self).solid
  have behind : textOf (rest.flatMap fun next => next.1.tokens ++ next.2) ≠ [] := by
    have length := congrArg List.length hitems
    simp only [Series.items, List.length_map, List.length_cons] at length
    obtain ⟨⟨s, ts⟩, rest, rfl⟩ := List.exists_cons_of_length_pos (l := rest) (by omega)
    have second : textOf ts ≠ [] := (hparts ts (by simp [Series.items])).solid.textOf_ne_nil
    simp [second]
  have unwrapped : (textOf (Series.tokens WordGap.tokens id ⟨first, rest⟩)).isWrapped = false := by
    rw [Series.tokens, textOf_append]
    exact isWrapped_append (closed_textOf first) hfirst.textOf_ne_nil behind
  rw [← htext, stripParens]
  simp only [solid.trim_self, unwrapped]
  rfl

/-- Whatever the parentheses, the conjunctions are the alternatives and the atoms their
conditions. -/
theorem read_wrapped (d : WrappedDisjunction) (scope : Scope)
    (h : ∀ c ∈ d.conjunctions, c.Readable scope) :
    Filter.read scope d.text = .ok (d.group scope) := by
  have strip : d.text.stripParens = d.bare.stripParens := stripParens_wrapped d.closed_bare d.depth
  by_cases several : 1 < d.conjunctions.length
  · have alternatives : (d.conjunctions.map WrappedConjunction.text).mapM
      (Filter.readBranch scope) =
        .ok (d.conjunctions.map (WrappedConjunction.nodes scope)) := by
      rw [List.mapM_map]
      refine mapM_of_forall₂ (R := fun x y => x = y ∧ y ∈ d.conjunctions) ?_ ?_
      · exact List.forall₂_same.mpr fun c hc => ⟨rfl, hc⟩
      · rintro c _ ⟨rfl, hc⟩
        exact WrappedConjunction.readBranch_text (h c hc)
    have group : d.group scope =
        ⟨.or, d.conjunctions.flatMap (WrappedConjunction.nodes scope)⟩ := by
      rw [WrappedDisjunction.group]
      split
      · rename_i single
        simp [single] at several
      · rfl
    simp only [Filter.read, strip, d.stripParens_bare several, d.splitOr_bare, List.length_map,
      several, if_true, alternatives, group]
    rfl
  · obtain ⟨c, hc⟩ : ∃ c, d.conjunctions = [c] := by
      have := List.length_pos_iff.mpr d.ne_nil
      exact List.length_eq_one_iff.mp (by omega)
    have whole : d.bare = c.text := by simp [bare, hc]
    have conditions := WrappedConjunction.readConditions_stripParens (h c (by simp [hc]))
    simp only [Filter.read, strip, whole, c.splitOr_stripParens, lt_irrefl, if_false, conditions,
      group, hc]
    rfl

def quotedAndRange : WrappedConjunction where
  atoms := [⟨"note = 'x OR ('".toList,
      .piece ⟨by decide, by decide, by decide,
        (closed_of_plain (t := "note = ".toList) (by decide)).append
        (@Closed.quoted '\'' "x OR (".toList [] (by decide) (by decide) .nil),
          by decide⟩ (by decide), 0⟩,
    ⟨"total BETWEEN 1 AND 20".toList,
      @IsAtom.range "total".toList "1".toList "20".toList
        ⟨by decide, by decide, by decide, closed_of_plain (by decide), by decide⟩ (by decide)
        ⟨by decide, by decide, by decide, closed_of_plain (by decide), by decide⟩
        ⟨by decide, by decide, by decide, closed_of_plain (by decide), by decide⟩, 2⟩]
  ne_nil := List.cons_ne_nil _ _
  depth := 1

def unrecognised : WrappedConjunction where
  atoms :=
    [⟨"1 +; 2".toList, .piece ⟨by decide, by decide, by decide, closed_of_plain (by decide),
      by decide⟩
    (by decide), 0⟩]
  ne_nil := List.cons_ne_nil _ _
  depth := 0

def wrappedTest : WrappedConjunction where
  atoms :=
    [⟨"kind IS NULL".toList, .piece ⟨by decide, by decide, by decide, closed_of_plain (by decide),
      by decide⟩
    (by decide), 2⟩]
  ne_nil := List.cons_ne_nil _ _
  depth := 1

theorem read_wrapped_sample :
    Filter.read Scope.empty
      "((note = 'x OR (' AND ((total BETWEEN 1 AND 20))) OR 1 +; 2 OR (((kind IS NULL))))".toList =
      .ok ⟨.or, [
        .group .and [
          .condition ⟨none, "note", .compare .eq, .scalar (.string "x OR ("), .null⟩,
          .condition ⟨none, "total", .between, .scalar (.string "1 AND 20"), .null⟩],
        .condition ⟨none, "kind", .isNull, .scalar .null, .null⟩]⟩ := by
  have note : Filter.readCondition .empty "note = 'x OR ('".toList =
      .ok (some ⟨none, "note", .compare .eq, .scalar (.string "x OR ("), .null⟩) :=
    eq_ok_of_toOption (by decide +kernel)
  have total : Filter.readCondition .empty "total BETWEEN 1 AND 20".toList =
      .ok (some ⟨none, "total", .between, .scalar (.string "1 AND 20"), .null⟩) :=
    eq_ok_of_toOption (by decide +kernel)
  have sum : Filter.readCondition .empty "1 +; 2".toList = .ok none :=
    eq_ok_of_toOption (by decide +kernel)
  have kind : Filter.readCondition .empty "kind IS NULL".toList =
      .ok (some ⟨none, "kind", .isNull, .scalar .null, .null⟩) :=
    eq_ok_of_toOption (by decide +kernel)
  have quoted : quotedAndRange.Readable .empty :=
    List.forall_mem_cons.mpr ⟨⟨_, note⟩, List.forall_mem_singleton.mpr ⟨_, total⟩⟩
  have refused : unrecognised.Readable .empty := List.forall_mem_singleton.mpr ⟨_, sum⟩
  have tested : wrappedTest.Readable .empty := List.forall_mem_singleton.mpr ⟨_, kind⟩
  have text :
      WrappedDisjunction.text
        ⟨[quotedAndRange, unrecognised, wrappedTest], List.cons_ne_nil _ _, 1⟩ =
      "((note = 'x OR (' AND ((total BETWEEN 1 AND 20))) OR 1 +; 2 OR (((kind IS NULL))))".toList :=
    by decide +kernel
  have := read_wrapped ⟨[quotedAndRange, unrecognised, wrappedTest], List.cons_ne_nil _ _, 1⟩ .empty
    (List.forall_mem_cons.mpr ⟨quoted,
      List.forall_mem_cons.mpr ⟨refused, List.forall_mem_singleton.mpr tested⟩⟩)
  rw [text] at this
  simp only [group, List.flatMap_cons, List.flatMap_nil, WrappedConjunction.nodes,
    WrappedConjunction.conditions, quotedAndRange, unrecognised, wrappedTest, List.filterMap_cons,
      List.filterMap_nil, note, total, sum, kind] at this
  exact this

end WrappedDisjunction

end SqlCanvas
