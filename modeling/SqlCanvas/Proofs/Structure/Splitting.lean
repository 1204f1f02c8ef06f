import SqlCanvas.Proofs.Nesting.Balance
import SqlCanvas.Proofs.Regeneration.Part
import SqlCanvas.Proofs.Statement.SetOperation
import SqlCanvas.Proofs.Structure.Atom

/-!
# Splitting and joining

A text is split at its commas, or at one of the connectives, outside quotes and parentheses. What it
is split into is not split any further, and pieces that are put together with a separator between
them are found again. Set operations split a statement in the same way.
-/

namespace SqlCanvas

open Text Nesting Pattern

/-- The keyword is the end of the text, with a blank in front of it. -/
def Text.EndsIn (k : String) (t : Text) : Prop :=
  ∃ i < t.length, (t[i]?).any isBlank = true ∧ Spells k.toList (t.drop (i + 1))

instance (k : String) (t : Text) : Decidable (EndsIn k t) :=
  inferInstanceAs (Decidable (∃ i < t.length, _ ∧ _))

theorem Text.endsIn_append {k : String} {g w : Text} (l : Text) (hg : IsGap g)
    (hw : Spells k.toList w) : EndsIn k (l ++ (g ++ w)) := by
  obtain ⟨g, c, rfl⟩ := (List.eq_nil_or_concat' g).resolve_left hg.1
  have place : l ++ (g ++ [c] ++ w) = l ++ g ++ c :: w := by simp
  refine ⟨(l ++ g).length, ?_, ?_, ?_⟩
  · simp
  · rw [place]
    simpa using hg.2 c (by simp)
  · rw [place, ← List.drop_drop, List.drop_left]
    exact hw

inductive Separator where
  | comma
  | connective (operator : Connective)

namespace Separator

def pattern : Separator → Pattern
  | comma => Text.comma
  | connective .or => Filter.orWord
  | connective .and => Filter.andWord

def text : Separator → Text
  | comma => ", ".toList
  | connective operator => (" " ++ Vocabulary.spelling operator ++ " ").toList

/-- The text ends in the word of the separator, behind a blank. With the separator behind it, such a
text is cut in front of its own word. At the start of a text the word does no harm: the blank in
front of it is taken already. -/
def Trails : Separator → Text → Prop
  | comma, _ => False
  | connective operator, t => EndsIn (Vocabulary.spelling operator) t

instance (k : Separator) (t : Text) : Decidable (k.Trails t) :=
  match k with
  | comma => inferInstanceAs (Decidable False)
  | connective _ => inferInstanceAs (Decidable (EndsIn _ t))

theorem pattern_connective (operator : Connective) :
    (connective operator).pattern = all [blank, word (Vocabulary.spelling operator), blank] := by
  cases operator <;> rfl

theorem covers_connective {operator : Connective} {u : Text}
    (h : (connective operator).pattern.Covers u) :
    ∃ g w g', u = g ++ (w ++ g') ∧ IsGap g ∧ Spells (Vocabulary.spelling operator).toList w ∧
    IsGap g' := by
  rw [pattern_connective] at h
  obtain ⟨g, _, hg, ⟨w, _, hw, ⟨g', _, hg', rfl, rfl⟩, rfl⟩, rfl⟩ := h
  rw [List.append_nil]
  exact ⟨g, w, g', rfl, covers_many1.mp hg, covers_word.mp hw, covers_many1.mp hg'⟩

theorem isSearchable (k : Separator) : k.pattern.IsSearchable where
  shy := by rcases k with _ | _ | _ <;> decide
  floats := by rcases k with _ | _ | _ <;> decide
  ne_nil u hu := by
    cases k with
    | comma =>
      obtain ⟨c, -, rfl⟩ := hu
      exact List.cons_ne_nil c []
    | connective operator =>
      obtain ⟨g, w, g', rfl, hg, -, -⟩ := covers_connective hu
      simp [hg.1]

theorem isBlind (k : Separator) : k.pattern.isBlind = true := by
  rcases k with _ | _ | _ <;> decide

theorem isKeyword_spelling (operator : Connective) :
    IsKeyword (Vocabulary.spelling operator).toList := by
  cases operator <;> decide

def tokens : Separator → List Token
  | comma => CommaGap.standard.tokens
  | connective operator => (Filter.connectiveGap operator).tokens

theorem textOf_tokens (k : Separator) : textOf k.tokens = k.text := by
  cases k with
  | comma => exact CommaGap.textOf_standard
  | connective operator =>
    rw [tokens, Filter.connectiveGap, WordGap.textOf_capital]
    rfl

theorem separates (k : Separator) : Separates k.pattern (textOf k.tokens) := by
  cases k with
  | comma => exact CommaGap.separates _
  | connective operator =>
    rw [pattern_connective]
    exact WordGap.separates _

/-- A piece that a separator can be put behind: nothing in it is open, it is not split, and it does
not run into the separator. -/
structure Fits (k : Separator) (s : Text) : Prop where
  ne_nil : s ≠ []
  trimmed : s.trim = s
  closed : Closed s
  single : s.splitTopLevel k.pattern = [s]
  clear : ¬ k.Trails s

theorem fits_iff {k : Separator} {s : Text} : k.Fits s ↔
    s ≠ [] ∧ s.trim = s ∧ Closed s ∧ s.splitTopLevel k.pattern = [s] ∧ ¬ k.Trails s :=
  ⟨fun h => ⟨h.ne_nil, h.trimmed, h.closed, h.single, h.clear⟩,
    fun ⟨h₁, h₂, h₃, h₄, h₅⟩ => ⟨h₁, h₂, h₃, h₄, h₅⟩⟩

instance (k : Separator) (s : Text) : Decidable (k.Fits s) :=
  decidable_of_iff _ fits_iff.symm

variable {k : Separator}

/-- What the separator covers does not start in a piece and end behind it. -/
theorem not_covers_over {l y z v : Text} (hlast : ∀ c ∈ (l ++ y).getLast?, isBlank c = false)
    (hclear : ¬ k.Trails (l ++ y)) (hy : y ≠ []) (hz : z ≠ []) (hword : Halts isWord (z ++ v)) :
    ¬ k.pattern.Covers (y ++ z) := by
  intro h
  cases k with
  | comma =>
    obtain ⟨c, -, hc⟩ := h
    have length := congrArg List.length hc
    have := List.length_pos_of_ne_nil hy
    have := List.length_pos_of_ne_nil hz
    simp only [List.length_append, List.length_singleton] at length
    omega
  | connective operator =>
    obtain ⟨g, w, g', hyz, hg, hw, hg'⟩ := covers_connective h
    have not_blank {u x : Text} (hx : x ≠ []) (hyx : y = u ++ x) : ¬ ∀ c ∈ x, isBlank c = true := by
      intro blank
      have last := List.getLast?_eq_some_getLast hx
      have :=
        hlast _ (by rw [hyx, ← List.append_assoc, List.getLast?_append_of_ne_nil _ hx]; exact last)
      rw [blank _ (List.getLast_mem hx)] at this
      cases this
    have not_word : y ≠ g ++ w := by
      rintro rfl
      exact hclear (endsIn_append l hg hw)
    -- The piece ends in the blanks in front of the word, in those behind it, or in the word.
    rcases List.append_eq_append_iff.mp hyz with ⟨x, rfl, -⟩ | ⟨x, rfl, hx⟩
    · exact not_blank hy (List.nil_append y).symm fun c hc => hg.2 c (List.mem_append_left x hc)
    · rcases List.append_eq_append_iff.mp hx with ⟨u, rfl, rfl⟩ | ⟨u, rfl, rfl⟩
      · cases u with
        | nil => exact not_word (by rw [List.append_nil])
        | cons c u =>
          refine not_blank (List.cons_ne_nil c u) (List.append_assoc g w (c :: u)).symm fun d hd =>
            ?_
          exact hg'.2 d (List.mem_append_left z hd)
      · cases u with
        | nil => exact not_word (by rw [List.append_nil])
        | cons c u =>
          have inside := hw.isWord (isKeyword_spelling operator).2 c (by simp)
          rw [List.cons_append, List.cons_append, halts_cons, inside] at hword
          cases hword

theorem Fits.exists_part {s : Text} (h : k.Fits s) : ∃ ts, s = textOf ts ∧ Part k.pattern ts := by
  have head := halts_trim s
  have last := last_trim s
  rw [h.trimmed] at head last
  obtain ⟨ts, htext, hts⟩ := h.closed.exists_solid h.ne_nil head last
  refine ⟨ts, htext.symm, hts, fun b r hr => ?_⟩
  rw [htext]
  have nothing := not_hasTop_of_splitTopLevel k.isSearchable k.isBlind h.single
  refine skips_of_vacant k.isSearchable.shy (vacant_of_not_hasTop k.isBlind nothing ?_)
    (h.closed.after 0)
  rintro l y z v rfl hy rfl hz
  exact not_covers_over last h.clear hy hz hr

theorem splitTopLevel_intercalate {pieces : List Text} (h : ∀ s ∈ pieces, k.Fits s) :
    splitTopLevel k.pattern (k.text.intercalate pieces) = pieces := by
  obtain ⟨tss, htss⟩ : ∃ tss, List.Forall₂ (fun s ts => s = textOf ts ∧
      Part k.pattern ts) pieces tss :=
    exists_forall₂ fun s hs => (h s hs).exists_part
  have texts : tss.map textOf = pieces := by
    have := map_eq_map_of_forall₂ (f := id) htss fun _ _ hts => hts.1
    rw [← this, List.map_id]
  cases pieces with
  | nil => rfl
  | cons s pieces =>
    have ne_nil : tss ≠ [] := by
      rintro rfl
      cases texts
    have whole : textOf ((Series.ofList () tss ne_nil).tokens (fun _ => k.tokens) id) =
        k.text.intercalate (s :: pieces) := by
      rw [textOf_ofList, textOf_tokens, ← texts]
      rfl
    have parts : ∀ ts ∈ (Series.ofList () tss ne_nil).items, Part k.pattern (id ts) := by
      rw [Series.items_ofList]
      intro ts hts
      obtain ⟨-, -, -, part⟩ := exists_of_forall₂_right htss ts hts
      exact part
    rw [← whole, splitTopLevel_series k.isSearchable.shy (fun _ _ => k.separates) parts,
      Series.items_ofList]
    exact texts

example :
    ¬ (connective .or).Fits "a OR".toList ∧
    splitTopLevel (connective .or).pattern "a OR OR b".toList = ["a".toList, "OR b".toList] := by
  decide +kernel

end Separator

/-- What a text is split into at commas or at a connective is trimmed and is not split again, and
pieces that fit are found again when they are put together. The operands of the set operations of a
text have none at their top level, and with the keywords between them they make up the text. -/
theorem splitting_composes :
    (∀ (k : Separator) (t : Text), ∀ s ∈ t.splitTopLevel k.pattern,
      s ≠ [] ∧ s.trim = s ∧ s.splitTopLevel k.pattern = [s]) ∧
    (∀ (k : Separator) (pieces : List Text), (∀ s ∈ pieces, k.Fits s) →
      splitTopLevel k.pattern (k.text.intercalate pieces) = pieces) ∧
    ∀ t, (∀ s, s = (splitSetOperations t).1 ∨ s ∈ (splitSetOperations t).2.map (·.2) →
        s.topLevelOccurrences setOperation = []) ∧
      (∀ branch ∈ (splitSetOperations t).2, setOperation.Covers branch.1) ∧
      (splitSetOperations t).1 ++ (splitSetOperations t).2.flatMap
      (fun branch => branch.1 ++ branch.2) = t :=
  ⟨fun k _ _ hs => splitTopLevel_of_mem k.isSearchable k.isBlind hs,
    fun _ _ h => Separator.splitTopLevel_intercalate h,
    fun t => ⟨fun _ hs => topLevelOccurrences_operand hs,
      fun _ hb => covers_of_mem_splitSetOperations hb, splitSetOperations_flatten t⟩⟩

/-- Separators in quotes and in parentheses, a piece that starts with the word, and an operand in
parentheses. -/
theorem splitting_composes_sheltered :
    splitTopLevel Separator.comma.pattern "f(b, ',')".toList = ["f(b, ',')".toList] ∧
    splitTopLevel (Separator.connective .or).pattern "a = 'x OR y' OR (b OR c) OR OR d".toList =
      ["a = 'x OR y'".toList, "(b OR c)".toList, "OR d".toList] ∧
    topLevelOccurrences setOperation " (SELECT 2 UNION SELECT 3)".toList = [] := by
  have single :=
    (splitting_composes.1 .comma "a , f(b, ','),".toList "f(b, ',')".toList (by decide +kernel)).2.2
  have found :=
    splitting_composes.2.1 (.connective .or) ["a = 'x OR y'".toList, "(b OR c)".toList,
      "OR d".toList]
    (by decide +kernel)
  have operand := (splitting_composes.2.2 "SELECT 1 union all (SELECT 2 UNION SELECT 3)".toList).1
    " (SELECT 2 UNION SELECT 3)".toList (by decide +kernel)
  exact ⟨single, found, operand⟩

end SqlCanvas
