import SqlCanvas.Proofs.Grammar.Word
import SqlCanvas.Proofs.Nesting.Partner
import SqlCanvas.Proofs.Statement.Lead

/-!
# Written filters

A written filter is a conjunction, or alternatives of conjunctions, each alternative with or without
parentheses around it. `WrittenFilter.read_eq` says what reading it gives in terms of what reading
its conjuncts gives. Conjunctions also make up the conditions of joins.
-/

namespace SqlCanvas

open Text Nesting Pattern

theorem isKeyword_and : IsKeyword "AND".toList := by
  decide

theorem isKeyword_or : IsKeyword "OR".toList := by
  decide

/-- A keyword with a gap on either side of it. -/
structure WordGap (k : String) where
  before : Gap
  word : Spelling k
  after : Gap

namespace WordGap

variable {k : String}

def tokens (s : WordGap k) : List Token :=
  [s.before.token, s.word.token, s.after.token]

def capital (k : String) (h : IsKeyword k.toList) : WordGap k :=
  ⟨.space, .capital k h, .space⟩

theorem separates (s : WordGap k) :
    Separates (all [blank, Pattern.word k, blank]) (textOf s.tokens) := by
  refine ⟨[], textOf s.tokens, [], by simp, ?_, s.before.isGap.halts_isWord _, by simp, by simp,
    fun _ _ => skips_nil, fun _ _ => skips_nil, fun b r hr => ?_⟩
  · simp [tokens, s.before.isGap.1]
  · have last :=
      (takes_blank s.after.isGap hr (b := lastChar (lastChar b s.before.text) s.word.text)).seq
        takes_skip
    have := Takes.seq (takes_blank (b := b) s.before.isGap
      (by simpa using s.word.isName.halts_isBlank (s.after.text ++ r)))
        ((takes_word s.word.spells).seq last)
    simpa [tokens, all] using this

theorem solid (s : WordGap k) {ts us : List Token} (hts : Solid ts) (hus : Solid us) :
    Solid (ts ++ (s.tokens ++ us)) :=
  hts.spaced (s.word.solid.spaced hus s.after) s.before

theorem avoids (s : WordGap k) {keywords : List String}
    (h : ∀ k' ∈ keywords, IsKeyword k'.toList ∧ k' ≠ k) : ∀ a ∈ s.tokens, a.Avoids keywords := by
  intro a ha
  simp only [tokens, List.mem_cons, List.not_mem_nil, or_false] at ha
  rcases ha with rfl | rfl | rfl
  · trivial
  · exact s.word.avoids h
  · trivial

end WordGap

theorem Filter.shy_orWord : Filter.orWord.shy = true := by
  decide

theorem Filter.shy_andWord : Filter.andWord.shy = true := by
  decide

theorem Filter.shy_betweenWord : Filter.betweenWord.shy = true := by
  decide

theorem Part.of_misses {keywords : List String} {p : Pattern} (hshy : p.shy = true)
    (hp : LedBy keywords p) {ts : List Token} (hts : Solid ts)
    (hmiss : ∀ a ∈ ts, a.Misses keywords) :
    Part p ts :=
  ⟨hts, fun _ _ hr => skips_of_misses hshy hp hts.chain hts.last hmiss hr⟩

theorem Part.of_ledBy {keywords : List String} {p : Pattern} (hshy : p.shy = true)
    (hp : LedBy keywords p) {ts : List Token} (hts : Solid ts)
    (havoid : ∀ a ∈ ts, a.Avoids keywords) :
    Part p ts :=
  .of_misses hshy hp hts fun a ha => (havoid a ha).misses

/-- A part of a conjunction: it has no keyword that takes statements apart and no parenthesis in
front. -/
structure Conjunct where
  tokens : List Token
  solid : Solid tokens
  avoids : ∀ a ∈ tokens, a.Avoids reserved
  unwrapped : (textOf tokens).head? ≠ some '('

namespace Conjunct

def text (c : Conjunct) : Text :=
  textOf c.tokens

theorem stripParens_text (c : Conjunct) : c.text.stripParens = c.text :=
  c.solid.stripParens c.unwrapped

theorem part (c : Conjunct) {keywords : List String} {p : Pattern} (hshy : p.shy = true)
    (hp : LedBy keywords p) (hsub : keywords ⊆ reserved) : Part p c.tokens :=
  .of_ledBy hshy hp c.solid fun a ha => (c.avoids a ha).mono hsub

theorem not_isRangeStart (c : Conjunct) : Filter.isRangeStart c.text = false := by
  have skips :=
    (c.part Filter.shy_betweenWord Filter.startsWith_betweenWord.ledBy (by decide)).skips
      none [] (halts_nil _)
  rw [Filter.isRangeStart, text, findTopLevel?_of_skips skips]
  rfl

theorem isAtomic_text (c : Conjunct) : Filter.isAtomic c.text = true := by
  have hor := splitTopLevel_part Filter.shy_orWord
    (c.part Filter.shy_orWord Filter.ledBy_orWord (by decide))
  have hand := splitTopLevel_part Filter.shy_andWord
    (c.part Filter.shy_andWord Filter.ledBy_andWord (by decide))
  rw [Filter.isAtomic, Filter.splitOr, Filter.splitConjuncts, Filter.splitAnd, text, hor, hand]
  rfl

end Conjunct

theorem Filter.joinRanges_of_forall {pieces : List Text}
    (h : ∀ piece ∈ pieces, isRangeStart piece = false) : joinRanges pieces = pieces := by
  induction pieces with
  | nil => rfl
  | cons piece pieces ih =>
    obtain ⟨hpiece, h⟩ := List.forall_mem_cons.mp h
    cases pieces with
    | nil => rfl
    | cons next pieces =>
      rw [joinRanges, if_neg (by simp [hpiece]), ih h]

abbrev Conjunction := Series (WordGap "AND") Conjunct

namespace Conjunction

def tokens (c : Conjunction) : List Token :=
  Series.tokens WordGap.tokens Conjunct.tokens c

def text (c : Conjunction) : Text :=
  textOf c.tokens

theorem solid (c : Conjunction) : Solid c.tokens :=
  Series.solid (fun s _ _ _ => s.solid) fun a _ => a.solid

theorem avoids (c : Conjunction) : ∀ a ∈ c.tokens, a.Avoids (reserved.filter (· ≠ "AND")) := by
  intro a ha
  rcases Series.mem_tokens ha with ⟨s, -, ha⟩ | ⟨i, -, ha⟩
  · exact s.avoids (by decide) a ha
  · exact (i.avoids a ha).mono (List.filter_subset_self _)

theorem head (c : Conjunction) : c.text.head? ≠ some '(' := by
  have : c.text = c.first.text ++
      textOf (c.rest.flatMap fun next => next.1.tokens ++ next.2.tokens) :=
    textOf_append _ _
  have first : c.first.text ≠ [] := c.first.solid.textOf_ne_nil
  rw [this, List.head?_append_of_ne_nil _ first]
  exact c.first.unwrapped

theorem stripParens_text (c : Conjunction) : c.text.stripParens = c.text :=
  c.solid.stripParens c.head

theorem splitAnd_text (c : Conjunction) : Filter.splitAnd c.text = c.items.map Conjunct.text :=
  splitTopLevel_series Filter.shy_andWord (fun s _ => s.separates)
    fun a _ => a.part Filter.shy_andWord Filter.ledBy_andWord (by decide)

theorem splitConjuncts_text (c : Conjunction) :
    Filter.splitConjuncts c.text = c.items.map Conjunct.text := by
  rw [Filter.splitConjuncts, c.splitAnd_text, Filter.joinRanges_of_forall]
  intro piece hpiece
  obtain ⟨a, -, rfl⟩ := List.mem_map.mp hpiece
  exact a.not_isRangeStart

theorem part (c : Conjunction) : Part Filter.orWord c.tokens :=
  .of_ledBy Filter.shy_orWord Filter.ledBy_orWord c.solid fun a ha =>
    (c.avoids a ha).mono (by decide)

end Conjunction

def readConjuncts (scope : Scope) (cs : List Conjunct) : Except ReadError (List FilterCondition) :=
  (cs.mapM fun c => Filter.readCondition scope c.text).map fun found => found.filterMap id

theorem readConditions_text (scope : Scope) (cs : List Conjunct) :
    Filter.readConditions scope (cs.map Conjunct.text) = readConjuncts scope cs := by
  have stripped : ((cs.map Conjunct.text).map Text.stripParens) = cs.map Conjunct.text := by
    rw [List.map_map]
    exact List.map_congr_left fun c _ => c.stripParens_text
  have atomic : (cs.map Conjunct.text).filter Filter.isAtomic = cs.map Conjunct.text := by
    refine List.filter_eq_self.mpr fun t ht => ?_
    obtain ⟨c, -, rfl⟩ := List.mem_map.mp ht
    exact c.isAtomic_text
  rw [Filter.readConditions, stripped, atomic, List.mapM_map, readConjuncts]
  change (cs.mapM fun c => Filter.readCondition scope c.text) >>= _ = _
  cases cs.mapM fun c => Filter.readCondition scope c.text <;> rfl

/-- One alternative, in parentheses or not. -/
inductive WrittenBranch where
  | bare (c : Conjunction)
  | wrapped (before after : Option Gap) (c : Conjunction)

namespace WrittenBranch

def conjunction : WrittenBranch → Conjunction
  | bare c => c
  | wrapped _ _ c => c

def inside (before after : Option Gap) (c : Conjunction) : Text :=
  textOf (blankTokens before ++ (c.tokens ++ blankTokens after))

theorem closed_inside (before after : Option Gap) (c : Conjunction) :
    Closed (inside before after c) :=
  closed_textOf _

def tokens : WrittenBranch → List Token
  | bare c => c.tokens
  | wrapped before after c => [.shelter _ (.parens (closed_inside before after c))]

theorem part (b : WrittenBranch) : Part Filter.orWord b.tokens := by
  cases b with
  | bare c => exact c.part
  | wrapped before after c =>
    exact .of_ledBy Filter.shy_orWord Filter.ledBy_orWord (.singleton rfl)
      (by simp [tokens, Token.Avoids])

theorem avoids (b : WrittenBranch) : ∀ a ∈ b.tokens, a.Avoids (reserved.filter (· ≠ "AND")) := by
  cases b with
  | bare c => exact c.avoids
  | wrapped => simp [tokens, Token.Avoids]

theorem stripParens_text (b : WrittenBranch) :
    (textOf b.tokens).stripParens = b.conjunction.text := by
  cases b with
  | bare c => exact c.stripParens_text
  | wrapped before after c =>
    have trimmed : (inside before after c).trim = c.text := by
      have := c.solid.trim (isBlank_of_blankTokens before) (isBlank_of_blankTokens after)
      rw [inside, textOf_append, textOf_append]
      exact this
    rw [tokens, textOf_cons, textOf_nil, List.append_nil, Token.text,
      stripParens_of_closed (closed_inside before after c), stripParens_of_head, trimmed]
    · rfl
    · rw [trimmed]
      exact c.head

/-- The nodes that the conditions of an alternative make up. -/
def nodes (b : WrittenBranch) (conditions : List FilterCondition) : List FilterNode :=
  if b.conjunction.rest = [] then conditions.map .condition
  else [.group .and (conditions.map .condition)]

theorem readBranch_text (scope : Scope) (b : WrittenBranch) :
    Filter.readBranch scope (textOf b.tokens) =
      (readConjuncts scope b.conjunction.items).map b.nodes := by
  have length : 1 < (b.conjunction.items.map Conjunct.text).length ↔ b.conjunction.rest ≠ [] := by
    simp [Series.items, List.length_pos_iff]
  simp only [Filter.readBranch, b.stripParens_text, Conjunction.splitConjuncts_text,
    readConditions_text, length]
  cases readConjuncts scope b.conjunction.items with
  | error e => rfl
  | ok conditions =>
    by_cases h : b.conjunction.rest = []
    · simp only [nodes, h, Except.map, if_true, ne_eq, not_true, if_false]
      rfl
    · simp only [nodes, h, Except.map, if_false, ne_eq, not_false_eq_true, if_true]
      rfl

end WrittenBranch

abbrev Alternatives := Series (WordGap "OR") WrittenBranch

inductive WrittenFilter where
  | all (c : Conjunction)
  | any (a : Alternatives) (h : a.rest ≠ [])

namespace WrittenFilter

def tokens : WrittenFilter → List Token
  | all c => c.tokens
  | any a _ => Series.tokens WordGap.tokens WrittenBranch.tokens a

theorem solid (f : WrittenFilter) : Solid f.tokens := by
  cases f with
  | all c => exact c.solid
  | any a h => exact Series.solid (fun s _ _ _ => s.solid) fun b _ => b.part.solid

theorem avoids (f : WrittenFilter) :
    ∀ a ∈ f.tokens, a.Avoids (reserved.filter fun k => k ≠ "AND" ∧ k ≠ "OR") := by
  intro a ha
  cases f with
  | all c => exact (c.avoids a ha).mono (by decide)
  | any x h =>
    rcases Series.mem_tokens ha with ⟨s, -, ha⟩ | ⟨i, -, ha⟩
    · exact s.avoids (by decide) a ha
    · exact (i.avoids a ha).mono (by decide)

/-- Reading a filter by way of its conjuncts. -/
def readWith (scope : Scope) : WrittenFilter → Except ReadError FilterGroup
  | all c => (readConjuncts scope c.items).map fun conditions => ⟨.and, conditions.map .condition⟩
  | any a _ =>
    (a.items.mapM fun b => (readConjuncts scope b.conjunction.items).map b.nodes).map
        fun children =>
      ⟨.or, children.flatten⟩

theorem stripParens_any (a : Alternatives) (h : a.rest ≠ []) :
    (textOf (any a h).tokens).stripParens = textOf (any a h).tokens := by
  have trimmed := (any a h).solid.trim_self
  have unwrapped : (textOf (any a h).tokens).isWrapped = false := by
    obtain ⟨s, b, rest, hrest⟩ := Series.exists_cons h
    have : textOf (any a h).tokens = textOf a.first.tokens ++ textOf (s.tokens ++ (b.tokens ++
        rest.flatMap fun next => next.1.tokens ++ next.2.tokens)) := by
      rw [tokens, hrest]
      simp [Series.tokens]
    rw [this]
    cases a.first with
    | bare c =>
      refine isWrapped_of_head ?_
      rw [WrittenBranch.tokens, List.head?_append_of_ne_nil _ c.solid.textOf_ne_nil]
      exact c.head
    | wrapped before after c =>
      have := isWrapped_of_closed (WrittenBranch.closed_inside before after c) (textOf (s.tokens ++
        (b.tokens ++ rest.flatMap fun next => next.1.tokens ++ next.2.tokens)))
      have later : textOf (s.tokens ++ (b.tokens ++
          rest.flatMap fun next => next.1.tokens ++ next.2.tokens)) ≠ [] := by
        simp [WordGap.tokens, s.before.isGap.1]
      rw [List.isEmpty_eq_false_iff.mpr later] at this
      simpa [WrittenBranch.tokens, Token.text] using this
  rw [stripParens]
  simp only [trimmed, unwrapped]
  rfl

theorem read_eq (scope : Scope) (f : WrittenFilter) :
    Filter.read scope (textOf f.tokens) = f.readWith scope := by
  cases f with
  | all c =>
    have branches : Filter.splitOr c.text = [c.text] := splitTopLevel_part Filter.shy_orWord c.part
    change Filter.read scope c.text = _
    rw [Filter.read, c.stripParens_text, branches]
    simp only [List.length_singleton, lt_irrefl, if_false]
    rw [c.splitConjuncts_text, readConditions_text, readWith]
    cases readConjuncts scope c.items <;> rfl
  | any a h =>
    have branches : Filter.splitOr (textOf (any a h).tokens) =
        a.items.map fun b => textOf b.tokens :=
      splitTopLevel_series Filter.shy_orWord (fun s _ => s.separates) fun b _ => b.part
    have several : 1 < (a.items.map fun b => textOf b.tokens).length := by
      simpa [Series.items, List.length_pos_iff] using h
    rw [Filter.read, stripParens_any, branches]
    simp only [several, if_true]
    rw [List.mapM_map, readWith]
    simp only [Function.comp_def, WrittenBranch.readBranch_text]
    cases a.items.mapM fun b => (readConjuncts scope b.conjunction.items).map b.nodes <;> rfl

end WrittenFilter

end SqlCanvas
