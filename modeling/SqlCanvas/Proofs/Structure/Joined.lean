import SqlCanvas.Proofs.Structure.Predicate

/-!
# Parts between connectives

The parts of a filter are predicates and groups in parentheses. Put together with `OR` between them,
they are what the text is split into at `OR`. With `AND` between them, the text is split into more
pieces than parts, as a range has an `AND` of its own, and the two ends of a range are one part
again afterwards.
-/

namespace SqlCanvas

open Text Nesting Pattern

theorem Filter.takes_betweenWord (s : Spelling "BETWEEN") {b : Option Char} {r : Text}
    (hb : ∀ c ∈ b, isWord c = false) (hr : Halts isWord r) : betweenWord.Takes b s.text r [] := by
  have start : boundary.Takes b [] (s.text ++ r) [] := takes_boundary_word s.isName hb
  have stop : boundary.Takes (lastChar b s.text) [] r [] := by
    obtain ⟨c, hc, hlast⟩ := lastChar_of_ne_nil s.isName.1 b
    exact takes_boundary_end ⟨c, hlast, s.isName.2 c hc⟩ hr
  have := Takes.all_cons (v := s.text ++ ([] ++ [])) (r := r) (by simpa using start)
    (Takes.all_cons (takes_word s.spells) (Takes.all_cons stop takes_all_nil))
  exact this.congr (by simp) rfl

/-- The first half of a range: it has a `BETWEEN` and no other connective. -/
structure RangeStart (ts : List Token) : Prop where
  solid : Solid ts
  misses : ∀ a ∈ ts, a.Misses ["AND", "OR"]
  starts : Filter.isRangeStart (textOf ts) = true

theorem rangeStart_between {ts us : List Token} (hts : Clear connectives ts)
    (hus : Clear connectives us) :
    RangeStart (ts ++ ((WordGap.capital "BETWEEN" (by decide)).tokens ++ us)) where
  solid := (WordGap.capital "BETWEEN" (by decide)).solid hts.solid hus.solid
  misses := by
    refine List.forall_mem_append.mpr ⟨fun a ha => (hts.misses a ha).mono (by decide), ?_⟩
    refine List.forall_mem_append.mpr ⟨fun a ha => (WordGap.avoids _ (by decide) a ha).misses, ?_⟩
    exact fun a ha => (hus.misses a ha).mono (by decide)
  starts := by
    have between : StartsWith ["BETWEEN"] Filter.betweenWord := Filter.startsWith_betweenWord
    let word : Spelling "BETWEEN" := .capital "BETWEEN" (by decide)
    have front : Skips Filter.betweenWord none (textOf ts ++ Gap.space.text)
        (word.text ++ (Gap.space.text ++ textOf us)) := by
      refine Skips.append ?_ (skips_of_blank between Gap.space.isGap.2)
      exact skips_of_misses Filter.shy_betweenWord between.ledBy hts.solid.chain hts.solid.last
        (fun a ha => (hts.misses a ha).mono (by decide)) (Gap.space.isGap.halts_isWord _)
    have taken := Filter.takes_betweenWord word (b := lastChar none (textOf ts ++ Gap.space.text))
      (by rw [lastChar_append]; exact not_isWord_lastChar_gap Gap.space.isGap)
      (Gap.space.isGap.halts_isWord (textOf us))
    obtain ⟨o, ho, -⟩ := findTopLevel?_of_takes Filter.shy_betweenWord front word.isName.1 taken
    have whole : textOf (ts ++ ((WordGap.capital "BETWEEN" (by decide)).tokens ++ us)) =
        textOf ts ++ Gap.space.text ++ (word.text ++ (Gap.space.text ++ textOf us)) := by
      simp [WordGap.tokens, WordGap.capital, word]
    rw [Filter.isRangeStart, whole, ho]
    rfl

theorem Clear.not_isRangeStart {ts : List Token} (h : Clear connectives ts) :
    Filter.isRangeStart (textOf ts) = false := by
  have part : Part Filter.betweenWord ts :=
    .of_misses Filter.shy_betweenWord Filter.startsWith_betweenWord.ledBy h.solid
      fun a ha => (h.misses a ha).mono (by decide)
  have skips := part.skips none [] (halts_nil _)
  rw [Filter.isRangeStart, findTopLevel?_of_skips skips]
  rfl

inductive FilterPart where
  | whole (ts : List Token) (h : Clear connectives ts)
  | range (low high : List Token) (hlow : RangeStart low) (hhigh : Clear connectives high)

namespace FilterPart

def andGap : WordGap "AND" :=
  .capital "AND" isKeyword_and

/-- What lies between the `AND`s of a part. -/
def pieces : FilterPart → List (List Token)
  | whole ts _ => [ts]
  | range low high _ _ => [low, high]

def tokens : FilterPart → List Token
  | whole ts _ => ts
  | range low high _ _ => low ++ (andGap.tokens ++ high)

def text (p : FilterPart) : Text :=
  textOf p.tokens

theorem text_eq (p : FilterPart) :
    p.text = (textOf andGap.tokens).intercalate (p.pieces.map textOf) := by
  cases p with
  | whole => simp [text, tokens, pieces]
  | range => simp [text, tokens, pieces, List.intercalate_cons_cons]

theorem solid (p : FilterPart) : Solid p.tokens := by
  cases p with
  | whole ts h => exact h.solid
  | range low high hlow hhigh => exact andGap.solid hlow.solid hhigh.solid

theorem misses (p : FilterPart) : ∀ a ∈ p.tokens, a.Misses ["OR"] := by
  cases p with
  | whole ts h => exact fun a ha => (h.misses a ha).mono (by decide)
  | range low high hlow hhigh =>
    refine List.forall_mem_append.mpr ⟨fun a ha => (hlow.misses a ha).mono (by decide), ?_⟩
    refine List.forall_mem_append.mpr ⟨fun a ha => (andGap.avoids (by decide) a ha).misses, ?_⟩
    exact fun a ha => (hhigh.misses a ha).mono (by decide)

theorem part_pieces (p : FilterPart) : ∀ ts ∈ p.pieces, Part Filter.andWord ts := by
  have part {ts : List Token} (hts : Solid ts) (hmiss : ∀ a ∈ ts, a.Misses ["AND"]) :
      Part Filter.andWord ts :=
    .of_misses Filter.shy_andWord Filter.ledBy_andWord hts hmiss
  cases p with
  | whole ts h =>
    exact List.forall_mem_singleton.mpr (part h.solid fun a ha => (h.misses a ha).mono (by decide))
  | range low high hlow hhigh =>
    refine List.forall_mem_cons.mpr ⟨part hlow.solid fun a ha =>
      (hlow.misses a ha).mono (by decide), ?_⟩
    exact List.forall_mem_singleton.mpr (part hhigh.solid fun a ha =>
      (hhigh.misses a ha).mono (by decide))

end FilterPart

theorem Text.isWrapped_append {u r : Text} (hu : Closed u) (hne : u ≠ []) (hr : r ≠ []) :
    isWrapped (u ++ r) = false := by
  cases hu with
  | nil => exact absurd rfl hne
  | plain hc =>
    refine isWrapped_of_head ?_
    rintro ⟨⟩
    cases hc
  | quoted hq =>
    refine isWrapped_of_head ?_
    rintro ⟨⟩
    cases hq
  | @parens s t hs =>
    have := isWrapped_of_closed hs (t ++ r)
    rw [List.cons_append, List.append_assoc, List.cons_append, this]
    simp [hr]

theorem intercalate_append {α : Type} (separator : List α) {xs ys : List (List α)} (hx : xs ≠ [])
    (hy : ys ≠ []) :
    separator.intercalate (xs ++ ys) = separator.intercalate xs ++
      (separator ++ separator.intercalate ys) := by
  obtain ⟨y, ys, rfl⟩ := List.exists_cons_of_ne_nil hy
  obtain ⟨x, xs, rfl⟩ := List.exists_cons_of_ne_nil hx
  induction xs generalizing x with
  | nil => simp [List.intercalate_cons_cons]
  | cons x' xs ih =>
    have := ih x' (List.cons_ne_nil _ _)
    rw [List.cons_append, List.cons_append, List.intercalate_cons_cons, ← List.cons_append, this,
      List.intercalate_cons_cons]
    simp

theorem intercalate_map_intercalate {α β : Type} (separator : List α) {f : β → List (List α)}
    (ps : List β) (h : ∀ p, f p ≠ []) :
    separator.intercalate (ps.map fun p => separator.intercalate (f p)) =
      separator.intercalate (ps.flatMap f) := by
  induction ps with
  | nil => rfl
  | cons p ps ih =>
    cases ps with
    | nil => simp
    | cons q ps =>
      have rest : (q :: ps).flatMap f ≠ [] := by simp [h q]
      rw [List.map_cons, List.flatMap_cons, intercalate_append separator (h p) rest, ← ih]
      simp [List.intercalate_cons_cons]

namespace Filter

theorem joinRanges_pieces (ps : List FilterPart) :
    joinRanges ((ps.flatMap FilterPart.pieces).map textOf) = ps.map FilterPart.text := by
  induction ps with
  | nil => rfl
  | cons p ps ih =>
    rw [List.flatMap_cons, List.map_append, List.map_cons, ← ih]
    cases p with
    | whole ts h =>
      have first := h.not_isRangeStart
      generalize (ps.flatMap FilterPart.pieces).map textOf = rest
      cases rest with
      | nil => rfl
      | cons next rest =>
        simp [FilterPart.pieces, FilterPart.text, FilterPart.tokens, joinRanges, first]
    | range low high hlow hhigh =>
      simp [FilterPart.pieces, FilterPart.text, FilterPart.tokens, joinRanges, hlow.starts,
        FilterPart.andGap, WordGap.textOf_capital]

def joined (operator : Connective) (ps : List FilterPart) : Text :=
  (" " ++ Vocabulary.spelling operator ++ " ").toList.intercalate (ps.map FilterPart.text)

variable {ps : List FilterPart}

def connectiveGap (operator : Connective) : WordGap (Vocabulary.spelling operator) :=
  .capital _ (by cases operator <;> decide)

def joinedTokens (operator : Connective) (ps : List FilterPart) (h : ps ≠ []) : List Token :=
  (Series.ofList (connectiveGap operator) ps h).tokens WordGap.tokens FilterPart.tokens

theorem textOf_joinedTokens (operator : Connective) (h : ps ≠ []) :
    textOf (joinedTokens operator ps h) = joined operator ps := by
  rw [joinedTokens, textOf_ofList, connectiveGap, WordGap.textOf_capital]
  rfl

theorem solid_joinedTokens (operator : Connective) (h : ps ≠ []) :
    Solid (joinedTokens operator ps h) :=
  Series.solid (fun s _ _ _ => s.solid) fun p _ => p.solid

theorem closed_joined (operator : Connective) (h : ps ≠ []) : Closed (joined operator ps) := by
  rw [← textOf_joinedTokens operator h]
  exact closed_textOf _

theorem joined_singleton (operator : Connective) (p : FilterPart) : joined operator [p] = p.text :=
  List.intercalate_singleton

theorem stripParens_joined (operator : Connective) {p q : FilterPart} :
    (joined operator (p :: q :: ps)).stripParens = joined operator (p :: q :: ps) := by
  have ne_nil : p :: q :: ps ≠ [] := List.cons_ne_nil _ _
  have trimmed : (joined operator (p :: q :: ps)).trim = joined operator (p :: q :: ps) := by
    rw [← textOf_joinedTokens operator ne_nil]
    exact (solid_joinedTokens operator ne_nil).trim_self
  have unwrapped : (joined operator (p :: q :: ps)).isWrapped = false := by
    rw [joined, List.map_cons, List.map_cons, List.intercalate_cons_cons, List.append_assoc]
    exact isWrapped_append (closed_textOf p.tokens) p.solid.textOf_ne_nil (by simp)
  rw [stripParens]
  simp only [trimmed, unwrapped]
  rfl

theorem splitOr_joined (h : ps ≠ []) : splitOr (joined .or ps) = ps.map FilterPart.text := by
  have parts : ∀ p ∈ ps, Part orWord p.tokens :=
    fun p _ => .of_misses shy_orWord ledBy_orWord p.solid p.misses
  rw [← textOf_joinedTokens .or h, splitOr, joinedTokens,
    splitTopLevel_series shy_orWord (fun s _ => s.separates) (by simpa using parts),
      Series.items_ofList]
  rfl

/-- Between the parts of a conjunction no `OR` stands at the top level. -/
theorem part_joined_and (h : ps ≠ []) : Part orWord (joinedTokens .and ps h) := by
  refine .of_misses shy_orWord ledBy_orWord (solid_joinedTokens .and h) fun a ha => ?_
  rcases Series.mem_tokens ha with ⟨s, -, ha⟩ | ⟨p, -, ha⟩
  · exact (s.avoids (by decide) a ha).misses
  · exact p.misses a ha

theorem splitOr_joined_and (h : ps ≠ []) : splitOr (joined .and ps) = [joined .and ps] := by
  rw [← textOf_joinedTokens .and h]
  exact splitTopLevel_part shy_orWord (part_joined_and h)

theorem topLevelOccurrences_joined_and (h : ps ≠ []) :
    (joined .and ps).topLevelOccurrences orWord = [] := by
  rw [← textOf_joinedTokens .and h]
  exact List.head?_eq_none_iff.mp
    (findTopLevel?_of_skips ((part_joined_and h).skips none [] (halts_nil _)))

theorem joined_and_eq (h : ps.flatMap FilterPart.pieces ≠ []) : joined .and ps =
    textOf
      ((Series.ofList FilterPart.andGap (ps.flatMap FilterPart.pieces) h).tokens WordGap.tokens
        id) := by
  have pieces (p : FilterPart) : p.pieces.map textOf ≠ [] := by cases p <;> simp [FilterPart.pieces]
  rw [textOf_ofList, joined]
  have texts : ps.map FilterPart.text =
      ps.map fun p => (textOf FilterPart.andGap.tokens).intercalate (p.pieces.map textOf) :=
    List.map_congr_left fun p _ => p.text_eq
  rw [texts, FilterPart.andGap, WordGap.textOf_capital]
  refine (intercalate_map_intercalate _ ps pieces).trans ?_
  rw [List.map_flatMap]
  rfl

theorem flatMap_pieces_ne_nil (h : ps ≠ []) : ps.flatMap FilterPart.pieces ≠ [] := by
  obtain ⟨p, ps, rfl⟩ := List.exists_cons_of_ne_nil h
  cases p <;> simp [FilterPart.pieces]

theorem splitConjuncts_joined (h : ps ≠ []) :
    splitConjuncts (joined .and ps) = ps.map FilterPart.text := by
  have parts : ∀ ts ∈ ps.flatMap FilterPart.pieces, Part andWord ts := by
    intro ts hts
    obtain ⟨p, -, hts⟩ := List.mem_flatMap.mp hts
    exact p.part_pieces ts hts
  have split : splitAnd (joined .and ps) = (ps.flatMap FilterPart.pieces).map textOf := by
    rw [joined_and_eq (flatMap_pieces_ne_nil h), splitAnd,
      splitTopLevel_series shy_andWord (fun s _ => s.separates) (by simpa using parts),
        Series.items_ofList]
    rfl
  rw [splitConjuncts, split, joinRanges_pieces]

end Filter

end SqlCanvas
