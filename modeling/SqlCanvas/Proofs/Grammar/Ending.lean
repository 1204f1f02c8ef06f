import SqlCanvas.Proofs.Grammar.Select
import SqlCanvas.Proofs.Grammar.Trailing

/-!
# Written endings

The clauses behind the joins in their usual order, each of them optional: the filter, the grouping
with its own filter, the ordering and the limit of rows. `WrittenEnding.readParts_eq` says what is
read.
-/

namespace SqlCanvas

open Text Nesting Pattern

/-- A clause: its phrase and its body, with the gaps in front of them. -/
structure Headed (words : List String) (A : Type) where
  before : Gap
  phrase : Phrase words
  after : Gap
  body : A

namespace Headed

variable {words : List String} {A : Type}

def clause (h : Headed words A) (mem : words ∈ Select.clausePhrases) (write : A → List Token)
    (solid : ∀ a, Solid (write a)) (avoids : ∀ a, ∀ x ∈ write a, x.Avoids bodyKeywords) :
    Gap × WrittenClause :=
  (h.before, ⟨words, mem, h.phrase, h.after, write h.body, solid h.body, avoids h.body⟩)

end Headed

/-- `NEXT … ROWS ONLY`. -/
structure WrittenFetch where
  next : Spelling "NEXT"
  before : Gap
  number : WrittenNumber
  after : Gap
  rows : Spelling "ROWS"
  gap : Gap
  only : Spelling "ONLY"

structure WrittenOffset where
  number : WrittenNumber
  rows : Option (Gap × Spelling "ROWS")

inductive WrittenLimits where
  | limit (rows : Headed ["LIMIT"] WrittenNumber)
    (offset : Option (Headed ["OFFSET"] WrittenOffset))
  | fetch (offset : Headed ["OFFSET"] WrittenOffset) (rows : Headed ["FETCH"] WrittenFetch)

theorem isKeyword_bodyKeywords : ∀ k ∈ bodyKeywords, IsKeyword k.toList := by
  decide

namespace WrittenNumber

def tokens (n : WrittenNumber) : List Token :=
  [n.token]

theorem solid_tokens (n : WrittenNumber) : Solid n.tokens :=
  .singleton rfl

theorem avoids_tokens (n : WrittenNumber) : ∀ a ∈ n.tokens, a.Avoids bodyKeywords :=
  List.forall_mem_singleton.mpr (n.avoids isKeyword_bodyKeywords)

end WrittenNumber

namespace WrittenOffset

def rowsTokens (o : WrittenOffset) : List Token :=
  match o.rows with
  | some (g, s) => [g.token, s.token]
  | none => []

def tokens (o : WrittenOffset) : List Token :=
  o.number.token :: o.rowsTokens

theorem solid (o : WrittenOffset) : Solid o.tokens := by
  obtain ⟨n, rows⟩ := o
  cases rows with
  | none => exact .singleton rfl
  | some r => exact n.solid_tokens.spaced r.2.solid r.1

theorem avoids (o : WrittenOffset) : ∀ a ∈ o.tokens, a.Avoids bodyKeywords := by
  obtain ⟨n, rows⟩ := o
  have number := n.avoids isKeyword_bodyKeywords
  cases rows with
  | none => exact List.forall_mem_singleton.mpr number
  | some r =>
    refine List.forall_mem_cons.mpr ⟨number, List.forall_mem_cons.mpr ⟨trivial, ?_⟩⟩
    exact List.forall_mem_singleton.mpr (r.2.avoids (by decide))

theorem readOffset_eq (o : WrittenOffset) :
    Select.readNumber? Select.offsetNumber (textOf o.tokens) = .ok (some o.number.value) := by
  have halts : Halts isDecimal (textOf o.rowsTokens) := by
    obtain ⟨n, rows⟩ := o
    cases rows with
    | none => exact halts_nil _
    | some r =>
      obtain ⟨c, g, hg⟩ := List.exists_cons_of_ne_nil r.1.isGap.1
      have hc := r.1.isGap.2 c (by simp [hg])
      have : isDecimal c = false := not_isDecimal_of_isBlank hc
      simpa [rowsTokens, hg] using this
  have := o.number.readOffset_eq halts
  rwa [tokens, textOf_cons]

end WrittenOffset

namespace WrittenFetch

def tokens (f : WrittenFetch) : List Token :=
  [f.next.token, f.before.token, f.number.token, f.after.token, f.rows.token, f.gap.token,
    f.only.token]

theorem solid (f : WrittenFetch) : Solid f.tokens :=
  f.next.solid.spaced
    (f.number.solid_tokens.spaced (f.rows.solid.spaced f.only.solid f.gap) f.after) f.before

theorem avoids (f : WrittenFetch) : ∀ a ∈ f.tokens, a.Avoids bodyKeywords := by
  intro a ha
  simp only [tokens, List.mem_cons, List.not_mem_nil, or_false] at ha
  rcases ha with rfl | rfl | rfl | rfl | rfl | rfl | rfl
  · exact f.next.avoids (by decide)
  · trivial
  · exact f.number.avoids isKeyword_bodyKeywords
  · trivial
  · exact f.rows.avoids (by decide)
  · trivial
  · exact f.only.avoids (by decide)

theorem readFetch_eq (f : WrittenFetch) :
    Select.readNumber? Select.fetchNumber (textOf f.tokens) = .ok (some f.number.value) := by
  have halts : Halts isDecimal (f.after.text ++ (f.rows.text ++ (f.gap.text ++ f.only.text))) := by
    obtain ⟨c, g, hg⟩ := List.exists_cons_of_ne_nil f.after.isGap.1
    rw [hg, List.cons_append, halts_cons]
    exact not_isDecimal_of_isBlank (f.after.isGap.2 c (by simp [hg]))
  have := f.number.readFetch_eq f.next f.before halts
  simpa [tokens] using this

end WrittenFetch

namespace WrittenLimits

def clauses : WrittenLimits → WrittenClauses
  | limit rows offset =>
    rows.clause (by decide) WrittenNumber.tokens (·.solid_tokens) (·.avoids_tokens) ::
      (offset.map fun o => o.clause (by decide) WrittenOffset.tokens (·.solid) (·.avoids)).toList
  | fetch offset rows =>
    [offset.clause (by decide) WrittenOffset.tokens (·.solid) (·.avoids),
      rows.clause (by decide) WrittenFetch.tokens (·.solid) (·.avoids)]

def value : WrittenLimits → Select.RowLimits
  | limit rows offset => ⟨some rows.body.value, offset.map fun o => o.body.number.value⟩
  | fetch offset rows => ⟨some rows.body.number.value, some offset.body.number.value⟩

end WrittenLimits

structure WrittenEnding where
  filter : Option (Headed ["WHERE"] WrittenFilter)
  group : Option (Headed ["GROUP", "BY"] Listing)
  having : Option (Headed ["HAVING"] WrittenFilter)
  order : Option (Headed ["ORDER", "BY"] Listing)
  limits : Option WrittenLimits

theorem WrittenFilter.avoids_bodyKeywords (f : WrittenFilter) :
    ∀ a ∈ f.tokens, a.Avoids bodyKeywords :=
  fun a ha => (f.avoids a ha).mono (by decide)

theorem Listing.avoids_bodyKeywords (l : Listing) : ∀ a ∈ l.tokens, a.Avoids bodyKeywords :=
  fun a ha => (l.avoids a ha).mono (by decide)

/-- The body of the first clause with a keyword. -/
def WrittenClauses.body? (cs : WrittenClauses) (keyword : String) : Option Text :=
  ((cs.map (·.2.entry)).find? (·.1 == keyword)).map (·.2)

namespace WrittenClauses

@[simp] theorem body?_nil (keyword : String) : body? [] keyword = none := rfl

@[simp] theorem body?_cons (c : Gap × WrittenClause) (cs : WrittenClauses) (keyword : String) :
    body? (c :: cs) keyword =
      if " ".intercalate c.2.words = keyword then some (textOf c.2.body) else body? cs keyword := by
  rw [body?, body?, List.map_cons, List.find?_cons, WrittenClause.entry]
  by_cases h : " ".intercalate c.2.words = keyword
  · simp [h]
  · rw [if_neg h, beq_false_of_ne h]

@[simp] theorem body?_append (cs cs' : WrittenClauses) (keyword : String) :
    body? (cs ++ cs') keyword = (body? cs keyword).or (body? cs' keyword) := by
  rw [body?, body?, body?, List.map_append, List.find?_append]
  cases (cs.map (·.2.entry)).find? (·.1 == keyword) <;> rfl

end WrittenClauses

theorem Headed.body?_cons {words : List String} {A : Type} (h : Headed words A)
    (mem : words ∈ Select.clausePhrases) (write : A → List Token) (solid : ∀ a, Solid (write a))
    (avoids : ∀ a, ∀ x ∈ write a, x.Avoids bodyKeywords) (cs : WrittenClauses) (keyword : String) :
    WrittenClauses.body? (h.clause mem write solid avoids :: cs) keyword =
      if " ".intercalate words = keyword then some (textOf (write h.body)) else cs.body? keyword :=
  WrittenClauses.body?_cons _ cs keyword

theorem Headed.body?_clause {words : List String} {A : Type} (h : Option (Headed words A))
    (mem : words ∈ Select.clausePhrases) (write : A → List Token) (solid : ∀ a, Solid (write a))
    (avoids : ∀ a, ∀ x ∈ write a, x.Avoids bodyKeywords) (keyword : String) :
    WrittenClauses.body? (h.map fun h => h.clause mem write solid avoids).toList keyword =
      if " ".intercalate words = keyword then h.map fun h => textOf (write h.body) else none := by
  cases h with
  | none => simp
  | some h => exact h.body?_cons mem write solid avoids [] keyword

theorem WrittenLimits.body?_clauses (l : WrittenLimits) {keyword : String}
    (h : keyword ∉ ["LIMIT", "OFFSET", "FETCH"]) : l.clauses.body? keyword = none := by
  have limit : " ".intercalate ["LIMIT"] ≠ keyword := by
    rintro rfl
    exact h (by decide)
  have offset : " ".intercalate ["OFFSET"] ≠ keyword := by
    rintro rfl
    exact h (by decide)
  have fetch : " ".intercalate ["FETCH"] ≠ keyword := by
    rintro rfl
    exact h (by decide)
  cases l with
  | limit rows o =>
    rw [clauses, Headed.body?_cons, if_neg limit, Headed.body?_clause, if_neg offset]
  | fetch o rows =>
    rw [clauses, Headed.body?_cons, if_neg offset, Headed.body?_cons, if_neg fetch]
    rfl

namespace WrittenEnding

variable (e : WrittenEnding)

def filterClause : WrittenClauses :=
  (e.filter.map fun h =>
    h.clause (by decide) WrittenFilter.tokens (·.solid) (·.avoids_bodyKeywords)).toList

def groupClause : WrittenClauses :=
  (e.group.map fun h =>
    h.clause (by decide) Listing.tokens (·.solid) (·.avoids_bodyKeywords)).toList

def havingClause : WrittenClauses :=
  (e.having.map fun h =>
    h.clause (by decide) WrittenFilter.tokens (·.solid) (·.avoids_bodyKeywords)).toList

def orderClause : WrittenClauses :=
  (e.order.map fun h =>
    h.clause (by decide) Listing.tokens (·.solid) (·.avoids_bodyKeywords)).toList

def limitClauses : WrittenClauses :=
  (e.limits.map WrittenLimits.clauses).getD []

def clauses : WrittenClauses :=
  e.filterClause ++ (e.groupClause ++ (e.havingClause ++ (e.orderClause ++ e.limitClauses)))

theorem body?_limitClauses {keyword : String} (h : keyword ∉ ["LIMIT", "OFFSET", "FETCH"]) :
    e.limitClauses.body? keyword = none := by
  rw [limitClauses]
  cases e.limits with
  | none => rfl
  | some l => exact l.body?_clauses h

theorem body?_clauses (keyword : String) : e.clauses.body? keyword =
    ((if " ".intercalate ["WHERE"] = keyword then e.filter.map fun h =>
      textOf h.body.tokens else none).or
      ((if " ".intercalate ["GROUP", "BY"] = keyword then e.group.map fun h =>
        textOf h.body.tokens else none).or
        ((if " ".intercalate ["HAVING"] = keyword then e.having.map fun h =>
          textOf h.body.tokens else none).or
          ((if " ".intercalate ["ORDER", "BY"] = keyword then e.order.map fun h =>
            textOf h.body.tokens else none).or (e.limitClauses.body? keyword))))) := by
  rw [clauses, WrittenClauses.body?_append, WrittenClauses.body?_append,
    WrittenClauses.body?_append, WrittenClauses.body?_append, filterClause, groupClause,
    havingClause, orderClause, Headed.body?_clause, Headed.body?_clause, Headed.body?_clause,
    Headed.body?_clause]

theorem body?_where : e.clauses.body? "WHERE" = e.filter.map fun h => textOf h.body.tokens := by
  rw [body?_clauses, e.body?_limitClauses (by decide)]
  cases e.filter <;> rfl

theorem body?_group : e.clauses.body? "GROUP BY" = e.group.map fun h => textOf h.body.tokens := by
  rw [body?_clauses, e.body?_limitClauses (by decide)]
  cases e.group <;> rfl

theorem body?_having : e.clauses.body? "HAVING" = e.having.map fun h => textOf h.body.tokens := by
  rw [body?_clauses, e.body?_limitClauses (by decide)]
  cases e.having <;> rfl

theorem body?_order : e.clauses.body? "ORDER BY" = e.order.map fun h => textOf h.body.tokens := by
  rw [body?_clauses, e.body?_limitClauses (by decide)]
  cases e.order <;> rfl

theorem body?_limits {keyword : String} (h : keyword ∈ ["LIMIT", "OFFSET", "FETCH"]) :
    e.clauses.body? keyword = e.limitClauses.body? keyword := by
  have plain : ∀ k ∈ ["LIMIT", "OFFSET", "FETCH"], ∀ ks ∈ [["WHERE"], ["GROUP", "BY"], ["HAVING"],
      ["ORDER", "BY"]], " ".intercalate ks ≠ k := by decide
  rw [body?_clauses, if_neg (plain _ h _ (by simp)), if_neg (plain _ h _ (by simp)),
    if_neg (plain _ h _ (by simp)), if_neg (plain _ h _ (by simp))]
  rfl

theorem readLimit_nil : Select.readLimit [] = .ok ⟨none, none⟩ := by
  have refused : Select.limitNumbers.match? [] = none :=
    match?_start_of_refuses rfl (((refuses_many1 (halts_nil _)).capture 1).seq_left _)
  rw [Select.readLimit, refused]

theorem readOffset_nil : Select.readNumber? Select.offsetNumber [] = .ok none := by
  have refused : Select.offsetNumber.match? [] = none :=
    match?_start_of_refuses rfl (((refuses_many1 (halts_nil _)).capture 1).seq_left _)
  rw [Select.readNumber?, refused]

theorem readFetch_nil : Select.readNumber? Select.fetchNumber [] = .ok none := by
  have refused (k : String) (hk : IsKeyword k.toList) : (word k).Refuses none [] :=
    refuses_word_of_halts hk (halts_nil _)
  have : Select.fetchNumber.match? [] = none := by
    refine match?_start_of_refuses rfl ((refuses_oneOf ?_).seq_left _)
    simp only [List.mem_cons, List.not_mem_nil, or_false, forall_eq_or_imp, forall_eq]
    exact ⟨refused "NEXT" (by decide), refused "FIRST" (by decide)⟩
  rw [Select.readNumber?, this]

theorem readRowLimits_of {cs : Select.Clauses} {limits : Select.RowLimits}
    {offset rows : Option Nat} (hlimit : Select.readLimit ((cs.body? "LIMIT").getD []) = .ok limits)
    (hoffset : Select.readNumber? Select.offsetNumber ((cs.body? "OFFSET").getD []) = .ok offset)
    (hfetch : Select.readNumber? Select.fetchNumber ((cs.body? "FETCH").getD []) = .ok rows) :
    Select.readRowLimits cs = .ok ⟨limits.limit.or rows, offset.or limits.offset⟩ := by
  obtain ⟨limit, before⟩ := limits
  rw [Select.readRowLimits, hlimit, hoffset, hfetch]
  cases limit <;> rfl

theorem readRowLimits_eq {cs : Select.Clauses} (h : ∀ k ∈ ["LIMIT", "OFFSET", "FETCH"],
      cs.body? k = e.limitClauses.body? k) :
    Select.readRowLimits cs = .ok ((e.limits.map WrittenLimits.value).getD ⟨none, none⟩) := by
  obtain ⟨hlimit, hoffset, hfetch⟩ : cs.body? "LIMIT" = e.limitClauses.body? "LIMIT" ∧
      cs.body? "OFFSET" = e.limitClauses.body? "OFFSET" ∧
      cs.body? "FETCH" = e.limitClauses.body? "FETCH" :=
    ⟨h _ (by simp), h _ (by simp), h _ (by simp)⟩
  rw [limitClauses] at hlimit hoffset hfetch
  cases he : e.limits with
  | none =>
    simp only [he, Option.map_none, Option.getD_none, WrittenClauses.body?_nil]
      at hlimit hoffset hfetch
    exact readRowLimits_of (by rw [hlimit]; exact readLimit_nil)
      (by rw [hoffset]; exact readOffset_nil) (by rw [hfetch]; exact readFetch_nil)
  | some l =>
    simp only [he, Option.map_some, Option.getD_some] at hlimit hoffset hfetch
    cases l with
    | limit rows offset =>
      simp only [WrittenLimits.clauses, Headed.body?_cons, Headed.body?_clause]
        at hlimit hoffset hfetch
      have first : Select.readLimit ((cs.body? "LIMIT").getD []) =
          .ok ⟨some rows.body.value, none⟩ := by
        rw [hlimit]
        have := rows.body.readLimit_eq
        rw [← WrittenNumber.token_text, ← List.append_nil rows.body.token.text] at this
        exact this
      have last : Select.readNumber? Select.fetchNumber ((cs.body? "FETCH").getD []) =
          .ok none := by
        rw [hfetch]
        exact readFetch_nil
      cases offset with
      | none =>
        exact readRowLimits_of first (by rw [hoffset]; exact readOffset_nil) last
      | some o =>
        exact readRowLimits_of first (by rw [hoffset]; exact o.body.readOffset_eq) last
    | fetch offset rows =>
      simp only [WrittenLimits.clauses, Headed.body?_cons, WrittenClauses.body?_nil]
        at hlimit hoffset hfetch
      exact readRowLimits_of (by rw [hlimit]; exact readLimit_nil)
        (by rw [hoffset]; exact offset.body.readOffset_eq)
          (by rw [hfetch]; exact rows.body.readFetch_eq)

/-- What is read of the clauses: the two filters in terms of their conjuncts, and the limits. -/
theorem readParts_eq (scope : Scope) (columns : Option Text) (cs : Select.Clauses)
    (h : ∀ k, cs.body? k = e.clauses.body? k) :
    Select.readParts scope columns cs = do
      let columns ← Select.readColumns scope columns
      let filters ← e.filter.elim (.ok none) fun f => (f.body.readWith scope).map some
      let having ← e.having.elim (.ok none) fun f => (f.body.readWith scope).map some
      return ⟨columns, filters, having, (e.limits.map WrittenLimits.value).getD ⟨none, none⟩⟩ := by
  have limits := e.readRowLimits_eq fun k hk => (h k).trans (e.body?_limits hk)
  have filtered {words : List String} (f : Option (Headed words WrittenFilter)) :
      Select.readFilter? scope (f.map fun h => textOf h.body.tokens) = f.elim (.ok none) fun f =>
        (f.body.readWith scope).map some := by
    cases f with
    | none => rfl
    | some f =>
      change (do return some (← Filter.read scope (textOf f.body.tokens))) = _
      rw [WrittenFilter.read_eq]
      cases hf : f.body.readWith scope <;> simp only [Option.elim_some, hf] <;> rfl
  rw [Select.readParts, h "WHERE", h "HAVING", e.body?_where, e.body?_having, filtered,
    filtered, limits]
  rfl

end WrittenEnding

end SqlCanvas
