import SqlCanvas.Proofs.Layout.Kept
import SqlCanvas.Proofs.Layout.Select

/-!
# Whole queries in any layout

Common tables and set operations around a `SELECT`. What is read of each of them depends on its
content, which all layouts of a tidy query share, so a query is read alike from all of them.
-/

namespace SqlCanvas

open Text Nesting Pattern

namespace Statement

/-- What is made of a text with each source of ids. -/
abbrev Reader : Type 1 :=
  (σ : Type) → IdSource σ → Reading σ Statement

def reader (t : Text) : Reader :=
  fun _ ids => read ids t

end Statement

def WrittenEntry.content (e : WrittenEntry) : Text × Statement.Reader :=
  (e.name.text, Statement.reader e.inside)

def WrittenOperation.content (o : WrittenOperation) : SetOperation × Statement.Reader :=
  (o.kind, Statement.reader (textOf o.operand.inner))

def WrittenOperations.content (os : WrittenOperations) : List (SetOperation × Statement.Reader) :=
  os.map fun o => o.2.content

namespace Statement

variable {σ : Type} (ids : IdSource σ)

theorem readTables_congr {es es' : List WrittenEntry}
    (h : es.map WrittenEntry.content = es'.map WrittenEntry.content)
    (recursive : Bool) :
    readTables ids recursive (es.map fun e => (e.name.text, Outline.of e.inside)) =
      readTables ids recursive (es'.map fun e => (e.name.text, Outline.of e.inside)) := by
  induction es generalizing es' with
  | nil =>
    cases es' with
    | nil => rfl
    | cons => cases h
  | cons e es ih =>
    cases es' with
    | nil => cases h
    | cons e' es' =>
      obtain ⟨he, hes⟩ := List.cons.inj h
      obtain ⟨name, inside⟩ := Prod.mk.inj he
      have inside : ofOutline ids (Outline.of e.inside) = ofOutline ids (Outline.of e'.inside) :=
        congrFun (congrFun inside σ) ids
      rw [List.map_cons, List.map_cons, readTables, readTables, name, inside, ih hes]

theorem readBranches_congr {os os' : WrittenOperations} (h : os.content = os'.content) :
    readBranches ids
      (os.map fun o => (textOf o.2.phrase.tokens, Outline.of (textOf o.2.operand.inner))) =
      readBranches ids
        (os'.map fun o => (textOf o.2.phrase.tokens, Outline.of (textOf o.2.operand.inner))) := by
  induction os generalizing os' with
  | nil =>
    cases os' with
    | nil => rfl
    | cons => cases h
  | cons o os ih =>
    cases os' with
    | nil => cases h
    | cons o' os' =>
      obtain ⟨ho, hos⟩ := List.cons.inj h
      obtain ⟨kind, operand⟩ := Prod.mk.inj ho
      have operand : ofOutline ids (Outline.of (textOf o.2.operand.inner)) =
          ofOutline ids (Outline.of (textOf o'.2.operand.inner)) :=
        congrFun (congrFun operand σ) ids
      rw [List.map_cons, List.map_cons, readBranches, readBranches, operand, o.2.readKeyword,
        o'.2.readKeyword, kind, ih hos]

end Statement

structure WrittenWith where
  recursive : Bool
  entries : List WrittenEntry
  layout : WithLayout := {}

namespace WrittenWith

def tokens (w : WrittenWith) : List Token :=
  withTokens w.recursive w.entries w.layout

def content (w : WrittenWith) : Bool × List (Text × Statement.Reader) :=
  (w.recursive && !w.entries.isEmpty, w.entries.map WrittenEntry.content)

end WrittenWith

namespace WrittenStatement

/-- What the reader makes of the parts of a statement, but for the ids. -/
structure Content where
  front : Bool × List (Text × Statement.Reader)
  select : WrittenSelect.Content
  operations : List (SetOperation × Statement.Reader)

def front (s : WrittenStatement) : WrittenWith :=
  ⟨s.recursive, s.entries, s.layout⟩

def content (s : WrittenStatement) : Content where
  front := s.front.content
  select := s.select.content
  operations := s.operations.content

variable {s s' : WrittenStatement}

theorem read_congr (h : s.content = s'.content) {g₁ g₂ g₁' g₂' : Text}
    (hg₁ : ∀ c ∈ g₁, isBlank c = true) (hg₂ : ∀ c ∈ g₂, isBlank c = true)
    (hg₁' : ∀ c ∈ g₁', isBlank c = true) (hg₂' : ∀ c ∈ g₂', isBlank c = true) :
    Statement.reader (g₁ ++ (s.text ++ g₂)) = Statement.reader (g₁' ++ (s'.text ++ g₂')) := by
  obtain ⟨front, select, operations⟩ := Content.mk.inj h
  obtain ⟨recursive, entries⟩ := Prod.mk.inj front
  have recursive : (s.recursive && !s.entries.isEmpty) = (s'.recursive && !s'.entries.isEmpty) :=
    recursive
  have entries : s.entries.map WrittenEntry.content = s'.entries.map WrittenEntry.content := entries
  funext σ ids
  rw [Statement.reader, Statement.reader, Statement.read, Statement.read, s.outline_text hg₁ hg₂,
    s'.outline_text hg₁' hg₂', Statement.ofOutline_select, Statement.ofOutline_select,
    Statement.readTables_congr ids entries, Statement.readBranches_congr ids operations,
    WrittenSelect.read_congr select, recursive]

theorem reader_text_congr (h : s.content = s'.content) :
    Statement.reader s.text = Statement.reader s'.text := by
  have :=
    read_congr h (List.forall_mem_nil _) (List.forall_mem_nil _) (List.forall_mem_nil _)
      (List.forall_mem_nil _)
  simpa using this

/-- The first operand of the operations alone. -/
def first (s : WrittenStatement) : WrittenStatement :=
  { s with operations := [] }

theorem first_congr (h : s.content = s'.content) : s.first.content = s'.first.content :=
  congrArg (fun c : Content => { c with operations := [] }) h

end WrittenStatement

theorem stable_entry {name : String} (hname : IsIdentifier name) {ls : List Lexeme}
    (h : Stable ls WrittenStatement.tokens WrittenStatement.content) :
    Stable (.fixed name :: (wordLexemes "AS" WrittenAlias.isKeyword_as ++ .fixed "(" :: .line ::
      (ls ++ [.line, .fixed ")"]))) WrittenEntry.tokens WrittenEntry.content := by
  obtain ⟨i, hi⟩ := hname
  obtain ⟨m, h⟩ := h
  obtain ⟨s₀, -, hs₀⟩ := h _ (.printed ls)
  -- What is read of the inside is that of the generated layout, so the content can be named before
  -- `t` is given.
  refine ⟨(i.text, Statement.reader s₀.text), fun t ht => ?_⟩
  obtain ⟨t₁, rfl, h₁⟩ := ht.exists_of_fixed
  obtain ⟨u₁, t₂, rfl, h₂, h₃⟩ := h₁.exists_of_append
  obtain ⟨word, rfl⟩ := h₂.exists_word
  obtain ⟨t₃, rfl, h₄⟩ := h₃.exists_of_fixed
  obtain ⟨opening, t₄, rfl, h₅⟩ := h₄.exists_of_blank
  obtain ⟨u₂, t₅, rfl, h₆, h₇⟩ := h₅.exists_of_append
  obtain ⟨closing, t₆, rfl, h₈⟩ := h₇.exists_of_blank
  obtain ⟨s, rfl, hs⟩ := h u₂ h₆
  refine ⟨⟨i, s.text, closed_textOf _, word.before, word.word, word.after, opening, closing, .line⟩,
    ?_, ?_⟩
  · rw [h₈.eq_of_fixed, ← hi]
    simp [WrittenEntry.tokens, WrittenEntry.inside, WordGap.tokens, WrittenStatement.text]
  · have :=
      WrittenStatement.read_congr (hs.trans hs₀.symm) opening.isGap.2 closing.isGap.2
        (List.forall_mem_nil _)
      (List.forall_mem_nil _)
    rw [List.nil_append, List.append_nil] at this
    exact congrArg (Prod.mk i.text) this

theorem Relaid.exists_apart {t : Text} (h : Relaid [.fixed ",", .line] t) :
    ∃ g : Gap, textOf [Token.comma, g.token] = t := by
  obtain ⟨t, rfl, h₁⟩ := h.exists_of_fixed
  obtain ⟨g, t, rfl, h₂⟩ := h₁.exists_of_blank
  exact ⟨g, by simp [h₂.eq_nil]⟩

/-- The entries of a series, each with the gap in front of it. -/
def entriesOf (x : Series Gap WrittenEntry) : List WrittenEntry :=
  x.rest.map fun next => { next.2 with apart := next.1 }

theorem entriesTokens_entriesOf (x : Series Gap WrittenEntry) :
    entriesTokens x.first (entriesOf x) =
    x.tokens (fun g => [Token.comma, g.token]) WrittenEntry.tokens := by
  obtain ⟨first, rest⟩ := x
  rw [entriesOf, Series.tokens]
  induction rest generalizing first with
  | nil => simp [entriesTokens]
  | cons next rest ih =>
    have head : entriesTokens { next.2 with apart := next.1 } (rest.map fun next =>
      { next.2 with apart := next.1 }) =
        next.2.tokens ++ _ := ih { next.2 with apart := next.1 }
    simp [entriesTokens, head]

theorem Stable.entries {lss : List (List Lexeme)} (hne : lss ≠ [])
    (h : ∀ ls ∈ lss, Stable ls WrittenEntry.tokens WrittenEntry.content) :
    Stable ([.fixed ",", .line].intercalate lss)
      (fun es : WrittenEntry × List WrittenEntry => entriesTokens es.1 es.2)
      fun es => (es.1 :: es.2).map WrittenEntry.content := by
  have series : Stable ([.fixed ",", .line].intercalate lss)
      (Series.tokens (fun g : Gap => [Token.comma, g.token]) WrittenEntry.tokens) fun x =>
        x.items.map WrittenEntry.content :=
    .series (fun _ ht => ht.exists_apart) hne h
  -- The gap in front of an entry is written but not read, so it is not part of the content.
  refine series.factor (fun x => (x.first, entriesOf x)) (fun x =>
    congrArg textOf (entriesTokens_entriesOf x)) fun x x' hx => ?_
  have contents (x : Series Gap WrittenEntry) : (x.first :: entriesOf x).map WrittenEntry.content =
      x.items.map WrittenEntry.content := by
    simp [entriesOf, Series.items, WrittenEntry.content, WrittenEntry.inside, Function.comp_def]
  rw [contents, contents, hx]

theorem stable_with (ctes : List (CommonTable Query)) {lss : List (List Lexeme)} (hne : lss ≠ [])
    (h : ∀ ls ∈ lss, Stable ls WrittenEntry.tokens WrittenEntry.content) :
    Stable (Query.withLexemes ctes ++ ([.fixed ",", .line].intercalate lss ++ [.line]))
      WrittenWith.tokens WrittenWith.content := by
  obtain ⟨m, h⟩ := Stable.entries hne h
  refine ⟨(ctes.any (·.recursive), m), fun t ht => ?_⟩
  obtain ⟨u, t₁, rfl, h₁, h₂⟩ := ht.exists_of_append
  obtain ⟨v, t₂, rfl, h₃, h₄⟩ := h₂.exists_of_append
  obtain ⟨last, t₃, rfl, h₅⟩ := h₄.exists_of_blank
  obtain ⟨keyword, u₁, rfl, h₆⟩ := h₁.exists_of_keyword
  obtain ⟨gap, u₂, rfl, h₇⟩ := h₆.exists_of_blank
  obtain ⟨⟨e, es⟩, rfl, hes⟩ := h v h₃
  cases hrec : ctes.any (·.recursive) with
  | false =>
    rw [hrec] at h₇
    refine ⟨⟨false, e :: es, { keyword := keyword, gap := gap, last := last }⟩, ?_,
      by rw [← hes]; rfl⟩
    rw [h₅.eq_nil, Relaid.eq_nil h₇]
    simp [WrittenWith.tokens, withTokens, recursionTokens]
  | true =>
    rw [hrec] at h₇
    obtain ⟨recursion, u₃, rfl, h₈⟩ := Relaid.exists_of_keyword h₇
    obtain ⟨recursionGap, u₄, rfl, h₉⟩ := h₈.exists_of_blank
    refine ⟨⟨true, e :: es, ⟨keyword, gap, recursion, recursionGap, last⟩⟩, ?_, by rw [← hes]; rfl⟩
    rw [h₅.eq_nil, h₉.eq_nil]
    simp [WrittenWith.tokens, withTokens, recursionTokens]

/-- The operations of an operand come to stand behind it on the level of its own operation. -/
theorem stable_operation (kind : SetOperation) {ls : List Lexeme}
    (h : Stable ls WrittenStatement.tokens WrittenStatement.content) :
    Stable
      (.line :: (Lexeme.phrase (operationWords kind) (isPhrase_operationWords kind).2 ++
        .line :: ls))
      WrittenOperations.tokens WrittenOperations.content := by
  obtain ⟨m, h⟩ := h
  obtain ⟨s₀, -, hs₀⟩ := h _ (.printed ls)
  refine ⟨(kind, Statement.reader s₀.first.text) :: m.operations, fun t ht => ?_⟩
  obtain ⟨g, t₁, rfl, h₁⟩ := ht.exists_of_blank
  obtain ⟨u, t₂, rfl, h₂, h₃⟩ := h₁.exists_of_append
  obtain ⟨p, rfl⟩ := h₂.exists_phrase (isPhrase_operationWords kind).1
  obtain ⟨g', t₃, rfl, h₄⟩ := h₃.exists_of_blank
  obtain ⟨s, rfl, hs⟩ := h t₃ h₄
  -- Only the first operand of `s` belongs to the new operation. Those of its own operations follow
  -- it.
  obtain ⟨operand, hinner, htokens⟩ := WrittenStatement.exists_operand (s := s.first) rfl g'
  refine ⟨(g, ⟨_, operationWords_mem kind, p, operand⟩) :: s.operations, ?_, ?_⟩
  · have whole : textOf s.tokens = textOf s.first.tokens ++ textOf s.operations.tokens :=
      s.textOf_operations
    simp [WrittenOperations.tokens, WrittenOperations.blocks, htokens, whole]
  · have kind_eq : WrittenOperation.kind ⟨_, operationWords_mem kind, p, operand⟩ = kind :=
      kind_operationWords kind
    have inner : Statement.reader (textOf operand.inner) = Statement.reader s₀.first.text := by
      rw [hinner]
      exact WrittenStatement.reader_text_congr (WrittenStatement.first_congr (hs.trans hs₀.symm))
    rw [← hs]
    exact congrArg₂ List.cons (Prod.ext kind_eq inner) rfl

theorem Stable.operations {lss : List (List Lexeme)}
    (h : ∀ ls ∈ lss, Stable ls WrittenOperations.tokens WrittenOperations.content) :
    Stable lss.flatten WrittenOperations.tokens WrittenOperations.content :=
  .flatten WrittenOperations.blocks h

theorem linesOf_append {lss : List (List Lexeme)} (hne : lss ≠ []) (lss' : List (List Lexeme)) :
    linesOf (lss ++ lss') = linesOf lss ++ lss'.flatMap (.line :: ·) := by
  obtain ⟨ls, lss, rfl⟩ := List.exists_cons_of_ne_nil hne
  rw [List.cons_append, linesOf_cons, linesOf_cons, List.flatMap_append, List.append_assoc]

theorem linesOf_front (lss : List (List Lexeme)) {lss' : List (List Lexeme)} (hne : lss' ≠ []) :
    linesOf (lss ++ lss') = lss.flatMap (· ++ [.line]) ++ linesOf lss' := by
  induction lss with
  | nil => rfl
  | cons ls lss ih =>
    obtain ⟨ls', rest, hrest⟩ :=
      List.exists_cons_of_ne_nil (List.append_ne_nil_of_right_ne_nil lss hne)
    rw [List.cons_append, List.flatMap_cons, List.append_assoc, List.append_assoc, ← ih, hrest,
      linesOf_cons, List.flatMap_cons, linesOf_cons]
    rfl

namespace Query

theorem tableLexemes_eq_map (d : Dialect) (cs : List (CommonTable Query)) :
    tableLexemes d cs = cs.map fun c =>
    .fixed c.name :: (wordLexemes "AS" WrittenAlias.isKeyword_as ++ .fixed "(" :: .line ::
      (c.query.lexemes d ++ [.line, .fixed ")"])) := by
  induction cs with
  | nil => rfl
  | cons c cs ih => rw [tableLexemes, ih, List.map_cons]

theorem branchLexemes_lines (d : Dialect) (us : List (SetBranch Query)) :
    (branchLexemes d us).flatMap (.line :: ·) = (us.map fun u => .line ::
      (Lexeme.phrase (operationWords u.kind) (isPhrase_operationWords u.kind).2 ++
        .line :: u.query.lexemes d)).flatten := by
  induction us with
  | nil => rfl
  | cons u us ih =>
    rw [branchLexemes, List.flatMap_cons, List.flatMap_cons, ih, List.map_cons,
      List.flatten_cons, ← List.append_assoc, List.cons_append]

theorem lexemes_lines {q : Query} (d : Dialect) {anchor : TableRef} {rest : List TableRef}
    (h : q.tables = anchor :: rest) : q.lexemes d =
    (optionalTableLexemes d q.ctes).flatMap (· ++ [.line]) ++ (linesOf (q.ownLexemes d anchor) ++
      (optionalBranchLexemes d q.unions).flatMap (.line :: ·)) := by
  have own : q.ownLexemes d anchor ≠ [] := by
    simp [ownLexemes]
  rw [lexemes_eq, h]
  simp only
  rw [List.append_assoc, linesOf_front _ (List.append_ne_nil_of_left_ne_nil own _),
    linesOf_append own]

variable {q : Query} {d : Dialect}

theorem stable_front (hnames : ∀ cs ∈ q.ctes, ∀ c ∈ cs, IsIdentifier c.name)
    (h : ∀ r, q.Holds r → Stable (r.lexemes d) WrittenStatement.tokens WrittenStatement.content) :
    Stable ((optionalTableLexemes d q.ctes).flatMap (· ++ [.line])) WrittenWith.tokens
      WrittenWith.content := by
  have none : Stable [] WrittenWith.tokens WrittenWith.content :=
    ⟨(false, []), fun t ht => ⟨⟨false, [], {}⟩, by rw [ht.eq_nil]; rfl, rfl⟩⟩
  cases hc : q.ctes with
  | none => exact none
  | some cs =>
    rw [optionalTableLexemes]
    split
    · exact none
    · rename_i hne
      rw [List.flatMap_singleton, List.append_assoc]
      have hne : cs ≠ [] := by simpa using hne
      refine stable_with cs (by simpa [tableLexemes_eq_map] using hne) ?_
      rw [tableLexemes_eq_map]
      exact List.forall_mem_map.mpr fun c hmem =>
        stable_entry (hnames cs hc c hmem) (h _ (.commonTable hc hmem))

theorem stable_operations (h : ∀ r, q.Holds r →
      Stable (r.lexemes d) WrittenStatement.tokens WrittenStatement.content) :
    Stable ((optionalBranchLexemes d q.unions).flatMap (.line :: ·)) WrittenOperations.tokens
      WrittenOperations.content := by
  cases hu : q.unions with
  | none => exact .operations (List.forall_mem_nil _)
  | some us =>
    rw [optionalBranchLexemes, branchLexemes_lines]
    exact .operations (List.forall_mem_map.mpr fun u hmem =>
      stable_operation u.kind (h _ (.branch hu hmem)))

/-- All of a query in whatever layout is read alike if that is so of the queries in it. -/
theorem Tidy.stable_lexemes (h : q.Tidy)
    (hheld : ∀ r, q.Holds r →
      Stable (r.lexemes d) WrittenStatement.tokens WrittenStatement.content) :
    Stable (q.lexemes d) WrittenStatement.tokens WrittenStatement.content := by
  obtain ⟨anchor, rest, htables⟩ := List.exists_cons_of_ne_nil h.some_table
  -- The three parts are laid out one by one; the content of the whole is made of theirs.
  obtain ⟨front, hfront⟩ := stable_front h.ctes hheld
  obtain ⟨own, hown⟩ := h.stable_own d (htables ▸ List.mem_cons_self : anchor ∈ q.tables)
  obtain ⟨operations, hoperations⟩ := stable_operations hheld
  refine ⟨⟨front, own, operations⟩, fun t ht => ?_⟩
  rw [lexemes_lines d htables] at ht
  obtain ⟨u, t₁, rfl, h₁, h₂⟩ := ht.exists_of_append
  obtain ⟨v, w, rfl, h₃, h₄⟩ := h₂.exists_of_append
  obtain ⟨f, rfl, rfl⟩ := hfront u h₁
  obtain ⟨s, rfl, rfl⟩ := hown v h₃
  obtain ⟨os, rfl, rfl⟩ := hoperations w h₄
  exact ⟨⟨f.recursive, f.entries, s, os, f.layout⟩,
    by simp [WrittenStatement.tokens, WrittenStatement.mainTokens, WrittenWith.tokens], rfl⟩

theorem stable_lexemes (h : ∀ r, q.Reaches r → r.Tidy) :
    Stable (q.lexemes d) WrittenStatement.tokens WrittenStatement.content := by
  induction q using nestedInduction with
  | step q ih => exact (h q .refl).stable_lexemes fun r hr => ih r hr fun s hs => h s (.head hr hs)

/-- A tidy query is read alike from its text in every layout. Only names, signs, numbers, string
literals and calls in conditions stand in all of them as they are. -/
theorem read_any_layout (h : ∀ r, q.Reaches r → r.Tidy) (d : Dialect) :
    ∃ sql, q.sql d = .ok sql ∧ printed (q.lexemes d) = sql.toList ∧ AllKept (q.lexemes d) ∧
      ∀ t, Relaid (q.lexemes d) t → ∀ (σ : Type) (ids : IdSource σ),
        Statement.read ids t = Statement.read ids sql.toList := by
  cases hsql : q.sql d with
  | error e =>
    rcases (exists_error_sql_iff q d).mp ⟨e, hsql⟩ with ⟨r, hr, htables⟩ | long
    · exact absurd htables (h r hr).some_table
    · exact absurd (fun r hr => (h r hr).isWritable d) long
  | ok sql =>
    have text := printed_lexemes hsql
    refine ⟨sql, rfl, text, allKept_lexemes h, fun t ht σ ids => ?_⟩
    -- The generated text is one of the layouts, so `m` is the content of both statements.
    obtain ⟨m, stable⟩ := stable_lexemes (d := d) h
    obtain ⟨s, rfl, hs⟩ := stable t ht
    obtain ⟨s', hs', hm⟩ := stable _ (.printed (q.lexemes d))
    have same : Statement.reader s.text = Statement.reader s'.text :=
      WrittenStatement.reader_text_congr (hs.trans hm.symm)
    rw [← text, ← hs']
    exact congrFun (congrFun same σ) ids

end Query

theorem FilterOperator.Accepts.fits {o : FilterOperator} {v : Scalar} (h : o.Accepts v) :
    o.Fits (.scalar v) := by
  cases h with
  | compare c h => exact .compare c h
  | like h => exact .like h
  | notLike h => exact .notLike h
  | isNull => exact .isNull _
  | isNotNull => exact .isNotNull _

theorem FilterCondition.Canonical.tidy {tables : List TableRef} {c : FilterCondition}
    (h : c.Canonical tables) : c.Tidy := by
  constructor
  · rcases h.place with ⟨id, hid, -, hcolumn⟩ | ⟨hid, hcall⟩
    · exact .inl ⟨id, hid, hcolumn⟩
    · exact .inr ⟨hid, .inl hcall⟩
  · obtain ⟨v, hv, accepts⟩ := h.fits
    rw [hv]
    exact accepts.fits

theorem FilterNode.Canonical.isAlternative {tables : List TableRef} {n : FilterNode}
    (h : n.Canonical tables) : n.IsAlternative := by
  cases h with
  | condition h => exact .condition h.tidy
  | group _ h => exact .group fun c hc => (h c hc).tidy

theorem FilterGroup.Canonical.twoLevel {tables : List TableRef} {f : FilterGroup}
    (h : f.Canonical tables) : f.toNode.TwoLevel := by
  cases h with
  | all _ h => exact .one (.group fun c hc => (h c hc).tidy)
  | any _ h => exact .any fun n hn => (h n hn).isAlternative

namespace Query

theorem Regular.tidy {q : Query} (h : q.Regular) : q.Tidy where
  some_table := h.flat.tables
  tables := h.flat.names
  joins := fun j hj => (h.flat.conditions j hj).2
  columns :=
    fun c hc => ⟨(h.flat.columns c hc).2.1, (h.flat.columns c hc).2.2.1,
      (h.flat.columns c hc).2.2.2⟩
  filters := fun f hf => (h.flat.filters f hf).twoLevel
  groups := fun g hg c hc => ((h.flat.groupBy g hg).columns c hc).2
  having := by
    intro g hg n hn
    obtain ⟨f, rfl, hf⟩ := (h.flat.groupBy g hg).having n hn
    exact hf.twoLevel
  orders := fun os hos o ho => ((h.flat.orderBy os hos).2 o ho).2
  limit := h.flat.limit
  offset := fun n hn => (h.flat.offset n hn).1
  ctes := fun cs hcs => (h.ctes cs hcs).2.1

theorem Composed.tidy {q : Query} (h : q.Composed) : ∀ r, q.Reaches r → r.Tidy :=
  fun r hr => (h r hr).tidy

theorem read_any_layout_sample :
    (∀ r, sample.Reaches r → r.Tidy) ∧ ∃ sql, sample.sql .sqlserver = .ok sql ∧
    printed (sample.lexemes .sqlserver) = sql.toList ∧ AllKept (sample.lexemes .sqlserver) ∧
      ∀ t, Relaid (sample.lexemes .sqlserver) t → ∀ (σ : Type) (ids : IdSource σ),
        Statement.read ids t = Statement.read ids sql.toList :=
  ⟨canonical_sample.composed.tidy, read_any_layout canonical_sample.composed.tidy .sqlserver⟩

def severalValues : Query :=
  { single "t" "a" with
    groupBy := some ⟨[⟨some "t", "a"⟩], some (.group .and [
      .condition ⟨none, "COUNT(DISTINCT a)", .compare .gt, .scalar (.int 1), .null⟩])⟩ }

theorem canonical_severalValues : severalValues.Canonical := by
  have single := flat_single (by decide : IsPlain "t") (by decide : IsPlain "a")
  have known : Known severalValues.tables "t" := ⟨_, List.mem_singleton_self _, rfl⟩
  have call : IsCall "COUNT(DISTINCT a)" :=
    ⟨"COUNT", "DISTINCT a", (by decide : IsPlain "COUNT").isLabel, by decide, rfl⟩
  refine .of_held ⟨{ single with groupBy := ?_ }, nofun, nofun⟩ nofun fun r hr => ?_
  · rintro _ ⟨⟩
    refine ⟨.inl (List.cons_ne_nil _ _), List.forall_mem_singleton.mpr
      ⟨⟨_, rfl, known⟩, (by decide : IsPlain "a").isIdentifier⟩, ?_⟩
    rintro _ ⟨⟩
    refine ⟨⟨.and, _⟩, rfl, .all (List.cons_ne_nil _ []) (List.forall_mem_singleton.mpr ?_)⟩
    exact ⟨.inr ⟨rfl, call⟩, ⟨_, rfl, .compare _ (.int _ (by decide))⟩, rfl⟩
  · cases hr with
    | commonTable h => cases h
    | branch h => cases h

def groupColumnsRead (sql : String) : Option (List String) :=
  (Statement.parse sql 1).toOption.map fun p => (p.query.conditions .having).map (·.column)

/-- A call keeps its blanks: with another blank in it a canonical query is read otherwise. -/
theorem blank_in_call : severalValues.Canonical ∧
    severalValues.sql .postgresql =
      .ok "SELECT t.a\nFROM t\nGROUP BY t.a\nHAVING COUNT(DISTINCT a) > 1" ∧
    Statement.parse "SELECT t.a\nFROM t\nGROUP BY t.a\nHAVING COUNT(DISTINCT\na) > 1" 1 ≠
      Statement.parse "SELECT t.a\nFROM t\nGROUP BY t.a\nHAVING COUNT(DISTINCT a) > 1" 1 := by
  have sql : severalValues.sql .postgresql =
      .ok "SELECT t.a\nFROM t\nGROUP BY t.a\nHAVING COUNT(DISTINCT a) > 1" := by
    have test : FilterNode.sql? severalValues.tables (.group .and [
        .condition ⟨none, "COUNT(DISTINCT a)", .compare .gt, .scalar (.int 1), .null⟩]) =
          some "COUNT(DISTINCT a) > 1" := by
      rw [FilterNode.sql?, FilterNode.partsSql, FilterNode.partsSql]
      decide +kernel
    have lines : severalValues.groupLines = ["GROUP BY t.a", "HAVING COUNT(DISTINCT a) > 1"] :=
      congrArg (fun s : Option String => "GROUP BY t.a" :: (s.map ("HAVING " ++ ·)).toList) test
    rw [sql_of_own rfl rfl rfl (by decide), ownLines, lines]
    decide +kernel
  refine ⟨canonical_severalValues, sql, fun h => ?_⟩
  have line : groupColumnsRead "SELECT t.a\nFROM t\nGROUP BY t.a\nHAVING COUNT(DISTINCT\na) > 1" =
      some ["COUNT(DISTINCT\na)"] := by
    decide +kernel
  have space : groupColumnsRead "SELECT t.a\nFROM t\nGROUP BY t.a\nHAVING COUNT(DISTINCT a) > 1" =
      some ["COUNT(DISTINCT a)"] := by
    decide +kernel
  rw [groupColumnsRead, h, ← groupColumnsRead, space] at line
  exact absurd line (by decide)

end Query

end SqlCanvas
