import SqlCanvas.Proofs.Grammar.Clause
import SqlCanvas.Proofs.Statement.Reading
import SqlCanvas.Proofs.Statement.Steps

/-!
# Written SELECT statements

A whole `SELECT`: its head, the select list, the table behind `FROM`, joins and clauses. The list
and the bodies of the clauses are left as they are. `WrittenSelect.read_eq` says what the reader
makes of the text: tables and joins enter one by one with the ids that are handed out, and the query
is put together from the list and the clauses.
-/

namespace SqlCanvas

open Text Nesting Pattern

theorem Solid.refuses_word {ts : List Token} (hts : Solid ts) {k : String} (hk : IsKeyword k.toList)
    (h : ∀ a ∈ ts.head?, a.Avoids [k]) {q : Pattern} (hq : q.Breaks) {b : Option Char} {r : Text}
    (hr : Halts Text.isWord r) : ((Pattern.word k).seq q).Refuses b (textOf ts ++ r) := by
  obtain ⟨a, ts, rfl⟩ := List.exists_cons_of_ne_nil hts.ne_nil
  rw [textOf_cons, List.append_assoc]
  have ha := h a rfl
  cases a with
  | word w hw =>
    refine refuses_word_seq hk hw.2 (halts_isWord_textOf (fun a ha => ?_) hr)
      (ha k (List.mem_singleton_self k)) hq
    simpa [Token.isWord] using ((List.isChain_cons.mp hts.chain).1 a ha).1
  | gap | mark | shelter => exact (refuses_word_of_halts hk (Token.halts_isWord rfl _)).seq_left _

namespace Select

/-- `DISTINCT` in front of a list, if it is there. -/
def markTokens : Option (Spelling "DISTINCT" × Gap) → List Token
  | some (d, g) => [d.token, g.token]
  | none => []

theorem exists_head (s : Spelling "SELECT") (gap : Gap) (mark : Option (Spelling "DISTINCT" × Gap))
    {r : Text} (hr : Halts isBlank r) (hunmarked : mark = none →
      ∀ b, ((word "DISTINCT").seq blank).Refuses b r) :
    ∃ m, selectHead.match? (s.text ++ (gap.text ++ (textOf (markTokens mark) ++ r))) = some m ∧
      m.stop = (s.text ++ (gap.text ++ textOf (markTokens mark))).length ∧
        (m.capture? 1).isSome = mark.isSome := by
  have marked (b : Option Char) : ∃ m : Marking,
      (Pattern.maybe (.capture 1 (.seq (word "DISTINCT") blank))).Takes b
        (textOf (markTokens mark)) r m ∧ (m.find? 1).isSome = mark.isSome := by
    cases mark with
    | none =>
      have := (hunmarked rfl b).capture 1
      exact ⟨[], takes_maybe_nothing this, rfl⟩
    | some d =>
      refine ⟨[(1, d.1.text ++ d.2.text)], ?_, rfl⟩
      have := (takes_word (b := b) d.1.spells (r := d.2.text ++ r)).seq (takes_blank d.2.isGap hr)
      have := (this.capture 1).maybe
      simpa [markTokens] using this
  obtain ⟨m, htakes, hm⟩ := marked (lastChar (lastChar none s.text) gap.text)
  have halts : Halts isBlank (textOf (markTokens mark) ++ [] ++ r) := by
    cases mark with
    | none => simpa [markTokens] using hr
    | some d => simpa [markTokens] using d.1.isName.halts_isBlank _
  have taken := Takes.all_cons (u := []) (takes_blanks (b := none) (g := []) (by simp)
      (by simpa using s.isName.halts_isBlank _))
    (Takes.all_cons (takes_word s.spells)
      (Takes.all_cons (takes_blank gap.isGap halts)
        (Takes.all_cons (v := []) (r := r) htakes takes_all_nil)))
  obtain ⟨found, hfound, hstop, hcapture⟩ := match?_start_of_takes (w := selectHead)
    (t := s.text ++ (gap.text ++ (textOf (markTokens mark) ++ r))) rfl (by simp) taken
  refine ⟨found, hfound, ?_, ?_⟩
  · rw [hstop]
    simp
  · rw [hcapture]
    simpa using hm

theorem shy_fromTable : fromTable.shy = true := by
  decide

/-- What is taken for a table and its `FROM` is found behind tokens without the word. -/
theorem exists_fromTable {ts : List Token} (hts : Solid ts) (hmiss : ∀ a ∈ ts, a.Misses ["FROM"])
    (gap : Gap) {u r : Text} {m : Marking} (hu : u ≠ [])
    (htakes : (∀ c ∈ lastChar none (textOf ts ++ gap.text), isWord c = false) →
      fromTable.Takes (lastChar none (textOf ts ++ gap.text)) u r m) :
    ∃ o, (textOf ts ++ gap.text ++ (u ++ r)).findTopLevel? fromTable = some o ∧
      o.start = (textOf ts ++ gap.text).length ∧ o.stop = (textOf ts ++ gap.text ++ u).length ∧
        ∀ slot, o.capture? slot = m.find? slot := by
  have skipped :=
    (skips_of_misses (b := none) shy_fromTable startsWith_fromTable.ledBy hts.chain hts.last hmiss
      (gap.isGap.halts_isWord (u ++ r))).append (skips_of_blank startsWith_fromTable gap.isGap.2)
  obtain ⟨o, ho, hstart, hstop, hcapture⟩ := findTopLevel?_of_takes shy_fromTable skipped hu
    (htakes (by simpa using not_isWord_lastChar_gap gap.isGap))
  exact ⟨o, ho, hstart, hstop.trans List.length_append.symm, hcapture⟩

/-- The table behind `FROM` is found whatever stands behind it, as long as that does not look like
an alias. -/
theorem exists_anchor {ts : List Token} (hts : Solid ts) (hmiss : ∀ a ∈ ts, a.Misses ["FROM"])
    (gap : Gap) (source : Spelling "FROM") (tableGap : Gap) (table : WrittenTable) {r : Text}
    (hr : TableEnd r) :
    ∃ o,
    (textOf ts ++ gap.text ++
      (source.text ++ (tableGap.text ++ textOf table.tokens) ++ r)).findTopLevel?
        fromTable = some o ∧ o.start = (textOf ts ++ gap.text).length ∧
      o.stop =
        (textOf ts ++ gap.text ++ (source.text ++ (tableGap.text ++ textOf table.tokens))).length ∧
        o.captured 1 = table.name.text ∧ o.capture? 2 = table.aliasText := by
  obtain ⟨o, ho, hstart, hstop, hcapture⟩ :=
    exists_fromTable hts hmiss gap (by simp [source.isName.1])
      fun hb => WrittenJoin.takes_fromTable source tableGap table hb hr
  refine ⟨o, ho, hstart, hstop, ?_, ?_⟩
  · rw [Occurrence.captured, hcapture]
    cases table.aliasText <;> rfl
  · rw [hcapture]
    cases table.aliasText <;> rfl

end Select

/-- What the select list has to do without. -/
def columnKeywords : List String :=
  ["DISTINCT", "FROM", "UNION", "INTERSECT", "EXCEPT"]

structure WrittenSelect where
  select : Spelling "SELECT"
  gap : Gap
  distinct : Option (Spelling "DISTINCT" × Gap)
  columns : List Token
  solid_columns : Solid columns
  avoids_columns : ∀ a ∈ columns, a.Avoids columnKeywords
  sourceGap : Gap
  source : Spelling "FROM"
  tableGap : Gap
  table : WrittenTable
  joins : WrittenJoins
  clauses : WrittenClauses

namespace WrittenSelect

def distinctTokens (s : WrittenSelect) : List Token :=
  match s.distinct with
  | some (d, g) => [d.token, g.token]
  | none => []

def headTokens (s : WrittenSelect) : List Token :=
  s.select.token :: s.gap.token :: s.distinctTokens

def sourceTokens (s : WrittenSelect) : List Token :=
  s.source.token :: s.tableGap.token :: s.table.tokens

def tokens (s : WrittenSelect) : List Token :=
  s.headTokens ++ (s.columns ++ (s.sourceGap.token ::
    (s.sourceTokens ++ (s.joins.tokens ++ s.clauses.tokens))))

def text (s : WrittenSelect) : Text :=
  textOf s.tokens

theorem solid_listed (s : WrittenSelect) : Solid (s.headTokens ++ s.columns) := by
  obtain ⟨select, gap, distinct, columns, solid, -⟩ := s
  cases distinct with
  | none => exact select.solid.spaced solid gap
  | some d => exact select.solid.spaced (d.1.solid.spaced solid d.2) gap

theorem solid_source (s : WrittenSelect) : Solid s.sourceTokens :=
  s.source.solid.spaced s.table.solid s.tableGap

theorem solid_blocks {A : Type} {k : Blocks A}
    (h : ∀ a, Solid (k.head a ++ k.body a)) {ts : List Token} (hts : Solid ts)
    (xs : List (Gap × A)) :
    Solid (ts ++ k.tokens xs) := by
  induction xs generalizing ts with
  | nil => simpa using hts
  | cons x xs ih =>
    obtain ⟨g, a⟩ := x
    have := ih (hts.spaced (h a) g)
    simpa using this

theorem solid_joined (s : WrittenSelect) : Solid (s.sourceTokens ++ s.joins.tokens) :=
  solid_blocks (k := WrittenJoins.blocks none) (fun j => j.solid) s.solid_source s.joins

theorem solid (s : WrittenSelect) : Solid s.tokens := by
  have := solid_blocks (k := WrittenClauses.blocks) (fun c => c.solid_tokens)
    (s.solid_listed.spaced s.solid_joined s.sourceGap) s.clauses
  simpa [tokens, WrittenClauses.tokens] using this

theorem avoids_blocks {A : Type} {k : Blocks A} {keywords : List String}
    (h : ∀ a, ∀ x ∈ k.head a ++ k.body a, x.Avoids keywords) (xs : List (Gap × A)) :
    ∀ x ∈ k.tokens xs, x.Avoids keywords := by
  intro x hx
  obtain ⟨⟨g, a⟩, -, hx⟩ := List.mem_flatMap.mp hx
  rcases List.mem_cons.mp hx with rfl | hx
  · trivial
  · exact h a x hx

theorem avoids (s : WrittenSelect) : ∀ a ∈ s.tokens, a.Avoids ["UNION", "INTERSECT", "EXCEPT"] := by
  intro a ha
  simp only [tokens, headTokens, sourceTokens, List.mem_append, List.mem_cons] at ha
  rcases ha with (rfl | rfl | ha) | ha | rfl | (rfl | rfl | ha) | ha | ha
  · exact s.select.avoids (by decide)
  · trivial
  · cases h : s.distinct with
    | none => simp [distinctTokens, h] at ha
    | some d =>
      have ha : a = d.1.token ∨ a = d.2.token := by simpa [distinctTokens, h] using ha
      rcases ha with rfl | rfl
      · exact d.1.avoids (by decide)
      · trivial
  · exact (s.avoids_columns a ha).mono (by decide)
  · trivial
  · exact s.source.avoids (by decide)
  · trivial
  · exact (s.table.avoids a ha).mono (by decide)
  · exact (avoids_blocks (k := WrittenJoins.blocks none) (fun j => j.avoids) s.joins a ha).mono
      (by decide)
  · exact avoids_blocks (k := WrittenClauses.blocks) (fun c => c.avoids_tokens) s.clauses a ha

theorem exists_head (s : WrittenSelect) (r : Text) (hr : Halts Text.isWord r) :
    ∃ m, Select.selectHead.match? (textOf s.headTokens ++ (textOf s.columns ++ r)) = some m ∧
      m.stop = (textOf s.headTokens).length ∧ (m.capture? 1).isSome = s.distinct.isSome := by
  have head : ∀ a ∈ s.columns.head?, a.Avoids ["DISTINCT"] := fun a ha =>
    (s.avoids_columns a (List.mem_of_mem_head? ha)).mono (by decide)
  have := Select.exists_head s.select s.gap s.distinct (s.solid_columns.halts_isBlank r)
    fun _ _ => s.solid_columns.refuses_word (by decide) head breaks_blank hr
  have same : s.distinctTokens = Select.markTokens s.distinct := rfl
  simpa [headTokens, same] using this

def front (s : WrittenSelect) : Text :=
  textOf (s.headTokens ++ s.columns) ++ s.sourceGap.text ++ textOf s.sourceTokens

theorem text_eq (s : WrittenSelect) :
    s.text = s.front ++ (textOf s.joins.tokens ++ textOf s.clauses.tokens) := by
  simp [text, tokens, front]

theorem after_front (s : WrittenSelect) : outside.after s.front = outside := by
  have : s.front = textOf (s.headTokens ++ (s.columns ++ s.sourceGap.token :: s.sourceTokens)) := by
    simp [front]
  rw [this]
  exact (closed_textOf _).after 0

theorem exists_anchor_before (s : WrittenSelect) {r : Text} (hr : TableEnd r) :
    ∃ o, (s.front ++ r).findTopLevel? Select.fromTable = some o ∧
      o.start = (textOf (s.headTokens ++ s.columns) ++ s.sourceGap.text).length ∧
      o.stop = s.front.length ∧ o.captured 1 = s.table.name.text ∧
      o.capture? 2 = s.table.aliasText := by
  have listed : ∀ a ∈ s.headTokens ++ s.columns, a.Avoids ["FROM"] := by
    intro a ha
    simp only [headTokens, List.mem_append, List.mem_cons] at ha
    rcases ha with (rfl | rfl | ha) | ha
    · exact s.select.avoids (by decide)
    · trivial
    · cases h : s.distinct with
      | none => simp [distinctTokens, h] at ha
      | some d =>
        have ha : a = d.1.token ∨ a = d.2.token := by simpa [distinctTokens, h] using ha
        rcases ha with rfl | rfl
        · exact d.1.avoids (by decide)
        · trivial
    · exact (s.avoids_columns a ha).mono (by decide)
  have :=
    Select.exists_anchor s.solid_listed (fun a ha => (listed a ha).misses) s.sourceGap s.source
      s.tableGap
    s.table hr
  simpa [front, sourceTokens] using this

theorem exists_anchor (s : WrittenSelect) :
    ∃ o, s.text.findTopLevel? Select.fromTable = some o ∧
      o.start = (textOf (s.headTokens ++ s.columns) ++ s.sourceGap.text).length ∧
      o.stop = s.front.length ∧ o.captured 1 = s.table.name.text ∧
      o.capture? 2 = s.table.aliasText := by
  rw [text_eq]
  exact s.exists_anchor_before (s.joins.tableEnd s.clauses.tableEnd)

theorem skips_joins (s : WrittenSelect) (b : Option Char) {r : Text} (hr : Halts Text.isWord r) :
    Skips Select.clauseKeyword b (textOf s.joins.tokens) r := by
  cases h : s.joins with
  | nil => exact skips_nil
  | cons j js =>
    obtain ⟨g, j⟩ := j
    have solid : Solid (j.tokens ++ (WrittenJoins.tokens js)) :=
      solid_blocks (k := WrittenJoins.blocks none) (fun j => j.solid) j.solid js
    have avoid : ∀ a ∈ j.tokens ++ WrittenJoins.tokens js, a.Avoids bodyKeywords := by
      intro a ha
      rcases List.mem_append.mp ha with ha | ha
      · exact j.avoids a ha
      · exact avoids_blocks (k := WrittenJoins.blocks none) (fun j => j.avoids) js a ha
    have :=
      (WrittenClauses.skips_gap (b := b) (r := textOf (j.tokens ++ WrittenJoins.tokens js) ++ r)
        g.isGap.2).append (WrittenClauses.skips_tokens solid avoid (lastChar b g.text) hr)
    simpa using this

def readClauses (s : WrittenSelect) : Select.Clauses where
  bodies := s.clauses.map (·.2.entry)
  start := s.front.length + (textOf s.joins.tokens ++ textOf (blankTokens s.clauses.leadGap)).length

theorem splitClauses_text (s : WrittenSelect) :
    Select.splitClauses s.text s.front.length = s.readClauses := by
  rw [text_eq, WrittenClauses.splitClauses_eq s.front s.after_front fun b r hr =>
    s.skips_joins b hr]
  rfl

theorem columnsText_eq (s : WrittenSelect) {m : Match} {o : Occurrence}
    (hm : m.stop = (textOf s.headTokens).length)
    (ho : o.start = (textOf (s.headTokens ++ s.columns) ++ s.sourceGap.text).length) :
    Select.columnsText? s.text (some m) (some o) = some (textOf s.columns) := by
  have sliced := Text.slice_append (textOf s.headTokens) (textOf s.columns ++ s.sourceGap.text)
    (textOf s.sourceTokens ++ (textOf s.joins.tokens ++ textOf s.clauses.tokens))
  have trimmed := s.solid_columns.trim (g := []) (by simp) s.sourceGap.isGap.2
  have whole : s.text = textOf s.headTokens ++ (textOf s.columns ++ s.sourceGap.text ++
      (textOf s.sourceTokens ++ (textOf s.joins.tokens ++ textOf s.clauses.tokens))) := by
    simp [text, tokens]
  have stop : o.start =
      (textOf s.headTokens).length + (textOf s.columns ++ s.sourceGap.text).length := by
    rw [ho]
    simp
  change some (s.text.slice m.stop o.start).trim = _
  rw [hm, stop, whole, sliced]
  exact congrArg some trimmed

theorem laid_joins (s : WrittenSelect) :
    Laid s.text s.readClauses.start s.front.length
      (s.text.topLevelIn Select.joinTable s.front.length s.readClauses.start)
      ((WrittenJoins.blocks s.clauses.leadGap).nextGap s.joins)
      ((WrittenJoins.blocks s.clauses.leadGap).pieces s.joins) := by
  have cuts := WrittenJoins.cuts s.clauses.leadGap s.joins (lastChar none s.front)
  have laid := laid_of_cuts WrittenJoins.shy_joinTable cuts s.front (textOf s.clauses.behindGap)
  have found := Text.topLevelIn_eq Select.joinTable s.front
    (textOf s.joins.tokens ++ textOf (blankTokens s.clauses.leadGap)) (textOf s.clauses.behindGap)
  rw [s.after_front] at found
  rw [← found] at laid
  have whole : s.text =
    s.front ++ (textOf s.joins.tokens ++ textOf (blankTokens s.clauses.leadGap) ++
      textOf s.clauses.behindGap) := by
    rw [text_eq, WrittenClauses.tokens_eq]
    simp
  rw [whole]
  exact laid

/-- A found join and the text behind it are those of a written one. -/
def Fits (x : Occurrence × Text) (j : Gap × WrittenJoin) : Prop :=
  (∀ slot, x.1.capture? slot = j.2.marking.find? slot) ∧
    ∃ g : Text, (∀ c ∈ g, isBlank c = true) ∧ x.2 = textOf j.2.onTokens ++ g

theorem fits_of_laid {t : Text} {stop start : Nat} {os : List Occurrence} {u : Text}
    {trail : Option Gap} {js : WrittenJoins}
    (h : Laid t stop start os u ((WrittenJoins.blocks trail).pieces js)) :
    List.Forall₂ Fits (Select.joinSegments t stop os) js := by
  induction js generalizing start os u with
  | nil =>
    cases os with
    | nil => exact .nil
    | cons => exact h.elim
  | cons j js ih =>
    obtain ⟨g, j⟩ := j
    cases os with
    | nil => exact h.elim
    | cons o os =>
      obtain ⟨-, -, hmark, hlaid⟩ := h
      have blank := (WrittenJoins.blocks trail).isBlank_nextGap js
      have rest := ih hlaid
      cases os with
      | nil =>
        cases js with
        | cons => exact hlaid.elim
        | nil => exact .cons ⟨hmark, _, blank, hlaid.2⟩ .nil
      | cons next os =>
        cases js with
        | nil => exact hlaid.elim
        | cons j' js => exact .cons ⟨hmark, _, blank, hlaid.2.1⟩ rest

theorem fits_joins (s : WrittenSelect) :
    List.Forall₂ Fits (Select.joinSegments s.text s.readClauses.start
      (s.text.topLevelIn Select.joinTable s.front.length s.readClauses.start)) s.joins :=
  fits_of_laid s.laid_joins

end WrittenSelect

/-- A table enters under the next id. -/
def Select.Sources.enter (sources : Select.Sources) (id : String) (t : WrittenTable) :
    Select.Sources :=
  { sources with
    tables := sources.tables ++ [Select.newTable id t.name.text t.aliasText]
    scope := { sources.scope with
      lookup := sources.scope.lookup.register t.name.text t.aliasText id } }

namespace WrittenJoin

/-- The comparisons of a join, each seen from the table it reads from. -/
def predicates (j : WrittenJoin) (lookup : Lookup) (joined : String) : List Select.OnPredicate :=
  match j.on with
  | none => []
  | some o =>
    (o.conditions.items.filterMap fun c => Select.OnPredicate.read? lookup c.text).map
      (·.oriented joined)

def joinKind (j : WrittenJoin) : JoinKind :=
  (j.kind.map WrittenKind.kind).getD .inner

def readsFrom (j : WrittenJoin) (scope : Scope) (joined : String) : Option String :=
  (nonempty? (Select.sourceTable scope.anchor (j.predicates scope.lookup joined))).or scope.anchor

theorem readOn_eq (j : WrittenJoin) (scope : Scope) (joined : String) {g : Text}
    (hg : ∀ c ∈ g, isBlank c = true) :
    Select.readOn scope joined (textOf j.onTokens ++ g) =
      ((j.predicates scope.lookup joined).map (·.toCondition), j.readsFrom scope joined) := by
  cases h : j.on with
  | none =>
    have tokens : textOf j.onTokens ++ g = g := by simp [onTokens, h]
    rw [tokens, Select.readOn, Select.match?_onClause_blank hg, readsFrom, predicates, h]
    rfl
  | some o =>
    have tokens : textOf j.onTokens ++ g = textOf o.tokens ++ g := by simp [onTokens, h]
    obtain ⟨m, hm, hstrip⟩ := o.match?_onClause hg
    rw [tokens, Select.readOn, hm, readsFrom, predicates, h]
    simp only [hstrip, Conjunction.splitAnd_text, List.filterMap_map]
    rfl

end WrittenJoin

/-- A join enters: its table under one id and the join itself under another. -/
def Select.Sources.join (sources : Select.Sources) (table id : String) (j : WrittenJoin) :
    Select.Sources :=
  let sources := sources.enter table j.table
  { sources with
    joins := sources.joins ++ [{
      id := id
      fromTableId := (j.readsFrom sources.scope table).getD ""
      toTableId := table
      kind := j.joinKind
      conditions := (j.predicates sources.scope.lookup table).map (·.toCondition) }] }

def Select.Sources.joinAll (sources : Select.Sources) : List String → WrittenJoins → Select.Sources
  | table :: id :: ids, (_, j) :: js => (sources.join table id j).joinAll ids js
  | _, _ => sources

/-- The stems of the ids that some joins take. -/
def joinStems : WrittenJoins → List String
  | [] => []
  | _ :: js => "table" :: "join" :: joinStems js

namespace WrittenSelect

variable {σ : Type} (ids : IdSource σ)

/-- The stems of the ids that a statement takes, in order. -/
def stems (s : WrittenSelect) : List String :=
  "table" :: joinStems s.joins

def startSources (s : WrittenSelect) (id : String) : Select.Sources :=
  let sources := Select.Sources.enter ⟨[], [], .empty⟩ id s.table
  { sources with scope := { sources.scope with anchor := some id } }

def sources (s : WrittenSelect) : List String → Select.Sources
  | [] => ⟨[], [], .empty⟩
  | id :: ids => (s.startSources id).joinAll ids s.joins

theorem readJoin_fits {sources : Select.Sources} {x : Occurrence × Text} {j : Gap × WrittenJoin}
    (h : Fits x j) (st : σ) :
    (Select.readJoin ids sources x.1 x.2).run st =
      let (table, st) := ids.next "table" st
      let (id, st) := ids.next "join" st
      (.ok (sources.join table id j.2), st) := by
  obtain ⟨o, segment⟩ := x
  obtain ⟨g, j⟩ := j
  obtain ⟨hmark, g', hg', rfl⟩ := h
  have name : o.captured 2 = j.table.name.text := by
    rw [Occurrence.captured, hmark, WrittenJoin.marking]
    cases j.table.aliasText <;> rfl
  have aliasName : o.capture? 3 = j.table.aliasText := by
    rw [hmark, WrittenJoin.marking]
    cases j.table.aliasText with
    | some => rfl
    | none => cases j.kind <;> rfl
  have captured : o.capture? 1 = j.kind.map fun k => textOf k.phrase.tokens := by
    rw [hmark, WrittenJoin.marking]
    cases j.table.aliasText <;> cases j.kind <;> rfl
  have on (scope : Scope) (joined : String) := j.readOn_eq scope joined hg'
  simp only [Select.readJoin, name, aliasName, on, captured]
  cases h : j.kind with
  | none =>
    have kind : j.joinKind = .inner := by rw [WrittenJoin.joinKind, h]; rfl
    simp only [Select.Sources.join, kind]
    rfl
  | some k =>
    have kind : j.joinKind = k.kind := by rw [WrittenJoin.joinKind, h]; rfl
    simp only [Select.Sources.join, kind, Option.map_some, k.readKeyword]
    rfl

theorem readJoins_fits {xs : List (Occurrence × Text)} {js : WrittenJoins}
    (h : List.Forall₂ Fits xs js) (sources : Select.Sources) (st : σ) :
    (Select.readJoins ids sources xs).run st =
      let (names, st) := ids.nextAll (joinStems js) st
      (.ok (sources.joinAll names js), st) := by
  induction h generalizing sources st with
  | nil => rfl
  | @cons x j xs js hx _ ih =>
    rw [Select.readJoins, Reading.run_bind_ok (readJoin_fits ids hx st)]
    exact ih _ _

theorem readAnchor_eq (s : WrittenSelect) {o : Occurrence} (h₁ : o.captured 1 = s.table.name.text)
    (h₂ : o.capture? 2 = s.table.aliasText) (st : σ) :
    (Select.readAnchor ids (some o)).run st =
      let (id, st) := ids.next "table" st
      (.ok (s.startSources id), st) := by
  simp only [Select.readAnchor, h₁, h₂]
  rfl

/-- The query that a statement stands for, once its tables and joins have their ids. -/
def query (s : WrittenSelect) (sources : Select.Sources) : Except ReadError Query :=
  let columnsText := some (textOf s.columns)
  (Select.readParts sources.scope columnsText s.readClauses).map fun rest =>
    { Select.assemble none columnsText s.readClauses sources rest with
      distinct := s.distinct.isSome }

theorem read_eq (s : WrittenSelect) (st : σ) :
    (Select.read ids s.text).run st =
      let (names, st) := ids.nextAll s.stems st
      (s.query (s.sources names), st) := by
  obtain ⟨o, ho, hstart, hstop, h₁, h₂⟩ := s.exists_anchor
  have halts : Halts Text.isWord (s.sourceGap.text ++ (textOf s.sourceTokens ++
      (textOf s.joins.tokens ++ textOf s.clauses.tokens))) := s.sourceGap.isGap.halts_isWord _
  obtain ⟨m, hm, hmstop, hdistinct⟩ := s.exists_head _ halts
  have head : Select.selectHead.match? s.text = some m := by
    rw [← hm]
    congr 1
    simp [text, tokens]
  have anchor := s.readAnchor_eq ids h₁ h₂ st
  have joins := readJoins_fits ids s.fits_joins (s.startSources (ids.next "table" st).1)
    (ids.next "table" st).2
  have rest (sources : Select.Sources) :
      Select.readRest s.text (some o) s.readClauses sources = s.query sources := by
    rw [Select.readRest_eq, head]
    simp only [s.columnsText_eq hmstop hstart]
    rw [query]
    cases Select.readParts sources.scope (some (textOf s.columns)) s.readClauses with
    | error e => rfl
    | ok parts => simp only [Except.map, Select.assemble, Option.bind_some, hdistinct]
  rw [Select.read, ho]
  simp only [Option.map_some, Option.getD_some, hstop, s.splitClauses_text]
  rw [Reading.run_bind_ok anchor, Reading.run_bind_ok joins]
  change (Select.readRest _ _ _ _, _) = _
  rw [rest]
  rfl

end WrittenSelect

end SqlCanvas
