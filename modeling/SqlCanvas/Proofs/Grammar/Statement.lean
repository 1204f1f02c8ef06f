import SqlCanvas.Proofs.Grammar.Operation
import SqlCanvas.Proofs.Text.Infix
import SqlCanvas.Statement.Read

/-!
# Written statements

A whole statement: a `WITH` clause, a `SELECT` and set operations. `WrittenStatement.outline_text`
says how it is cut.
-/

namespace SqlCanvas

open Text Nesting Pattern

theorem Outline.of_eq (sql : Text) : Outline.of sql =
    let withClause := splitWith (stripTerminator sql)
    let tables := withClause.tables.map fun entry => (entry.1, Outline.of entry.2)
    let keyword := (firstKeyword? withClause.rest).getD "SELECT".toList
    if keyword = "SELECT".toList then
      let split := splitSetOperations withClause.rest
      .mk tables withClause.recursive keyword split.1.stripParens
        (split.2.map fun branch => (branch.1, Outline.of branch.2.stripParens))
    else .mk tables withClause.recursive keyword withClause.rest [] := by
  rw [Outline.of]
  simp only [List.map_attach_eq_pmap, List.pmap_eq_map]

theorem Text.dropEndWhile_append {drop : Char → Bool} {t : Text} (ht : t ≠ [])
    (hlast : ∀ c ∈ t.getLast?, drop c = false) (r : Text) :
    (t ++ r).dropEndWhile drop = t ++ r.dropEndWhile drop := by
  obtain ⟨u, c, rfl⟩ : ∃ u c, t = u ++ [c] := ⟨_, _, (List.dropLast_append_getLast ht).symm⟩
  have hc : drop c = false := hlast c (by simp)
  have kept : (u ++ [c]).reverse.dropWhile drop = (u ++ [c]).reverse := by simp [hc]
  rw [dropEndWhile, dropEndWhile, List.reverse_append, List.dropWhile_append, kept]
  split
  · rename_i h
    simp [List.isEmpty_iff.mp h]
  · simp

namespace Solid

variable {ts : List Token} {keywords : List String}

theorem last_ne_semicolon (hts : Solid ts) (h : ∀ a ∈ ts, a.Avoids keywords) :
    ∀ c ∈ (textOf ts).getLast?, (c == ';') = false := by
  obtain ⟨us, a, rfl⟩ : ∃ us a, ts = us ++ [a] :=
    ⟨_, _, (List.dropLast_append_getLast hts.ne_nil).symm⟩
  have ha := h a (by simp)
  intro c hc
  have hc : c ∈ a.text.getLast? := by
    simpa [List.getLast?_append_of_ne_nil _ a.text_ne_nil] using hc
  rw [beq_eq_false_iff_ne]
  rintro rfl
  cases a with
  | word w hw => exact absurd (hw.2 _ (List.mem_of_mem_getLast? hc)) (by decide)
  | gap g hg => exact absurd (hg.2 _ (List.mem_of_mem_getLast? hc)) (by decide)
  | mark d hd =>
    obtain rfl : d = ';' := by simpa [Token.text] using hc
    exact ha rfl
  | shelter s hs => exact absurd (hs.last _ hc) (by decide)

/-- Blanks and semicolons are taken away from what stands behind a solid list only. -/
theorem exists_stripTerminator (hts : Solid ts) (h : ∀ a ∈ ts, a.Avoids keywords) (r : Text) :
    ∃ r', r' <+: r ∧ SqlCanvas.stripTerminator (textOf ts ++ r) = textOf ts ++ r' := by
  have ne := hts.textOf_ne_nil
  have trimmed (r : Text) : (textOf ts ++ r).trim = textOf ts ++ r.trimEnd := by
    have start : (textOf ts ++ r).trimStart = textOf ts ++ r := by
      simpa using trimStart_append (g := []) (by simp) (hts.halts_isBlank r)
    rw [Text.trim, start]
    exact dropEndWhile_append ne hts.last_not_isBlank r
  refine ⟨((r.trimEnd).dropEndWhile (· == ';')).trimEnd, ?_, ?_⟩
  · exact (dropEndWhile_isPrefix _ _).trans
      ((dropEndWhile_isPrefix _ _).trans (dropEndWhile_isPrefix _ _))
  · rw [SqlCanvas.stripTerminator, trimmed, dropEndWhile_append ne (hts.last_ne_semicolon h),
      trimmed]

theorem stripTerminator (hts : Solid ts) (h : ∀ a ∈ ts, a.Avoids keywords) {g g' : Text}
    (hg : ∀ c ∈ g, isBlank c = true) (hg' : ∀ c ∈ g', isBlank c = true) :
    SqlCanvas.stripTerminator (g ++ (textOf ts ++ g')) = textOf ts := by
  have last : (textOf ts).dropEndWhile (· == ';') = textOf ts := by
    have := dropEndWhile_append hts.textOf_ne_nil (hts.last_ne_semicolon h) []
    rw [List.append_nil] at this
    exact this.trans (List.append_nil _)
  rw [SqlCanvas.stripTerminator, hts.trim hg hg', last, hts.trim_self]

end Solid

theorem skipOpenings_of_isName {w : Text} (hw : IsName w) (r : Text) :
    skipOpenings (w ++ r) = w ++ r := by
  obtain ⟨c, w, rfl⟩ := List.exists_cons_of_ne_nil hw.1
  have hc := hw.2 c List.mem_cons_self
  have plain : (c == '(' || c == ' ' || c == '\t' || c == '\r' || c == '\n') = false := by
    by_contra h
    simp only [Bool.not_eq_false, Bool.or_eq_true, beq_iff_eq] at h
    rcases h with (((rfl | rfl) | rfl) | rfl) | rfl <;> revert hc <;> decide
  rw [skipOpenings, List.cons_append, List.dropWhile_cons, plain]
  rfl

theorem exists_skipOpenings {g w : Text} (hg : ∀ c ∈ g, isBlank c = true) (hw : IsName w)
    (r : Text) :
    ∃ g', (∀ c ∈ g', isBlank c = true) ∧ skipOpenings (g ++ (w ++ r)) = g' ++ (w ++ r) := by
  induction g with
  | nil => exact ⟨[], by simp, skipOpenings_of_isName hw r⟩
  | cons c g ih =>
    obtain ⟨g', hg', hskip⟩ := ih fun d hd => hg d (List.mem_cons_of_mem c hd)
    rw [List.cons_append, skipOpenings, List.dropWhile_cons]
    split
    · exact ⟨g', hg', hskip⟩
    · exact ⟨c :: g, hg, rfl⟩

theorem clash_spelling (kind : StatementKind) : clash ["WITH"] [Vocabulary.spelling kind] = true ∧
    ∀ kind', kind' ≠ kind → clash [Vocabulary.spelling kind'] [Vocabulary.spelling kind] =
      true := by
  have all : ∀ kind ∈ Vocabulary.members (α := StatementKind),
    clash ["WITH"] [Vocabulary.spelling kind] = true ∧
      ∀ kind' ∈ Vocabulary.members (α := StatementKind),
        kind' ≠ kind → clash [Vocabulary.spelling kind'] [Vocabulary.spelling kind] = true := by
    decide
  have members (kind : StatementKind) : kind ∈ Vocabulary.members (α := StatementKind) := by
    cases kind <;> decide
  exact ⟨(all kind (members kind)).1,
    fun kind' => (all kind (members kind)).2 kind' (members kind')⟩

section Keyword

variable (kind : StatementKind) (s : Spelling (Vocabulary.spelling kind))

include s

theorem takes_statementKeyword (b : Option Char) (r : Text) :
    (oneOf ((Vocabulary.members (α := StatementKind)).map
      fun kind => word (Vocabulary.spelling kind))).Takes b s.text r [] := by
  have members : ∃ kinds kinds', Vocabulary.members (α := StatementKind) = kinds ++ kind :: kinds' ∧
      ∀ kind' ∈ kinds, kind' ≠ kind := by
    cases kind
    case select => exact ⟨[], _, rfl, by decide⟩
    case insert => exact ⟨[.select], _, rfl, by decide⟩
    case update => exact ⟨[.select, .insert], _, rfl, by decide⟩
    case delete => exact ⟨[.select, .insert, .update], _, rfl, by decide⟩
    case create => exact ⟨[.select, .insert, .update, .delete], _, rfl, by decide⟩
    case alter => exact ⟨[.select, .insert, .update, .delete, .create], _, rfl, by decide⟩
    case drop => exact ⟨[.select, .insert, .update, .delete, .create, .alter], _, rfl, by decide⟩
    case truncate =>
      exact ⟨[.select, .insert, .update, .delete, .create, .alter, .drop], _, rfl, by decide⟩
  obtain ⟨kinds, kinds', hkinds, hne⟩ := members
  rw [hkinds, List.map_append, List.map_cons]
  refine takes_oneOf (List.forall_mem_map.mpr fun kind' hkind' => ?_) (takes_word s.spells)
  exact refuses_phrase (isPhrase_spelling kind') (isPhrase_spelling kind)
    ((clash_spelling kind).2 kind' (hne kind' hkind')) (covers_word.mpr s.spells)

theorem firstKeyword?_spelling {g : Text} (hg : ∀ c ∈ g, isBlank c = true) {r : Text}
    (hr : Halts Text.isWord r) :
    firstKeyword? (g ++ (s.text ++ r)) = some (Vocabulary.spelling kind).toList := by
  obtain ⟨g', hg', hskip⟩ := exists_skipOpenings hg s.isName r
  have last (b : Option Char) : boundary.Takes (lastChar b s.text) [] r [] := by
    obtain ⟨c, hc, hlast⟩ := lastChar_of_ne_nil s.isName.1 b
    exact takes_boundary_end ⟨c, hlast, s.isName.2 c hc⟩ hr
  have taken := Takes.all_cons (b := none) (v := s.text ++ ([] ++ [])) (r := r)
    (takes_blanks hg' (by simpa using s.isName.halts_isBlank r))
    (Takes.all_cons ((takes_statementKeyword kind s _ _).capture 1)
      (Takes.all_cons (last _) takes_all_nil))
  obtain ⟨m, found, -, hcapture⟩ :=
    match?_start_of_takes (w := statementHead) (t := g' ++ (s.text ++ r)) rfl (by simp) taken
  have captured : m.captured 1 = s.text := by
    rw [Match.captured, hcapture]
    rfl
  rw [firstKeyword?, hskip, found]
  simp only [Option.map_some, captured, s.upper_text]

theorem splitWith_spelling (r : Text) : splitWith (s.text ++ r) = ⟨[], false, s.text ++ r⟩ := by
  have refused : withHead.match? (s.text ++ r) = none := by
    have first (b : Option Char) : (word "WITH").Refuses b (s.text ++ r) :=
      refuses_phrase (show IsPhrase ["WITH"] by decide) (isPhrase_spelling kind)
        (clash_spelling kind).1 (covers_word.mpr s.spells)
    have :=
      refuses_blanks_seq (b := none) (g := []) (t := s.text ++ r) (s.isName.halts_isBlank r)
        (by simp)
      (fun b c t hc => ((refuses_word_of_halts (k := "WITH") (by decide)
        (halts_cons.mpr (not_isWord_of_isBlank hc))).seq_left (all [blank, .maybe (.capture 1
          (.seq (word "RECURSIVE") blank))])))
      ((first _).seq_left _)
    exact match?_start_of_refuses rfl this
  rw [splitWith, refused]

end Keyword

theorem firstKeyword?_select {g : Text} (hg : ∀ c ∈ g, isBlank c = true) (s : Spelling "SELECT")
    {r : Text} (hr : Halts Text.isWord r) :
    firstKeyword? (g ++ (s.text ++ r)) = some "SELECT".toList :=
  firstKeyword?_spelling .select s hg hr

theorem splitWith_select (s : Spelling "SELECT") (r : Text) :
    splitWith (s.text ++ r) = ⟨[], false, s.text ++ r⟩ :=
  splitWith_spelling .select s r

/-- The text that is left over from a `WITH` clause in front of the statement. -/
def withLead (es : List WrittenEntry) (layout : WithLayout := {}) : Text :=
  if es = [] then [] else layout.last.text

theorem isBlank_withLead (es : List WrittenEntry) (layout : WithLayout := {}) :
    ∀ c ∈ withLead es layout, isBlank c = true := by
  rw [withLead]
  split
  · simp
  · exact layout.last.isGap.2

theorem solid_withTokens (recursive : Bool) (es : List WrittenEntry) {ts : List Token}
    (hts : Solid ts) (layout : WithLayout := {}) :
    Solid (withTokens recursive es layout ++ ts) := by
  cases es with
  | nil => exact hts
  | cons e es =>
    have listed : Solid (recursionTokens recursive layout ++ entriesTokens e es) := by
      cases recursive with
      | false => exact solid_entriesTokens e es
      | true => exact layout.recursion.solid.spaced (solid_entriesTokens e es) layout.recursionGap
    have := (layout.keyword.solid.spaced listed layout.gap).spaced hts layout.last
    simpa [withTokens] using this

theorem splitWith_front (recursive : Bool) (es : List WrittenEntry) (s : Spelling "SELECT")
    (r : Text) (layout : WithLayout := {}) :
    splitWith (textOf (withTokens recursive es layout) ++ (s.text ++ r)) =
      ⟨es.map WrittenEntry.cut, recursive && !es.isEmpty, withLead es layout ++ (s.text ++ r)⟩ := by
  rw [withLead]
  cases es with
  | nil =>
    rw [withTokens, textOf_nil, List.nil_append, splitWith_select]
    simp
  | cons e es =>
    have comma : (s.text ++ r).head? ≠ some ',' := by
      rw [List.head?_append_of_ne_nil _ s.isName.1]
      exact fun hc => not_mem_of_not_isWord s.isName (by decide) (List.mem_of_mem_head? hc)
    rw [SqlCanvas.splitWith_text recursive e es (s.isName.halts_isBlank r) comma layout]
    simp

theorem firstKeyword?_front (es : List WrittenEntry) (s : Spelling "SELECT") {r : Text}
    (hr : Halts Text.isWord r) (layout : WithLayout := {}) :
    firstKeyword? (withLead es layout ++ (s.text ++ r)) = some "SELECT".toList :=
  firstKeyword?_select (isBlank_withLead es layout) s hr

structure WrittenStatement where
  recursive : Bool
  entries : List WrittenEntry
  select : WrittenSelect
  operations : WrittenOperations
  layout : WithLayout := {}

namespace WrittenStatement

def mainTokens (s : WrittenStatement) : List Token :=
  s.select.tokens ++ s.operations.tokens

def tokens (s : WrittenStatement) : List Token :=
  withTokens s.recursive s.entries s.layout ++ s.mainTokens

def text (s : WrittenStatement) : Text :=
  textOf s.tokens

theorem solid_main (s : WrittenStatement) : Solid s.mainTokens :=
  WrittenSelect.solid_blocks (k := WrittenOperations.blocks)
    (fun o => o.solid) s.select.solid s.operations

theorem solid (s : WrittenStatement) : Solid s.tokens :=
  solid_withTokens s.recursive s.entries s.solid_main s.layout

theorem noSemicolon_recursionTokens (recursive : Bool) (layout : WithLayout := {}) :
    ∀ a ∈ recursionTokens recursive layout, a.Avoids setKeywords := by
  intro a ha
  cases recursive with
  | false => simp [recursionTokens] at ha
  | true =>
    simp only [recursionTokens, if_true, List.mem_cons, List.not_mem_nil, or_false] at ha
    rcases ha with rfl | rfl
    · exact layout.recursion.avoids (by decide)
    · trivial

theorem avoids_withTokens (recursive : Bool) (es : List WrittenEntry) (layout : WithLayout := {}) :
    ∀ a ∈ withTokens recursive es layout, a.Avoids setKeywords := by
  intro a ha
  cases es with
  | nil => simp [withTokens] at ha
  | cons e es =>
    simp only [withTokens, List.mem_cons, List.mem_append, List.not_mem_nil, or_false] at ha
    rcases ha with rfl | rfl | ha | ha | rfl
    · exact layout.keyword.avoids (by decide)
    · trivial
    · exact noSemicolon_recursionTokens recursive layout a ha
    · exact (avoids_entriesTokens e es a ha).mono (by decide)
    · trivial

theorem noSemicolon (s : WrittenStatement) : ∀ a ∈ s.tokens, a.Avoids [] := by
  intro a ha
  rcases List.mem_append.mp ha with ha | ha
  · exact (avoids_withTokens s.recursive s.entries s.layout a ha).mono (by simp)
  · rcases List.mem_append.mp ha with ha | ha
    · exact (s.select.avoids a ha).mono (by simp)
    · refine WrittenSelect.avoids_blocks (k := WrittenOperations.blocks) (fun o =>
        ?_) s.operations a ha
      exact o.avoids_tokens (by simp) fun a ha => (o.operand.avoids_ownTokens a ha).mono (by simp)

theorem avoids (s : WrittenStatement) (h : s.operations = []) :
    ∀ a ∈ s.tokens, a.Avoids setKeywords := by
  intro a ha
  rw [tokens, mainTokens, h] at ha
  rcases List.mem_append.mp ha with ha | ha
  · exact avoids_withTokens s.recursive s.entries s.layout a ha
  · rcases List.mem_append.mp ha with ha | ha
    · exact s.select.avoids a ha
    · cases ha

/-- The text in front of the first operand that is left over from the `WITH` clause. -/
def lead (s : WrittenStatement) : Text :=
  withLead s.entries s.layout

theorem select_head (s : WrittenStatement) : ∃ r, textOf s.mainTokens = s.select.select.text ++ r ∧
    Halts Text.isWord r := by
  refine ⟨s.select.gap.text ++ textOf (s.select.distinctTokens ++ (s.select.columns ++
    (s.select.sourceGap.token :: (s.select.sourceTokens ++ (s.select.joins.tokens ++
      s.select.clauses.tokens)))) ++ s.operations.tokens), ?_, s.select.gap.isGap.halts_isWord _⟩
  simp [mainTokens, WrittenSelect.tokens, WrittenSelect.headTokens]

theorem head_ne_paren {w : Text} (hw : IsName w) (r : Text) : (w ++ r).head? ≠ some '(' := by
  rw [List.head?_append_of_ne_nil _ hw.1]
  exact fun h => not_mem_of_not_isWord hw (by decide) (List.mem_of_mem_head? h)

theorem head (s : WrittenStatement) : s.text.head? ≠ some '(' := by
  obtain ⟨r, hr, -⟩ := s.select_head
  rw [text, tokens]
  cases h : s.entries with
  | nil =>
    rw [withTokens, List.nil_append, hr]
    exact head_ne_paren s.select.select.isName r
  | cons e es =>
    rw [withTokens, List.cons_append, textOf_cons]
    exact head_ne_paren s.layout.keyword.isName _

theorem splitWith_text (s : WrittenStatement) : splitWith s.text =
    ⟨s.entries.map WrittenEntry.cut, s.recursive && !s.entries.isEmpty,
      s.lead ++ textOf s.mainTokens⟩ := by
  obtain ⟨r, hr, -⟩ := s.select_head
  rw [text, tokens, textOf_append, hr]
  exact splitWith_front s.recursive s.entries s.select.select r s.layout

theorem isBlank_lead (s : WrittenStatement) : ∀ c ∈ s.lead, isBlank c = true :=
  isBlank_withLead s.entries s.layout

theorem firstKeyword?_main (s : WrittenStatement) :
    firstKeyword? (s.lead ++ textOf s.mainTokens) = some "SELECT".toList := by
  obtain ⟨r, hr, hhalts⟩ := s.select_head
  rw [hr]
  exact firstKeyword?_front s.entries s.select.select hhalts s.layout

theorem splitSetOperations_main (s : WrittenStatement) :
    splitSetOperations (s.lead ++ textOf s.mainTokens) =
      (s.lead ++ s.select.text ++ WrittenOperations.blocks.nextGap s.operations,
        (WrittenOperations.blocks.pieces s.operations).map fun p =>
          ((p.1.find? 1).getD [], p.2)) := by
  have := s.operations.splitSetOperations_text s.isBlank_lead s.select.solid s.select.avoids
  rw [mainTokens, textOf_append, ← List.append_assoc]
  exact this

theorem stripParens_padded {ts : List Token} (hts : Solid ts) (h : (textOf ts).head? ≠ some '(')
    {g g' : Text} (hg : ∀ c ∈ g, isBlank c = true) (hg' : ∀ c ∈ g', isBlank c = true) :
    (g ++ (textOf ts ++ g')).stripParens = textOf ts := by
  have trimmed := hts.trim hg hg'
  rw [stripParens_of_head, trimmed]
  rwa [trimmed]

theorem operands_eq (os : WrittenOperations) :
    ((WrittenOperations.blocks.pieces os).map fun p => ((p.1.find? 1).getD [], p.2)).map
        (fun branch => (branch.1, Outline.of branch.2.stripParens)) =
      os.map fun o => (textOf o.2.phrase.tokens, Outline.of (textOf o.2.operand.inner)) := by
  induction os with
  | nil => rfl
  | cons o os ih =>
    obtain ⟨g, o⟩ := o
    rw [Blocks.pieces, List.map_cons, List.map_cons, ih, List.map_cons]
    congr 1
    refine Prod.ext rfl ?_
    exact congrArg Outline.of
      (o.operand.stripParens_text (WrittenOperations.blocks.isBlank_nextGap os))

/-- How a statement is cut, whatever blanks stand around it. -/
theorem outline_text (s : WrittenStatement) {g g' : Text} (hg : ∀ c ∈ g, isBlank c = true)
    (hg' : ∀ c ∈ g', isBlank c = true) : Outline.of (g ++ (s.text ++ g')) =
      .mk (s.entries.map fun e => (e.name.text, Outline.of e.inside))
        (s.recursive && !s.entries.isEmpty) "SELECT".toList s.select.text
        (s.operations.map fun o =>
          (textOf o.2.phrase.tokens, Outline.of (textOf o.2.operand.inner))) := by
  have stripped : stripTerminator (g ++ (s.text ++ g')) = s.text :=
    s.solid.stripTerminator s.noSemicolon hg hg'
  have body :
      (s.lead ++ s.select.text ++ WrittenOperations.blocks.nextGap s.operations).stripParens =
        s.select.text := by
    have head : s.select.text.head? ≠ some '(' := by
      have : s.select.text = s.select.select.text ++
        textOf (s.select.gap.token :: s.select.distinctTokens ++
          (s.select.columns ++ (s.select.sourceGap.token :: (s.select.sourceTokens ++
            (s.select.joins.tokens ++ s.select.clauses.tokens))))) := by
        simp [WrittenSelect.text, WrittenSelect.tokens, WrittenSelect.headTokens]
      rw [this]
      exact head_ne_paren s.select.select.isName _
    have := stripParens_padded s.select.solid head s.isBlank_lead
      (WrittenOperations.blocks.isBlank_nextGap s.operations)
    rw [List.append_assoc]
    exact this
  rw [Outline.of_eq, stripped, s.splitWith_text]
  simp only [s.firstKeyword?_main, Option.getD_some, if_true, s.splitSetOperations_main, body,
    operands_eq]
  rw [List.map_map]
  rfl

end WrittenStatement

theorem WrittenSelect.outline_text (s : WrittenSelect) :
    Outline.of s.text = .mk [] false "SELECT".toList s.text [] := by
  have :=
    WrittenStatement.outline_text { recursive := false, entries := [], select := s, operations :=
      [] } (List.forall_mem_nil _) (List.forall_mem_nil _)
  have text : ({ recursive := false, entries := [], select := s, operations := [] } :
      WrittenStatement).text = s.text := by
    simp [WrittenStatement.text, WrittenStatement.tokens, WrittenStatement.mainTokens, withTokens,
      WrittenOperations.tokens, WrittenSelect.text]
  rw [List.nil_append, List.append_nil, text] at this
  exact this

theorem Statement.ofOutline_select {σ : Type} (ids : IdSource σ) (tables : List (Text × Outline))
    (recursive : Bool) (body : Text) (branches : List (Text × Outline)) :
    ofOutline ids (.mk tables recursive "SELECT".toList body branches) = do
      let ctes ← readTables ids recursive tables
      let query ← Select.read ids body
      let unions ← readBranches ids branches
      return .ofQuery .select (complete .select ctes unions query) := by
  rw [ofOutline]
  rfl

theorem Statement.read_select {σ : Type} (ids : IdSource σ) (s : WrittenSelect) :
    Statement.read ids s.text = do
      let own ← Select.read ids s.text
      return .ofQuery .select (complete .select [] [] own) := by
  rw [read, s.outline_text, ofOutline_select, readTables, readBranches]
  rfl

theorem Statement.exists_of_read_select {σ : Type} {ids : IdSource σ} {s : WrittenSelect}
    {st st' : σ} {statement : Statement}
    (hread : (Statement.read ids s.text).run st = (.ok statement, st')) :
    ∃ own, (Select.read ids s.text).run st = (.ok own, st') ∧
      statement = .ofQuery .select (complete .select [] [] own) := by
  rw [read_select] at hread
  obtain ⟨own, st₁, hown, hread⟩ := Reading.exists_of_run_bind hread
  cases hread
  exact ⟨own, hown, rfl⟩

end SqlCanvas
