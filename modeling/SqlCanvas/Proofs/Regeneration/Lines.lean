import SqlCanvas.Proofs.Grammar.Operand
import SqlCanvas.Proofs.Nesting.Unbroken
import SqlCanvas.Proofs.Regeneration.Nested

/-!
# Queries line by line

How many rows a query gives and whether they are distinct is read off a few places of its text,
whatever stands on the other lines, as long as nothing there looks like the start of another clause.
Joins, filters and the other parts are lines of quiet tokens here, and nothing is said about how
they are read.
-/

namespace SqlCanvas

open Text Nesting Pattern

def lineTokens (ls : List (List Token)) : List Token :=
  ls.flatMap (Gap.line.token :: ·)

theorem lineTokens_cons (l : List Token) (ls : List (List Token)) :
    lineTokens (l :: ls) = Gap.line.token :: (l ++ lineTokens ls) := by
  simp [lineTokens]

theorem textOf_lineTokens (ls : List (List Token)) :
    textOf (lineTokens ls) = ls.flatMap fun l => '\n' :: textOf l := by
  induction ls with
  | nil => rfl
  | cons l ls ih => simp [lineTokens_cons, ih, Gap.line]

theorem Solid.append_lines {ts : List Token} (hts : Solid ts) {ls : List (List Token)}
    (h : ∀ l ∈ ls, Solid l) : Solid (ts ++ lineTokens ls) := by
  induction ls generalizing ts with
  | nil => simpa [lineTokens] using hts
  | cons l ls ih =>
    obtain ⟨hl, hls⟩ := List.forall_mem_cons.mp h
    have := ih (hts.spaced hl .line) hls
    simpa [lineTokens_cons] using this

theorem avoids_lineTokens {keywords : List String} {ls : List (List Token)}
    (h : ∀ l ∈ ls, ∀ a ∈ l, a.Avoids keywords) : ∀ a ∈ lineTokens ls, a.Avoids keywords := by
  intro a ha
  obtain ⟨l, hl, ha⟩ := List.mem_flatMap.mp ha
  rcases List.mem_cons.mp ha with rfl | ha
  · trivial
  · exact h l hl a ha

/-- A table behind `FROM`, in words that start no clause. -/
structure QuietTable where
  name : List Token
  quiet_name : Quiet bodyKeywords name
  isReference : Filter.IsReference (textOf name)
  aliasName : Option (List Token)
  quiet_alias : ∀ a ∈ aliasName, Quiet bodyKeywords a
  isName_alias : ∀ a ∈ aliasName, IsName (textOf a)

namespace QuietTable

def asToken : Token :=
  (Spelling.capital "AS" WrittenAlias.isKeyword_as).token

def aliasTokens (t : QuietTable) : List Token :=
  t.aliasName.elim [] fun a => Gap.space.token :: asToken :: Gap.space.token :: a

def tokens (t : QuietTable) : List Token :=
  t.name ++ t.aliasTokens

theorem quiet (t : QuietTable) : Quiet bodyKeywords t.tokens := by
  obtain ⟨name, quiet, -, aliasName, quietAlias, -⟩ := t
  cases aliasName with
  | none => simpa [tokens, aliasTokens] using quiet
  | some a =>
    have as : Quiet bodyKeywords [asToken] :=
      .singleton rfl ((Spelling.capital "AS" WrittenAlias.isKeyword_as).avoids (by decide))
    have hspace := Gap.space.isGap
    exact quiet.gap (as.gap (quietAlias a rfl) _ hspace) _ hspace

theorem takes_name (t : QuietTable) (b : Option Char) {r : Text} (hr : Halts isWord r)
    (hdot : r.head? ≠ some '.') : identifier.Takes b (textOf t.name) r [] := by
  rcases t.isReference with hname | ⟨v, w, hv, hw, htext⟩
  · exact takes_bare hname hr ((refuses_exactly hdot).seq_left _)
  · rw [htext]
    exact takes_qualified hv hw hr

/-- The table is taken up to its end, or up to `AS` where its alias is a word that goes on with the
statement. -/
theorem exists_takes (t : QuietTable) (b : Option Char) {r : Text} (hr : TableEnd r) : ∃ ts us m,
    t.tokens = ts ++ us ∧ (all [.capture 1 identifier, tableAlias 2]).Takes b (textOf ts)
      (textOf us ++ r) m ∧ ∀ b r, Halts isWord r → Skips Select.clauseKeyword b (textOf us) r := by
  cases h : t.aliasName with
  | none =>
    have name := t.takes_name b (r := [] ++ ([] ++ r)) hr.halts_isWord (hr.head_ne (by decide))
    have whole := Takes.all_cons (name.capture 1)
      (takes_tableAlias_nothing 2 (lastChar b (textOf t.name)) (r := [] ++ r) hr).all_last
    exact ⟨t.name, [], _, by simp [tokens, aliasTokens, h], whole.congr (List.append_nil _) rfl,
      fun b r _ => skips_nil⟩
  | some a =>
    have space {x : Text} : Halts isWord (' ' :: x) ∧ (' ' :: x).head? ≠ some '.' :=
      ⟨halts_cons.mpr (by decide), by simp⟩
    have name {x : Text} := (t.takes_name b (r := ' ' :: x) space.1 space.2).capture 1
    have taken := takes_tableAlias_name (t.isName_alias a h) 2 (lastChar b (textOf t.name))
      hr.halts_isWord
    rcases taken with whole | cut
    · have := Takes.all_cons name whole.all_last
      exact ⟨t.tokens, [], _, (List.append_nil _).symm,
        this.congr (by simp [tokens, aliasTokens, h, asToken, Spelling.capital, Gap.space]) rfl,
        fun b r _ => skips_nil⟩
    · have := Takes.all_cons name cut.all_last
      refine ⟨t.name ++ [Gap.space.token, asToken], Gap.space.token :: a, _,
        by simp [tokens, aliasTokens, h],
        this.congr (by simp [asToken, Spelling.capital, Gap.space]) rfl, ?_⟩
      intro b r hr
      have quiet := t.quiet_alias a h
      have gap := WrittenClauses.skips_gap (b := b) (r := textOf a ++ r) Gap.space.isGap.2
      have skips := gap.append
        (WrittenClauses.skips_tokens quiet.solid quiet.avoids (lastChar b Gap.space.text) hr)
      simpa using skips

end QuietTable

/-- A `SELECT` whose columns and joins are lines that hold no clause. -/
structure LinedSelect where
  distinct : Bool
  columns : List Token
  quiet_columns : Quiet columnKeywords columns
  table : QuietTable
  joins : List (List Token)
  quiet_joins : ∀ l ∈ joins, Quiet bodyKeywords l
  led_joins : ∀ l ∈ joins, ∃ k ∈ continuations, ∃ w v, textOf l = w ++ ' ' :: v ∧ Spells k.toList w
  clauses : WrittenClauses

namespace LinedSelect

def select : Spelling "SELECT" :=
  .capital "SELECT" isKeyword_select

def source : Spelling "FROM" :=
  .capital "FROM" isKeyword_from

/-- `DISTINCT` in front of the columns, if it is there. -/
def mark (s : LinedSelect) : Option (Spelling "DISTINCT" × Gap) :=
  if s.distinct then some (.capital "DISTINCT" isKeyword_distinct, .space) else none

def listTokens (s : LinedSelect) : List Token :=
  select.token :: Gap.space.token :: (Select.markTokens s.mark ++ s.columns)

def sourceTokens (s : LinedSelect) : List Token :=
  source.token :: Gap.space.token :: s.table.tokens

def tokens (s : LinedSelect) : List Token :=
  s.listTokens ++ Gap.line.token :: (s.sourceTokens ++ (lineTokens s.joins ++ s.clauses.tokens))

def text (s : LinedSelect) : Text :=
  textOf s.tokens

theorem text_eq (s : LinedSelect) : s.text =
    "SELECT ".toList ++ (if s.distinct then "DISTINCT ".toList else []) ++ textOf s.columns ++
      ("\nFROM ".toList ++ textOf s.table.tokens) ++
        (textOf (lineTokens s.joins) ++ textOf s.clauses.tokens) := by
  cases h : s.distinct <;>
    simp [text, tokens, listTokens, sourceTokens, mark, h, select, source, Select.markTokens,
      Spelling.capital, Gap.space, Gap.line]

theorem isSome_mark (s : LinedSelect) : s.mark.isSome = s.distinct := by
  cases h : s.distinct <;> simp [mark, h]

theorem solid_list (s : LinedSelect) : Solid s.listTokens := by
  cases h : s.mark with
  | none =>
    simpa [listTokens, h, Select.markTokens] using select.solid.spaced s.quiet_columns.solid .space
  | some d =>
    simpa [listTokens, h, Select.markTokens] using
      select.solid.spaced (d.1.solid.spaced s.quiet_columns.solid d.2) .space

theorem solid (s : LinedSelect) : Solid s.tokens := by
  have source := source.solid.spaced s.table.quiet.solid .space
  have front := s.solid_list.spaced source .line
  have := WrittenSelect.solid_blocks (k := WrittenClauses.blocks) (fun c => c.solid_tokens)
    (front.append_lines fun l hl => (s.quiet_joins l hl).solid) s.clauses
  simpa [tokens, sourceTokens, WrittenClauses.tokens] using this

theorem avoids_list (s : LinedSelect) {keywords : List String} (hsub : keywords ⊆ columnKeywords)
    (hkey : ∀ k ∈ keywords, IsKeyword k.toList ∧ k ≠ "SELECT" ∧ k ≠ "DISTINCT") :
    ∀ a ∈ s.listTokens, a.Avoids keywords := by
  refine List.forall_mem_cons.mpr ⟨select.avoids fun k hk => ⟨(hkey k hk).1, (hkey k hk).2.1⟩,
    List.forall_mem_cons.mpr ⟨trivial, List.forall_mem_append.mpr ⟨?_, ?_⟩⟩⟩
  · cases s.mark with
    | none => exact List.forall_mem_nil _
    | some d =>
      exact List.forall_mem_cons.mpr ⟨d.1.avoids fun k hk => ⟨(hkey k hk).1, (hkey k hk).2.2⟩,
        List.forall_mem_singleton.mpr trivial⟩
  · exact fun a ha => (s.quiet_columns.avoids a ha).mono hsub

theorem avoids (s : LinedSelect) : ∀ a ∈ s.tokens, a.Avoids setKeywords := by
  have list : ∀ a ∈ s.listTokens, a.Avoids setKeywords := s.avoids_list (by decide) (by decide)
  have source : ∀ a ∈ s.sourceTokens, a.Avoids setKeywords :=
    List.forall_mem_cons.mpr ⟨source.avoids (by decide), List.forall_mem_cons.mpr
      ⟨trivial, fun a ha => (s.table.quiet.avoids a ha).mono (by decide)⟩⟩
  have joins := avoids_lineTokens fun l hl a ha => ((s.quiet_joins l hl).avoids a ha).mono
    (by decide : setKeywords ⊆ bodyKeywords)
  have clauses :=
    WrittenSelect.avoids_blocks (k := WrittenClauses.blocks) (fun c => c.avoids_tokens) s.clauses
  exact List.forall_mem_append.mpr ⟨list, List.forall_mem_cons.mpr ⟨trivial,
    List.forall_mem_append.mpr ⟨source, List.forall_mem_append.mpr ⟨joins, clauses⟩⟩⟩⟩

theorem tableEnd (s : LinedSelect) :
    TableEnd (textOf (lineTokens s.joins) ++ textOf s.clauses.tokens) := by
  have led := s.led_joins
  cases h : s.joins with
  | nil => simpa [lineTokens] using s.clauses.tableEnd
  | cons l ls =>
    obtain ⟨k, hk, w, v, hl, hw⟩ := led l (by simp [h])
    have := TableEnd.word (g := Gap.line.text)
      (r := ' ' :: (v ++ textOf (lineTokens ls ++ s.clauses.tokens)))
      Gap.line.isGap hk hw (halts_cons.mpr (by decide))
    simpa [lineTokens_cons, hl] using this

theorem skips_joins (s : LinedSelect) (b : Option Char) {r : Text} (hr : Halts isWord r) :
    Skips Select.clauseKeyword b (textOf (lineTokens s.joins)) r := by
  have quiet := s.quiet_joins
  cases h : s.joins with
  | nil => exact skips_nil
  | cons l ls =>
    obtain ⟨hl, hls⟩ := List.forall_mem_cons.mp (h ▸ quiet)
    have solid : Solid (l ++ lineTokens ls) := hl.solid.append_lines fun l hl => (hls l hl).solid
    have avoid : ∀ a ∈ l ++ lineTokens ls, a.Avoids bodyKeywords :=
      List.forall_mem_append.mpr ⟨hl.avoids, avoids_lineTokens fun l hl => (hls l hl).avoids⟩
    have line := WrittenClauses.skips_gap (b := b) (r := textOf (l ++ lineTokens ls) ++ r)
      Gap.line.isGap.2
    have skips := line.append
      (WrittenClauses.skips_tokens solid avoid (lastChar b Gap.line.text) hr)
    simpa [lineTokens_cons] using skips

theorem exists_head (s : LinedSelect) {r : Text} (hr : Halts isWord r) : ∃ m,
    Select.selectHead.match? (textOf s.listTokens ++ r) = some m ∧ (m.capture? 1).isSome =
      s.distinct := by
  have first : ∀ a ∈ s.columns.head?, a.Avoids ["DISTINCT"] := fun a ha =>
    (s.quiet_columns.avoids a (List.mem_of_mem_head? ha)).mono (by decide)
  obtain ⟨m, hm, -, hmark⟩ :=
    Select.exists_head select .space s.mark (s.quiet_columns.solid.halts_isBlank r)
      fun _ _ => s.quiet_columns.solid.refuses_word (by decide) first breaks_blank hr
  refine ⟨m, ?_, hmark.trans s.isSome_mark⟩
  simpa [listTokens] using hm

theorem skips_behind (s : LinedSelect) {us : List Token}
    (hus : ∀ b r, Halts isWord r → Skips Select.clauseKeyword b (textOf us) r) (b : Option Char)
    {r : Text} (hr : Halts isWord r) :
    Skips Select.clauseKeyword b (textOf (us ++ lineTokens s.joins)) r := by
  have halts : Halts isWord (textOf (lineTokens s.joins) ++ r) := by
    cases s.joins with
    | nil => exact hr
    | cons l ls =>
      rw [lineTokens_cons, textOf_cons, List.append_assoc]
      exact Gap.line.isGap.halts_isWord _
  rw [textOf_append]
  exact (hus b _ halts).append (s.skips_joins _ hr)

/-- The clauses are found behind the place at which the table ends, or is taken to end. -/
theorem exists_clauses (s : LinedSelect) :
    ∃ o start, s.text.findTopLevel? Select.fromTable = some o ∧
    Select.splitClauses s.text o.stop = ⟨s.clauses.map (·.2.entry), start⟩ := by
  have missed : ∀ a ∈ s.listTokens, a.Misses ["FROM"] := fun a ha =>
    (s.avoids_list (by decide) (by decide) a ha).misses
  obtain ⟨ts, us, m, hcut, htakes, hskips⟩ := s.table.exists_takes
    (lastChar (lastChar (lastChar none (textOf s.listTokens ++ Gap.line.text)) source.text)
      Gap.space.text) s.tableEnd
  have halts : Halts isBlank (textOf ts ++
      (textOf us ++ (textOf (lineTokens s.joins) ++ textOf s.clauses.tokens))) := by
    have solid := s.table.quiet.solid
    rw [hcut] at solid
    simpa using solid.halts_isBlank (textOf (lineTokens s.joins) ++ textOf s.clauses.tokens)
  obtain ⟨o, ho, -, hstop, -⟩ :=
    Select.exists_fromTable s.solid_list missed .line (by simp [source.isName.1])
      fun hb => WrittenJoin.takes_source source .space hb halts htakes
  have front : textOf s.listTokens ++ Gap.line.text ++
    (source.text ++ (Gap.space.text ++ textOf ts)) =
      textOf (s.listTokens ++ Gap.line.token :: source.token :: Gap.space.token :: ts) := by
    simp
  have whole : s.text =
    textOf (s.listTokens ++ Gap.line.token :: source.token :: Gap.space.token :: ts) ++
      (textOf (us ++ lineTokens s.joins) ++ textOf s.clauses.tokens) := by
    simp [text, tokens, sourceTokens, hcut]
  have closed :=
    closed_textOf (s.listTokens ++ Gap.line.token :: source.token :: Gap.space.token :: ts)
  have found : Select.splitClauses (_ ++
      (textOf (us ++ lineTokens s.joins) ++ textOf s.clauses.tokens)) _ = _ :=
    WrittenClauses.splitClauses_eq _ (closed.after 0) fun b r hr => s.skips_behind hskips b hr
  rw [← whole, ← front, ← hstop] at found
  refine ⟨o, _, ?_, found⟩
  rw [← ho, whole, ← front]
  simp

/-- Whatever is read of the other parts, the limits are those of the clauses, and the rows are
distinct if the head says so. -/
theorem exists_limits_of_read {σ : Type} {ids : IdSource σ} {s : LinedSelect} {st st' : σ}
    {q : Query} (hread : (Select.read ids s.text).run st = (.ok q, st')) : ∃ start limits,
      Select.readRowLimits ⟨s.clauses.map (·.2.entry), start⟩ = .ok limits ∧
        q.limit = limits.limit ∧ q.offset = limits.offset ∧ q.distinct = s.distinct := by
  obtain ⟨o, start, ho, clauses⟩ := s.exists_clauses
  simp only [Select.read, ho, Option.map_some, Option.getD_some, clauses] at hread
  obtain ⟨anchored, s₁, -, hread⟩ := Reading.exists_of_run_bind hread
  obtain ⟨sources, s₂, -, hread⟩ := Reading.exists_of_run_bind hread
  obtain ⟨hrest, -⟩ := Prod.mk.inj hread
  obtain ⟨columnsText, rest, hparts, rfl⟩ := Select.readRest_cases hrest
  obtain ⟨columns, -, hparts⟩ := exists_of_bind_eq_ok hparts
  obtain ⟨filters, -, hparts⟩ := exists_of_bind_eq_ok hparts
  obtain ⟨having, -, hparts⟩ := exists_of_bind_eq_ok hparts
  obtain ⟨limits, hlimits, hparts⟩ := exists_of_bind_eq_ok hparts
  cases hparts
  obtain ⟨m, hm, hdistinct⟩ := s.exists_head (Gap.line.isGap.halts_isWord
    (textOf (s.sourceTokens ++ (lineTokens s.joins ++ s.clauses.tokens))))
  have head : Select.selectHead.match? s.text = some m := by
    rw [← hm]
    simp [text, tokens]
  refine ⟨_, limits, hlimits, rfl, rfl, ?_⟩
  rw [← hdistinct]
  simp only [Select.assemble, head, Option.bind_some]

end LinedSelect

end SqlCanvas
