import SqlCanvas.Proofs.Grammar.Comparison
import SqlCanvas.Proofs.Grammar.Ending
import SqlCanvas.Query.Sql

/-!
# The layout of generated text

How `Query.sql` lays out the parts of a query by itself: one clause to a line, keywords in capital
letters, single spaces. A draft holds the written parts; `Draft.select` is the statement they make
up.
-/

namespace SqlCanvas

open Text Nesting Pattern

theorem toList_lines (l : String) (ls : List String) :
    ("\n".intercalate (l :: ls)).toList = l.toList ++ ls.flatMap fun l => '\n' :: l.toList := by
  induction ls generalizing l with
  | nil => simp
  | cons l' ls ih =>
    rw [String.toList_intercalate, List.map_cons, List.map_cons, List.intercalate_cons_cons]
    have := ih l'
    rw [String.toList_intercalate, List.map_cons] at this
    rw [this]
    simp

theorem textOf_ofList {S A : Type} (separate : S → List Token) (write : A → List Token) (s : S)
    {xs : List A} (h : xs ≠ []) : textOf ((Series.ofList s xs h).tokens separate write) =
      (textOf (separate s)).intercalate (xs.map fun x => textOf (write x)) := by
  obtain ⟨x, xs, rfl⟩ := List.exists_cons_of_ne_nil h
  induction xs generalizing x with
  | nil => simp [Series.ofList, Series.tokens]
  | cons y xs ih =>
    rw [List.map_cons, List.map_cons, List.intercalate_cons_cons]
    have := ih y (List.cons_ne_nil _ _)
    rw [List.map_cons] at this
    rw [← this]
    simp [Series.ofList, Series.tokens]

def Headed.line {A : Type} (words : List String) (h : IsPhrase words) (body : A) : Headed words A :=
  ⟨.line, .capital words h, .space, body⟩

def capitalKind (kind : JoinKind) : List String :=
  match kind with
  | .inner => ["INNER"]
  | .left => ["LEFT"]
  | .leftOuter => ["LEFT", "OUTER"]
  | .right => ["RIGHT"]
  | .rightOuter => ["RIGHT", "OUTER"]
  | .full => ["FULL"]
  | .fullOuter => ["FULL", "OUTER"]
  | .cross => ["CROSS"]
  | .self => ["SELF"]
  | .natural => ["NATURAL"]
  | .leftAnti => ["LEFT", "ANTI"]
  | .rightAnti => ["RIGHT", "ANTI"]
  | .leftSemi => ["LEFT", "SEMI"]
  | .rightSemi => ["RIGHT", "SEMI"]

theorem capitalKind_mem (kind : JoinKind) : capitalKind kind ∈ Select.kindPhrases := by
  cases kind <;> decide

theorem isPhrase_capitalKind (kind : JoinKind) : IsPhrase (capitalKind kind) := by
  cases kind <;> decide

theorem intercalate_capitalKind (kind : JoinKind) :
    " ".intercalate (capitalKind kind) = Vocabulary.spelling kind := by
  cases kind <;> rfl

def WrittenKind.capital (kind : JoinKind) : WrittenKind :=
  ⟨capitalKind kind, capitalKind_mem kind, .capital _ (isPhrase_capitalKind kind), .space⟩

theorem WrittenKind.kind_capital (kind : JoinKind) : (WrittenKind.capital kind).kind = kind := by
  cases kind <;> rfl

def WrittenOn.capital (c : Conjunction) : WrittenOn :=
  ⟨.space, .capital "ON" (by decide), .space, c⟩

def WrittenJoin.capital (kind : JoinKind) (table : WrittenTable) (on : Option Conjunction) :
    WrittenJoin :=
  ⟨some (.capital kind), .capital "JOIN" (by decide), .space, table, on.map WrittenOn.capital⟩

theorem WrittenJoin.textOf_capital (kind : JoinKind) (table : WrittenTable)
    (on : Option Conjunction) : textOf (WrittenJoin.capital kind table on).tokens =
      (Vocabulary.spelling kind).toList ++ " JOIN ".toList ++ textOf table.tokens ++
        (on.map fun c => " ON ".toList ++ c.text).getD [] := by
  have kindText := Phrase.textOf_capital (isPhrase_capitalKind kind)
  rw [intercalate_capitalKind] at kindText
  cases on <;>
    simp [WrittenJoin.capital, WrittenJoin.tokens, WrittenJoin.headTokens, WrittenJoin.kindTokens,
      WrittenJoin.onTokens, WrittenKind.capital, WrittenKind.tokens, kindText, WrittenOn.capital,
      WrittenOn.tokens, Spelling.capital, Gap.space, Conjunction.text]

/-- The parts of a `SELECT` without its gaps and keywords. -/
structure Draft where
  distinct : Bool
  columns : List Token
  solid_columns : Solid columns
  avoids_columns : ∀ a ∈ columns, a.Avoids columnKeywords
  table : WrittenTable
  joins : List WrittenJoin
  ending : WrittenEnding

namespace Draft

def select (w : Draft) : WrittenSelect where
  select := .capital "SELECT" isKeyword_select
  gap := .space
  distinct := if w.distinct then some (.capital "DISTINCT" isKeyword_distinct, .space) else none
  columns := w.columns
  solid_columns := w.solid_columns
  avoids_columns := w.avoids_columns
  sourceGap := .line
  source := .capital "FROM" isKeyword_from
  tableGap := .space
  table := w.table
  joins := w.joins.map fun j => (.line, j)
  clauses := w.ending.clauses

theorem textOf_lines {A : Type} (k : Blocks A) (as : List A) :
    textOf (k.tokens (as.map fun a => (.line, a))) =
      as.flatMap fun a => '\n' :: textOf (k.head a ++ k.body a) := by
  induction as with
  | nil => rfl
  | cons a as ih =>
    rw [List.map_cons, Blocks.tokens_cons, List.flatMap_cons, ← ih]
    simp [Gap.line]

theorem text_eq (w : Draft) : w.select.text =
    "SELECT ".toList ++ (if w.distinct then "DISTINCT ".toList else []) ++ textOf w.columns ++
      "\nFROM ".toList ++ textOf w.table.tokens ++
        (w.joins.flatMap fun j => '\n' :: textOf j.tokens) ++ textOf w.ending.clauses.tokens := by
  have joins : textOf w.select.joins.tokens = w.joins.flatMap fun j => '\n' :: textOf j.tokens :=
    textOf_lines (WrittenJoins.blocks none) w.joins
  rw [WrittenSelect.text, WrittenSelect.tokens, textOf_append, textOf_append, textOf_cons,
    textOf_append, textOf_append, joins]
  cases h : w.distinct <;>
    simp [select, h, WrittenSelect.headTokens, WrittenSelect.distinctTokens,
      WrittenSelect.sourceTokens, Spelling.capital, Gap.space, Gap.line]

/-- The draft writes out the parts of a query by itself. -/
structure Renders (w : Draft) (q : Query) (d : Dialect) (anchor : TableRef) : Prop where
  select : q.selectLine.toList =
    "SELECT ".toList ++ (if w.distinct then "DISTINCT ".toList else []) ++ textOf w.columns
  table : anchor.sql.toList = textOf w.table.tokens
  joins : (q.joins.filterMap (·.sql? q.tables)).map String.toList = w.joins.map fun j =>
    textOf j.tokens
  ending : (q.whereLine ++ q.groupLines ++ q.orderLine ++ q.limitLine d).flatMap (fun l =>
    '\n' :: l.toList) = textOf w.ending.clauses.tokens

theorem Renders.text_eq {w : Draft} {q : Query} {d : Dialect} {anchor : TableRef}
    (h : w.Renders q d anchor) :
    ("\n".intercalate (q.ownLines d anchor)).toList = w.select.text := by
  have joins : (q.joins.filterMap (·.sql? q.tables)).flatMap (fun l => '\n' :: l.toList) =
      w.joins.flatMap fun j => '\n' :: textOf j.tokens := by
    have := congrArg (List.flatMap fun t => '\n' :: t) h.joins
    rwa [List.flatMap_map, List.flatMap_map] at this
  have lines : q.ownLines d anchor = q.selectLine :: ("FROM " ++ anchor.sql) ::
      (q.joins.filterMap (·.sql? q.tables) ++
        (q.whereLine ++ q.groupLines ++ q.orderLine ++ q.limitLine d)) := by
    simp [Query.ownLines]
  rw [lines, toList_lines, List.flatMap_cons, List.flatMap_append, joins, h.ending, h.select,
    String.toList_append, h.table, Draft.text_eq]
  have newline : "\nFROM ".toList = '\n' :: "FROM ".toList := rfl
  rw [newline]
  simp only [List.append_assoc, List.cons_append]

end Draft

end SqlCanvas
