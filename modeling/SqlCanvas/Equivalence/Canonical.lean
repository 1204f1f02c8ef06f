import SqlCanvas.Equivalence.Token
import SqlCanvas.Query.Vocabulary

/-!
# Canonical selections

The clauses of a `SELECT` in a form that is the same for all its spellings. `AS` and `OUTER` are
left out, a plain `JOIN` is an inner one, an ascending order is not mentioned, a column without an
alias has its own name for alias, and the sides of a comparison in an `ON` clause stand in a fixed
order. The two forms of an offset are one.
-/

namespace SqlCanvas.Equivalence

open Text

/-- A piece of SQL as its tokens. -/
abbrev Phrase := List Text

structure Named where
  phrase : Phrase
  knownAs : Phrase
  deriving DecidableEq

structure JoinedTable where
  kind : Phrase
  table : Named
  conditions : List Phrase
  deriving DecidableEq

structure Selection where
  distinct : Bool
  columns : List Named
  source : Option Named
  joins : List JoinedTable
  filter : Option (List Phrase)
  groupBy : Option (List Phrase)
  having : Option (List Phrase)
  orderBy : Option (List Phrase)
  limit : Option Phrase
  offset : Option Phrase
  deriving DecidableEq

def isToken (word : String) (token : Text) : Bool :=
  token == word.toList

/-- The depth in parentheses behind a token. -/
def depthAfter (depth : Nat) (token : Text) : Nat :=
  if token = ['('] then depth + 1 else if token = [')'] then depth - 1 else depth

/-- The parts between the top-level tokens for which `isSeparator` holds. -/
def splitPhrase (isSeparator : Text → Bool) (depth : Nat) : Phrase → List Phrase
  | [] => [[]]
  | token :: tokens =>
    if depth = 0 && isSeparator token then [] :: splitPhrase isSeparator 0 tokens
    else
      match splitPhrase isSeparator (depthAfter depth token) tokens with
      | [] => [[token]]
      | part :: parts => (token :: part) :: parts

def splitAtCommas (p : Phrase) : List Phrase :=
  splitPhrase (isToken ",") 0 p

/-- Whether a phrase has a top-level `BETWEEN`, which takes the next `AND` for itself. -/
def opensRange (p : Phrase) : Bool :=
  1 < (splitPhrase (isToken "BETWEEN") 0 p).length

def joinRangePhrases : List Phrase → List Phrase
  | [] => []
  | [p] => [p]
  | p :: q :: ps =>
    if opensRange p then (p ++ "AND".toList :: q) :: joinRangePhrases ps
    else p :: joinRangePhrases (q :: ps)

def conjuncts (p : Phrase) : List Phrase :=
  joinRangePhrases (splitPhrase (isToken "AND") 0 p)

/-- The words that start a clause behind the selected columns. -/
def clauseWords : List String :=
  ["FROM", "WHERE", "GROUP", "HAVING", "ORDER", "LIMIT", "OFFSET", "FETCH"]

def startsClause (token : Text) : Bool :=
  String.ofList token ∈ clauseWords

/-- The tokens in front of the first clause word, and each clause word with the tokens up to the
next. -/
def splitClausesFrom (depth : Nat) : Phrase → Phrase × List (Text × Phrase)
  | [] => ([], [])
  | token :: tokens =>
    if depth = 0 && startsClause token then
      let (body, clauses) := splitClausesFrom 0 tokens
      ([], (token, body) :: clauses)
    else
      let (body, clauses) := splitClausesFrom (depthAfter depth token) tokens
      (token :: body, clauses)

def clause? (clauses : List (Text × Phrase)) (word : String) : Option Phrase :=
  (clauses.find? fun c => isToken word c.1).map (·.2)

/-- A phrase without its first token if that is `BY`. -/
def dropBy (p : Phrase) : Phrase :=
  match p with
  | token :: rest => if isToken "BY" token then rest else p
  | [] => []

/-- The last name of a column reference, which a column goes by if it has no alias. -/
def ownName (p : Phrase) : Phrase :=
  p.getLast?.toList

/-- A selected column; only `AS` introduces its alias. -/
def namedColumn (p : Phrase) : Named :=
  match splitPhrase (isToken "AS") 0 p with
  | [body, knownAs] => ⟨body, knownAs⟩
  | _ => ⟨p, ownName p⟩

/-- A table with its alias, with or without `AS`. -/
def namedTable (p : Phrase) : Named :=
  match p.filter (!isToken "AS" ·) with
  | [table, knownAs] => ⟨[table], [knownAs]⟩
  | p => ⟨p, ownName p⟩

def joinWords : List String :=
  ["INNER", "LEFT", "RIGHT", "FULL", "OUTER", "CROSS", "JOIN"]

def isJoinWord (token : Text) : Bool :=
  String.ofList token ∈ joinWords

/-- The tokens in front of the first join, and each join's words with the tokens up to the next. -/
def splitJoins (depth : Nat) : Phrase → Phrase × List (Phrase × Phrase)
  | [] => ([], [])
  | token :: tokens =>
    let (body, joins) := splitJoins (depthAfter depth token) tokens
    if depth = 0 && isJoinWord token then
      match body, joins with
      | [], (words, table) :: joins => ([], (token :: words, table) :: joins)
      | body, joins => ([], ([token], body) :: joins)
    else (token :: body, joins)

def joinKind (words : Phrase) : Phrase :=
  match words.filter fun w => !isToken "OUTER" w && !isToken "JOIN" w with
  | [] => ["INNER".toList]
  | kind => kind

def comparison? (token : Text) : Option Comparison :=
  Vocabulary.read? (String.ofList token)

def spelledToken (c : Comparison) : Text :=
  (Vocabulary.spelling c).toList

/-- The text that decides which side of a comparison comes first. -/
def orderKey (p : Phrase) : String :=
  String.ofList (lower p.flatten)

/-- A comparison with the sides in order, the operator mirrored where they are exchanged. -/
def orderSides (p : Phrase) : Phrase :=
  match p with
  | [a, p₁, x, operator, b, p₂, y] =>
    match comparison? operator with
    | some c =>
      if orderKey [b, p₂, y] < orderKey [a, p₁, x] then
        [b, p₂, y, spelledToken c.mirrored, a, p₁, x]
      else p
    | none => p
  | _ => p

def joinedTable (words body : Phrase) : JoinedTable :=
  let (table, conditions) :=
    match splitPhrase (isToken "ON") 0 body with
    | table :: condition :: _ => (table, (conjuncts condition).map orderSides)
    | table => (table.flatten, [])
  ⟨joinKind words, namedTable table, conditions⟩

/-- An order criterion; `ASC` says nothing. -/
def orderCriterion (p : Phrase) : Phrase :=
  p.filter (!isToken "ASC" ·)

def isNoise (token : Text) : Bool :=
  isToken "ROWS" token || isToken "ROW" token || isToken "NEXT" token || isToken "FIRST" token ||
    isToken "ONLY" token

def countPhrase (p : Phrase) : Phrase :=
  p.filter (!isNoise ·)

structure Limits where
  limit : Option Phrase
  offset : Option Phrase

/-- With two numbers behind `LIMIT` the first is the offset. -/
def limitsOf (clauses : List (Text × Phrase)) : Limits :=
  let offset := (clause? clauses "OFFSET").map countPhrase
  match clause? clauses "LIMIT" with
  | some p =>
    match splitAtCommas p with
    | [first, count] => ⟨some count, some first⟩
    | _ => ⟨some p, offset⟩
  | none => ⟨(clause? clauses "FETCH").map countPhrase, offset⟩

/-- An offset of zero is none. -/
def significantOffset (offset : Option Phrase) : Option Phrase :=
  offset.filter (· != ["0".toList])

/-- `SELECT` and `DISTINCT` taken off the front of a selection. -/
def splitHead (p : Phrase) : Bool × Phrase :=
  let body :=
    match p with
    | token :: rest => if isToken "SELECT" token then rest else p
    | [] => []
  match body with
  | token :: rest => if isToken "DISTINCT" token then (true, rest) else (false, body)
  | [] => (false, [])

def Selection.of (tokens : Phrase) : Selection :=
  let (front, clauses) := splitClausesFrom 0 tokens
  let (distinct, columns) := splitHead front
  let from? := (clause? clauses "FROM").map (splitJoins 0)
  let limits := limitsOf clauses
  { distinct := distinct
    columns := (splitAtCommas columns).map namedColumn
    source := from?.map fun f => namedTable f.1
    joins := (from?.map fun f => f.2.map fun j => joinedTable j.1 j.2).getD []
    filter := (clause? clauses "WHERE").map conjuncts
    groupBy := (clause? clauses "GROUP").map fun p => splitAtCommas (dropBy p)
    having := (clause? clauses "HAVING").map conjuncts
    orderBy := (clause? clauses "ORDER").map fun p =>
      (splitAtCommas (dropBy p)).map orderCriterion
    limit := limits.limit
    offset := significantOffset limits.offset }

def foldPhrase (p : Phrase) : Phrase :=
  p.map lower

def Named.fold (n : Named) : Named :=
  ⟨foldPhrase n.phrase, foldPhrase n.knownAs⟩

def JoinedTable.fold (j : JoinedTable) : JoinedTable :=
  ⟨foldPhrase j.kind, j.table.fold, j.conditions.map foldPhrase⟩

/-- The selection in small letters throughout, literals included. -/
def Selection.fold (s : Selection) : Selection where
  distinct := s.distinct
  columns := s.columns.map Named.fold
  source := s.source.map Named.fold
  joins := s.joins.map JoinedTable.fold
  filter := s.filter.map (·.map foldPhrase)
  groupBy := s.groupBy.map (·.map foldPhrase)
  having := s.having.map (·.map foldPhrase)
  orderBy := s.orderBy.map (·.map foldPhrase)
  limit := s.limit.map foldPhrase
  offset := s.offset.map foldPhrase

/-- Both absent, or both there and equal up to order. -/
def samePhrases (ps qs : Option (List Phrase)) : Bool :=
  match ps, qs with
  | none, none => true
  | some ps, some qs => ps.isPerm qs
  | _, _ => false

def JoinedTable.same (i j : JoinedTable) : Bool :=
  i.kind = j.kind && i.table = j.table && i.conditions.isPerm j.conditions

def sameJoins : List JoinedTable → List JoinedTable → Bool
  | [], [] => true
  | i :: is, j :: js => i.same j && sameJoins is js
  | _, _ => false

/-- Equality up to the order of the operands of conjunctions. -/
def Selection.same (s t : Selection) : Bool :=
  s.distinct = t.distinct && s.columns = t.columns && s.source = t.source &&
    sameJoins s.joins t.joins && samePhrases s.filter t.filter && s.groupBy = t.groupBy &&
    samePhrases s.having t.having && s.orderBy = t.orderBy && s.limit = t.limit &&
    s.offset = t.offset

theorem samePhrases_self (ps : Option (List Phrase)) : samePhrases ps ps = true := by
  cases ps <;> simp [samePhrases, List.isPerm_iff]

theorem sameJoins_self (js : List JoinedTable) : sameJoins js js = true := by
  induction js with
  | nil => rfl
  | cons j js ih => simp [sameJoins, JoinedTable.same, List.isPerm_iff, ih]

theorem Selection.same_self (s : Selection) : s.same s = true := by
  simp [Selection.same, samePhrases_self, sameJoins_self]

end SqlCanvas.Equivalence
