/-!
# Closed vocabularies

The keywords a model may hold. Each vocabulary is an enumeration with one spelling per member;
`Vocabulary.read?` is the inverse of the spelling, and `Vocabulary.choices` lists the spellings for
a message.
-/

namespace SqlCanvas

class Vocabulary (α : Type) where
  /-- All members, in the order in which messages list them. -/
  members : List α
  spelling : α → String

namespace Vocabulary

variable {α : Type} [Vocabulary α]

def read? (s : String) : Option α :=
  members.find? fun a => spelling a == s

/-- Quoted words with commas between them and `or` before the last. -/
def alternatives : List String → String
  | [] => ""
  | [w] => "'" ++ w ++ "'"
  | [v, w] => "'" ++ v ++ "' or '" ++ w ++ "'"
  | w :: ws => "'" ++ w ++ "', " ++ alternatives ws

def choices (α : Type) [Vocabulary α] : String :=
  alternatives ((members (α := α)).map spelling)

theorem spelling_of_read? {s : String} {a : α} (h : read? s = some a) : spelling a = s := by
  simpa using List.find?_some h

end Vocabulary

inductive Comparison where
  | eq | ne | gt | lt | ge | le
  deriving DecidableEq

/-- The comparison that holds with its sides exchanged. -/
def Comparison.mirrored : Comparison → Comparison
  | .eq => .eq
  | .ne => .ne
  | .gt => .lt
  | .lt => .gt
  | .ge => .le
  | .le => .ge

@[simp] theorem Comparison.mirrored_mirrored (c : Comparison) : c.mirrored.mirrored = c := by
  cases c <;> rfl

instance : Vocabulary Comparison where
  members := [.eq, .ne, .gt, .lt, .ge, .le]
  spelling
    | .eq => "="
    | .ne => "!="
    | .gt => ">"
    | .lt => "<"
    | .ge => ">="
    | .le => "<="

inductive JoinKind where
  | inner | left | leftOuter | right | rightOuter | full | fullOuter | cross | self | natural
  | leftAnti | rightAnti | leftSemi | rightSemi
  deriving DecidableEq

instance : Vocabulary JoinKind where
  members := [.inner, .left, .leftOuter, .right, .rightOuter, .full, .fullOuter, .cross, .self,
    .natural, .leftAnti, .rightAnti, .leftSemi, .rightSemi]
  spelling
    | .inner => "INNER"
    | .left => "LEFT"
    | .leftOuter => "LEFT OUTER"
    | .right => "RIGHT"
    | .rightOuter => "RIGHT OUTER"
    | .full => "FULL"
    | .fullOuter => "FULL OUTER"
    | .cross => "CROSS"
    | .self => "SELF"
    | .natural => "NATURAL"
    | .leftAnti => "LEFT ANTI"
    | .rightAnti => "RIGHT ANTI"
    | .leftSemi => "LEFT SEMI"
    | .rightSemi => "RIGHT SEMI"

inductive FilterOperator where
  | compare (c : Comparison)
  | like | notLike | isIn | notIn | between | notBetween | isNull | isNotNull | exists | notExists
  | allOf | anyOf | someOf
  deriving DecidableEq

instance : Vocabulary FilterOperator where
  members := Vocabulary.members.map .compare ++ [.like, .notLike, .isIn, .notIn, .between,
    .notBetween, .isNull, .isNotNull, .exists, .notExists, .allOf, .anyOf, .someOf]
  spelling
    | .compare c => Vocabulary.spelling c
    | .like => "LIKE"
    | .notLike => "NOT LIKE"
    | .isIn => "IN"
    | .notIn => "NOT IN"
    | .between => "BETWEEN"
    | .notBetween => "NOT BETWEEN"
    | .isNull => "IS NULL"
    | .isNotNull => "IS NOT NULL"
    | .exists => "EXISTS"
    | .notExists => "NOT EXISTS"
    | .allOf => "ALL"
    | .anyOf => "ANY"
    | .someOf => "SOME"

inductive Aggregate where
  | count | sum | avg | min | max | countDistinct
  deriving DecidableEq

instance : Vocabulary Aggregate where
  members := [.count, .sum, .avg, .min, .max, .countDistinct]
  spelling
    | .count => "COUNT"
    | .sum => "SUM"
    | .avg => "AVG"
    | .min => "MIN"
    | .max => "MAX"
    | .countDistinct => "COUNT_DISTINCT"

inductive Connective where
  | and | or
  deriving DecidableEq

instance : Vocabulary Connective where
  members := [.and, .or]
  spelling
    | .and => "AND"
    | .or => "OR"

inductive Direction where
  | ascending | descending
  deriving DecidableEq

instance : Vocabulary Direction where
  members := [.ascending, .descending]
  spelling
    | .ascending => "ASC"
    | .descending => "DESC"

inductive SetOperation where
  | union | unionAll | intersect | except
  deriving DecidableEq

instance : Vocabulary SetOperation where
  members := [.union, .unionAll, .intersect, .except]
  spelling
    | .union => "UNION"
    | .unionAll => "UNION ALL"
    | .intersect => "INTERSECT"
    | .except => "EXCEPT"

inductive StatementKind where
  | select | insert | update | delete | create | alter | drop | truncate
  deriving DecidableEq

instance : Vocabulary StatementKind where
  members := [.select, .insert, .update, .delete, .create, .alter, .drop, .truncate]
  spelling
    | .select => "SELECT"
    | .insert => "INSERT"
    | .update => "UPDATE"
    | .delete => "DELETE"
    | .create => "CREATE"
    | .alter => "ALTER"
    | .drop => "DROP"
    | .truncate => "TRUNCATE"

theorem Comparison.read?_spelling (c : Comparison) :
    Vocabulary.read? (Vocabulary.spelling c) = some c := by
  cases c <;> rfl

theorem JoinKind.read?_spelling (k : JoinKind) :
    Vocabulary.read? (Vocabulary.spelling k) = some k := by
  cases k <;> rfl

theorem FilterOperator.read?_spelling (o : FilterOperator) :
    Vocabulary.read? (Vocabulary.spelling o) = some o := by
  cases o with
  | compare c => cases c <;> rfl
  | _ => rfl

theorem Aggregate.read?_spelling (a : Aggregate) :
    Vocabulary.read? (Vocabulary.spelling a) = some a := by
  cases a <;> rfl

theorem Connective.read?_spelling (c : Connective) :
    Vocabulary.read? (Vocabulary.spelling c) = some c := by
  cases c <;> rfl

theorem Direction.read?_spelling (d : Direction) :
    Vocabulary.read? (Vocabulary.spelling d) = some d := by
  cases d <;> rfl

theorem SetOperation.read?_spelling (o : SetOperation) :
    Vocabulary.read? (Vocabulary.spelling o) = some o := by
  cases o <;> rfl

theorem StatementKind.read?_spelling (k : StatementKind) :
    Vocabulary.read? (Vocabulary.spelling k) = some k := by
  cases k <;> rfl

end SqlCanvas
