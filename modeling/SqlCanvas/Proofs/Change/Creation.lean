import SqlCanvas.Proofs.Statement.Remainder

/-!
# Creations

The columns of a new table go up to the last closing parenthesis of the statement, wherever the list
of columns was closed. So they come back as they were written if no parenthesis is closed behind
them, and else with what stands between.
-/

namespace SqlCanvas

open Text Nesting Pattern

namespace Change

def createKeyword : Spelling (Vocabulary.spelling StatementKind.create) :=
  .capital "CREATE" (by decide)

def creationOf (t : TableName) (columns : Text) : CreateTableFragment where
  name := String.ofList t.text
  temporary := false
  ifNotExists := false
  columnDefinitions := strings columns.splitCommas
  columnsRaw := String.ofList columns.trim

def creationLead (t : TableName) : Text :=
  "CREATE TABLE ".toList ++ (t.text ++ " (".toList)

theorem refuses_ifNotExists (t : TableName) {b : Option Char} {r : Text} :
    (phrase ["IF", "NOT", "EXISTS"]).Refuses b (t.text ++ (' ' :: '(' :: r)) := by
  have words : IsPhrase ["IF", "NOT", "EXISTS"] := by decide
  obtain ⟨first, second⟩ := t
  cases second with
  | none =>
    have :=
      refuses_phrase_of_name (b := b) words first.isName (g := [' ']) (r := '(' :: r) (by decide)
        (halts_cons.mpr (by decide)) (halts_cons.mpr (by decide))
    simpa [TableName.text, TableName.tokens] using this
  | some n =>
    have := refuses_phrase_of_name (b := b) words first.isName (g := [])
      (r := '.' :: (n.text ++ ' ' :: '(' :: r))
      (List.forall_mem_nil _) (halts_cons.mpr (by decide)) (halts_cons.mpr (by decide))
    simpa [TableName.text, TableName.tokens] using this

/-- The columns go up to the last closing parenthesis. -/
theorem readCreate?_eq (t : TableName) (columns : Text) {rest : Text} (hrest : ')' ∉ rest) :
    readCreate? (creationLead t ++ (columns ++ ')' :: rest)) = some (creationOf t columns) := by
  -- The columns are taken greedily: up to the last closing parenthesis, since none follows it.
  have closing {b : Option Char} :
      (all [.capture 4 (.many anything), .exactly ')']).Takes b (columns ++ [')']) rest
        [(4, columns)] := by
    refine takes_many_seq (fun _ _ => rfl) 4 (fun x y hxy hx => ?_) (takes_exactly ')').all_last
    obtain ⟨c, x, rfl⟩ := List.exists_cons_of_ne_nil hx
    obtain ⟨-, rfl⟩ := List.cons.inj hxy
    exact (refuses_exactly fun h =>
      hrest (List.mem_append_right x (List.mem_of_mem_head? h))).seq_left _
  have list {b : Option Char} :
      (all [blanks, .exactly '(', .capture 4 (.many anything), .exactly ')']).Takes b
        ([' '] ++ (['('] ++ (columns ++ [')']))) rest [(4, columns)] :=
    .all_pass (takes_blanks (by decide) (halts_cons.mpr (by decide)))
      (.all_pass (takes_exactly '(') closing)
  have table {b : Option Char} := Takes.all_cons (b := b)
    ((t.takes_identifier (halts_cons.mpr (by decide)) (by simp)).capture 3) list
  have always {b : Option Char} :
      (Pattern.maybe (.capture 2 (.seq (phrase ["IF", "NOT", "EXISTS"]) blank))).Takes b []
        (t.text ++ ([' '] ++ (['('] ++ (columns ++ [')']))) ++ rest) [] := by
    refine takes_maybe_nothing (.capture 2 (.seq_left ?_ blank))
    rw [List.append_assoc]
    exact refuses_ifNotExists t
  have permanent {b : Option Char} {x y : Text} :
      (Pattern.maybe (.capture 1 (.all [word "TEMP", .maybe (word "ORARY"),
        blank]))).Takes b [] (tableKeyword.text ++ [' '] ++ x ++ y) [] := by
    refine takes_maybe_nothing (.capture 1 (.seq_left ?_ _))
    rw [List.append_assoc, List.append_assoc]
    exact refuses_word_of_spells (by decide) (by decide) (by decide) (by decide) tableKeyword.spells
  have tableHalts (r : Text) : Halts isBlank (t.text ++ r) := t.solid.halts_isBlank r
  have keyword {b : Option Char} :=
    (takes_keyword (b := b) tableKeyword (by simpa using tableHalts _)).all_append
      (.all_pass always table)
  have front :=
    (takes_opening createKeyword (by simpa using tableKeyword.isName.halts_isBlank _)).all_append
      (.all_pass permanent keyword)
  have words : "CREATE TABLE ".toList = createKeyword.text ++ [' '] ++
      (tableKeyword.text ++ [' ']) := by
    decide
  have lead : creationLead t = createKeyword.text ++ [' '] ++ (tableKeyword.text ++ [' ']) ++
      (t.text ++ " (".toList) :=
    congrArg (· ++ (t.text ++ " (".toList)) words
  obtain ⟨found, matched, -, hcapture⟩ := match?_start_of_takes (w := creation)
    (t := creationLead t ++ (columns ++ ')' :: rest)) rfl (by rw [lead]; simp) front
  rw [readCreate?, matched]
  simp only [Option.bind_eq_bind, Option.bind_some, Match.captured, hcapture]
  rfl

end Change

theorem Text.exists_last {c : Char} {t : Text} (h : c ∈ t) : ∃ s r, t = s ++ c :: r ∧ c ∉ r := by
  obtain ⟨r, s, hrs, hr⟩ := List.eq_append_cons_of_mem (List.mem_reverse.mpr h)
  refine ⟨s.reverse, r.reverse, ?_, fun hc => hr (List.mem_reverse.mp hc)⟩
  rw [← t.reverse_reverse, hrs]
  simp

theorem Text.count_trim {c : Char} (hc : isBlank c = false) (t : Text) :
    t.trim.count c = t.count c := by
  have none {g : Text} (hg : ∀ c ∈ g, isBlank c = true) : g.count c = 0 :=
    List.count_eq_zero.mpr fun h => by rw [hg c h] at hc; cases hc
  obtain ⟨g, g', whole, hg, hg'⟩ := exists_trim_append t
  conv_rhs => rw [whole]
  rw [List.count_append, List.count_append, none hg, none hg', Nat.zero_add, Nat.add_zero]

namespace Statement

open Change

/-- Of a new table the text up to the last closing parenthesis is read as its columns. That is the
text in front of a given parenthesis just when none is closed behind it. -/
theorem parse_creation_iff (t : TableName) (body tail : Text) (start : Int) : ∃ s columns rest,
    cutAtLast? ')' (body ++ ')' :: tail) = some (columns, rest) ∧
      parse (String.ofList (creationLead t ++ (body ++ ')' :: tail))) start = .ok s ∧
      s.kind = .create ∧
        s.createTable = some (creationOf t columns) ∧ (s.createTable = some (creationOf t body) ↔
          ')' ∉ tail) := by
  obtain ⟨columns, rest, whole, hrest⟩ :=
    exists_last (c := ')') (t := body ++ ')' :: tail) (by simp)
  have stripped : stripTerminator (creationLead t ++ (columns ++ ')' :: rest)) =
      creationLead t ++ (columns ++ ')' :: remainder rest) := by
    have :=
      stripTerminator_append (t := creationLead t ++ (columns ++ [')'])) (by simp)
        (by simp; decide) rest
    rw [trimStart_of_halts (by exact halts_cons.mpr (by decide))] at this
    simpa using this
  have parsed := parse_stripped .create (by decide) createKeyword
    (r := " TABLE ".toList ++ (t.text ++ " (".toList) ++ (columns ++ ')' :: remainder rest))
    stripped (halts_cons.mpr (by decide)) start
  have fragment : Change.read .create (createKeyword.text ++
    (" TABLE ".toList ++ (t.text ++ " (".toList) ++
      (columns ++ ')' :: remainder rest))) = .ok { Statement.ofQuery .create .empty with
        createTable := some (creationOf t columns) } := by
    have open_behind : ')' ∉ remainder rest := fun h => hrest ((remainder_isPrefix rest).subset h)
    have := readCreate?_eq t columns open_behind
    exact congrArg (fun f => Except.ok { Statement.ofQuery .create .empty with createTable := f })
      this
  rw [whole, parsed, fragment]
  refine ⟨_, columns, rest, cutAtLast?_append columns hrest, rfl, rfl, rfl, fun same hclosed => ?_,
    fun h => ?_⟩
  · -- Each parenthesis closed behind the given one belongs to the columns, or ends them.
    have raw :=
      String.ofList_injective (congrArg CreateTableFragment.columnsRaw (Option.some.inj same))
    have columnsCount : columns.count ')' = body.count ')' := by
      rw [← count_trim (by decide) columns, raw, count_trim (by decide)]
    have all := congrArg (List.count ')') whole
    have none_behind := List.count_eq_zero.mpr hrest
    have some_behind := List.count_pos_iff.mpr hclosed
    simp only [List.count_append, List.count_cons_self] at all
    omega
  · have cut := cutAtLast?_append body h
    rw [whole, cutAtLast?_append columns hrest] at cut
    cases cut
    rfl

end Statement

end SqlCanvas
