import SqlCanvas.Proofs.Grammar.Statement

/-!
# Statements that change something

What all written changes have in common: the keyword they start with, the name of a table, and how
the text as a whole is read once its body is.
-/

namespace SqlCanvas

open Text Nesting Pattern

/-- A word of any script. Keywords are names as well. -/
structure Name where
  text : Text
  isName : IsName text

namespace Name

def token (n : Name) : Token :=
  .word n.text n.isName

@[simp] theorem token_text (n : Name) : n.token.text = n.text := rfl

theorem solid (n : Name) : Solid [n.token] :=
  .singleton rfl

theorem avoids_nothing (n : Name) : n.token.Avoids [] :=
  List.forall_mem_nil _

end Name

/-- The name of a table in one part, or in two with a point between them. -/
structure TableName where
  first : Name
  second : Option Name

namespace TableName

variable (t : TableName)

def tokens : List Token :=
  t.first.token :: (t.second.map fun n => [Token.dot, n.token]).getD []

def text : Text :=
  textOf t.tokens

theorem solid : Solid t.tokens := by
  obtain ⟨first, second⟩ := t
  cases second with
  | none => exact first.solid
  | some n =>
    have dot : Solid [Token.dot] := .singleton rfl
    have behind : Solid (Token.dot :: [n.token]) :=
      dot.append n.solid (by simp [Token.dot, Token.isWord])
    exact first.solid.append behind (by simp [Token.dot, Token.isWord])

theorem avoids_nothing : ∀ a ∈ t.tokens, a.Avoids [] := by
  obtain ⟨first, second⟩ := t
  cases second with
  | none => exact List.forall_mem_singleton.mpr first.avoids_nothing
  | some n =>
    refine List.forall_mem_cons.mpr ⟨first.avoids_nothing, List.forall_mem_cons.mpr ⟨?_, ?_⟩⟩
    · exact (by decide : '.' ≠ ';')
    · exact List.forall_mem_singleton.mpr n.avoids_nothing

theorem takes_identifier {b : Option Char} {r : Text} (hr : Halts Text.isWord r)
    (hdot : r.head? ≠ some '.') : identifier.Takes b t.text r [] := by
  obtain ⟨first, second⟩ := t
  cases second with
  | none =>
    have := takes_bare (b := b) first.isName hr ((refuses_exactly hdot).seq_left name)
    exact this.congr (by simp [text, tokens]) rfl
  | some n =>
    have := takes_qualified (b := b) first.isName n.isName hr
    exact this.congr (by simp [text, tokens]) rfl

end TableName

theorem Change.takes_keyword {k : String} (s : Spelling k) {b : Option Char} {r : Text}
    (hr : Halts isBlank r) : (all [word k, blank]).Takes b (s.text ++ [' ']) r [] :=
  .all_pass (takes_word s.spells) (takes_blank Gap.space.isGap hr).all_last

theorem Change.takes_opening {k : String} (s : Spelling k) {r : Text} (hr : Halts isBlank r) :
    (all [blanks, word k, blank]).Takes none (s.text ++ [' ']) r [] := by
  have start : blanks.Takes none [] (s.text ++ [' '] ++ r) [] :=
    takes_blanks (List.forall_mem_nil _) (by simpa using s.isName.halts_isBlank ([' '] ++ r))
  exact Takes.all_pass (v := s.text ++ [' ']) start (takes_keyword s hr)

theorem Statement.ofOutline_change {σ : Type} (ids : IdSource σ) {kind : StatementKind}
    (hkind : kind ≠ .select) (body : Text) :
    ofOutline ids (.mk [] false (Vocabulary.spelling kind).toList body []) = do
      let s ← Reading.ofExcept (Change.read kind body)
      return { s with query := complete kind [] [] s.query } := by
  have known : readKind (Vocabulary.spelling kind).toList = .ok kind := by
    rw [readKind, String.ofList_toList, StatementKind.read?_spelling]
  rw [ofOutline, readTables, known]
  cases kind with
  | select => exact absurd rfl hkind
  | insert | update | delete | create | alter | drop | truncate => rfl

theorem Statement.parse_stripped (kind : StatementKind) (hkind : kind ≠ .select)
    (s : Spelling (Vocabulary.spelling kind)) {sql r : Text}
    (hsql : stripTerminator sql = s.text ++ r) (hr : Halts Text.isWord r) (start : Int) :
    parse (String.ofList sql) start =
      (Change.read kind (s.text ++ r)).map fun s =>
        { s with query := complete kind [] [] s.query } := by
  have other : (Vocabulary.spelling kind).toList ≠ "SELECT".toList := by
    cases kind with
    | select => exact absurd rfl hkind
    | insert | update | delete | create | alter | drop | truncate => decide
  have keyword : firstKeyword? (s.text ++ r) = some (Vocabulary.spelling kind).toList :=
    firstKeyword?_spelling kind s (g := []) (List.forall_mem_nil _) hr
  have outline : Outline.of sql =
      .mk [] false (Vocabulary.spelling kind).toList (s.text ++ r) [] := by
    rw [Outline.of_eq, hsql, splitWith_spelling]
    simp only [keyword, Option.getD_some, if_neg other, List.map_nil]
  rw [parse, read, String.toList_ofList, outline, ofOutline_change _ hkind]
  cases Change.read kind (s.text ++ r) <;> rfl

/-- A change that starts with its keyword and has no semicolon is read as its body is. -/
theorem Statement.parse_change (kind : StatementKind) (hkind : kind ≠ .select)
    (s : Spelling (Vocabulary.spelling kind)) {ts : List Token} (hts : Solid ts)
    (havoids : ∀ a ∈ ts, a.Avoids []) {r : Text} (htext : textOf ts = s.text ++ r)
    (hr : Halts Text.isWord r) (start : Int) :
    parse (String.ofList (textOf ts)) start =
      (Change.read kind (textOf ts)).map fun s =>
        { s with query := complete kind [] [] s.query } := by
  have stripped : stripTerminator (textOf ts) = textOf ts := by
    have : stripTerminator ([] ++ (textOf ts ++ [])) = textOf ts :=
      hts.stripTerminator havoids (List.forall_mem_nil _) (List.forall_mem_nil _)
    rwa [List.nil_append, List.append_nil] at this
  rw [parse_stripped kind hkind s (stripped.trans htext) hr, htext]

end SqlCanvas
