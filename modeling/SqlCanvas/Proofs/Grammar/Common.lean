import SqlCanvas.Proofs.Grammar.Entry

/-!
# Written common tables

The `WITH` clause in front of a statement, each of its queries in parentheses. Where nothing else is
said, the queries stand on lines of their own and the keywords are in capital letters.
-/

namespace SqlCanvas

open Text Nesting Pattern

theorem Gap.closed (g : Gap) : Closed g.text :=
  g.token.closed

/-- A named query; `body` is its text without the blanks around it. -/
structure WrittenEntry where
  name : Ident
  body : Text
  closed : Closed body
  before : Gap := .space
  keyword : Spelling "AS" := .capital "AS" WrittenAlias.isKeyword_as
  after : Gap := .space
  opening : Gap := .line
  closing : Gap := .line
  /-- The gap behind the comma in front of the query, if it is not the first one. -/
  apart : Gap := .line

namespace WrittenEntry

def inside (e : WrittenEntry) : Text :=
  e.opening.text ++ (e.body ++ e.closing.text)

theorem closed_inside (e : WrittenEntry) : Closed e.inside :=
  e.opening.closed.append (e.closed.append e.closing.closed)

def tokens (e : WrittenEntry) : List Token :=
  [e.name.token, e.before.token, e.keyword.token, e.after.token,
    .shelter _ (.parens e.closed_inside)]

def text (e : WrittenEntry) : Text :=
  textOf e.tokens

def front (e : WrittenEntry) : Text :=
  e.name.text ++ (e.before.text ++ (e.keyword.text ++ e.after.text))

theorem text_eq (e : WrittenEntry) : e.text = e.front ++ '(' :: (e.inside ++ [')']) := by
  simp [text, tokens, front]

theorem solid (e : WrittenEntry) : Solid e.tokens := by
  have shelter : Solid [Token.shelter _ (.parens e.closed_inside)] := .singleton rfl
  exact e.name.solid.spaced (e.keyword.solid.spaced shelter e.after) e.before

def cut (e : WrittenEntry) : Text × Text :=
  (e.name.text, e.inside)

def entry (e : WrittenEntry) : Entry :=
  ⟨e.name.text, e.name.isName, e.inside, e.closed_inside, e.before, e.keyword, e.after, e.apart⟩

@[simp] theorem entry_text (e : WrittenEntry) : e.entry.text = e.text :=
  e.text_eq.symm

end WrittenEntry

def entriesTokens : WrittenEntry → List WrittenEntry → List Token
  | e, [] => e.tokens
  | e, e' :: es => e.tokens ++ .comma :: e'.apart.token :: entriesTokens e' es

theorem solid_entriesTokens (e : WrittenEntry) (es : List WrittenEntry) :
    Solid (entriesTokens e es) := by
  induction es generalizing e with
  | nil => exact e.solid
  | cons e' es ih =>
    have comma : Solid [Token.comma] := .singleton rfl
    exact e.solid.append (comma.spaced (ih e') e'.apart) (by simp [Token.comma, Token.isWord])

theorem avoids_entriesTokens (e : WrittenEntry) (es : List WrittenEntry) :
    ∀ a ∈ entriesTokens e es, a.Avoids (reserved.filter (· ≠ "AS")) := by
  have entry (e : WrittenEntry) : ∀ a ∈ e.tokens, a.Avoids (reserved.filter (· ≠ "AS")) := by
    intro a ha
    simp only [WrittenEntry.tokens, List.mem_cons, List.not_mem_nil, or_false] at ha
    rcases ha with rfl | rfl | rfl | rfl | rfl
    · exact e.name.avoids (List.filter_subset_self _)
    · trivial
    · exact e.keyword.avoids (by decide)
    · trivial
    · trivial
  induction es generalizing e with
  | nil => exact entry e
  | cons e' es ih =>
    intro a ha
    simp only [entriesTokens, List.mem_append, List.mem_cons] at ha
    rcases ha with ha | rfl | rfl | ha
    · exact entry e a ha
    · exact (by decide : ',' ≠ ';')
    · trivial
    · exact ih e' a ha

theorem entriesText_entry (e : WrittenEntry) (es : List WrittenEntry) :
    entriesText e.entry (es.map WrittenEntry.entry) = textOf (entriesTokens e es) := by
  induction es generalizing e with
  | nil => exact e.entry_text
  | cons e' es ih =>
    rw [List.map_cons, entriesText, ih, e.entry_text]
    simp [entriesTokens, WrittenEntry.text, WrittenEntry.entry]

/-- `WITH` and the named queries, in front of a statement. -/
def withTokens (recursive : Bool) (es : List WrittenEntry) (layout : WithLayout := {}) :
    List Token :=
  match es with
  | [] => []
  | e :: es =>
    layout.keyword.token :: layout.gap.token ::
      (recursionTokens recursive layout ++ (entriesTokens e es ++ [layout.last.token]))

theorem withText_entry (recursive : Bool) (e : WrittenEntry) (es : List WrittenEntry)
    (layout : WithLayout := {}) :
    withText recursive e.entry (es.map WrittenEntry.entry) layout =
      textOf (withTokens recursive (e :: es) layout) := by
  rw [withText, entriesText_entry]
  simp [withTokens]

theorem splitWith_text (recursive : Bool) (e : WrittenEntry) (es : List WrittenEntry) {r : Text}
    (hr : Halts isBlank r) (hcomma : r.head? ≠ some ',') (layout : WithLayout := {}) :
    splitWith (textOf (withTokens recursive (e :: es) layout) ++ r) =
      ⟨(e :: es).map WrittenEntry.cut, recursive, layout.last.text ++ r⟩ := by
  have free : ¬ Spells "RECURSIVE".toList e.entry.name := e.name.free "RECURSIVE" (by decide)
  rw [← withText_entry recursive e es layout, splitWith_withText (fun _ => free) _ _ hr hcomma]
  simp [WrittenEntry.entry, Entry.cut, WrittenEntry.cut]

end SqlCanvas
