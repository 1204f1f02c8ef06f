import SqlCanvas.Proofs.Nesting.Pieces

/-!
# Written words

The smallest parts of a written statement, each with the proof that it is well formed: gaps,
keywords and phrases in any letter case, and identifiers, which are no words that take a statement
apart. Every part gives its tokens.
-/

namespace SqlCanvas

open Text Nesting Pattern

structure Gap where
  text : Text
  isGap : IsGap text

namespace Gap

def token (g : Gap) : Token :=
  .gap g.text g.isGap

def space : Gap :=
  ⟨[' '], by simp, by decide⟩

def line : Gap :=
  ⟨['\n'], by simp, by decide⟩

@[simp] theorem token_text (g : Gap) : g.token.text = g.text := rfl

end Gap

theorem Solid.spaced {ts us : List Token} (hts : Solid ts) (hus : Solid us) (g : Gap) :
    Solid (ts ++ g.token :: us) :=
  hts.gap hus g.text g.isGap

def blankTokens (g : Option Gap) : List Token :=
  (g.map Gap.token).toList

theorem isBlank_of_blankTokens (g : Option Gap) :
    ∀ c ∈ textOf (blankTokens g), isBlank c = true := by
  cases g with
  | none => simp [blankTokens]
  | some g => simpa [blankTokens] using g.isGap.2

theorem avoids_of_gap {keywords : List String} {g : Gap} : g.token.Avoids keywords :=
  trivial

/-- Solid lists with blanks between them, which only two words cannot do without. -/
theorem Solid.glue {ts us : List Token} (hts : Solid ts) (hus : Solid us) (g : Option Gap)
    (h : g = none → ∀ a ∈ ts.getLast?, ∀ b ∈ us.head?, (a.isWord && b.isWord) = false) :
    Solid (ts ++ (blankTokens g ++ us)) := by
  cases g with
  | none => exact hts.append hus (h rfl)
  | some g => exact hts.spaced hus g

/-- Blocks of a head and a body, each behind a gap, and blanks at the end. -/
structure Blocks (A : Type) where
  head : A → List Token
  body : A → List Token
  mark : A → Marking
  trail : Option Gap

namespace Blocks

variable {A : Type} (k : Blocks A)

def tokens (xs : List (Gap × A)) : List Token :=
  xs.flatMap fun x => x.1.token :: (k.head x.2 ++ k.body x.2)

@[simp] theorem tokens_nil : k.tokens [] = [] := rfl

@[simp] theorem tokens_cons (g : Gap) (a : A) (xs : List (Gap × A)) :
    k.tokens ((g, a) :: xs) = g.token :: (k.head a ++ (k.body a ++ k.tokens xs)) := by
  simp [tokens]

def nextGap : List (Gap × A) → Text
  | [] => textOf (blankTokens k.trail)
  | (g, _) :: _ => g.text

theorem isBlank_nextGap (xs : List (Gap × A)) : ∀ c ∈ k.nextGap xs, isBlank c = true := by
  cases xs with
  | nil => exact isBlank_of_blankTokens k.trail
  | cons x xs => exact x.1.isGap.2

/-- For each block what its head marks and the text up to the next head. -/
def pieces : List (Gap × A) → List (Marking × Text)
  | [] => []
  | (_, a) :: xs => (k.mark a, textOf (k.body a) ++ k.nextGap xs) :: pieces xs

/-- A pattern that takes the heads and skips the bodies cuts a text block by block. -/
theorem cuts {p : Pattern} (hgap : ∀ g b r, (∀ c ∈ g, isBlank c = true) → Skips p b g r)
    (hbody : ∀ a b r, Halts isWord r → Skips p b (textOf (k.body a)) r)
    (hhead : ∀ a, textOf (k.head a) ≠ [])
    (htakes : ∀ a b xs, (∀ c ∈ b, Text.isWord c = false) → p.Takes b (textOf (k.head a))
      (textOf (k.body a) ++ (textOf (k.tokens xs) ++ textOf (blankTokens k.trail))) (k.mark a))
    (xs : List (Gap × A)) {u : Text} (hu : ∀ b r, Halts isWord r → Skips p b u r)
    (b : Option Char) :
    Cuts p b (u ++ (textOf (k.tokens xs) ++ textOf (blankTokens k.trail))) (u ++ k.nextGap xs)
      (k.pieces xs) := by
  induction xs generalizing u b with
  | nil =>
    have blank := isBlank_of_blankTokens k.trail
    refine .last ((hu b _ (halts_of_forall fun c hc => ?_)).append (hgap _ _ _ blank))
    rw [List.append_nil] at hc
    exact not_isWord_of_isBlank (blank c hc)
  | cons x xs ih =>
    obtain ⟨g, a⟩ := x
    have before : ∀ c ∈ lastChar b (u ++ g.text), Text.isWord c = false := by
      obtain ⟨d, hd, hlast⟩ := lastChar_of_ne_nil g.isGap.1 (lastChar b u)
      intro c hc
      rw [lastChar_append, hlast] at hc
      cases hc
      exact not_isWord_of_isBlank (g.isGap.2 d hd)
    have skipped : Skips p b (u ++ g.text) (textOf (k.head a) ++ (textOf (k.body a) ++
        (textOf (k.tokens xs) ++ textOf (blankTokens k.trail)))) :=
      (hu b _ (g.isGap.halts_isWord _)).append (hgap _ _ _ g.isGap.2)
    have := Cuts.next skipped (hhead a) (htakes a _ xs before)
      (ih (fun b r hr => hbody a b r hr) (lastChar (lastChar b (u ++ g.text)) (textOf (k.head a))))
    simpa [nextGap, pieces] using this

end Blocks

/-- Words by which the reader of statements takes them apart. -/
def reserved : List String :=
  ["UNION", "INTERSECT", "EXCEPT", "FROM", "DISTINCT", "WHERE", "GROUP", "HAVING", "ORDER", "LIMIT",
    "OFFSET", "FETCH", "JOIN", "LEFT", "RIGHT", "FULL", "INNER", "CROSS", "NATURAL", "SELF", "ON",
    "USING", "OUTER", "WINDOW", "SET", "VALUES", "AS", "AND", "OR", "BETWEEN", "RECURSIVE"]

theorem Token.Avoids.mono {keywords keywords' : List String} {a : Token} (h : a.Avoids keywords)
    (hsub : keywords' ⊆ keywords) : a.Avoids keywords' := by
  cases a with
  | word w hw => exact fun k hk => h k (hsub hk)
  | mark => exact h
  | gap | shelter => trivial

/-- A keyword as it is written: its letters in either case. -/
structure Spelling (k : String) where
  text : Text
  isKeyword : IsKeyword k.toList
  spells : Spells k.toList text
  isAscii : IsAscii text

namespace Spelling

variable {k : String}

theorem isName (s : Spelling k) : IsName s.text :=
  s.spells.isName s.isKeyword

def token (s : Spelling k) : Token :=
  .word s.text s.isName

@[simp] theorem token_text (s : Spelling k) : s.token.text = s.text := rfl

def capital (k : String) (h : IsKeyword k.toList) : Spelling k where
  text := k.toList
  isKeyword := h
  spells := spells_self
  isAscii := fun l hl => by
    have := (h.2 l hl).2
    omega

theorem avoids (s : Spelling k) {keywords : List String}
    (h : ∀ k' ∈ keywords, IsKeyword k'.toList ∧ k' ≠ k) : s.token.Avoids keywords := by
  intro k' hk' hspells
  obtain ⟨hkey, hne⟩ := h k' hk'
  exact hne (String.toList_inj.mp (hspells.unique s.spells hkey.2 s.isKeyword.2))

theorem solid (s : Spelling k) : Solid [s.token] :=
  .singleton rfl

end Spelling

/-- Several keywords with gaps between them. -/
inductive Phrase : List String → Type
  | one {k : String} (s : Spelling k) : Phrase [k]
  | cons {k k' : String} {ks : List String} (s : Spelling k) (g : Gap) (p : Phrase (k' :: ks)) :
    Phrase (k :: k' :: ks)

namespace Phrase

def tokens : {ks : List String} → Phrase ks → List Token
  | _, one s => [s.token]
  | _, cons s g p => s.token :: g.token :: p.tokens

def capital : (ks : List String) → IsPhrase ks → Phrase ks
  | [], h => absurd rfl h.1
  | [k], h => .one (.capital k (h.2 k List.mem_cons_self))
  | k :: k' :: ks, h =>
    .cons (.capital k (h.2 k List.mem_cons_self)) .space (capital (k' :: ks) h.tail)

variable {ks : List String}

theorem isPhrase (p : Phrase ks) : IsPhrase ks := by
  induction p with
  | one s => exact ⟨List.cons_ne_nil _ _, List.forall_mem_singleton.mpr s.isKeyword⟩
  | cons s g p ih => exact ⟨List.cons_ne_nil _ _, List.forall_mem_cons.mpr ⟨s.isKeyword, ih.2⟩⟩

theorem covers (p : Phrase ks) : (phrase ks).Covers (textOf p.tokens) := by
  induction p with
  | one s =>
    rw [tokens, textOf_cons, textOf_nil, List.append_nil]
    exact covers_word.mpr s.spells
  | cons s g p ih =>
    refine (covers_phrase_cons (List.cons_ne_nil _ _)).mpr ⟨s.text, g.text, textOf p.tokens,
      s.spells, g.isGap, ih, ?_⟩
    simp [tokens]

theorem exists_head (p : Phrase ks) :
    ∃ w v, IsName w ∧ textOf p.tokens = w ++ v := by
  cases p with
  | one s => exact ⟨s.text, [], s.isName, by simp [tokens]⟩
  | cons s g p => exact ⟨s.text, g.text ++ textOf p.tokens, s.isName, by simp [tokens]⟩

theorem solid (p : Phrase ks) : Solid p.tokens := by
  induction p with
  | one s => exact s.solid
  | cons s g p ih => exact s.solid.spaced ih g

theorem avoids (p : Phrase ks) {keywords : List String}
    (h : ∀ k' ∈ keywords, IsKeyword k'.toList ∧ k' ∉ ks) : ∀ a ∈ p.tokens, a.Avoids keywords := by
  induction p with
  | one s => simpa [tokens] using s.avoids fun k' hk' => ⟨(h k' hk').1, by simpa using (h k' hk').2⟩
  | cons s g p ih =>
    refine List.forall_mem_cons.mpr ⟨s.avoids fun k' hk' => ?_, List.forall_mem_cons.mpr
      ⟨trivial, ih fun k' hk' => ?_⟩⟩
    · exact ⟨(h k' hk').1, List.ne_of_not_mem_cons (h k' hk').2⟩
    · exact ⟨(h k' hk').1, List.not_mem_of_not_mem_cons (h k' hk').2⟩

theorem textOf_capital (h : IsPhrase ks) :
    textOf (capital ks h).tokens = (" ".intercalate ks).toList := by
  induction ks with
  | nil => exact absurd rfl h.1
  | cons k ks ih =>
    cases ks with
    | nil => simp [capital, tokens, Spelling.capital]
    | cons k' ks =>
      rw [capital, tokens, textOf_cons, textOf_cons, ih h.tail]
      simp [Spelling.capital, Gap.space, String.toList_intercalate]

end Phrase

theorem Spelling.upper_text {k : String} (s : Spelling k) : upper s.text = k.toList :=
  upper_of_spells s.isKeyword.2 s.isAscii.isTame s.spells

theorem Phrase.canonicalKeyword {ks : List String} (p : Phrase ks) :
    canonicalKeyword (textOf p.tokens) = " ".intercalate ks := by
  have words : (upper (textOf p.tokens)).words = ks.map String.toList := by
    induction p with
    | one s =>
      rw [tokens, textOf_cons, textOf_nil, List.append_nil, Spelling.token_text, s.upper_text,
        words_of_not_blank s.isKeyword.1 fun c hc => not_isBlank_of_isCapital (s.isKeyword.2 c hc)]
      rfl
    | cons s g p ih =>
      rw [tokens, textOf_cons, textOf_cons, Spelling.token_text, Gap.token_text, upper_append,
        upper_append, s.upper_text, upper_of_blank g.isGap.2, words_append_gap s.isKeyword.1
          (fun c hc => not_isBlank_of_isCapital (s.isKeyword.2 c hc)) g.isGap, ih]
      rfl
  rw [SqlCanvas.canonicalKeyword, collapseBlanks, words, ← String.toList_inj,
    String.toList_intercalate]
  simp

theorem Phrase.readKeyword {α : Type} [Vocabulary α] (model field : String)
    {ks : List String} {a : α} (p : Phrase ks)
    (h : Vocabulary.read? (" ".intercalate ks) = some a) :
    SqlCanvas.readKeyword model field (textOf p.tokens) = .ok a := by
  rw [SqlCanvas.readKeyword, p.canonicalKeyword, h]

/-- A word that names something: it takes no statement apart and does not start like a number. -/
structure Ident where
  text : Text
  isName : IsName text
  free : ∀ k ∈ reserved, ¬ Spells k.toList text
  halts : Halts isDigit text

namespace Ident

def token (i : Ident) : Token :=
  .word i.text i.isName

@[simp] theorem token_text (i : Ident) : i.token.text = i.text := rfl

theorem avoids (i : Ident) {keywords : List String} (h : keywords ⊆ reserved) :
    i.token.Avoids keywords :=
  fun k hk => i.free k (h hk)

theorem solid (i : Ident) : Solid [i.token] :=
  .singleton rfl

theorem halts_isBlank (i : Ident) (r : Text) : Halts isBlank (i.text ++ r) :=
  i.isName.halts_isBlank r

end Ident

def Token.dot : Token :=
  .mark '.' (by decide)

@[simp] theorem Token.dot_text : Token.dot.text = ['.'] := rfl

@[simp] theorem Token.shelter_text {s : Text} (h : Sheltered s) : (Token.shelter s h).text = s :=
  rfl

def Token.comma : Token :=
  .mark ',' (by decide)

@[simp] theorem Token.comma_text : Token.comma.text = [','] := rfl

/-- Names with points between them. -/
structure Dotted where
  first : Ident
  rest : List Ident

namespace Dotted

def tokens (d : Dotted) : List Token :=
  d.first.token :: d.rest.flatMap fun i => [.dot, i.token]

def text (d : Dotted) : Text :=
  textOf d.tokens

theorem solid (d : Dotted) : Solid d.tokens := by
  obtain ⟨first, rest⟩ := d
  induction rest generalizing first with
  | nil => exact first.solid
  | cons i rest ih =>
    have tail : Solid (Token.dot :: tokens ⟨i, rest⟩) :=
      (Solid.singleton rfl).append (ih i) (by simp [Token.dot, Token.isWord])
    exact first.solid.append tail (by simp [Token.dot, Token.isWord])

theorem avoids (d : Dotted) {keywords : List String} (h : keywords ⊆ reserved) :
    ∀ a ∈ d.tokens, a.Avoids keywords := by
  refine List.forall_mem_cons.mpr ⟨d.first.avoids h, fun a ha => ?_⟩
  obtain ⟨i, -, ha⟩ := List.mem_flatMap.mp ha
  rcases List.mem_pair.mp ha with rfl | rfl
  · exact (by decide : '.' ≠ ';')
  · exact i.avoids h

end Dotted

theorem shy_comma : Text.comma.shy = true := by
  decide

theorem refuses_comma {b : Option Char} {c : Char} {r : Text} (h : c ≠ ',') :
    Text.comma.Refuses b (c :: r) :=
  refuses_exactly (by simpa using h)

theorem skips_comma_of_forall {u : Text} (h : ∀ c ∈ u, c ≠ ',' ∧ isSpecial c = false)
    (b : Option Char) (r : Text) : Skips Text.comma b u r := by
  refine skips_of_refuses (fun c hc => (h c hc).2) fun x c y hxy => refuses_comma ?_
  exact (h c (by rw [hxy]; simp)).1

theorem skips_comma_of_blank {g : Text} (hg : ∀ c ∈ g, isBlank c = true) (b : Option Char)
    (r : Text) : Skips Text.comma b g r := by
  refine skips_comma_of_forall (fun c hc => ⟨?_, not_isSpecial_of_isBlank (hg c hc)⟩) b r
  rintro rfl
  exact absurd (hg _ hc) (by decide)

def Token.NoComma : Token → Prop
  | .mark c _ => c ≠ ','
  | _ => True

theorem Token.skips_comma {a : Token} (h : a.NoComma) (b : Option Char) (r : Text) :
    Skips Text.comma b a.text r := by
  cases a with
  | word w hw =>
    refine skips_comma_of_forall (fun c hc => ⟨?_, not_isSpecial_of_isWord (hw.2 c hc)⟩) b r
    rintro rfl
    exact absurd (hw.2 _ hc) (by decide)
  | gap g hg => exact skips_comma_of_blank hg.2 b r
  | mark c hc =>
    refine skips_comma_of_forall (u := [c]) ?_ b r
    simpa using ⟨h, hc.2.2⟩
  | shelter s hs => exact skips_of_sheltered shy_comma hs

theorem part_comma {ts : List Token} (hts : Solid ts) (h : ∀ a ∈ ts, a.NoComma) :
    Part Text.comma ts where
  solid := hts
  skips b r _ := by
    clear hts
    induction ts generalizing b with
    | nil => exact skips_nil
    | cons a ts ih =>
      obtain ⟨ha, h⟩ := List.forall_mem_cons.mp h
      rw [textOf_cons]
      exact (Token.skips_comma ha b _).append (ih h _)

/-- A comma with or without blanks around it. -/
structure CommaGap where
  before : Option Gap
  after : Option Gap

namespace CommaGap

def tokens (s : CommaGap) : List Token :=
  blankTokens s.before ++ (.comma :: blankTokens s.after)

theorem separates (s : CommaGap) : Separates Text.comma (textOf s.tokens) := by
  refine ⟨textOf (blankTokens s.before), [','], textOf (blankTokens s.after), ?_, by simp, ?_,
    isBlank_of_blankTokens _, isBlank_of_blankTokens _,
    fun b r => skips_comma_of_blank (isBlank_of_blankTokens _) b _,
    fun b r => skips_comma_of_blank (isBlank_of_blankTokens _) b r, fun b r _ => takes_exactly ','⟩
  · simp [tokens]
  · obtain ⟨before, after⟩ := s
    cases before with
    | none => simp [tokens, blankTokens]; decide
    | some g => simpa [tokens, blankTokens] using g.isGap.halts_isWord _

theorem solid (s : CommaGap) {ts us : List Token} (hts : Solid ts) (hus : Solid us) :
    Solid (ts ++ (s.tokens ++ us)) := by
  have comma : Solid [Token.comma] := .singleton rfl
  have right : Solid ([Token.comma] ++ (blankTokens s.after ++ us)) :=
    comma.glue hus _ fun _ => by simp [Token.comma, Token.isWord]
  have := hts.glue right s.before fun _ => by simp [Token.comma, Token.isWord]
  simpa [tokens] using this

theorem avoids (s : CommaGap) (keywords : List String) : ∀ a ∈ s.tokens, a.Avoids keywords := by
  have comma : Token.comma.Avoids keywords := by
    change ',' ≠ ';'
    decide
  obtain ⟨before, after⟩ := s
  intro a ha
  cases before <;> cases after <;> simp [tokens, blankTokens] at ha <;>
    rcases ha with rfl | rfl | rfl <;> first | exact comma | trivial

end CommaGap

end SqlCanvas
