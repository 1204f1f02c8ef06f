import SqlCanvas.Proofs.Grammar.Column
import SqlCanvas.Proofs.Grammar.Literal

/-!
# Written conditions

A condition is an operand with a comparison sign, `LIKE` or a null test behind it. The operand is a
column or a call, and it may not start with a word that makes the reader see an existence test
instead.
-/

namespace SqlCanvas

open Text Nesting Pattern

theorem Text.cutAtLast?_of_not_mem {c : Char} {t : Text} (h : c ∉ t) : cutAtLast? c t = none := by
  induction t with
  | nil => rfl
  | cons d t ih =>
    rw [cutAtLast?, ih (List.not_mem_of_not_mem_cons h), if_neg (List.ne_of_not_mem_cons h).symm]

theorem Text.cutAtLast?_append {c : Char} (s : Text) {t : Text} (h : c ∉ t) :
    cutAtLast? c (s ++ c :: t) = some (s, t) := by
  induction s with
  | nil => rw [List.nil_append, cutAtLast?, cutAtLast?_of_not_mem h, if_pos rfl]
  | cons d s ih => rw [List.cons_append, cutAtLast?, ih]

theorem not_mem_of_not_isWord {w : Text} (hw : IsName w) {c : Char} (hc : isWord c = false) :
    c ∉ w := by
  intro hmem
  rw [hw.2 c hmem] at hc
  cases hc

namespace Ref

variable (x : Ref)

theorem solid : Solid x.tokens :=
  x.dotted.solid

/-- The first word of a reference. -/
def lead : Ident :=
  x.qualifier.getD x.column

def behindLead : Text :=
  (x.qualifier.map fun _ => '.' :: x.column.text).getD []

theorem text_eq : x.text = x.lead.text ++ x.behindLead := by
  obtain ⟨q, c⟩ := x
  cases q with
  | none => simp [text_bare, lead, behindLead]
  | some q => rw [text_qualified]; rfl

theorem head_ne {c : Char} (hc : isWord c = false) : x.text.head? ≠ some c := by
  rw [text_eq, List.head?_append_of_ne_nil _ x.lead.isName.1]
  intro h
  exact not_mem_of_not_isWord x.lead.isName hc (List.mem_of_mem_head? h)

theorem not_mem {c : Char} (hc : isWord c = false) (hdot : c ≠ '.') : c ∉ x.text := by
  obtain ⟨q, i⟩ := x
  have hi := not_mem_of_not_isWord i.isName hc
  cases q with
  | none => rwa [text_bare]
  | some q =>
    rw [text_qualified]
    simp [not_mem_of_not_isWord q.isName hc, hdot, hi]

theorem isName_ne_nil : x.text ≠ [] := by
  rw [text_eq]
  simp [x.lead.isName.1]

/-- What a reference stands for in a statement whose selected columns have the given aliases. -/
theorem resolve_text (scope : Scope) (aliases : List Text) :
    scope.resolve aliases x.text =
      (if x.qualifier = none ∧ lower x.column.text ∈ aliases then none else x.tableIn scope,
        x.column.text) := by
  have trimmed : x.text.trim = x.text := x.solid.trim_self
  have opening : x.text.contains '(' = false := by
    simpa using x.not_mem (c := '(') (by decide) (by decide)
  have digits : x.text.all isDigit = false := by
    rw [text_eq]
    obtain ⟨c, t, ht⟩ := List.exists_cons_of_ne_nil x.lead.isName.1
    have hc : isDigit c = false := by
      have := x.lead.halts
      rwa [ht, halts_cons] at this
    simp [ht, hc]
  have dot : ∀ i : Ident, '.' ∉ i.text := fun i => not_mem_of_not_isWord i.isName (by decide)
  rw [Scope.resolve]
  simp only [trimmed, opening, digits, Bool.and_false, Bool.or_self, Bool.false_eq_true, if_false]
  obtain ⟨q, c⟩ := x
  cases q with
  | none =>
    rw [text_bare, cutAtLast?_of_not_mem (dot c)]
    by_cases h : lower c.text ∈ aliases
    · simp [h]
    · simp [h, tableIn]
  | some q =>
    rw [text_qualified, cutAtLast?_append _ (dot c)]
    simp [tableIn]

end Ref

namespace Pattern

variable {q : Pattern} {b : Option Char} {g t : Text}

theorem refuses_blanks_seq (ht : Halts isBlank t) (hg : ∀ c ∈ g, isBlank c = true)
    (hblank : ∀ b c r, isBlank c = true → q.Refuses b (c :: r)) (hq : q.Refuses (lastChar b g) t) :
    (blanks.seq q).Refuses b (g ++ t) := by
  refine refuses_seq fun u v huv hu => ?_
  obtain ⟨y, rfl, rfl⟩ := prefix_of_halts huv hu ht
  cases y with
  | nil => simpa using hq
  | cons c y => exact hblank _ c _ (hg c (by simp))

theorem refuses_call {w : Text} (hw : IsName w) (hg : ∀ c ∈ g, isBlank c = true)
    (hgt : Halts isWord (g ++ t)) (ht : Halts isBlank t) (hparen : t.head? ≠ some '(')
    (q : Pattern) :
    (name.seq (blanks.seq ((exactly '(').seq q))).Refuses b (w ++ (g ++ t)) := by
  have blank (b : Option Char) (c : Char) (r : Text) (hc : isBlank c = true) :
      ((exactly '(').seq q).Refuses b (c :: r) := by
    refine (refuses_exactly ?_).seq_left q
    rintro ⟨⟩
    revert hc
    decide
  refine refuses_name_seq hgt fun x y hxy _ => ?_
  cases y with
  | nil =>
    exact refuses_blanks_seq (g := g) (t := t) ht hg blank ((refuses_exactly hparen).seq_left q)
  | cons c y =>
    have hc := hw.2 c (by rw [hxy]; simp)
    refine refuses_blanks_seq (g := []) (t := c :: y ++ (g ++ t))
      (halts_cons.mpr (not_isBlank_of_isWord hc)) (by simp) blank ((refuses_exactly ?_).seq_left q)
    rintro ⟨⟩
    revert hc
    decide

theorem takes_call {w inside r : Text} (hw : IsName w) (hg : ∀ c ∈ g, isBlank c = true)
    (hinside : ∀ c ∈ inside, (c != '(' && c != ')') = true) :
    Filter.operand.Takes b (w ++ (g ++ '(' :: (inside ++ [')']))) r [] := by
  have halts : Halts isWord (g ++ '(' :: (inside ++ [')']) ++ r) := by
    cases g with
    | nil => exact halts_cons.mpr (by decide)
    | cons c g => exact halts_cons.mpr (not_isWord_of_isBlank (hg c List.mem_cons_self))
  have arguments {b : Option Char} := (Takes.all_cons (b := b) (takes_exactly '(')
    (Takes.all_cons (takes_many hinside (halts_cons.mpr (by decide)))
      (Takes.all_cons (r := r) (takes_exactly ')') takes_all_nil))).congr
    (v := '(' :: (inside ++ [')'])) (by simp) rfl
  have call {b : Option Char} := (Takes.all_cons (b := b)
    (takes_blanks hg (halts_cons.mpr (by decide))) arguments).congr
    (v := g ++ ('(' :: (inside ++ [')']))) rfl rfl
  exact .alt_left (Takes.all_cons (takes_name hw halts) call)

end Pattern

inductive Operand where
  | column (x : Ref)
  | call (function : Ident) (before : Option Gap) (inside : Text)
    (plain : ∀ c ∈ inside, isSpecial c = false)

namespace Operand

def tokens : Operand → List Token
  | column x => x.tokens
  | call function before _ plain =>
    function.token :: (blankTokens before ++ [.shelter _ (.parens (closed_of_plain plain))])

def text (o : Operand) : Text :=
  textOf o.tokens

def lead : Operand → Ident
  | column x => x.lead
  | call function _ _ _ => function

theorem text_call (function : Ident) (before : Option Gap) (inside : Text)
    (plain : ∀ c ∈ inside, isSpecial c = false) :
    (call function before inside plain).text =
      function.text ++ (textOf (blankTokens before) ++ '(' :: (inside ++ [')'])) := by
  simp [text, tokens]

theorem exists_lead (o : Operand) : ∃ r, o.text = o.lead.text ++ r ∧ Halts isWord r := by
  cases o with
  | column x =>
    refine ⟨x.behindLead, x.text_eq, ?_⟩
    rw [Ref.behindLead]
    cases x.qualifier with
    | none => exact halts_nil _
    | some q => exact halts_cons.mpr (by decide)
  | call function before inside plain =>
    refine ⟨_, text_call function before inside plain, ?_⟩
    cases before with
    | none => exact halts_cons.mpr (by decide)
    | some g => simpa [blankTokens] using g.isGap.halts_isWord _

theorem solid (o : Operand) : Solid o.tokens := by
  cases o with
  | column x => exact x.solid
  | call function before inside plain =>
    have shelter : Solid [Token.shelter _ (.parens (closed_of_plain plain))] := .singleton rfl
    exact function.solid.glue shelter before fun _ => by simp [Token.isWord]

theorem avoids (o : Operand) : ∀ a ∈ o.tokens, a.Avoids reserved := by
  cases o with
  | column x => exact x.dotted.avoids (List.Subset.refl _)
  | call function before inside plain =>
    refine List.forall_mem_cons.mpr ⟨function.avoids (List.Subset.refl _), fun a ha => ?_⟩
    cases before <;> simp [blankTokens] at ha <;> rcases ha with rfl | rfl <;> trivial

def table (o : Operand) (scope : Scope) : Option String :=
  match o with
  | column x => x.tableIn scope
  | call _ _ _ _ => none

def columnText : Operand → Text
  | column x => x.column.text
  | o => o.text

theorem resolve_text (o : Operand) (scope : Scope) :
    scope.resolve [] o.text = (o.table scope, o.columnText) := by
  cases o with
  | column x =>
    have := x.resolve_text scope []
    simpa [text, tokens, table, columnText, Ref.text] using this
  | call function before inside plain =>
    have trimmed := (solid (call function before inside plain)).trim_self
    have opening : (text (call function before inside plain)).contains '(' = true := by
      rw [text_call]
      simp
    rw [Scope.resolve]
    change (if (text _).trim.contains '(' || _ then _ else _) = _
    have trimmed : (text (call function before inside plain)).trim =
      text (call function before inside plain) := trimmed
    rw [trimmed, opening]
    rfl

theorem takes (o : Operand) {b : Option Char} {g t : Text} (hg : ∀ c ∈ g, isBlank c = true)
    (hgt : Halts isWord (g ++ t)) (ht : Halts isBlank t) (hparen : t.head? ≠ some '(')
    (hdot : (g ++ t).head? ≠ some '.') : Filter.operand.Takes b o.text (g ++ t) [] := by
  cases o with
  | column x =>
    refine .alt_right ?_ (takes_dotted ?_ hgt hdot)
    · have split : x.text ++ (g ++ t) = x.lead.text ++ (x.behindLead ++ (g ++ t)) := by
        rw [x.text_eq, List.append_assoc]
      change (name.seq _).Refuses b (x.text ++ (g ++ t))
      rw [split]
      obtain ⟨q, c⟩ := x
      cases q with
      | none => exact refuses_call c.isName hg hgt ht hparen _
      | some q =>
        refine refuses_call (g := []) q.isName (by simp) (halts_cons.mpr (by decide))
          (halts_cons.mpr (by decide)) ?_ _
        simp
    · obtain ⟨q, c⟩ := x
      cases q <;> simp [Ref.dotted]
  | call function before inside plain =>
    have inner : ∀ c ∈ inside, (c != '(' && c != ')') = true := by
      intro c hc
      have := plain c hc
      simp only [isSpecial, Bool.or_eq_false_iff] at this
      simp [bne, this.1.2, this.2]
    rw [text_call]
    exact takes_call function.isName (isBlank_of_blankTokens before) inner

end Operand

namespace Filter

def wordPhrases : List (List String) :=
  [["NOT", "BETWEEN"], ["BETWEEN"], ["IS", "NOT", "NULL"], ["IS", "NULL"], ["NOT", "LIKE"],
    ["LIKE"], ["NOT", "IN"], ["IN"]]

theorem wordPhrases_pairwise : wordPhrases.Pairwise fun ks ks' => clash ks ks' = true := by
  decide

theorem isPhrase_of_mem_wordPhrases : ∀ ks ∈ wordPhrases, IsPhrase ks := by
  decide

def operators : Pattern :=
  .oneOf (wordOperators ++ signs.map sign)

theorem takes_wordOperator {words : List String} (hmem : words ∈ wordPhrases) (p : Phrase words)
    (b : Option Char) {r : Text} (hr : Halts isWord r) :
    operators.Takes b (textOf p.tokens) r [] := by
  obtain ⟨ks, ks', h⟩ := List.mem_iff_append.mp hmem
  have split : wordOperators ++ signs.map sign =
      ks.map (fun words => .seq (phrase words) .boundary) ++ .seq (phrase words) .boundary ::
        (ks'.map (fun words => .seq (phrase words) .boundary) ++ signs.map sign) := by
    change wordPhrases.map _ ++ _ = _
    rw [h]
    simp
  rw [operators, split]
  refine takes_oneOf (fun q hq => ?_) ?_
  · obtain ⟨ks₁, hks₁, rfl⟩ := List.mem_map.mp hq
    have pairwise := wordPhrases_pairwise
    rw [h] at pairwise
    have clash := (List.pairwise_append.mp pairwise).2.2 ks₁ hks₁ words List.mem_cons_self
    have isPhrase := isPhrase_of_mem_wordPhrases ks₁ (by rw [h]; simp [hks₁])
    exact (refuses_phrase isPhrase p.isPhrase clash p.covers).seq_left _
  · have := (takes_phrase (b := b) (r := [] ++ r) p.isPhrase p.covers).seq
      (takes_boundary_end (last_of_covers_phrase p.isPhrase p.covers) hr)
    simpa using this

/-- Of two signs the later one is no longer than the earlier, and where it is the start of it, the
earlier one goes on with `=` or `>`. -/
theorem signs_pairwise : signs.Pairwise fun s' s => s'.toList.isPrefixOf s.toList = false ∧
    ∀ c ∈ (s'.toList.drop s.toList.length).head?, s.toList.isPrefixOf s'.toList = true → c = '=' ∨
    c = '>' := by
  decide

theorem refuses_sign {s : String} {b : Option Char} {t : Text} (h : ¬ s.toList <+: t) :
    (sign s).Refuses b t := by
  rw [sign]
  generalize s.toList = cs at *
  induction cs generalizing b t with
  | nil => exact absurd List.nil_prefix h
  | cons c cs ih =>
    refine refuses_seq fun u v huv hu => ?_
    obtain ⟨d, hd, rfl⟩ := hu
    obtain rfl : d = c := by simpa using hd
    refine ih fun hprefix => h ?_
    rw [huv, List.singleton_append]
    exact (List.cons_prefix_cons).mpr ⟨rfl, hprefix⟩

theorem takes_sign (s : String) (b : Option Char) (r : Text) : (sign s).Takes b s.toList r [] := by
  rw [sign]
  generalize s.toList = cs
  induction cs generalizing b with
  | nil => exact takes_skip
  | cons c cs ih => exact (takes_exactly c).seq (ih _)

theorem isMark_of_mem_signs : ∀ s ∈ signs, s ≠ "" ∧ ∀ c ∈ s.toList, IsMark c := by
  decide

theorem ne_semicolon_of_mem_signs : ∀ s ∈ signs, ∀ c ∈ s.toList, c ≠ ';' := by
  decide

/-- What may not stand behind a sign. -/
def Goes (r : Text) : Prop :=
  r.head? = some '=' ∨ r.head? = some '>'

theorem refuses_earlier_sign {ss ss' : List String} {s s' : String} (h : signs = ss ++ s :: ss')
    (hs' : s' ∈ ss) (b : Option Char) {r : Text} (hr : ¬ Goes r) :
    (sign s').Refuses b (s.toList ++ r) := by
  have pairwise := signs_pairwise
  rw [h] at pairwise
  obtain ⟨hstart, hnext⟩ := (List.pairwise_append.mp pairwise).2.2 s' hs' s List.mem_cons_self
  refine refuses_sign fun hprefix => ?_
  obtain ⟨t, ht⟩ := hprefix
  rcases List.append_eq_append_iff.mp ht with ⟨y, hy, -⟩ | ⟨y, hy, rfl⟩
  · have : s'.toList.isPrefixOf s.toList = true := List.isPrefixOf_iff_prefix.mpr ⟨y, hy.symm⟩
    rw [this] at hstart
    cases hstart
  · cases y with
    | nil =>
      have : s'.toList.isPrefixOf s.toList = true :=
        List.isPrefixOf_iff_prefix.mpr ⟨[], by simp [hy]⟩
      rw [this] at hstart
      cases hstart
    | cons c y =>
      have := hnext c (by simp [hy]) (by simp [hy])
      rcases this with rfl | rfl
      · exact hr (.inl rfl)
      · exact hr (.inr rfl)

theorem takes_signs {s : String} (hmem : s ∈ signs) (b : Option Char) {r : Text} (hr : ¬ Goes r) :
    (oneOf (signs.map sign)).Takes b s.toList r [] := by
  obtain ⟨ss, ss', h⟩ := List.mem_iff_append.mp hmem
  have split : signs.map sign = ss.map sign ++ sign s :: ss'.map sign := by
    rw [h]
    simp
  rw [split]
  refine takes_oneOf (fun q hq => ?_) (takes_sign s b r)
  obtain ⟨s', hs', rfl⟩ := List.mem_map.mp hq
  exact refuses_earlier_sign h hs' b hr

theorem takes_signOperator {s : String} (hmem : s ∈ signs) (b : Option Char) {r : Text}
    (hr : ¬ Goes r) : operators.Takes b s.toList r [] := by
  obtain ⟨ss, ss', h⟩ := List.mem_iff_append.mp hmem
  obtain ⟨hne, marks⟩ := isMark_of_mem_signs s hmem
  have hne : s.toList ≠ [] := by simpa using hne
  have split : wordOperators ++ signs.map sign =
      (wordOperators ++ ss.map sign) ++ sign s :: ss'.map sign := by
    rw [h]
    simp
  rw [operators, split]
  refine takes_oneOf (fun q hq => ?_) (takes_sign s b r)
  rcases List.mem_append.mp hq with hq | hq
  · obtain ⟨ks, hks, rfl⟩ := List.mem_map.mp hq
    refine (refuses_phrase_of_halts (isPhrase_of_mem_wordPhrases ks hks) ?_).seq_left _
    exact (halts_append hne r).mpr (halts_of_forall fun c hc => (marks c hc).1)
  · obtain ⟨s', hs', rfl⟩ := List.mem_map.mp hq
    exact refuses_earlier_sign h hs' b hr

theorem not_goes_append {g r : Text} (hg : ∀ c ∈ g, isBlank c = true) (hr : ¬ Goes r) :
    ¬ Goes (g ++ r) := by
  cases g with
  | nil => exact hr
  | cons c g =>
    have hc := hg c List.mem_cons_self
    rintro (h | h) <;> obtain rfl := Option.some.inj h <;> revert hc <;> decide

theorem not_goes_of_isName {w : Text} (hw : IsName w) (r : Text) : ¬ Goes (w ++ r) := by
  rw [Goes, List.head?_append_of_ne_nil _ hw.1]
  rintro (h | h) <;> exact not_mem_of_not_isWord hw (by decide) (List.mem_of_mem_head? h)

end Filter

/-- The name does not start like `EXISTS`. -/
def Ident.Plain (i : Ident) : Prop :=
  ∀ u v, i.text = u ++ v → ¬ Spells "EXISTS".toList u

namespace Operand

def Plain : Operand → Prop
  | column ⟨none, c⟩ => c.Plain ∧ ¬ Spells "NOT".toList c.text
  | column ⟨some q, _⟩ => q.Plain
  | call function _ _ _ => function.Plain

theorem lead_plain {o : Operand} (h : o.Plain) : o.lead.Plain := by
  rcases o with ⟨⟨_ | q, c⟩⟩ | ⟨f, before, inside, plain⟩
  · exact h.1
  · exact h
  · exact h

/-- After its first word `NOT EXISTS` wants blanks and `EXISTS`. -/
theorem refuses_blank_exists {g t : Text} (b : Option Char) (hg : ∀ c ∈ g, isBlank c = true)
    (ht : Halts isWord t) (ht' : Halts isBlank t) :
    (blank.seq ((word "EXISTS").seq skip)).Refuses b (g ++ t) := by
  have exists_of_halts {b : Option Char} {t : Text} (ht : Halts isWord t) :
      ((word "EXISTS").seq skip).Refuses b t := (refuses_word_of_halts (by decide) ht).seq_left _
  exact refuses_blank_seq ht' hg (fun _ _ _ hc =>
    exists_of_halts (halts_cons.mpr (not_isWord_of_isBlank hc))) (exists_of_halts ht)

theorem refuses_notExists_name (i : Ident) {t : Text} (b : Option Char) (ht : Halts isWord t)
    (behind : ∀ b, (blank.seq ((word "EXISTS").seq skip)).Refuses b t) :
    (phrase ["NOT", "EXISTS"]).Refuses b (i.text ++ t) := by
  refine refuses_seq fun u v huv hu => ?_
  have hu := covers_word.mp hu
  obtain ⟨y, -, rfl⟩ := prefix_of_halts huv (hu.isWord (by decide)) ht
  cases y with
  | nil => exact behind _
  | cons c y =>
    -- The name goes on behind `NOT`, so no blank follows.
    have within : i.text = u ++ c :: y := by
      rw [← List.append_assoc] at huv
      exact List.append_cancel_right huv
    have hc : isWord c = true := i.isName.2 c (by rw [within]; simp)
    exact (refuses_blank (halts_cons.mpr (not_isBlank_of_isWord hc))).seq_left _

theorem refuses_notExists {o : Operand} (h : o.Plain) (b : Option Char) {r : Text}
    (hr : Halts isWord r) : (phrase ["NOT", "EXISTS"]).Refuses b (o.text ++ r) := by
  rcases o with ⟨⟨_ | q, c⟩⟩ | ⟨f, before, inside, plain⟩
  · have bare : text (column ⟨none, c⟩) = c.text := Ref.text_bare c
    rw [bare]
    exact refuses_word_seq (by decide) c.isName.2 hr h.2 (breaks_blank.seq _)
  · have qualified : text (column ⟨some q, c⟩) ++ r = q.text ++ ('.' :: (c.text ++ r)) := by
      change Ref.text _ ++ r = _
      rw [Ref.text_qualified]
      simp
    rw [qualified]
    exact refuses_notExists_name q b (halts_cons.mpr (by decide)) fun b =>
      (refuses_blank (halts_cons.mpr (by decide))).seq_left _
  · rw [text_call, List.append_assoc]
    have halts (t : Text) : Halts isWord ('(' :: t) := halts_cons.mpr (by decide)
    refine refuses_notExists_name f b ?_ fun b => ?_
    · cases before with
      | none => exact halts _
      | some g => simpa [blankTokens] using g.isGap.halts_isWord _
    · rw [List.append_assoc]
      exact refuses_blank_exists b (isBlank_of_blankTokens before) (halts _)
        (halts_cons.mpr (by decide))

theorem not_existence {o : Operand} (h : o.Plain) {r : Text} (hr : Halts isWord r) :
    Filter.existence.match? (o.text ++ r) = none := by
  have first : (word "EXISTS").Refuses none (o.text ++ r) := by
    obtain ⟨s, hs, hhalts⟩ := o.exists_lead
    refine refuses_letters fun u v huv hu => ?_
    have behind : Halts isWord (s ++ r) := by
      cases s with
      | nil => exact hr
      | cons c s => exact (halts_append (List.cons_ne_nil c s) r).mpr hhalts
    rw [hs, List.append_assoc] at huv
    obtain ⟨y, hy, -⟩ := prefix_of_halts huv (hu.isWord (by decide)) behind
    exact lead_plain h u y hy hu
  exact match?_start_of_refuses rfl
    ((((refuses_notExists h none hr).alt first).capture 1).seq_left _)

end Operand

namespace Filter

/-- An operator `w` with the blanks `g` in front of it and `g'` behind it, and the value `v` at the
end, so that the reader takes each of them for what it is. -/
structure Placed (g w g' v : Text) : Prop where
  before : ∀ c ∈ g, isBlank c = true
  after : ∀ c ∈ g', isBlank c = true
  halts : Halts isBlank w
  ne_nil : w ≠ []
  noCall : w.head? ≠ some '('
  bare : g = [] → ∀ c ∈ w.head?, isWord c = false ∧ c ≠ '.'
  takes : ∀ b, operators.Takes b w (g' ++ v) []
  value : Halts isBlank v

namespace Placed

variable {g w g' v : Text}

theorem of_phrase {words : List String} (hmem : words ∈ wordPhrases) (p : Phrase words)
    (before : Gap) (after : ∀ c ∈ g', isBlank c = true) (behind : Halts isWord (g' ++ v))
    (value : Halts isBlank v) :
    Placed before.text (textOf p.tokens) g' v where
  before := before.isGap.2
  after := after
  halts := by simpa using p.solid.halts_isBlank []
  ne_nil := p.solid.textOf_ne_nil
  noCall := by
    obtain ⟨w, u, hw, hu⟩ := p.exists_head
    rw [hu, List.head?_append_of_ne_nil _ hw.1]
    intro h
    exact not_mem_of_not_isWord hw (by decide) (List.mem_of_mem_head? h)
  bare h := absurd h before.isGap.1
  takes b := takes_wordOperator hmem p b behind
  value := value

theorem of_sign {s : String} (hmem : s ∈ signs) (before : ∀ c ∈ g, isBlank c = true)
    (after : ∀ c ∈ g', isBlank c = true) (value : Halts isBlank v) (goes : ¬ Goes v) :
    Placed g s.toList g' v := by
  obtain ⟨hne, marks⟩ := isMark_of_mem_signs s hmem
  have plain : ∀ s ∈ signs, ∀ c ∈ s.toList, c ≠ '(' ∧ c ≠ '.' := by decide
  exact
    { before := before
      after := after
      halts := halts_of_forall fun c hc => (marks c hc).2.1
      ne_nil := by simpa using hne
      noCall := fun h => (plain s hmem _ (List.mem_of_mem_head? h)).1 rfl
      bare := fun _ c hc =>
        have hc := List.mem_of_mem_head? hc
        ⟨(marks c hc).1, (plain s hmem c hc).2⟩
      takes := fun b => takes_signOperator hmem b (not_goes_append after goes)
      value := value }

theorem halts_isWord (h : Placed g w g' v) (r : Text) : Halts isWord (g ++ (w ++ r)) := by
  cases g with
  | cons d g => exact halts_cons.mpr (not_isWord_of_isBlank (h.before d List.mem_cons_self))
  | nil =>
    obtain ⟨d, w, rfl⟩ := List.exists_cons_of_ne_nil h.ne_nil
    exact halts_cons.mpr (h.bare rfl d rfl).1

theorem head?_ne_dot (h : Placed g w g' v) (r : Text) : (g ++ (w ++ r)).head? ≠ some '.' := by
  cases g with
  | cons d g =>
    rintro ⟨⟩
    exact absurd (h.before '.' List.mem_cons_self) (by decide)
  | nil =>
    rw [List.nil_append, List.head?_append_of_ne_nil _ h.ne_nil]
    exact fun hdot => (h.bare rfl '.' hdot).2 rfl

theorem takes_operand (h : Placed g w g' v) (o : Operand) (b : Option Char) (r : Text) :
    operand.Takes b o.text (g ++ (w ++ r)) [] := by
  refine o.takes h.before (h.halts_isWord r) ((halts_append h.ne_nil r).mpr h.halts) ?_
    (h.head?_ne_dot r)
  rw [List.head?_append_of_ne_nil _ h.ne_nil]
  exact h.noCall

end Placed

theorem takes_value (b : Option Char) (v : Text) :
    (Pattern.maybe (.capture 3 (.many1 anything))).Takes b v []
    (if v = [] then [] else [(3, v)]) := by
  by_cases h : v = []
  · subst h
    simpa using takes_maybe_nothing ((refuses_many1 (halts_nil _)).capture 3)
  · rw [if_neg h]
    exact ((takes_many1 h (fun _ _ => rfl) (halts_nil _)).capture 3).maybe

theorem Placed.match?_predicate {g w g' v : Text} (h : Placed g w g' v) (o : Operand) :
    ∃ m, predicate.match? (o.text ++ (g ++ (w ++ (g' ++ v)))) = some m ∧ m.captured 1 = o.text ∧
      m.captured 2 = w ∧ m.capture? 3 = if v = [] then none else some v := by
  have behind (t : Text) : Halts isBlank (w ++ t) := (halts_append h.ne_nil t).mpr h.halts
  have taken := Takes.all_cons (v := g ++ (w ++ (g' ++ (v ++ [])))) (r := [])
    (by simpa using (h.takes_operand o none (g' ++ v)).capture 1)
    (Takes.all_cons (takes_blanks h.before (by simpa using behind (g' ++ v)))
      (Takes.all_cons (by simpa using (h.takes _).capture 2)
        (Takes.all_cons (takes_blanks h.after (by simpa using h.value))
          (Takes.all_cons (v := []) (by simpa using takes_value _ v)
            (Takes.all_cons (v := []) (r := []) takes_textEnd takes_all_nil)))))
  obtain ⟨m, found, -, hcapture⟩ := match?_start_of_takes (w := predicate)
    (t := o.text ++ (g ++ (w ++ (g' ++ v)))) rfl (by simp) taken
  refine ⟨m, found, ?_, ?_, ?_⟩
  · rw [Match.captured, hcapture]
    by_cases h : v = [] <;> simp [h]
  · rw [Match.captured, hcapture]
    by_cases h : v = [] <;> simp [h]
  · rw [hcapture]
    by_cases h : v = [] <;> simp [h]

end Filter

theorem Operand.Plain.readCondition {o : Operand} (plain : o.Plain) {g w g' v : Text}
    (placed : Filter.Placed g w g' v) {operator : FilterOperator} {value : Scalar}
    (hoperator : Filter.operator? (canonicalKeyword w) = some operator)
    (hvalue : Filter.readValue (some operator) (if v = [] then none else some v) = .ok value)
    (scope : Scope) :
    Filter.readCondition scope (o.text ++ (g ++ (w ++ (g' ++ v)))) =
      .ok (some ⟨o.table scope, String.ofList o.columnText, operator, .scalar value, .null⟩) := by
  obtain ⟨m, hm, h₁, h₂, h₃⟩ := placed.match?_predicate o
  rw [Filter.readCondition, Operand.not_existence plain (placed.halts_isWord _), hm]
  simp only [h₁, h₂, h₃, hoperator, hvalue, o.resolve_text]
  rfl

def likePhrases : List (List String) :=
  [["NOT", "LIKE"], ["LIKE"]]

def testPhrases : List (List String) :=
  [["IS", "NOT", "NULL"], ["IS", "NULL"]]

theorem likePhrases_subset : likePhrases ⊆ Filter.wordPhrases := by
  decide

theorem testPhrases_subset : testPhrases ⊆ Filter.wordPhrases := by
  decide

/-- What stands behind an operand: a sign or `LIKE` with a literal, or a null test. -/
inductive WrittenTail where
  | sign (before : Option Gap) (s : String) (mem : s ∈ Filter.signs) (after : Option Gap)
    (value : WrittenLiteral)
  | like (before : Gap) (words : List String) (mem : words ∈ likePhrases)
    (phrase : Phrase words) (after : Option Gap) (value : WrittenLiteral)
    (apart : after = none → ∀ a ∈ value.tokens.head?, a.isWord = false)
  | test (before : Gap) (words : List String) (mem : words ∈ testPhrases)
    (phrase : Phrase words)

def signTokens (s : String) (h : ∀ c ∈ s.toList, IsMark c) : List Token :=
  s.toList.pmap Token.mark h

theorem textOf_signTokens {s : String} (h : ∀ c ∈ s.toList, IsMark c) :
    textOf (signTokens s h) = s.toList := by
  rw [signTokens]
  generalize s.toList = cs at *
  induction cs with
  | nil => rfl
  | cons c cs ih =>
    rw [List.pmap_cons, textOf_cons, ih]
    rfl

theorem mem_signTokens {s : String} {h : ∀ c ∈ s.toList, IsMark c} {a : Token}
    (ha : a ∈ signTokens s h) : ∃ c ∈ s.toList, ∃ hc, a = .mark c hc := by
  obtain ⟨c, hc, rfl⟩ := List.mem_pmap.mp ha
  exact ⟨c, hc, h c hc, rfl⟩

theorem solid_signTokens {s : String} (hne : s ≠ "") (h : ∀ c ∈ s.toList, IsMark c) :
    Solid (signTokens s h) := by
  have hne : s.toList ≠ [] := by simpa using hne
  rw [signTokens]
  generalize s.toList = cs at *
  induction cs with
  | nil => exact absurd rfl hne
  | cons c cs ih =>
    have first : Solid [Token.mark c (h c List.mem_cons_self)] := .singleton rfl
    cases cs with
    | nil => exact first
    | cons d cs =>
      exact first.append (ih (fun c hc => h c (List.mem_cons_of_mem _ hc)) (List.cons_ne_nil _ _))
        (by simp [Token.isWord])

namespace WrittenTail

def tokens : WrittenTail → List Token
  | sign before s mem after value =>
    blankTokens before ++ (signTokens s (Filter.isMark_of_mem_signs s mem).2 ++
      (blankTokens after ++ value.tokens))
  | like before _ _ phrase after value _ =>
    before.token :: (phrase.tokens ++ (blankTokens after ++ value.tokens))
  | test before _ _ phrase => before.token :: phrase.tokens

def value : WrittenTail → Scalar
  | sign _ _ _ _ v => v.value
  | like _ _ _ _ _ v _ => v.value
  | test .. => .null

theorem exists_comparison : ∀ s ∈ Filter.signs, (Filter.comparison? s).isSome := by
  decide

theorem exists_like : ∀ ks ∈ likePhrases, (Filter.operator? (" ".intercalate ks)).isSome := by
  decide

theorem exists_test : ∀ ks ∈ testPhrases, (Filter.operator? (" ".intercalate ks)).isSome := by
  decide

def operator : WrittenTail → FilterOperator
  | sign _ s mem _ _ => .compare ((Filter.comparison? s).get (exists_comparison s mem))
  | like _ words mem .. => (Filter.operator? (" ".intercalate words)).get (exists_like words mem)
  | test _ words mem .. => (Filter.operator? (" ".intercalate words)).get (exists_test words mem)

theorem solid (t : WrittenTail) {ts : List Token} (hts : Solid ts) : Solid (ts ++ t.tokens) := by
  cases t with
  | sign before s mem after v =>
    obtain ⟨hne, marks⟩ := Filter.isMark_of_mem_signs s mem
    have mark (a : Token) (ha : a ∈ signTokens s marks) : a.isWord = false := by
      obtain ⟨c, -, hc, rfl⟩ := mem_signTokens ha
      rfl
    have right : Solid (signTokens s marks ++ (blankTokens after ++ v.tokens)) :=
      (solid_signTokens hne marks).glue v.solid after fun _ a ha b _ => by
        rw [mark a (List.mem_of_mem_getLast? ha), Bool.false_and]
    refine hts.glue right before fun _ a _ b hb => ?_
    rw [List.head?_append_of_ne_nil _ (solid_signTokens hne marks).ne_nil] at hb
    rw [mark b (List.mem_of_mem_head? hb), Bool.and_false]
  | like before words mem phrase after v apart =>
    refine hts.spaced (phrase.solid.glue v.solid after fun hnone a _ b hb => ?_) before
    rw [apart hnone b hb, Bool.and_false]
  | test before words mem phrase => exact hts.spaced phrase.solid before

theorem avoids (t : WrittenTail) : ∀ a ∈ t.tokens, a.Avoids reserved := by
  intro a ha
  have blank {g : Option Gap} (h : a ∈ blankTokens g) : a.Avoids reserved := by
    cases g with
    | none => simp [blankTokens] at h
    | some g =>
      obtain rfl : a = g.token := by simpa [blankTokens] using h
      trivial
  cases t with
  | sign before s mem after v =>
    simp only [tokens, List.mem_append] at ha
    rcases ha with ha | ha | ha | ha
    · exact blank ha
    · obtain ⟨c, hmem, hc, rfl⟩ := mem_signTokens ha
      exact Filter.ne_semicolon_of_mem_signs s mem c hmem
    · exact blank ha
    · exact v.avoids a ha
  | like before words mem phrase after v apart =>
    have others : ∀ ks ∈ likePhrases, ∀ k ∈ reserved, IsKeyword k.toList ∧ k ∉ ks := by decide
    simp only [tokens, List.mem_cons, List.mem_append] at ha
    rcases ha with rfl | ha | ha | ha
    · trivial
    · exact phrase.avoids (others words mem) a ha
    · exact blank ha
    · exact v.avoids a ha
  | test before words mem phrase =>
    have others : ∀ ks ∈ testPhrases, ∀ k ∈ reserved, IsKeyword k.toList ∧ k ∉ ks := by decide
    simp only [tokens, List.mem_cons] at ha
    rcases ha with rfl | ha
    · trivial
    · exact phrase.avoids (others words mem) a ha

end WrittenTail

theorem WrittenLiteral.not_goes (v : WrittenLiteral) : ¬ Filter.Goes v.text := by
  cases v with
  | null s => simpa [text, tokens] using Filter.not_goes_of_isName s.isName []
  | true s => simpa [text, tokens] using Filter.not_goes_of_isName s.isName []
  | false s => simpa [text, tokens] using Filter.not_goes_of_isName s.isName []
  | whole negative digits hne hdigits hlength =>
    cases negative with
    | true => simp [text, tokens, Filter.Goes]
    | false =>
      have :=
        Filter.not_goes_of_isName (w := digits) ⟨hne,
          fun c hc => isWord_of_isDigit (hdigits c hc)⟩ []
      simpa [text, tokens, Token.text] using this
  | string quote hquote body =>
    have : quote ≠ '=' ∧ quote ≠ '>' := by
      constructor <;> rintro rfl <;> revert hquote <;> decide
    simpa [text, tokens, Filter.Goes] using this

theorem WrittenLiteral.halts_isBlank (v : WrittenLiteral) : Halts isBlank v.text := by
  simpa [text] using v.solid.halts_isBlank []

theorem WrittenLiteral.readValue (v : WrittenLiteral) {o : FilterOperator}
    (ho : o ∉ [.isNull, .isNotNull, .isIn, .notIn, .between, .notBetween]) :
    Filter.readValue (some o) (if v.text = [] then none else some v.text) = .ok v.value := by
  have trimmed : v.text.trim = v.text := v.solid.trim_self
  have hne : v.text ≠ [] := v.solid.textOf_ne_nil
  rw [if_neg hne, Filter.readValue, trimmed]
  · exact v.read_text
  all_goals rintro ⟨⟩; simp at ho

namespace WrittenTail

theorem operator_sign {s : String} (mem : s ∈ Filter.signs) (before after : Option Gap)
    (v : WrittenLiteral) :
    Filter.operator? (canonicalKeyword s.toList) = some (sign before s mem after v).operator := by
  have keyword : ∀ s ∈ Filter.signs, canonicalKeyword s.toList = s ∧
      Filter.operator? s = (Filter.comparison? s).map .compare := by decide +kernel
  obtain ⟨h₁, h₂⟩ := keyword s mem
  obtain ⟨c, hc⟩ := Option.isSome_iff_exists.mp (exists_comparison s mem)
  simp only [h₁, h₂, operator, hc, Option.map_some, Option.get_some]

theorem like_takes_literal {words : List String} (mem : words ∈ likePhrases) :
    (Filter.operator? (" ".intercalate words)).get (exists_like words mem) ∉
      ([.isNull, .isNotNull, .isIn, .notIn, .between, .notBetween] : List FilterOperator) := by
  have operators : ∀ ks ∈ likePhrases, Filter.operator? (" ".intercalate ks) ∉
    ([.isNull, .isNotNull, .isIn,
      .notIn, .between, .notBetween] : List FilterOperator).map some := by decide +kernel
  intro h
  refine operators words mem ?_
  rw [← Option.some_get (exists_like words mem)]
  exact List.mem_map_of_mem h

theorem halts_behind_like (after : Option Gap) (v : WrittenLiteral)
    (apart : after = none → ∀ a ∈ v.tokens.head?, a.isWord = false) :
    Halts isWord (textOf (blankTokens after) ++ v.text) := by
  cases after with
  | some g => simpa [blankTokens] using g.isGap.halts_isWord _
  | none =>
    have := halts_isWord_textOf (r := []) (apart rfl) (halts_nil _)
    simpa [blankTokens, WrittenLiteral.text] using this

theorem exists_parts (t : WrittenTail) :
    ∃ g w g' v : Text, textOf t.tokens = g ++ (w ++ (g' ++ v)) ∧
    Filter.Placed g w g' v ∧ Filter.operator? (canonicalKeyword w) = some t.operator ∧
    Filter.readValue (some t.operator) (if v = [] then none else some v) = .ok t.value := by
  cases t with
  | sign before s mem after v =>
    have placed : Filter.Placed (textOf (blankTokens before)) s.toList (textOf (blankTokens after))
        v.text :=
      .of_sign mem (isBlank_of_blankTokens before) (isBlank_of_blankTokens after) v.halts_isBlank
        v.not_goes
    refine ⟨_, _, _, _, ?_, placed, operator_sign mem before after v,
      v.readValue (by simp [operator])⟩
    simp [tokens, textOf_signTokens, WrittenLiteral.text]
  | like before words mem phrase after v apart =>
    have placed : Filter.Placed before.text (textOf phrase.tokens) (textOf (blankTokens after))
        v.text :=
      .of_phrase (likePhrases_subset mem) phrase before (isBlank_of_blankTokens after)
        (halts_behind_like after v apart) v.halts_isBlank
    refine ⟨_, _, _, _, ?_, placed, ?_, v.readValue (like_takes_literal mem)⟩
    · simp [tokens, WrittenLiteral.text]
    · rw [phrase.canonicalKeyword, operator, Option.some_get]
  | test before words mem phrase =>
    have placed : Filter.Placed before.text (textOf phrase.tokens) [] [] :=
      .of_phrase (testPhrases_subset mem) phrase before (by simp) (halts_nil _) (halts_nil _)
    refine ⟨_, _, _, _, by simp [tokens], placed, ?_, rfl⟩
    rw [phrase.canonicalKeyword, operator, Option.some_get]

end WrittenTail

structure WrittenCondition where
  operand : Operand
  plain : operand.Plain
  tail : WrittenTail

namespace WrittenCondition

def tokens (c : WrittenCondition) : List Token :=
  c.operand.tokens ++ c.tail.tokens

def conjunct (c : WrittenCondition) : Conjunct where
  tokens := c.tokens
  solid := c.tail.solid c.operand.solid
  avoids := fun a ha => by
    rcases List.mem_append.mp ha with ha | ha
    · exact c.operand.avoids a ha
    · exact c.tail.avoids a ha
  unwrapped := by
    obtain ⟨r, hr, -⟩ := c.operand.exists_lead
    rw [tokens, textOf_append, List.head?_append_of_ne_nil _ c.operand.solid.textOf_ne_nil]
    change c.operand.text.head? ≠ _
    rw [hr, List.head?_append_of_ne_nil _ c.operand.lead.isName.1]
    intro h
    exact not_mem_of_not_isWord c.operand.lead.isName (by decide) (List.mem_of_mem_head? h)

/-- The condition that is read, its operand resolved in a scope. -/
def condition (c : WrittenCondition) (scope : Scope) : FilterCondition where
  tableId := c.operand.table scope
  column := String.ofList c.operand.columnText
  operator := c.tail.operator
  value := .scalar c.tail.value
  value2 := .null

theorem readCondition_eq (c : WrittenCondition) (scope : Scope) :
    Filter.readCondition scope c.conjunct.text = .ok (some (c.condition scope)) := by
  obtain ⟨g, w, g', v, htext, placed, hoperator, hvalue⟩ := c.tail.exists_parts
  have whole : c.conjunct.text = c.operand.text ++ (g ++ (w ++ (g' ++ v))) := by
    rw [← htext]
    exact textOf_append _ _
  rw [whole]
  exact c.plain.readCondition placed hoperator hvalue scope

end WrittenCondition

theorem readConjuncts_conditions (scope : Scope) (cs : List WrittenCondition) :
    readConjuncts scope (cs.map WrittenCondition.conjunct) =
      .ok (cs.map fun c => c.condition scope) := by
  have read : (cs.map WrittenCondition.conjunct).mapM (fun c => Filter.readCondition scope c.text) =
      .ok (cs.map fun c => some (c.condition scope)) := by
    induction cs with
    | nil => rfl
    | cons c cs ih =>
      rw [List.map_cons, List.mapM_cons, c.readCondition_eq scope, ih]
      rfl
  rw [readConjuncts, read]
  change Except.ok (List.filterMap id _) = _
  rw [List.filterMap_map]
  exact congrArg Except.ok (congrFun List.filterMap_eq_map cs)

end SqlCanvas
