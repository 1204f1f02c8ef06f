import Mathlib.Data.List.Chain
import Mathlib.Data.List.DropRight
import SqlCanvas.Proofs.Nesting.Scan
import SqlCanvas.Proofs.Pattern.Word
import SqlCanvas.Proofs.Text.Infix

/-!
# Tokens

A written text is a list of tokens: words, gaps, marks and sheltered stretches. Each token carries
the proof that its text is of its kind. Solid lists neither start nor end with a gap, and in them
neither two words nor two gaps stand side by side, so the words are those that patterns see. A
pattern that is led in by keywords skips every solid list that avoids these keywords.
-/

namespace SqlCanvas

open Text Nesting

/-- A character that is no part of a word, no blank, no quote and no parenthesis. -/
def IsMark (c : Char) : Prop :=
  Text.isWord c = false ∧ isBlank c = false ∧ isSpecial c = false

instance (c : Char) : Decidable (IsMark c) :=
  inferInstanceAs (Decidable (_ ∧ _))

inductive Token where
  | word (w : Text) (h : IsName w)
  | gap (g : Text) (h : IsGap g)
  | mark (c : Char) (h : IsMark c)
  | shelter (s : Text) (h : Sheltered s)

namespace Token

def text : Token → Text
  | word w _ => w
  | gap g _ => g
  | mark c _ => [c]
  | shelter s _ => s

def isWord : Token → Bool
  | word _ _ => true
  | _ => false

def isGap : Token → Bool
  | gap _ _ => true
  | _ => false

/-- Whether one token may stand in front of another. -/
def Meets (a b : Token) : Prop :=
  (a.isWord && b.isWord) = false ∧ (a.isGap && b.isGap) = false

def Avoids (keywords : List String) : Token → Prop
  | word w _ => ∀ k ∈ keywords, ¬ Spells k.toList w
  | mark c _ => c ≠ ';'
  | _ => True

/-- The token is none of the keywords; unlike one that avoids them, it may end a statement. -/
def Misses (keywords : List String) : Token → Prop
  | word w _ => ∀ k ∈ keywords, ¬ Spells k.toList w
  | _ => True

theorem Avoids.misses {keywords : List String} {a : Token} (h : a.Avoids keywords) :
    a.Misses keywords := by
  cases a with
  | word w hw => exact h
  | gap | mark | shelter => trivial

theorem Misses.mono {keywords keywords' : List String} {a : Token} (h : a.Misses keywords)
    (hsub : keywords' ⊆ keywords) : a.Misses keywords' := by
  cases a with
  | word w hw => exact fun k hk => h k (hsub hk)
  | gap | mark | shelter => trivial

theorem text_ne_nil (a : Token) : a.text ≠ [] := by
  cases a with
  | word w h => exact h.1
  | gap g h => exact h.1
  | mark c h => exact List.cons_ne_nil _ _
  | shelter s h => exact h.ne_nil

theorem closed (a : Token) : Closed a.text := by
  cases a with
  | word w h => exact closed_of_plain fun c hc => not_isSpecial_of_isWord (h.2 c hc)
  | gap g h => exact closed_of_plain fun c hc => not_isSpecial_of_isBlank (h.2 c hc)
  | mark c h => exact .plain h.2.2 .nil
  | shelter s h => exact h.closed

theorem halts_isWord {a : Token} (h : a.isWord = false) (r : Text) :
    Halts Text.isWord (a.text ++ r) := by
  rw [halts_append a.text_ne_nil]
  cases a with
  | word w h' => cases h
  | gap g h' => exact halts_of_forall fun c hc => not_isWord_of_isBlank (h'.2 c hc)
  | mark c h' => exact halts_cons.mpr h'.1
  | shelter s h' => exact fun c hc => not_isWord_of_isSpecial (h'.head c hc)

theorem halts_isBlank {a : Token} (h : a.isGap = false) (r : Text) :
    Halts isBlank (a.text ++ r) := by
  rw [halts_append a.text_ne_nil]
  cases a with
  | word w h' => exact halts_of_forall fun c hc => not_isBlank_of_isWord (h'.2 c hc)
  | gap g h' => cases h
  | mark c h' => exact halts_cons.mpr h'.2.1
  | shelter s h' => exact fun c hc => not_isBlank_of_isSpecial (h'.head c hc)

theorem last_not_isBlank {a : Token} (h : a.isGap = false) :
    ∀ c ∈ a.text.getLast?, isBlank c = false := by
  intro c hc
  cases a with
  | word w h' => exact not_isBlank_of_isWord (h'.2 c (List.mem_of_mem_getLast? hc))
  | gap g h' => cases h
  | mark d h' =>
    obtain rfl : d = c := by simpa [text] using hc
    exact h'.2.1
  | shelter s h' => exact not_isBlank_of_isSpecial (h'.last c hc)

end Token

def textOf (ts : List Token) : Text :=
  ts.flatMap Token.text

@[simp] theorem textOf_nil : textOf [] = [] := rfl

@[simp] theorem textOf_cons (a : Token) (ts : List Token) :
    textOf (a :: ts) = a.text ++ textOf ts :=
  List.flatMap_cons

@[simp] theorem textOf_append (ts us : List Token) : textOf (ts ++ us) = textOf ts ++ textOf us :=
  List.flatMap_append

theorem closed_textOf (ts : List Token) : Closed (textOf ts) := by
  induction ts with
  | nil => exact .nil
  | cons a ts ih => exact a.closed.append ih

theorem halts_isWord_textOf {ts : List Token} {r : Text} (h : ∀ a ∈ ts.head?, a.isWord = false)
    (hr : Halts Text.isWord r) : Halts Text.isWord (textOf ts ++ r) := by
  cases ts with
  | nil => exact hr
  | cons a ts =>
    rw [textOf_cons, List.append_assoc]
    exact Token.halts_isWord (h a rfl) _

theorem halts_isBlank_textOf {ts : List Token} {r : Text} (hne : ts ≠ [])
    (h : ∀ a ∈ ts.head?, a.isGap = false) : Halts isBlank (textOf ts ++ r) := by
  obtain ⟨a, ts, rfl⟩ := List.exists_cons_of_ne_nil hne
  rw [textOf_cons, List.append_assoc]
  exact Token.halts_isBlank (h a rfl) _

/-- Tokens in proper company: no two words and no two gaps side by side, and no gap at the ends. -/
structure Solid (ts : List Token) : Prop where
  ne_nil : ts ≠ []
  chain : ts.IsChain Token.Meets
  head : ∀ a ∈ ts.head?, a.isGap = false
  last : ∀ a ∈ ts.getLast?, a.isGap = false

namespace Solid

variable {ts us : List Token}

theorem singleton {a : Token} (h : a.isGap = false) : Solid [a] :=
  ⟨List.cons_ne_nil _ _, .singleton a, by simpa using h, by simpa using h⟩

theorem append (hts : Solid ts) (hus : Solid us)
    (h : ∀ a ∈ ts.getLast?, ∀ b ∈ us.head?, (a.isWord && b.isWord) = false) : Solid (ts ++ us) where
  ne_nil := by simp [hts.ne_nil]
  chain := by
    refine List.isChain_append.mpr ⟨hts.chain, hus.chain, fun a ha b hb => ⟨h a ha b hb, ?_⟩⟩
    simp [hts.last a ha]
  head := by
    rw [List.head?_append_of_ne_nil _ hts.ne_nil]
    exact hts.head
  last := by
    rw [List.getLast?_append_of_ne_nil _ hus.ne_nil]
    exact hus.last

theorem gap (hts : Solid ts) (hus : Solid us) (g : Text) (hg : IsGap g) :
    Solid (ts ++ .gap g hg :: us) where
  ne_nil := by simp
  chain := by
    refine List.isChain_append.mpr ⟨hts.chain, List.isChain_cons.mpr ⟨?_, hus.chain⟩, ?_⟩
    · exact fun b hb => ⟨rfl, by simp [hus.head b hb]⟩
    · intro a ha b hb
      obtain rfl : Token.gap g hg = b := by simpa using hb
      exact ⟨by simp [Token.isWord], by simp [hts.last a ha]⟩
  head := by
    rw [List.head?_append_of_ne_nil _ hts.ne_nil]
    exact hts.head
  last := by
    have : (Token.gap g hg :: us).getLast? = us.getLast? := by
      obtain ⟨a, us, rfl⟩ := List.exists_cons_of_ne_nil hus.ne_nil
      rfl
    rw [List.getLast?_append_of_ne_nil _ (List.cons_ne_nil _ _), this]
    exact hus.last

theorem halts_isBlank (hts : Solid ts) (r : Text) : Halts isBlank (textOf ts ++ r) :=
  halts_isBlank_textOf hts.ne_nil hts.head

theorem textOf_ne_nil (hts : Solid ts) : textOf ts ≠ [] := by
  obtain ⟨a, ts, rfl⟩ := List.exists_cons_of_ne_nil hts.ne_nil
  simp [a.text_ne_nil]

theorem last_not_isBlank (hts : Solid ts) : ∀ c ∈ (textOf ts).getLast?, isBlank c = false := by
  obtain ⟨us, a, rfl⟩ : ∃ us a, ts = us ++ [a] :=
    ⟨_, _, (List.dropLast_append_getLast hts.ne_nil).symm⟩
  have last := hts.last a (by simp)
  intro c hc
  refine Token.last_not_isBlank last c ?_
  simpa [List.getLast?_append_of_ne_nil _ a.text_ne_nil] using hc

end Solid

theorem Text.trimStart_append {g t : Text} (hg : ∀ c ∈ g, isBlank c = true) (ht : Halts isBlank t) :
    (g ++ t).trimStart = t := by
  rw [trimStart, List.dropWhile_append_of_pos hg]
  cases t with
  | nil => rfl
  | cons c t => simp [halts_cons.mp ht]

theorem Text.trimEnd_append_blanks {g : Text} (hg : ∀ c ∈ g, isBlank c = true) (t : Text) :
    (t ++ g).trimEnd = t.trimEnd := by
  rw [trimEnd, dropEndWhile, List.reverse_append, List.dropWhile_append_of_pos (by simpa using hg)]
  rfl

theorem Text.trimEnd_append {g t : Text} (hg : ∀ c ∈ g, isBlank c = true)
    (ht : ∀ c ∈ t.getLast?, isBlank c = false) : (t ++ g).trimEnd = t := by
  rw [trimEnd_append_blanks hg, trimEnd, dropEndWhile]
  have : t.reverse.dropWhile isBlank = t.reverse := by
    have ht : ∀ c ∈ t.reverse.head?, isBlank c = false := by simpa using ht
    cases h : t.reverse with
    | nil => rfl
    | cons c s => simp [ht c (by simp [h])]
  rw [this, List.reverse_reverse]

theorem Text.trim_append_blanks {g g' : Text} (hg : ∀ c ∈ g, isBlank c = true)
    (hg' : ∀ c ∈ g', isBlank c = true) (t : Text) : trim (g ++ (t ++ g')) = t.trim := by
  rw [trim, trimStart, List.dropWhile_append_of_pos hg, List.dropWhile_append, trim, trimStart]
  split
  · rename_i hblank
    rw [List.isEmpty_iff.mp hblank, List.dropWhile_eq_nil_iff.mpr hg']
  · exact trimEnd_append_blanks hg' _

theorem Text.halts_trimStart (t : Text) : Halts isBlank t.trimStart := by
  intro c hc
  have := List.head?_dropWhile_not isBlank t
  rw [trimStart, Option.mem_def] at hc
  rwa [hc] at this

theorem Text.trimStart_of_halts {t : Text} (h : Halts isBlank t) : t.trimStart = t := by
  simpa using trimStart_append (g := []) (List.forall_mem_nil _) h

theorem Text.trimEnd_trimEnd (t : Text) : t.trimEnd.trimEnd = t.trimEnd := by
  rw [trimEnd, trimEnd, dropEndWhile, dropEndWhile, List.reverse_reverse, List.dropWhile_idempotent]

theorem Text.halts_trim (t : Text) : Halts isBlank t.trim :=
  halts_of_isPrefix (halts_trimStart t) (dropEndWhile_isPrefix isBlank _)

theorem Text.last_trim (t : Text) : ∀ c ∈ t.trim.getLast?, isBlank c = false :=
  last_dropEndWhile isBlank t.trimStart

theorem Text.trim_trim (t : Text) : t.trim.trim = t.trim := by
  rw [trim, trimStart_of_halts (halts_trim t), trim, trimEnd_trimEnd]

/-- Blanks around a solid list are trimmed, and nothing else is. -/
theorem Solid.trim {ts : List Token} (hts : Solid ts) {g g' : Text}
    (hg : ∀ c ∈ g, isBlank c = true) (hg' : ∀ c ∈ g', isBlank c = true) :
    (g ++ (textOf ts ++ g')).trim = textOf ts := by
  rw [Text.trim, Text.trimStart_append hg (hts.halts_isBlank g'),
    Text.trimEnd_append hg' hts.last_not_isBlank]

theorem Solid.trim_self {ts : List Token} (hts : Solid ts) : (textOf ts).trim = textOf ts := by
  have := hts.trim (List.forall_mem_nil _) (List.forall_mem_nil _)
  simpa using this

/-- Wherever the pattern matches there is one of the keywords as a whole word, with nothing but
blanks in front of it. -/
def LedBy (keywords : List String) (p : Pattern) : Prop :=
  ∀ b t i captures, p.ends ⟨b, t, i, captures⟩ ≠ [] →
    ∃ g w r, t = g ++ (w ++ r) ∧ (∀ c ∈ g, isBlank c = true) ∧ Halts Text.isWord r ∧
      (∃ k ∈ keywords, IsKeyword k.toList ∧ Spells k.toList w) ∧
      (g = [] → ∀ c ∈ b, Text.isWord c = false)

/-- A pattern that is led in by keywords without blanks in front of them. -/
def StartsWith (keywords : List String) (p : Pattern) : Prop :=
  ∀ b t i captures, p.ends ⟨b, t, i, captures⟩ ≠ [] →
    ∃ w r, t = w ++ r ∧ Halts Text.isWord r ∧
      (∃ k ∈ keywords, IsKeyword k.toList ∧ Spells k.toList w) ∧ ∀ c ∈ b, Text.isWord c = false

theorem StartsWith.ledBy {keywords : List String} {p : Pattern} (h : StartsWith keywords p) :
    LedBy keywords p := by
  intro b t i captures hne
  obtain ⟨w, r, rfl, hr, hk, hb⟩ := h b t i captures hne
  exact ⟨[], w, r, rfl, by simp, hr, hk, fun _ => hb⟩

theorem not_halts_of_isName {w : Text} (h : IsName w) (r : Text) :
    ¬ Halts Text.isWord (w ++ r) := by
  rw [halts_append h.1]
  obtain ⟨c, w, rfl⟩ := List.exists_cons_of_ne_nil h.1
  simp [h.2 c List.mem_cons_self]

/-- Two ways of reading a whole word at the start of a text. -/
theorem word_unique {w w' r r' : Text} (h : w ++ r = w' ++ r') (hw : ∀ c ∈ w, Text.isWord c = true)
    (hw' : ∀ c ∈ w', Text.isWord c = true) (hr : Halts Text.isWord r) (hr' : Halts Text.isWord r') :
    w = w' := by
  obtain ⟨y, rfl, hy⟩ := prefix_of_halts h hw' hr
  cases y with
  | nil => simp
  | cons c y =>
    rw [hy, List.cons_append, halts_cons, hw c (by simp)] at hr'
    cases hr'

section LedBy

variable {keywords : List String} {p : Pattern} {b : Option Char} {r : Text} {ts : List Token}

theorem refuses_in_word (hp : LedBy keywords p) {w x y : Text} {c : Char} (hw : IsName w)
    (havoid : ∀ k ∈ keywords, ¬ Spells k.toList w) (hr : Halts Text.isWord r)
    (hxy : w = x ++ c :: y) : p.Refuses (lastChar b x) (c :: (y ++ r)) := by
  intro i captures
  by_contra hne
  obtain ⟨g, v, s, ht, hg, hs, ⟨k, hk, hkey, hv⟩, hb⟩ := hp _ _ i captures hne
  have hword : ∀ d ∈ c :: y, Text.isWord d = true := by
    intro d hd
    exact hw.2 d (by rw [hxy]; exact List.mem_append_right _ hd)
  cases g with
  | cons d g =>
    obtain ⟨rfl, -⟩ := List.cons_eq_cons.mp ht
    have := hg c List.mem_cons_self
    rw [not_isBlank_of_isWord (hword c List.mem_cons_self)] at this
    cases this
  | nil =>
    have ht : c :: y ++ r = v ++ s := ht
    have hv' : c :: y = v := word_unique ht hword (hv.isWord hkey.2) hr hs
    cases x with
    | nil =>
      refine havoid k hk ?_
      rw [hxy, List.nil_append, hv']
      exact hv
    | cons d x =>
      obtain ⟨e, he, hlast⟩ := lastChar_of_ne_nil (List.cons_ne_nil d x) b
      have hb := hb rfl e hlast
      rw [hw.2 e (by rw [hxy]; exact List.mem_append_left _ he)] at hb
      cases hb

theorem refuses_at_mark (hp : LedBy keywords p) {c : Char} (hc : IsMark c) :
    p.Refuses b (c :: r) := by
  intro i captures
  by_contra hne
  obtain ⟨g, v, s, ht, hg, -, ⟨k, -, hkey, hv⟩, -⟩ := hp _ _ i captures hne
  cases g with
  | cons d g =>
    obtain ⟨rfl, -⟩ := List.cons_eq_cons.mp ht
    have := hg c List.mem_cons_self
    rw [hc.2.1] at this
    cases this
  | nil =>
    have := not_halts_of_isName (hv.isName hkey) s
    rw [List.nil_append] at ht
    rw [← ht, halts_cons, hc.1] at this
    exact this rfl

theorem refuses_in_gap (hp : LedBy keywords p) {g y : Text} {c : Char}
    (hg : ∀ d ∈ c :: y, isBlank d = true) (hr : Halts isBlank r)
    (hnone : ∀ w s, r = w ++ s → Halts Text.isWord s → ∀ k ∈ keywords, IsKeyword k.toList →
      ¬ Spells k.toList w) : p.Refuses (lastChar b g) (c :: (y ++ r)) := by
  intro i captures
  by_contra hne
  obtain ⟨g', v, s, ht, hg', hs, ⟨k, hk, hkey, hv⟩, -⟩ := hp _ _ i captures hne
  have ht : c :: y ++ r = g' ++ (v ++ s) := ht
  obtain ⟨z, hz, hvs⟩ := prefix_of_halts ht hg' hr
  cases z with
  | nil => exact hnone v s (by simpa using hvs.symm) hs k hk hkey hv
  | cons d z =>
    have hblank := hg d (by rw [hz]; simp)
    have := not_halts_of_isName (hv.isName hkey) s
    rw [hvs, List.cons_append, halts_cons, not_isWord_of_isBlank hblank] at this
    exact this rfl

theorem not_spells_of_misses {d : Token} (hchain : (d :: ts).IsChain Token.Meets)
    (hd : d.Misses keywords) (hr : Halts Text.isWord r) {w s : Text}
    (hws : textOf (d :: ts) ++ r = w ++ s) (hs : Halts Text.isWord s) {k : String}
    (hk : k ∈ keywords) (hkey : IsKeyword k.toList) : ¬ Spells k.toList w := by
  intro hw
  have hname := hw.isName hkey
  rw [textOf_cons, List.append_assoc] at hws
  cases d with
  | word v hv =>
    have behind : Halts Text.isWord (textOf ts ++ r) := by
      refine halts_isWord_textOf (fun e he => ?_) hr
      simpa [Token.isWord] using ((List.isChain_cons.mp hchain).1 e he).1
    have hvw : v = w := word_unique hws hv.2 hname.2 behind hs
    exact hd k hk (hvw ▸ hw)
  | gap | mark | shelter =>
    refine not_halts_of_isName hname s ?_
    rw [← hws]
    exact Token.halts_isWord rfl _

theorem skips_gap (hp : LedBy keywords p) {g : Text} (hg : IsGap g) {d : Token}
    (hgap : d.isGap = false) (hchain : (d :: ts).IsChain Token.Meets) (hd : d.Misses keywords)
    (hr : Halts Text.isWord r) :
    Skips p b g (textOf (d :: ts) ++ r) := by
  refine skips_of_refuses (fun c hc => not_isSpecial_of_isBlank (hg.2 c hc)) fun x c y hxy => ?_
  refine refuses_in_gap hp (fun e he => hg.2 e ?_) ?_ ?_
  · rw [hxy]
    exact List.mem_append_right _ he
  · rw [textOf_cons, List.append_assoc]
    exact Token.halts_isBlank hgap _
  · exact fun w s hws hs k hk hkey => not_spells_of_misses hchain hd hr hws hs hk hkey

/-- A pattern led in by keywords skips what has none of them. -/
theorem skips_of_misses (hshy : p.shy = true) (hp : LedBy keywords p)
    (hchain : ts.IsChain Token.Meets) (hlast : ∀ a ∈ ts.getLast?, a.isGap = false)
    (hmiss : ∀ a ∈ ts, a.Misses keywords) (hr : Halts Text.isWord r) :
    Skips p b (textOf ts) r := by
  -- Token by token, with the later ones behind it: these decide whether a word or a gap is over.
  induction ts generalizing b with
  | nil => exact skips_nil
  | cons a ts ih =>
    obtain ⟨hmeets, hchain'⟩ := List.isChain_cons.mp hchain
    obtain ⟨ha, hmiss'⟩ := List.forall_mem_cons.mp hmiss
    have hlast' : ∀ a ∈ ts.getLast?, a.isGap = false := by
      intro d hd
      refine hlast d ?_
      rw [Option.mem_def] at hd
      rw [List.getLast?_cons, hd]
      rfl
    have behind (hword : a.isWord = true) : Halts Text.isWord (textOf ts ++ r) := by
      refine halts_isWord_textOf (fun d hd => ?_) hr
      have := (hmeets d hd).1
      rwa [hword, Bool.true_and] at this
    rw [textOf_cons]
    refine Skips.append ?_ (ih hchain' hlast' hmiss')
    cases a with
    | word w hw =>
      refine skips_of_refuses (fun c hc => not_isSpecial_of_isWord (hw.2 c hc)) fun x c y hxy => ?_
      exact refuses_in_word hp hw ha (behind rfl) hxy
    | mark c hc =>
      exact skips_char hc.2.2 (refuses_at_mark hp hc)
    | shelter s hs => exact skips_of_sheltered hshy hs
    | gap g hg =>
      cases ts with
      | nil => cases hlast _ rfl
      | cons d ts =>
        have hd : d.isGap = false := by simpa [Token.isGap] using (hmeets d rfl).2
        exact skips_gap hp hg hd hchain' (List.forall_mem_cons.mp hmiss').1 hr

theorem Solid.skips (hts : Solid ts) (hshy : p.shy = true) (hp : LedBy keywords p)
    (havoid : ∀ a ∈ ts, a.Avoids keywords) (hr : Halts Text.isWord r) : Skips p b (textOf ts) r :=
  skips_of_misses hshy hp hts.chain hts.last (fun a ha => (havoid a ha).misses) hr

theorem skips_of_blank (hp : StartsWith keywords p) {g : Text} (hg : ∀ c ∈ g, isBlank c = true) :
    Skips p b g r := by
  refine skips_of_refuses (fun c hc => not_isSpecial_of_isBlank (hg c hc)) fun x c y hxy => ?_
  intro i captures
  by_contra hne
  obtain ⟨w, s, ht, -, ⟨k, -, hkey, hw⟩, -⟩ := hp _ _ i captures hne
  have := not_halts_of_isName (hw.isName hkey) s
  rw [← ht, halts_cons, not_isWord_of_isBlank (hg c (by rw [hxy]; simp))] at this
  exact this rfl

end LedBy

end SqlCanvas
