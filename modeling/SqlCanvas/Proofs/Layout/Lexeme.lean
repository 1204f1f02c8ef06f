import SqlCanvas.Proofs.Grammar.Word
import SqlCanvas.Proofs.Nesting.Pieces

/-!
# Lexemes

Generated text as keywords, blanks and everything else. `Relaid` says that a text is laid out in
another way: its keywords in any letter case and other blanks for the blanks. A list of lexemes is
stable when each text for it is made up of written parts, and these always mean the same.
-/

namespace SqlCanvas

open Text Nesting Pattern

universe u v

/-- A stretch of a generated text. -/
inductive Lexeme where
  | keyword (k : String) (h : IsKeyword k.toList)
  | blank (c : Char) (h : isBlank c = true)
  /-- A name, a sign, a literal or a call, which stays as it is. -/
  | fixed (s : String)

namespace Lexeme

def text : Lexeme → Text
  | keyword k _ => k.toList
  | blank c _ => [c]
  | fixed s => s.toList

def space : Lexeme :=
  .blank ' ' (by decide)

def line : Lexeme :=
  .blank '\n' (by decide)

@[simp] theorem text_keyword (k : String) (h : IsKeyword k.toList) :
    (keyword k h).text = k.toList :=
  rfl

@[simp] theorem text_fixed (s : String) : (fixed s).text = s.toList := rfl

@[simp] theorem text_space : space.text = [' '] := rfl

@[simp] theorem text_line : line.text = ['\n'] := rfl

def phrase : (ks : List String) → (∀ k ∈ ks, IsKeyword k.toList) → List Lexeme
  | [], _ => []
  | [k], h => [.keyword k (h k List.mem_cons_self)]
  | k :: k' :: ks, h =>
    .keyword k (h k List.mem_cons_self) :: space :: phrase (k' :: ks) fun k hk =>
      h k (List.mem_cons_of_mem _ hk)

end Lexeme

/-- The text of some lexemes as it is generated. -/
def printed (ls : List Lexeme) : Text :=
  ls.flatMap Lexeme.text

@[simp] theorem printed_nil : printed [] = [] := rfl

@[simp] theorem printed_cons (l : Lexeme) (ls : List Lexeme) :
    printed (l :: ls) = l.text ++ printed ls :=
  rfl

@[simp] theorem printed_append (ls ls' : List Lexeme) :
    printed (ls ++ ls') = printed ls ++ printed ls' :=
  List.flatMap_append

theorem printed_intercalate (separator : List Lexeme) (lss : List (List Lexeme)) :
    printed (separator.intercalate lss) = (printed separator).intercalate (lss.map printed) := by
  induction lss with
  | nil => rfl
  | cons ls lss ih =>
    cases lss with
    | nil => simp
    | cons ls' lss =>
      rw [List.intercalate_cons_cons, printed_append, printed_append, ih, List.map_cons,
        List.map_cons, List.map_cons, List.intercalate_cons_cons]

theorem printed_phrase {ks : List String} (h : ∀ k ∈ ks, IsKeyword k.toList) :
    printed (Lexeme.phrase ks h) = (" ".intercalate ks).toList := by
  induction ks with
  | nil => rfl
  | cons k ks ih =>
    cases ks with
    | nil => simp [Lexeme.phrase]
    | cons k' ks =>
      rw [Lexeme.phrase, printed_cons, printed_cons, ih, String.toList_intercalate,
        String.toList_intercalate, List.map_cons, List.map_cons, List.map_cons,
          List.intercalate_cons_cons, List.append_assoc]
      rfl

/-- The text is one for the lexemes: keywords in any letter case, and some blanks for each blank. -/
inductive Relaid : List Lexeme → Text → Prop
  | nil : Relaid [] []
  | keyword {k : String} {h : IsKeyword k.toList} (s : Spelling k) {ls : List Lexeme} {t : Text}
      (rest : Relaid ls t) : Relaid (.keyword k h :: ls) (s.text ++ t)
  | blank {c : Char} {h : isBlank c = true} (g : Gap) {ls : List Lexeme} {t : Text}
      (rest : Relaid ls t) : Relaid (.blank c h :: ls) (g.text ++ t)
  | fixed {s : String} {ls : List Lexeme} {t : Text} (rest : Relaid ls t) :
      Relaid (.fixed s :: ls) (s.toList ++ t)

namespace Relaid

variable {ls ls' : List Lexeme} {t : Text}

/-- The generated text is one of its layouts. -/
theorem printed (ls : List Lexeme) : Relaid ls (printed ls) := by
  induction ls with
  | nil => exact .nil
  | cons l ls ih =>
    cases l with
    | keyword k h => exact .keyword (.capital k h) ih
    | blank c h => exact .blank ⟨[c], List.cons_ne_nil c [], List.forall_mem_singleton.mpr h⟩ ih
    | fixed s => exact .fixed ih

theorem eq_nil (h : Relaid [] t) : t = [] := by
  cases h
  rfl

theorem exists_of_keyword {k : String} {hk : IsKeyword k.toList}
    (h : Relaid (.keyword k hk :: ls) t) :
    ∃ (s : Spelling k) (u : Text), t = s.text ++ u ∧ Relaid ls u := by
  cases h with
  | keyword s rest => exact ⟨s, _, rfl, rest⟩

theorem exists_of_blank {c : Char} {hc : isBlank c = true} (h : Relaid (.blank c hc :: ls) t) :
    ∃ (g : Gap) (u : Text), t = g.text ++ u ∧ Relaid ls u := by
  cases h with
  | blank g rest => exact ⟨g, _, rfl, rest⟩

theorem exists_of_fixed {s : String} (h : Relaid (.fixed s :: ls) t) :
    ∃ u : Text, t = s.toList ++ u ∧ Relaid ls u := by
  cases h with
  | fixed rest => exact ⟨_, rfl, rest⟩

theorem eq_of_fixed {s : String} (h : Relaid [.fixed s] t) : t = s.toList := by
  obtain ⟨u, rfl, hu⟩ := h.exists_of_fixed
  rw [hu.eq_nil, List.append_nil]

theorem exists_of_append (h : Relaid (ls ++ ls') t) :
    ∃ u v, t = u ++ v ∧ Relaid ls u ∧ Relaid ls' v := by
  induction ls generalizing t with
  | nil => exact ⟨[], t, rfl, .nil, h⟩
  | cons l ls ih =>
    cases h with
    | keyword s rest =>
      obtain ⟨u, v, rfl, hu, hv⟩ := ih rest
      exact ⟨_, v, (List.append_assoc _ u v).symm, .keyword s hu, hv⟩
    | blank g rest =>
      obtain ⟨u, v, rfl, hu, hv⟩ := ih rest
      exact ⟨_, v, (List.append_assoc _ u v).symm, .blank g hu, hv⟩
    | fixed rest =>
      obtain ⟨u, v, rfl, hu, hv⟩ := ih rest
      exact ⟨_, v, (List.append_assoc _ u v).symm, .fixed hu, hv⟩

theorem exists_phrase {ks : List String} {hks : ∀ k ∈ ks, IsKeyword k.toList}
    (h : Relaid (Lexeme.phrase ks hks) t) (hne : ks ≠ []) :
    ∃ p : Phrase ks, textOf p.tokens = t := by
  induction ks generalizing t with
  | nil => exact absurd rfl hne
  | cons k ks ih =>
    obtain _ | ⟨k', ks⟩ := ks
    · obtain ⟨s, u, rfl, hu⟩ := h.exists_of_keyword
      exact ⟨.one s, by simp [Phrase.tokens, hu.eq_nil]⟩
    · obtain ⟨s, u, rfl, hu⟩ := h.exists_of_keyword
      obtain ⟨g, v, rfl, hv⟩ := hu.exists_of_blank
      obtain ⟨p, rfl⟩ := ih hv (List.cons_ne_nil _ _)
      exact ⟨.cons s g p, by simp [Phrase.tokens]⟩

end Relaid

/-- Each text for the lexemes can be written, and what is written always means the same. -/
def Stable {A : Type} {M : Type u} (ls : List Lexeme) (write : A → List Token) (meaning : A → M) :
    Prop :=
  ∃ m, ∀ t, Relaid ls t → ∃ a, textOf (write a) = t ∧ meaning a = m

namespace Stable

variable {A B S : Type} {M : Type u} {N : Type v} {ls ls' : List Lexeme} {lss : List (List Lexeme)}
  {write : A → List Token} {meaning : A → M}

/-- The same texts with another meaning that depends on the first one only. -/
theorem factor (h : Stable ls write meaning) (f : A → B) {write' : B → List Token}
    (hwrite : ∀ a, textOf (write' (f a)) = textOf (write a)) {meaning' : B → N}
    (hmeaning : ∀ a a', meaning a = meaning a' → meaning' (f a) = meaning' (f a')) :
    Stable ls write' meaning' := by
  obtain ⟨m, h⟩ := h
  obtain ⟨a₀, -, ha₀⟩ := h _ (.printed ls)
  refine ⟨meaning' (f a₀), fun t ht => ?_⟩
  obtain ⟨a, rfl, ha⟩ := h t ht
  exact ⟨f a, hwrite a, hmeaning a a₀ (ha.trans ha₀.symm)⟩

theorem series {separator : List Lexeme} {separate : S → List Token}
    (hseparator : ∀ t, Relaid separator t → ∃ s, textOf (separate s) = t) (hne : lss ≠ [])
    (h : ∀ ls ∈ lss, Stable ls write meaning) :
    Stable (separator.intercalate lss) (Series.tokens separate write) fun x =>
      x.items.map meaning := by
  induction lss with
  | nil => exact absurd rfl hne
  | cons ls lss ih =>
    obtain ⟨⟨m, hls⟩, hlss⟩ := List.forall_mem_cons.mp h
    cases lss with
    | nil =>
      refine ⟨[m], fun t ht => ?_⟩
      rw [List.intercalate_singleton] at ht
      obtain ⟨a, rfl, ha⟩ := hls t ht
      exact ⟨⟨a, []⟩, by simp [Series.tokens], congrArg (fun m => [m]) ha⟩
    | cons ls' lss =>
      obtain ⟨ms, ih⟩ := ih (List.cons_ne_nil _ _) hlss
      refine ⟨m :: ms, fun t ht => ?_⟩
      rw [List.intercalate_cons_cons] at ht
      obtain ⟨u, w, rfl, hu, hw⟩ := ht.exists_of_append
      obtain ⟨u, v, rfl, hu, hv⟩ := hu.exists_of_append
      obtain ⟨a, rfl, ha⟩ := hls u hu
      obtain ⟨s, rfl⟩ := hseparator v hv
      obtain ⟨x, rfl, hx⟩ := ih w hw
      exact ⟨⟨a, (s, x.first) :: x.rest⟩, by simp [Series.tokens], congrArg₂ _ ha hx⟩

theorem block (k : Blocks A) {c : Char} {hc : isBlank c = true}
    (h : Stable ls (fun a => k.head a ++ k.body a) meaning) :
    Stable (.blank c hc :: ls) k.tokens (List.map fun x => meaning x.2) := by
  obtain ⟨m, h⟩ := h
  refine ⟨[m], fun t ht => ?_⟩
  obtain ⟨g, u, rfl, hu⟩ := ht.exists_of_blank
  obtain ⟨a, rfl, rfl⟩ := h u hu
  exact ⟨[(g, a)], by simp, rfl⟩

theorem flatten (k : Blocks A) {meaning : Gap × A → M}
    (h : ∀ ls ∈ lss, Stable ls k.tokens (List.map meaning)) :
    Stable lss.flatten k.tokens (List.map meaning) := by
  induction lss with
  | nil =>
    refine ⟨[], fun t ht => ⟨[], ?_, rfl⟩⟩
    rw [ht.eq_nil]
    rfl
  | cons ls lss ih =>
    obtain ⟨⟨ms, hls⟩, hlss⟩ := List.forall_mem_cons.mp h
    obtain ⟨ms', ih⟩ := ih hlss
    refine ⟨ms ++ ms', fun t ht => ?_⟩
    obtain ⟨u, v, rfl, hu, hv⟩ := ht.exists_of_append
    obtain ⟨xs, rfl, rfl⟩ := hls u hu
    obtain ⟨ys, rfl, rfl⟩ := ih v hv
    exact ⟨xs ++ ys, by simp [Blocks.tokens], List.map_append⟩

end Stable

end SqlCanvas
