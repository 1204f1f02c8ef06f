import SqlCanvas.Proofs.Grammar.Filter

/-!
# Written tables

A table behind `FROM` or `JOIN`: its name in one or two parts, and its alias, with or without `AS`.
A table without an alias has to be followed by the end of the text or by a word that may not be an
alias.
-/

namespace SqlCanvas

open Text Nesting Pattern

/-- What may follow a table without an alias. -/
inductive TableEnd : Text → Prop
  | nil : TableEnd []
  | gap {g : Text} (hg : IsGap g) : TableEnd g
  | word {g w r : Text} {k : String} (hg : IsGap g) (hk : k ∈ continuations)
    (hw : Spells k.toList w) (hr : Halts isWord r) : TableEnd (g ++ (w ++ r))

theorem isKeyword_of_mem_continuations :
    ∀ k ∈ continuations, IsKeyword k.toList ∧ k ≠ "AS" := by
  decide

theorem continuations_subset : continuations ⊆ reserved := by
  decide

theorem TableEnd.halts_isWord {r : Text} (h : TableEnd r) : Halts isWord r := by
  cases h with
  | nil => exact halts_nil _
  | gap hg => simpa using hg.halts_isWord []
  | word hg => exact hg.halts_isWord _

theorem TableEnd.head_ne {r : Text} {c : Char} (h : TableEnd r) (hc : isBlank c = false) :
    r.head? ≠ some c := by
  have gap {g : Text} (hg : IsGap g) (s : Text) : (g ++ s).head? ≠ some c := by
    rw [List.head?_append_of_ne_nil _ hg.1]
    intro hhead
    rw [hg.2 c (List.mem_of_mem_head? hhead)] at hc
    cases hc
  cases h with
  | nil => simp
  | gap hg => simpa using gap hg []
  | word hg => exact gap hg _

namespace Pattern

variable {b : Option Char} {r : Text}

theorem takes_bare {w : Text} (hw : IsName w) (hr : Halts isWord r)
    (hdot : ((exactly '.').seq name).Refuses (lastChar b w) r) : identifier.Takes b w r [] := by
  have := (takes_name (b := b) hw (r := [] ++ r) hr).seq (takes_maybe_nothing hdot)
  exact this.congr (List.append_nil w) rfl

theorem takes_qualified {v w : Text} (hv : IsName v) (hw : IsName w) (hr : Halts isWord r) :
    identifier.Takes b (v ++ '.' :: w) r [] := by
  have second := (takes_exactly '.' (b := lastChar b v) (r := w ++ r)).seq (takes_name hw hr)
  have dot : Halts isWord ((['.'] ++ w) ++ r) := halts_cons.mpr (by decide)
  exact (takes_name (b := b) hv dot).seq second.maybe

theorem takes_dotted {d : Dotted} (hd : d.rest.length ≤ 1) (hr : Halts isWord r)
    (hdot : r.head? ≠ some '.') : identifier.Takes b d.text r [] := by
  obtain ⟨first, rest⟩ := d
  cases rest with
  | nil =>
    have := takes_bare (b := b) first.isName hr ((refuses_exactly hdot).seq_left name)
    exact this.congr (by simp [Dotted.text, Dotted.tokens]) rfl
  | cons i rest =>
    obtain rfl : rest = [] := by simpa using hd
    have := takes_qualified (b := b) first.isName i.isName hr
    exact this.congr (by simp [Dotted.text, Dotted.tokens]) rfl

theorem refuses_continuation {w : Text} (hw : IsName w)
    (hfree : ∀ k ∈ continuations, ¬ Spells k.toList w) (hr : Halts isWord r) :
    ((oneOf (continuations.map word)).seq boundary).Refuses b (w ++ r) := by
  refine refuses_seq fun u v huv hu => ?_
  obtain ⟨p, hp, hcovers⟩ := covers_oneOf.mp hu
  obtain ⟨k, hk, rfl⟩ := List.mem_map.mp hp
  have hkey := (isKeyword_of_mem_continuations k hk).1
  have hspells := covers_word.mp hcovers
  obtain ⟨y, hy, rfl⟩ := prefix_of_halts huv (hspells.isWord hkey.2) hr
  cases y with
  | nil =>
    rw [List.append_nil] at hy
    exact absurd (hy ▸ hspells) (hfree k hk)
  | cons c y =>
    obtain ⟨d, hd, hlast⟩ := lastChar_of_ne_nil (hspells.ne_nil hkey.1) b
    rw [hlast]
    refine breaks_boundary d c _ (hspells.isWord hkey.2 d hd) (hw.2 c ?_)
    rw [hy]
    simp

theorem not_clash_continuations :
    ∀ ks ks', continuations = ks ++ ks' → ∀ k ∈ ks, ∀ k' ∈ ks', clash [k] [k'] = true := by
  have pairwise : continuations.Pairwise fun k k' => clash [k] [k'] = true := by decide
  intro ks ks' h k hk k' hk'
  rw [h] at pairwise
  exact (List.pairwise_append.mp pairwise).2.2 k hk k' hk'

theorem takes_continuation {k : String} (hk : k ∈ continuations) {w : Text} (hw : Spells k.toList w)
    (hr : Halts isWord r) :
    ((oneOf (continuations.map word)).seq boundary).Takes b w r [] := by
  obtain ⟨ks, ks', h⟩ := List.mem_iff_append.mp hk
  have isPhrase (k' : String) (hk' : k' ∈ continuations) : IsPhrase [k'] :=
    ⟨List.cons_ne_nil _ _, List.forall_mem_singleton.mpr (isKeyword_of_mem_continuations k' hk').1⟩
  have first : (oneOf (continuations.map word)).Takes b w r [] := by
    rw [h, List.map_append, List.map_cons]
    refine takes_oneOf (fun p hp => ?_) (takes_word hw)
    obtain ⟨k', hk', rfl⟩ := List.mem_map.mp hp
    have clash := not_clash_continuations _ _ h k' hk' k List.mem_cons_self
    exact refuses_phrase (isPhrase k' (by rw [h]; simp [hk'])) (isPhrase k hk)
      clash (covers_word.mpr hw)
  have hname := hw.isName (isKeyword_of_mem_continuations k hk).1
  have last : boundary.Takes (lastChar b w) [] r [] := by
    obtain ⟨c, hc, hlast⟩ := lastChar_of_ne_nil hname.1 b
    refine takes_boundary ?_
    rw [hlast]
    cases r with
    | nil => simp [hname.2 c hc]
    | cons d r => simp [hname.2 c hc, halts_cons.mp hr]
  have := Takes.seq (v := []) (q := boundary) (r := r) (by simpa using first) last
  simpa using this

theorem not_spells_as {k : String} (hk : k ∈ continuations) : ¬ Spells k.toList "AS".toList := by
  intro hspells
  obtain ⟨hkey, hne⟩ := isKeyword_of_mem_continuations k hk
  exact hne (String.toList_inj.mp (hspells.unique spells_self hkey.2 (by decide)))

theorem takes_aliasName {w : Text} (hw : IsName w)
    (hfree : ∀ k ∈ continuations, ¬ Spells k.toList w) (slot : Nat) (hr : Halts isWord r) :
    (all [.notAhead (.seq (.oneOf (continuations.map word)) .boundary), .capture slot name]).Takes
      b w r [(slot, w)] :=
  Takes.all_cons (takes_notAhead (refuses_continuation hw hfree hr))
    ((takes_name hw hr).capture slot).all_last

theorem takes_tableAlias_free {w : Text} (hw : IsName w)
    (hfree : ∀ k ∈ continuations, ¬ Spells k.toList w) (slot : Nat) (hr : Halts isWord r) :
    (tableAlias slot).Takes b (" AS ".toList ++ w) r [(slot, w)] := by
  have space : blank.Takes b [' '] ("AS ".toList ++ w ++ r) [] :=
    takes_blank Gap.space.isGap (halts_cons.mpr (by decide))
  have marked : (Pattern.maybe (.seq (word "AS") blank)).Takes (lastChar b [' ']) "AS ".toList
      (w ++ r) [] :=
    (Takes.seq (takes_word spells_self) (takes_blank Gap.space.isGap (hw.halts_isBlank r))).maybe
  exact (Takes.all_cons space (Takes.all_cons marked (takes_aliasName hw hfree slot hr))).maybe

/-- Where a word that goes on with the statement stands behind `AS`, the latter is the alias. -/
theorem takes_tableAlias_as {k : String} (hk : k ∈ continuations) {w : Text}
    (hw : Spells k.toList w) (slot : Nat) (hr : Halts isWord r) :
    (tableAlias slot).Takes b " AS".toList (' ' :: w ++ r) [(slot, "AS".toList)] := by
  have halts : Halts isBlank (w ++ r) :=
    (hw.isName (isKeyword_of_mem_continuations k hk).1).halts_isBlank r
  have isName_as : IsName "AS".toList := spells_self.isName (by decide)
  -- Behind `AS` the word is refused, so `AS` is passed over and tried for the name.
  have refused {b : Option Char} : ((Pattern.seq (word "AS") blank).seq
      (all [.notAhead (.seq (.oneOf (continuations.map word)) .boundary),
        .capture slot name])).Refuses b ("AS".toList ++ (' ' :: w ++ r)) := by
    apply refuses_seq
    rintro u v huv ⟨x, y, hx, hy, rfl⟩
    obtain ⟨rfl, hrest⟩ :=
      List.append_inj (huv.trans (List.append_assoc x y v)) (covers_word.mp hx).length_eq
    obtain ⟨hne, hblank⟩ := covers_many1.mp hy
    obtain ⟨z, hz, rfl⟩ := prefix_of_halts (w := [' ']) hrest hblank halts
    obtain ⟨-, rfl⟩ : y = [' '] ∧ z = [] := by
      simpa [hne] using List.singleton_eq_append_iff.mp hz
    exact (takes_continuation hk hw hr).refuses_notAhead.seq_left _
  have named := takes_aliasName (b := lastChar b [' ']) isName_as (fun _ => not_spells_as) slot
    (halts_cons.mpr (by decide) : Halts isWord (' ' :: w ++ r))
  have space : blank.Takes b [' '] ("AS".toList ++ (' ' :: w ++ r)) [] :=
    takes_blank Gap.space.isGap (isName_as.halts_isBlank _)
  exact (space.seq (named.maybe_seq_right refused)).maybe

/-- Behind `AS` any name is taken for the alias, or else `AS` itself is. -/
theorem takes_tableAlias_name {w : Text} (hw : IsName w) (slot : Nat) (b : Option Char)
    (hr : Halts isWord r) : (tableAlias slot).Takes b (" AS ".toList ++ w) r [(slot, w)] ∨
      (tableAlias slot).Takes b " AS".toList (' ' :: w ++ r) [(slot, "AS".toList)] := by
  by_cases hgo : ∃ k ∈ continuations, Spells k.toList w
  · obtain ⟨k, hk, hspells⟩ := hgo
    exact .inr (takes_tableAlias_as hk hspells slot hr)
  · exact .inl (takes_tableAlias_free hw (fun k hk hspells => hgo ⟨k, hk, hspells⟩) slot hr)

end Pattern

structure WrittenAlias where
  gap : Gap
  as : Option (Spelling "AS" × Gap)
  name : Ident

namespace WrittenAlias

def asTokens (a : WrittenAlias) : List Token :=
  match a.as with
  | some (s, g) => [s.token, g.token]
  | none => []

def tokens (a : WrittenAlias) : List Token :=
  a.gap.token :: (a.asTokens ++ [a.name.token])

theorem isKeyword_as : IsKeyword "AS".toList := by
  decide

def standard (name : Ident) : WrittenAlias :=
  ⟨.space, some (.capital "AS" isKeyword_as, .space), name⟩

theorem solid (a : WrittenAlias) {ts : List Token} (hts : Solid ts) : Solid (ts ++ a.tokens) := by
  obtain ⟨gap, as, name⟩ := a
  cases as with
  | none => exact hts.spaced name.solid gap
  | some as =>
    obtain ⟨s, g⟩ := as
    exact hts.spaced (s.solid.spaced name.solid g) gap

theorem avoids (a : WrittenAlias) : ∀ x ∈ a.tokens, x.Avoids (reserved.filter (· ≠ "AS")) := by
  obtain ⟨gap, as, name⟩ := a
  have hname : name.token.Avoids (reserved.filter (· ≠ "AS")) :=
    name.avoids (List.filter_subset_self _)
  cases as with
  | none => simpa [tokens, asTokens] using ⟨avoids_of_gap, hname⟩
  | some as =>
    obtain ⟨s, g⟩ := as
    have has : s.token.Avoids (reserved.filter (· ≠ "AS")) := s.avoids (by decide)
    refine List.forall_mem_cons.mpr ⟨trivial, List.forall_mem_cons.mpr ⟨has, ?_⟩⟩
    exact List.forall_mem_cons.mpr ⟨trivial, List.forall_mem_singleton.mpr hname⟩

theorem takes_as (a : WrittenAlias) (b : Option Char) {r : Text} (hr : Halts isWord r) :
    (Pattern.maybe (.seq (word "AS") blank)).Takes b (textOf a.asTokens) (a.name.text ++ r) [] := by
  obtain ⟨gap, as, name⟩ := a
  cases as with
  | none =>
    refine takes_maybe_nothing (refuses_word_seq (by decide) name.isName.2 hr ?_ breaks_blank)
    exact name.free "AS" (by decide)
  | some as =>
    obtain ⟨s, g⟩ := as
    have := (takes_word (b := b) s.spells (r := g.text ++ (name.text ++ r))).seq
      (takes_blank g.isGap (name.halts_isBlank r))
    simpa [asTokens] using this.maybe

theorem asTokens_halts (a : WrittenAlias) (r : Text) :
    Halts isBlank (textOf a.asTokens ++ (a.name.text ++ r)) := by
  obtain ⟨gap, as, name⟩ := a
  cases as with
  | none => exact name.halts_isBlank r
  | some as =>
    obtain ⟨s, g⟩ := as
    simpa [asTokens] using s.isName.halts_isBlank _

theorem takes_tableAlias (a : WrittenAlias) (slot : Nat) (b : Option Char) {r : Text}
    (hr : Halts isWord r) :
    (tableAlias slot).Takes b (textOf a.tokens) r [(slot, a.name.text)] := by
  have free (k : String) (hk : k ∈ continuations) : ¬ Spells k.toList a.name.text :=
    a.name.free k (continuations_subset hk)
  have := Takes.all_cons (takes_blank (b := b) a.gap.isGap (by simpa using a.asTokens_halts r))
    (Takes.all_cons (by simpa using a.takes_as _ hr)
      (Takes.all_cons (takes_notAhead (by simpa using refuses_continuation a.name.isName free hr))
        (Takes.all_cons (.capture slot (takes_name a.name.isName (by simpa using hr)))
          (takes_all_nil (r := r)))))
  exact this.maybe.congr (by simp [tokens]) rfl

end WrittenAlias

theorem Pattern.takes_tableAlias_nothing (slot : Nat) (b : Option Char) {r : Text}
    (h : TableEnd r) : (tableAlias slot).Takes b [] r [] := by
  have plain {b : Option Char} {t : Text} (ht : Halts isWord t) :
      (all [.maybe (.seq (word "AS") blank),
        .notAhead (.seq (.oneOf (continuations.map word)) .boundary), .capture slot name]).Refuses b
          t :=
    ((refuses_word_of_halts (by decide) ht).seq_left _).maybe_seq
      (refuses_notAhead_seq (((refuses_name ht).capture slot).seq_left _))
  refine takes_maybe_nothing ?_
  cases h with
  | nil => exact (refuses_blank (halts_nil _)).seq_left _
  | gap hg =>
    have := refuses_blank_seq (b := b) (halts_nil _) hg.2
      (fun b c t hc => plain (halts_cons.mpr (not_isWord_of_isBlank hc))) (plain (halts_nil _))
    rwa [List.append_nil] at this
  | @word g w r k hg hk hw hr =>
    obtain ⟨hkey, hne⟩ := isKeyword_of_mem_continuations k hk
    have hname := hw.isName hkey
    refine refuses_blank_seq (hname.halts_isBlank r) hg.2
      (fun b c t hc => plain (halts_cons.mpr (not_isWord_of_isBlank hc))) (Refuses.maybe_seq ?_ ?_)
    · refine refuses_word_seq (by decide) hname.2 hr (fun has => hne ?_) breaks_blank
      exact String.toList_inj.mp (hw.unique has hkey.2 (by decide))
    · exact ((takes_continuation hk hw hr).refuses_notAhead).seq_left _

/-- A table's name in one or two parts, and its alias. -/
structure WrittenTable where
  name : Dotted
  short : name.rest.length ≤ 1
  aliasName : Option WrittenAlias

namespace WrittenTable

def aliasTokens (t : WrittenTable) : List Token :=
  (t.aliasName.map WrittenAlias.tokens).getD []

def tokens (t : WrittenTable) : List Token :=
  t.name.tokens ++ t.aliasTokens

def aliasText (t : WrittenTable) : Option Text :=
  t.aliasName.map fun a => a.name.text

theorem solid (t : WrittenTable) : Solid t.tokens := by
  obtain ⟨name, short, aliasName⟩ := t
  cases aliasName with
  | none => simpa [tokens, aliasTokens] using name.solid
  | some a => exact a.solid name.solid

theorem avoids (t : WrittenTable) : ∀ x ∈ t.tokens, x.Avoids (reserved.filter (· ≠ "AS")) := by
  intro x hx
  rcases List.mem_append.mp hx with hx | hx
  · exact t.name.avoids (List.filter_subset_self _) x hx
  · cases h : t.aliasName with
    | none => simp [aliasTokens, h] at hx
    | some a => exact a.avoids x (by simpa [aliasTokens, h] using hx)

theorem takes (t : WrittenTable) (slot slot' : Nat) (b : Option Char) {r : Text} (hr : TableEnd r) :
    (all [.capture slot identifier, tableAlias slot']).Takes b (textOf t.tokens) r
      ((t.aliasText.map fun a => (slot', a)).toList ++ [(slot, t.name.text)]) := by
  obtain ⟨name, short, aliasName⟩ := t
  cases aliasName with
  | none =>
    have halts : Halts isWord ([] ++ r) := hr.halts_isWord
    have identifier :=
      takes_dotted (b := b) short (r := [] ++ ([] ++ r)) halts (hr.head_ne (by decide))
    have := Takes.all_cons (identifier.capture slot)
      (Takes.all_cons (takes_tableAlias_nothing slot' _ (r := [] ++ r) hr) takes_all_nil)
    exact this.congr (by simp [tokens, aliasTokens, Dotted.text]) rfl
  | some a =>
    have halts : Halts isWord (textOf a.tokens ++ [] ++ r) := by
      simpa [WrittenAlias.tokens] using a.gap.isGap.halts_isWord _
    have dot : (textOf a.tokens ++ [] ++ r).head? ≠ some '.' := by
      obtain ⟨c, g, hg⟩ := List.exists_cons_of_ne_nil a.gap.isGap.1
      have hc := a.gap.isGap.2 c (by simp [hg])
      have : c ≠ '.' := by
        rintro rfl
        exact absurd hc (by decide)
      simpa [WrittenAlias.tokens, hg] using this
    have := Takes.all_cons ((takes_dotted (b := b) short halts dot).capture slot)
      (Takes.all_cons (a.takes_tableAlias slot' _ (r := [] ++ r) hr.halts_isWord) takes_all_nil)
    exact this.congr (by simp [tokens, aliasTokens, Dotted.text]) rfl

end WrittenTable

end SqlCanvas
