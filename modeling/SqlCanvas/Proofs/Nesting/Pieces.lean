import SqlCanvas.Proofs.Nesting.Token

/-!
# Pieces of a text

What the functions that cut a text at the top level give on a text whose cuts are known: the first
occurrence, the stretches between occurrences, and the parts of a series, which are the items that
stand between separators.
-/

namespace SqlCanvas

open Text Nesting Pattern

theorem topLevelOccurrences_eq (p : Pattern) (t : Text) :
    t.topLevelOccurrences p = p.topLevelFrom outside none t 0 0 := by
  have := Text.topLevelIn_eq p [] t []
  simpa [Text.topLevelOccurrences] using this

section FirstOccurrence

variable {p : Pattern} {u s r t : Text} {m : Marking}

theorem findTopLevel?_of_takes (hshy : p.shy = true) (hu : Skips p none u (s ++ r)) (hs : s ≠ [])
    (hp : p.Takes (lastChar none u) s r m) :
    ∃ o, (u ++ (s ++ r)).findTopLevel? p = some o ∧ o.start = u.length ∧
      o.stop = u.length + s.length ∧ ∀ slot, o.capture? slot = m.find? slot := by
  obtain ⟨o, ho, hstart, hstop, hm⟩ := topLevelFrom_of_takes hshy hp hs (0 + u.length)
  rw [Nat.zero_add] at hstart hstop
  refine ⟨o, ?_, hstart, hstop, hm⟩
  rw [findTopLevel?, topLevelOccurrences_eq, hu, ho]
  rfl

theorem findTopLevel?_of_skips (h : Skips p none t []) : t.findTopLevel? p = none := by
  have := h 0
  rw [List.append_nil] at this
  rw [findTopLevel?, topLevelOccurrences_eq, this]
  rfl

end FirstOccurrence

theorem between_of_laid {t : Text} {start : Nat} {os : List Occurrence} {u : Text}
    {pieces : List (Marking × Text)} (h : Laid t t.length start os u pieces) :
    t.between start os = u :: pieces.map (·.2) := by
  induction os generalizing start u pieces with
  | nil =>
    cases pieces with
    | cons => exact h.elim
    | nil =>
      obtain ⟨-, rfl⟩ := h
      rw [between, slice, List.take_of_length_le (by rw [List.length_drop])]
      rfl
  | cons o os ih =>
    cases pieces with
    | nil => exact h.elim
    | cons piece pieces =>
      obtain ⟨-, rfl, -, hlaid⟩ := h
      rw [between, ih hlaid]
      rfl

theorem captured_of_laid {t : Text} {stop start : Nat} {os : List Occurrence} {u : Text}
    {pieces : List (Marking × Text)} (h : Laid t stop start os u pieces) (slot : Nat) :
    os.map (·.captured slot) = pieces.map fun p => (p.1.find? slot).getD [] := by
  induction os generalizing start u pieces with
  | nil =>
    cases pieces with
    | nil => rfl
    | cons => exact h.elim
  | cons o os ih =>
    cases pieces with
    | nil => exact h.elim
    | cons piece pieces =>
      obtain ⟨-, -, hmark, hlaid⟩ := h
      rw [List.map_cons, List.map_cons, ih hlaid, Occurrence.captured, hmark]

theorem laid_of_cuts_all {p : Pattern} (hshy : p.shy = true) {t u : Text}
    {pieces : List (Marking × Text)} (h : Cuts p none t u pieces) :
    Laid t t.length 0 (t.topLevelOccurrences p) u pieces := by
  have := laid_of_cuts hshy h [] []
  rw [topLevelOccurrences_eq]
  simpa using this

theorem between_of_cuts {p : Pattern} (hshy : p.shy = true) {t u : Text}
    {pieces : List (Marking × Text)} (h : Cuts p none t u pieces) :
    t.between 0 (t.topLevelOccurrences p) = u :: pieces.map (·.2) :=
  between_of_laid (laid_of_cuts_all hshy h)

theorem splitTopLevel_of_cuts {p : Pattern} (hshy : p.shy = true) {t u : Text}
    {pieces : List (Marking × Text)} (h : Cuts p none t u pieces) :
    t.splitTopLevel p = ((u :: pieces.map (·.2)).map trim).filter (!·.isEmpty) := by
  rw [splitTopLevel, between_of_cuts hshy h]

/-- Items with separators between them. -/
structure Series (S A : Type) where
  first : A
  rest : List (S × A)

namespace Series

variable {S A B : Type}

def items (x : Series S A) : List A :=
  x.first :: x.rest.map (·.2)

def tokens (separate : S → List Token) (write : A → List Token) (x : Series S A) : List Token :=
  write x.first ++ x.rest.flatMap fun next => separate next.1 ++ write next.2

def ofList (s : S) (xs : List A) (h : xs ≠ []) : Series S A :=
  ⟨xs.head h, xs.tail.map fun x => (s, x)⟩

@[simp] theorem items_ofList (s : S) {xs : List A} (h : xs ≠ []) : (ofList s xs h).items = xs := by
  simp [ofList, items, Function.comp_def]

theorem rest_ofList_ne_nil (s : S) {xs : List A} (h : xs ≠ []) (several : 2 ≤ xs.length) :
    (ofList s xs h).rest ≠ [] := by
  match xs, several with
  | _ :: _ :: _, _ => simp [ofList]

theorem exists_cons {x : Series S A} (h : x.rest ≠ []) :
    ∃ s b rest, x = ⟨x.first, (s, b) :: rest⟩ := by
  obtain ⟨⟨s, b⟩, rest, h⟩ := List.exists_cons_of_ne_nil h
  exact ⟨s, b, rest, by rw [← h]⟩

theorem mem_tokens {separate : S → List Token} {write : A → List Token} {x : Series S A} {a : Token}
    (h : a ∈ x.tokens separate write) :
    (∃ s ∈ x.rest.map (·.1), a ∈ separate s) ∨ ∃ i ∈ x.items, a ∈ write i := by
  rw [tokens, List.mem_append, List.mem_flatMap] at h
  rcases h with h | ⟨next, hnext, h⟩
  · exact .inr ⟨x.first, List.mem_cons_self, h⟩
  · rcases List.mem_append.mp h with h | h
    · exact .inl ⟨next.1, List.mem_map_of_mem hnext, h⟩
    · exact .inr ⟨next.2, List.mem_cons_of_mem _ (List.mem_map_of_mem hnext), h⟩

end Series

/-- A text that separates at `p`: what `p` takes in it, with blanks that it leaves on both sides. -/
def Separates (p : Pattern) (t : Text) : Prop :=
  ∃ g s g', t = g ++ (s ++ g') ∧ s ≠ [] ∧ Halts isWord t ∧ (∀ c ∈ g, isBlank c = true) ∧
    (∀ c ∈ g', isBlank c = true) ∧ (∀ b r, Skips p b g (s ++ r)) ∧ (∀ b r, Skips p b g' r) ∧
    ∀ b r, Halts isBlank r → p.Takes b s (g' ++ r) []

/-- A solid list that `p` goes through without finding anything. -/
structure Part (p : Pattern) (ts : List Token) : Prop where
  solid : Solid ts
  skips : ∀ b r, Halts isWord r → Skips p b (textOf ts) r

section Series

variable {S A : Type} {p : Pattern} {separate : S → List Token} {write : A → List Token}

theorem cuts_of_series {next : List (S × A)}
    (hsep : ∀ n ∈ next, Separates p (textOf (separate n.1)))
    (hpart : ∀ n ∈ next, Part p (write n.2)) {ts : List Token} (hts : Part p ts) (b : Option Char)
    {g : Text} (hg : ∀ c ∈ g, isBlank c = true) (hskip : ∀ b r, Skips p b g r) :
    ∃ u pieces,
      Cuts p b (g ++ textOf (ts ++ next.flatMap fun n => separate n.1 ++ write n.2)) u pieces ∧
        (u :: pieces.map (·.2)).map trim = textOf ts :: next.map fun n => textOf (write n.2) := by
  -- The gap `g` in front of a piece belongs to the separator before it, which is why it is not
  -- fixed.
  induction next generalizing ts b g with
  | nil =>
    refine ⟨g ++ textOf ts, [], ?_, ?_⟩
    · rw [List.flatMap_nil, List.append_nil]
      exact .last ((hskip b _).append (hts.skips _ [] (halts_nil _)))
    · have := hts.solid.trim hg (List.forall_mem_nil _)
      simpa using this
  | cons n next ih =>
    obtain ⟨hsep₁, hsep⟩ := List.forall_mem_cons.mp hsep
    obtain ⟨hpart₁, hpart⟩ := List.forall_mem_cons.mp hpart
    obtain ⟨g₁, s, g₂, htext, hs, hhalts, hg₁, hg₂, hskip₁, hskip₂, htakes⟩ := hsep₁
    obtain ⟨u, pieces, hcuts, hpieces⟩ := ih hsep hpart hpart₁ (lastChar (lastChar b
      (g ++ (textOf ts ++ g₁))) s) hg₂ hskip₂
    refine ⟨g ++ (textOf ts ++ g₁), ([], u) :: pieces, ?_, ?_⟩
    · have whole : g ++ textOf (ts ++ (n :: next).flatMap fun n => separate n.1 ++ write n.2) =
          g ++ (textOf ts ++ g₁) ++ (s ++ (g₂ ++ textOf (write n.2 ++
            next.flatMap fun n => separate n.1 ++ write n.2))) := by
        simp [htext]
      rw [whole]
      refine .next ?_ hs ?_ hcuts
      · refine (hskip _ _).append ((hts.skips _ _ ?_).append (hskip₁ _ _))
        have : g₁ ++ (s ++ g₂) ≠ [] := by simp [hs]
        rw [htext] at hhalts
        have := (halts_append this (textOf (write n.2 ++
          next.flatMap fun n => separate n.1 ++ write n.2))).mpr hhalts
        simpa using this
      · refine htakes _ _ ?_
        rw [textOf_append]
        exact hpart₁.solid.halts_isBlank _
    · rw [List.map_cons, List.map_cons, List.map_cons, hts.solid.trim hg hg₁]
      exact congrArg (textOf ts :: ·) hpieces

theorem splitTopLevel_series (hshy : p.shy = true) {x : Series S A}
    (hsep : ∀ s ∈ x.rest.map (·.1), Separates p (textOf (separate s)))
    (hpart : ∀ a ∈ x.items, Part p (write a)) :
    (textOf (x.tokens separate write)).splitTopLevel p = x.items.map fun a => textOf (write a) := by
  obtain ⟨hfirst, hrest⟩ := List.forall_mem_cons.mp hpart
  obtain ⟨u, pieces, hcuts, hpieces⟩ := cuts_of_series
    (fun n (hn : n ∈ x.rest) => hsep _ (List.mem_map_of_mem hn)) (fun n hn =>
      hrest _ (List.mem_map_of_mem hn)) hfirst
    none (g := []) (by simp) (fun _ _ => skips_nil)
  rw [List.nil_append] at hcuts
  rw [Series.tokens, splitTopLevel_of_cuts hshy hcuts, hpieces, List.filter_eq_self.mpr]
  · simp [Series.items]
  · intro t ht
    rcases List.mem_cons.mp ht with rfl | ht
    · simpa using hfirst.solid.textOf_ne_nil
    · obtain ⟨n, hn, rfl⟩ := List.mem_map.mp ht
      simpa using (hrest _ (List.mem_map_of_mem hn)).solid.textOf_ne_nil

/-- Items that are followed by one separator each, and a text behind them in which nothing is
found. -/
theorem cuts_of_front {xs : List A} (hpart : ∀ a ∈ xs, Part p (write a)) {s : S}
    (hsep : Separates p (textOf (separate s))) {z : Text} (hz : ∀ b, Skips p b z [])
    (hhalts : Halts isBlank z) (b : Option Char) {g : Text} (hg : ∀ c ∈ g, isBlank c = true)
    (hskip : ∀ b r, Skips p b g r) :
    ∃ u pieces, Cuts p b (g ++ (textOf (xs.flatMap fun a => write a ++ separate s) ++ z)) u pieces ∧
      (u :: pieces.map (·.2)).map trim = xs.map (fun a => textOf (write a)) ++ [z.trimEnd] := by
  -- As for a series, but every piece has its separator behind it and the last cut leaves `z`.
  induction xs generalizing b g with
  | nil =>
    refine ⟨g ++ z, [], .last ((hskip b _).append ?_), ?_⟩
    · simpa using hz _
    · rw [List.map_nil, List.map_singleton, Text.trim, trimStart_append hg hhalts]
      rfl
  | cons a xs ih =>
    obtain ⟨hpart₁, hpart⟩ := List.forall_mem_cons.mp hpart
    obtain ⟨g₁, t, g₂, htext, ht, hword, hg₁, hg₂, hskip₁, hskip₂, htakes⟩ := hsep
    obtain ⟨u, pieces, hcuts, hpieces⟩ :=
      ih hpart (lastChar (lastChar b (g ++ (textOf (write a) ++ g₁))) t) hg₂ hskip₂
    refine ⟨g ++ (textOf (write a) ++ g₁), ([], u) :: pieces, ?_, ?_⟩
    · have whole : g ++ (textOf ((a :: xs).flatMap fun a => write a ++ separate s) ++ z) =
          g ++ (textOf (write a) ++ g₁) ++
            (t ++ (g₂ ++ (textOf (xs.flatMap fun a => write a ++ separate s) ++ z))) := by
        simp [htext]
      rw [whole]
      refine .next ?_ ht (htakes _ _ ?_) hcuts
      · refine (hskip _ _).append ((hpart₁.skips _ _ ?_).append (hskip₁ _ _))
        have := (halts_append (by simp [ht])
          (textOf (xs.flatMap fun a => write a ++ separate s) ++ z)).mpr (htext ▸ hword)
        simpa using this
      · cases xs with
        | nil => simpa using hhalts
        | cons a xs =>
          obtain ⟨hnext, -⟩ := List.forall_mem_cons.mp hpart
          rw [List.flatMap_cons, textOf_append, textOf_append, List.append_assoc, List.append_assoc]
          exact hnext.solid.halts_isBlank _
    · rw [List.map_cons, List.map_cons, List.map_cons, hpart₁.solid.trim hg hg₁]
      exact congrArg (textOf (write a) :: ·) hpieces

theorem splitTopLevel_front (hshy : p.shy = true) {xs : List A} (hpart : ∀ a ∈ xs, Part p (write a))
    {s : S} (hsep : Separates p (textOf (separate s))) {z : Text} (hz : ∀ b, Skips p b z [])
    (hhalts : Halts isBlank z) (hlast : ∀ c ∈ z.getLast?, isBlank c = false) (hne : z ≠ []) :
    (textOf (xs.flatMap fun a => write a ++ separate s) ++ z).splitTopLevel p =
      xs.map (fun a => textOf (write a)) ++ [z] := by
  obtain ⟨u, pieces, hcuts, hpieces⟩ := cuts_of_front hpart hsep hz hhalts none (g := []) (by simp)
    (fun _ _ => skips_nil)
  have trimmed : z.trimEnd = z := by
    have := trimEnd_append (g := []) (List.forall_mem_nil _) hlast
    rwa [List.append_nil] at this
  rw [List.nil_append] at hcuts
  rw [splitTopLevel_of_cuts hshy hcuts, hpieces, trimmed, List.filter_eq_self.mpr]
  intro t ht
  rcases List.mem_append.mp ht with ht | ht
  · obtain ⟨a, ha, rfl⟩ := List.mem_map.mp ht
    simpa using (hpart a ha).solid.textOf_ne_nil
  · rw [List.mem_singleton.mp ht]
    simpa using hne

theorem splitTopLevel_part (hshy : p.shy = true) {ts : List Token} (hts : Part p ts) :
    (textOf ts).splitTopLevel p = [textOf ts] := by
  have := @splitTopLevel_series Empty (List Token) p (fun _ => []) id hshy ⟨ts, []⟩ nofun
    (by simpa [Series.items] using hts)
  simpa [Series.tokens, Series.items] using this

theorem Series.solid {x : Series S A}
    (hsep : ∀ s ∈ x.rest.map (·.1), ∀ ts us, Solid ts → Solid us → Solid (ts ++ (separate s ++ us)))
    (hwrite : ∀ a ∈ x.items, Solid (write a)) : Solid (x.tokens separate write) := by
  obtain ⟨first, rest⟩ := x
  obtain ⟨hfirst, hrest⟩ := List.forall_mem_cons.mp hwrite
  rw [Series.tokens]
  induction rest generalizing first with
  | nil => simpa using hfirst
  | cons n rest ih =>
    obtain ⟨hsep₁, hsep⟩ := List.forall_mem_cons.mp hsep
    obtain ⟨hn, hrest'⟩ := List.forall_mem_cons.mp hrest
    have later := ih n.2 hsep hrest hn hrest'
    have := hsep₁ _ _ hfirst later
    simpa using this

end Series

end SqlCanvas
