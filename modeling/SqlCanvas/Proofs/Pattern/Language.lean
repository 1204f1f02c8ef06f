import Mathlib.Data.List.Basic
import Mathlib.Data.List.Infix
import SqlCanvas.Pattern.Occurrence

/-!
# What a pattern covers

`Covers` says which stretches of text a pattern describes, whatever stands around them. Every stop
of a pattern lies behind such a stretch, every mark it sets lies inside it, and `sets` tells which
marks cannot be missing. Matches and occurrences inherit this.
-/

namespace SqlCanvas

/-- The last character of a stretch, or the one in front of it when it is empty. -/
def lastChar (before : Option Char) (u : Text) : Option Char :=
  u.getLast?.or before

@[simp] theorem lastChar_nil (before : Option Char) : lastChar before [] = before := rfl

@[simp] theorem lastChar_cons (before : Option Char) (x : Char) (u : Text) :
    lastChar before (x :: u) = lastChar (some x) u := by
  cases u <;> simp [lastChar, List.getLast?_cons]

@[simp] theorem lastChar_append (before : Option Char) (u v : Text) :
    lastChar before (u ++ v) = lastChar (lastChar before u) v := by
  induction u generalizing before with
  | nil => rfl
  | cons x u ih => simp [ih]

namespace Cursor

/-- The second place lies behind the first, with the stretch `u` between them. -/
structure Passes (c : Cursor) (u : Text) (d : Cursor) : Prop where
  rest : c.rest = u ++ d.rest
  index : d.index = c.index + u.length
  before : d.before = lastChar c.before u

theorem Passes.refl (c : Cursor) : c.Passes [] c :=
  ⟨rfl, rfl, rfl⟩

theorem Passes.trans {c d e : Cursor} {u v : Text} (h₁ : c.Passes u d) (h₂ : d.Passes v e) :
    c.Passes (u ++ v) e where
  rest := by rw [h₁.rest, h₂.rest, List.append_assoc]
  index := by rw [h₂.index, h₁.index, List.length_append, Nat.add_assoc]
  before := by rw [h₂.before, h₁.before, lastChar_append]

theorem mem_stopsFrom {accepts : Char → Bool} {captures : List (Nat × Capture)}
    {before : Option Char} {rest : Text} {index : Nat} {d : Cursor}
    (h : d ∈ stopsFrom accepts captures before rest index) :
    ∃ u, (∀ x ∈ u, accepts x = true) ∧ Passes ⟨before, rest, index, captures⟩ u d ∧
      d.captures = captures := by
  induction rest generalizing before index with
  | nil =>
    rw [stopsFrom, List.mem_singleton] at h
    subst h
    exact ⟨[], by simp, .refl _, rfl⟩
  | cons x rest ih =>
    rw [stopsFrom] at h
    rcases List.mem_cons.mp h with rfl | h
    · exact ⟨[], by simp, .refl _, rfl⟩
    · split at h
      · rename_i hx
        obtain ⟨u, hu, hp, hc⟩ := ih h
        refine ⟨x :: u, List.forall_mem_cons.mpr ⟨hx, hu⟩, ?_, hc⟩
        have one : Passes ⟨before, x :: rest, index, captures⟩ [x]
            ⟨some x, rest, index + 1, captures⟩ := ⟨rfl, rfl, rfl⟩
        exact one.trans hp
      · cases h

end Cursor

namespace Pattern

/-- The stretches that a pattern describes. Places without extent are described by the empty one. -/
def Covers : Pattern → Text → Prop
  | char accepts, u => ∃ x, accepts x = true ∧ u = [x]
  | seq first second, u => ∃ v w, first.Covers v ∧ second.Covers w ∧ u = v ++ w
  | alt first second, u => first.Covers u ∨ second.Covers u
  | many accepts, u | few accepts, u => ∀ x ∈ u, accepts x = true
  | capture _ body, u => body.Covers u
  | skip, u | boundary, u | textStart, u | textEnd, u | notAhead _, u => u = []

theorem covers_many1 {accepts : Char → Bool} {u : Text} :
    (many1 accepts).Covers u ↔ u ≠ [] ∧ ∀ c ∈ u, accepts c = true := by
  constructor
  · rintro ⟨v, w, ⟨c, hc, rfl⟩, hw, rfl⟩
    exact ⟨List.cons_ne_nil _ _, List.forall_mem_cons.mpr ⟨hc, hw⟩⟩
  · rintro ⟨hne, hu⟩
    obtain ⟨c, u, rfl⟩ := List.exists_cons_of_ne_nil hne
    obtain ⟨hc, hu⟩ := List.forall_mem_cons.mp hu
    exact ⟨[c], u, ⟨c, hc, rfl⟩, hu, rfl⟩

/-- The numbers under which a pattern may mark stretches, with the patterns of these stretches. -/
def marks : Pattern → List (Nat × Pattern)
  | seq first second | alt first second => first.marks ++ second.marks
  | capture slot body => (slot, body) :: body.marks
  | _ => []

/-- Whether a pattern marks a stretch under a number wherever it matches. -/
def sets (slot : Nat) : Pattern → Bool
  | seq first second => first.sets slot || second.sets slot
  | alt first second => first.sets slot && second.sets slot
  | capture slot' body => slot' == slot || body.sets slot
  | _ => false

/-- A mark that a pattern may set in a text. -/
def Marks (p : Pattern) (t : Text) (slot : Nat) (s : Text) : Prop :=
  s <:+: t ∧ ∃ body, (slot, body) ∈ p.marks ∧ body.Covers s

theorem Marks.of_subset {p q : Pattern} {t : Text} {slot : Nat} {s : Text}
    (h : p.Marks t slot s) (hpq : p.marks ⊆ q.marks) : q.Marks t slot s :=
  ⟨h.1, h.2.imp fun _ hb => ⟨hpq hb.1, hb.2⟩⟩

theorem Marks.of_suffix {p : Pattern} {t t' : Text} {slot : Nat} {s : Text}
    (h : p.Marks t slot s) (ht : t <:+ t') : p.Marks t' slot s :=
  ⟨h.1.trans ht.isInfix, h.2⟩

/-- What is known of a stop of a pattern: the stretch up to it, and the marks that are new. -/
structure Stops (p : Pattern) (c d : Cursor) (u : Text) (new : List (Nat × Capture)) : Prop where
  covers : p.Covers u
  passes : c.Passes u d
  captures : d.captures = new ++ c.captures
  marks : ∀ x ∈ new, p.Marks c.rest x.1 x.2.text
  sets : ∀ slot, p.sets slot = true → ∃ x ∈ new, x.1 = slot

namespace Stops

variable {p first second : Pattern} {c d e : Cursor} {u v : Text}
  {new new₁ new₂ : List (Nat × Capture)}

theorem quiet (hcovers : p.Covers u) (hsets : ∀ slot, p.sets slot = false) (hpasses : c.Passes u d)
    (hsame : d.captures = c.captures) : p.Stops c d u [] where
  covers := hcovers
  passes := hpasses
  captures := hsame
  marks := by simp
  sets slot h := by simp [hsets] at h

theorem stay (hcovers : p.Covers []) (hsets : ∀ slot, p.sets slot = false) : p.Stops c c [] [] :=
  .quiet hcovers hsets (.refl c) rfl

theorem seq (h₁ : first.Stops c d u new₁) (h₂ : second.Stops d e v new₂) :
    (first.seq second).Stops c e (u ++ v) (new₂ ++ new₁) where
  covers := ⟨u, v, h₁.covers, h₂.covers, rfl⟩
  passes := h₁.passes.trans h₂.passes
  captures := by rw [h₂.captures, h₁.captures, List.append_assoc]
  marks x hx := by
    rcases List.mem_append.mp hx with hx | hx
    · have inside : d.rest <:+ c.rest := h₁.passes.rest ▸ List.suffix_append u d.rest
      exact ((h₂.marks x hx).of_suffix inside).of_subset (List.subset_append_right _ _)
    · exact (h₁.marks x hx).of_subset (List.subset_append_left _ _)
  sets slot hs := by
    rcases (Bool.or_eq_true _ _).mp hs with hs | hs
    · obtain ⟨x, hx, he⟩ := h₁.sets slot hs
      exact ⟨x, List.mem_append_right _ hx, he⟩
    · obtain ⟨x, hx, he⟩ := h₂.sets slot hs
      exact ⟨x, List.mem_append_left _ hx, he⟩

theorem alt_left (h : first.Stops c d u new) : (first.alt second).Stops c d u new where
  covers := .inl h.covers
  passes := h.passes
  captures := h.captures
  marks x hx := (h.marks x hx).of_subset (List.subset_append_left _ _)
  sets slot hs := h.sets slot ((Bool.and_eq_true _ _).mp hs).1

theorem alt_right (h : second.Stops c d u new) : (first.alt second).Stops c d u new where
  covers := .inr h.covers
  passes := h.passes
  captures := h.captures
  marks x hx := (h.marks x hx).of_subset (List.subset_append_right _ _)
  sets slot hs := h.sets slot ((Bool.and_eq_true _ _).mp hs).2

/-- The mark that a capture sets holds the stretch that its body passes. -/
theorem capture {slot : Nat} (h : p.Stops c d u new) :
    (p.capture slot).Stops c (c.mark slot d) u ((slot, ⟨c.rest, d.index - c.index⟩) :: new) where
  covers := h.covers
  passes := ⟨h.passes.rest, h.passes.index, h.passes.before⟩
  captures := by
    rw [List.cons_append, ← h.captures]
    rfl
  marks := by
    have marked : (⟨c.rest, d.index - c.index⟩ : Capture).text = u := by
      simp [Capture.text, h.passes.rest, h.passes.index]
    refine List.forall_mem_cons.mpr ⟨⟨?_, p, List.mem_cons_self, ?_⟩, fun x hx => ?_⟩
    · rw [marked, h.passes.rest]
      exact (List.prefix_append u d.rest).isInfix
    · rw [marked]
      exact h.covers
    · exact (h.marks x hx).of_subset (List.subset_cons_self _ _)
  sets slot' hs := by
    rcases (Bool.or_eq_true _ _).mp hs with hs | hs
    · exact ⟨_, List.mem_cons_self, by simpa using hs⟩
    · obtain ⟨x, hx, he⟩ := h.sets slot' hs
      exact ⟨x, List.mem_cons_of_mem _ hx, he⟩

end Stops

theorem exists_stops {p : Pattern} {c d : Cursor} (h : d ∈ p.ends c) :
    ∃ u new, p.Stops c d u new := by
  -- Over the pattern; marks are put on at the front, so the ones set earlier stand behind the new
  -- ones.
  induction p generalizing c d with
  | skip =>
    rw [ends, List.mem_singleton] at h
    subst h
    exact ⟨[], [], .stay rfl fun _ => rfl⟩
  | char accepts =>
    rw [ends] at h
    split at h
    · cases h
    · rename_i x rest hrest
      split at h
      · rename_i hx
        rw [List.mem_singleton] at h
        subst h
        exact ⟨[x], [], .quiet ⟨x, hx, rfl⟩ (fun _ => rfl) ⟨hrest, rfl, rfl⟩ rfl⟩
      · cases h
  | seq first second ih₁ ih₂ =>
    rw [ends, List.mem_flatMap] at h
    obtain ⟨e, he, hd⟩ := h
    obtain ⟨u, new₁, h₁⟩ := ih₁ he
    obtain ⟨v, new₂, h₂⟩ := ih₂ hd
    exact ⟨u ++ v, new₂ ++ new₁, h₁.seq h₂⟩
  | alt first second ih₁ ih₂ =>
    rw [ends, List.mem_append] at h
    rcases h with h | h
    · obtain ⟨u, new, h⟩ := ih₁ h
      exact ⟨u, new, h.alt_left⟩
    · obtain ⟨u, new, h⟩ := ih₂ h
      exact ⟨u, new, h.alt_right⟩
  | many accepts =>
    rw [ends, List.mem_reverse] at h
    obtain ⟨u, hu, hp, hc⟩ := Cursor.mem_stopsFrom h
    exact ⟨u, [], .quiet hu (fun _ => rfl) hp hc⟩
  | few accepts =>
    obtain ⟨u, hu, hp, hc⟩ := Cursor.mem_stopsFrom h
    exact ⟨u, [], .quiet hu (fun _ => rfl) hp hc⟩
  | capture slot body ih =>
    rw [ends, List.mem_map] at h
    obtain ⟨e, he, rfl⟩ := h
    obtain ⟨u, new, h⟩ := ih he
    exact ⟨u, _, h.capture⟩
  | boundary | textStart | textEnd | notAhead =>
    rw [ends] at h
    split at h
    · rw [List.mem_singleton] at h
      subst h
      exact ⟨[], [], .stay rfl fun _ => rfl⟩
    · cases h

theorem run_some (p : Pattern) (c : Cursor) : p.run c some = (p.ends c).head? := by
  rw [run_eq_findSome?]
  cases p.ends c <;> rfl

theorem mem_ends_of_run {p : Pattern} {c d : Cursor} (h : p.run c some = some d) :
    d ∈ p.ends c := by
  rw [run_some] at h
  exact List.mem_of_mem_head? h

theorem mem_of_findCapture? {captures : List (Nat × Capture)} {slot : Nat} {s : Text}
    (h : findCapture? captures slot = some s) : ∃ x ∈ captures, x.1 = slot ∧ x.2.text = s := by
  obtain ⟨x, hx, rfl⟩ := Option.map_eq_some_iff.mp h
  exact ⟨x, List.mem_of_find?_eq_some hx, by simpa using List.find?_some hx, rfl⟩

theorem findCapture?_isSome {captures : List (Nat × Capture)} {slot : Nat}
    (h : ∃ x ∈ captures, x.1 = slot) : (findCapture? captures slot).isSome := by
  obtain ⟨x, hx, rfl⟩ := h
  rw [findCapture?, Option.isSome_map, List.find?_isSome]
  exact ⟨x, hx, by simp⟩

variable {p : Pattern} {t : Text} {slot : Nat} {s : Text}

theorem exists_stops_of_match? {m : Match} (h : p.match? t = some m) :
    ∃ d u new, p.Stops (.start t) d u new ∧ m.stop = u.length ∧ m.captures = new := by
  obtain ⟨d, hd, rfl⟩ := Option.map_eq_some_iff.mp h
  obtain ⟨u, new, hs⟩ := exists_stops (mem_ends_of_run hd)
  refine ⟨d, u, new, hs, ?_, ?_⟩
  · simp [hs.passes.index, Cursor.start]
  · simp [hs.captures, Cursor.start]

theorem marks_of_match? {m : Match} (h : p.match? t = some m) (hs : m.capture? slot = some s) :
    p.Marks t slot s := by
  obtain ⟨d, u, new, stops, -, rfl⟩ := exists_stops_of_match? h
  obtain ⟨x, hx, rfl, rfl⟩ := mem_of_findCapture? hs
  exact stops.marks x hx

theorem captured_of_match? {m : Match} (slot : Nat) (h : p.match? t = some m)
    (hs : p.sets slot = true) : p.Marks t slot (m.captured slot) := by
  obtain ⟨d, u, new, stops, -, hnew⟩ := exists_stops_of_match? h
  obtain ⟨v, hv⟩ := Option.isSome_iff_exists.mp
    (findCapture?_isSome (hnew ▸ stops.sets slot hs))
  have : m.captured slot = v := by simp [Match.captured, Match.capture?, hv]
  rw [this]
  exact marks_of_match? h hv

theorem captured_eq_nil_or_marks {m : Match} (h : p.match? t = some m) :
    m.captured slot = [] ∨ p.Marks t slot (m.captured slot) := by
  cases hs : m.capture? slot with
  | none => exact .inl (by simp [Match.captured, hs])
  | some v =>
    have : m.captured slot = v := by simp [Match.captured, hs]
    exact .inr (this ▸ marks_of_match? h hs)

theorem exists_stops_of_occurrenceAt? {c : Cursor} {o : Occurrence}
    (h : p.occurrenceAt? c = some o) :
    ∃ d u new, d ∈ p.ends c ∧ p.Stops c d u new ∧ o.start = c.index ∧
      o.stop = c.index + u.length ∧ o.captures = new ++ c.captures := by
  rw [occurrenceAt?] at h
  split at h
  · cases h
  · rename_i d hd
    split at h
    · obtain ⟨u, new, hs⟩ := exists_stops (mem_ends_of_run hd)
      cases h
      exact ⟨d, u, new, mem_ends_of_run hd, hs, rfl, hs.passes.index, hs.captures⟩
    · cases h

theorem exists_stops_of_mem_occurrencesFrom {before : Option Char} {rest : Text}
    {index covered : Nat} {o : Occurrence} (h : o ∈ p.occurrencesFrom before rest index covered) :
    ∃ c d u new, c.rest <:+ rest ∧ p.Stops c d u new ∧ o.captures = new := by
  fun_induction occurrencesFrom p before rest index covered with
  | case1 => cases h
  | case2 before c rest index covered ih | case3 before c rest index hf ih =>
    obtain ⟨c', d, u, new, hsuffix, hs⟩ := ih h
    exact ⟨c', d, u, new, hsuffix.trans (List.suffix_cons _ _), hs⟩
  | case4 before c rest index found hf ih =>
    rcases List.mem_cons.mp h with rfl | h
    · obtain ⟨d, u, new, -, hs, -, -, hc⟩ := exists_stops_of_occurrenceAt? hf
      exact ⟨_, d, u, new, List.suffix_rfl, hs, by simpa using hc⟩
    · obtain ⟨c', d, u, new, hsuffix, hs⟩ := ih h
      exact ⟨c', d, u, new, hsuffix.trans (List.suffix_cons _ _), hs⟩

theorem marks_of_mem_occurrencesFrom {before : Option Char} {index covered : Nat} {o : Occurrence}
    (h : o ∈ p.occurrencesFrom before t index covered) (hs : o.capture? slot = some s) :
    p.Marks t slot s := by
  obtain ⟨c, d, u, new, hsuffix, stops, rfl⟩ := exists_stops_of_mem_occurrencesFrom h
  obtain ⟨x, hx, rfl, rfl⟩ := mem_of_findCapture? hs
  exact (stops.marks x hx).of_suffix hsuffix

theorem captured_of_mem_occurrencesFrom {before : Option Char} {index covered : Nat}
    {o : Occurrence} (slot : Nat) (h : o ∈ p.occurrencesFrom before t index covered)
    (hs : p.sets slot = true) :
    p.Marks t slot (o.captured slot) := by
  obtain ⟨c, d, u, new, -, stops, hnew⟩ := exists_stops_of_mem_occurrencesFrom h
  obtain ⟨v, hv⟩ := Option.isSome_iff_exists.mp
    (findCapture?_isSome (hnew ▸ stops.sets slot hs))
  have : o.captured slot = v := by simp [Occurrence.captured, Occurrence.capture?, hv]
  rw [this]
  exact marks_of_mem_occurrencesFrom h hv

theorem occurrencesFrom_eq_nil_iff {b : Option Char} {i : Nat} : p.occurrencesFrom b t i 0 = [] ↔
    ∀ l r, t = l ++ r → r ≠ [] → p.occurrenceAt? ⟨lastChar b l, r, i + l.length, []⟩ = none := by
  induction t generalizing b i with
  | nil =>
    refine iff_of_true rfl fun l r h hr => ?_
    exact absurd (List.append_eq_nil_iff.mp h.symm).2 hr
  | cons c t ih =>
    rw [occurrencesFrom]
    cases here : p.occurrenceAt? ⟨b, c :: t, i, []⟩ with
    | some o =>
      refine iff_of_false (List.cons_ne_nil _ _) fun all => ?_
      have := all [] (c :: t) rfl (List.cons_ne_nil c t)
      rw [lastChar_nil, List.length_nil, Nat.add_zero, here] at this
      cases this
    | none =>
      simp only [ih]
      constructor
      · intro later l r h hr
        cases l with
        | nil =>
          obtain rfl : c :: t = r := h
          exact here
        | cons x l =>
          obtain ⟨rfl, rest⟩ := List.cons.inj h
          have := later l r rest hr
          rwa [Nat.add_right_comm, Nat.add_assoc, ← lastChar_cons b] at this
      · intro all l r h hr
        have := all (c :: l) r (by rw [h, List.cons_append]) hr
        rwa [lastChar_cons, List.length_cons, Nat.add_comm l.length, ← Nat.add_assoc] at this

theorem occurrenceAt?_eq_none_iff {c : Cursor} (hp : ∀ u, p.Covers u → u ≠ []) :
    p.occurrenceAt? c = none ↔ p.ends c = [] := by
  rw [occurrenceAt?, run_some]
  cases hends : p.ends c with
  | nil => simp
  | cons d ds =>
    obtain ⟨u, _, hs⟩ := exists_stops (hends ▸ List.mem_cons_self : d ∈ p.ends c)
    have behind : c.index < d.index := by
      have := List.length_pos_of_ne_nil (hp u hs.covers)
      rw [hs.passes.index]
      omega
    simp [behind]

theorem occursIn_iff (hp : ∀ u, p.Covers u → u ≠ []) :
    p.occursIn t = true ↔ ∃ l r, t = l ++ r ∧ r ≠ [] ∧ p.ends ⟨lastChar none l, r, l.length, []⟩ ≠
      [] := by
  have found : p.occursIn t = true ↔ p.occurrences t ≠ [] := by simp [occursIn]
  rw [found, occurrences, Ne, occurrencesFrom_eq_nil_iff]
  simp only [Nat.zero_add, occurrenceAt?_eq_none_iff hp]
  grind

end Pattern

end SqlCanvas
