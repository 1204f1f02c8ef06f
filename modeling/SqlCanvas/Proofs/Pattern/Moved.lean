import SqlCanvas.Proofs.Pattern.Best

/-!
# Patterns anywhere in a text

A pattern that does not ask for the start of the text has the same stops wherever it is tried: only
the characters around count, neither the index nor what was marked before. So at each place it
either refuses or takes some stretch. A pattern that does not look around itself either has a stop
behind every stretch it covers.
-/

namespace SqlCanvas

namespace Cursor

def move (k : Nat) (older : List (Nat × Capture)) (c : Cursor) : Cursor :=
  ⟨c.before, c.rest, c.index + k, c.captures ++ older⟩

theorem stopsFrom_move (accepts : Char → Bool) (captures older : List (Nat × Capture))
    (b : Option Char) (r : Text) (i k : Nat) :
    stopsFrom accepts (captures ++ older) b r (i + k) = (stopsFrom accepts captures b r i).map
      (move k older) := by
  induction r generalizing b i with
  | nil => rfl
  | cons c r ih =>
    rw [stopsFrom, stopsFrom, List.map_cons]
    refine congrArg (_ :: ·) ?_
    split
    · rw [Nat.add_right_comm, ih]
    · rfl

theorem mem_stopsFrom_of_forall {accepts : Char → Bool} {captures : List (Nat × Capture)}
    {b : Option Char} {u r : Text} {i : Nat} (hu : ∀ c ∈ u, accepts c = true) :
    ⟨lastChar b u, r, i + u.length, captures⟩ ∈ stopsFrom accepts captures b (u ++ r) i := by
  obtain ⟨inner, outer, hstops, -⟩ := stopsFrom_append (r := r) hu b i captures
  rw [hstops]
  exact List.mem_append_right inner List.mem_cons_self

end Cursor

namespace Pattern

variable {p : Pattern} {b : Option Char} {t u r : Text}

/-- Whether the pattern never asks for the start of the text. -/
def floats : Pattern → Bool
  | textStart => false
  | seq first second | alt first second => first.floats && second.floats
  | capture _ body | notAhead body => body.floats
  | _ => true

theorem ends_move (hp : p.floats = true) (k : Nat) (older : List (Nat × Capture)) (c : Cursor) :
    p.ends (c.move k older) = (p.ends c).map (Cursor.move k older) := by
  -- `textStart` is the one pattern that reads the index; `floats` keeps it out.
  induction p generalizing c with
  | skip => rfl
  | char accepts =>
    obtain ⟨b, r, i, captures⟩ := c
    cases r with
    | nil => rfl
    | cons x r =>
      simp only [ends, Cursor.move]
      split
      · rw [Nat.add_right_comm]
        rfl
      · rfl
  | seq first second ih₁ ih₂ =>
    obtain ⟨hfirst, hsecond⟩ := (Bool.and_eq_true _ _).mp hp
    rw [ends, ends, ih₁ hfirst, List.flatMap_map, List.map_flatMap]
    exact List.flatMap_congr fun d _ => ih₂ hsecond d
  | alt first second ih₁ ih₂ =>
    obtain ⟨hfirst, hsecond⟩ := (Bool.and_eq_true _ _).mp hp
    rw [ends, ends, ih₁ hfirst, ih₂ hsecond, List.map_append]
  | many accepts =>
    rw [ends, ends, List.map_reverse]
    exact congrArg List.reverse
      (Cursor.stopsFrom_move accepts c.captures older c.before c.rest c.index k)
  | few accepts => exact Cursor.stopsFrom_move accepts c.captures older c.before c.rest c.index k
  | capture slot body ih =>
    rw [ends, ends, ih hp, List.map_map, List.map_map]
    refine List.map_congr_left fun d _ => ?_
    simp [Cursor.mark, Cursor.move, Nat.add_sub_add_right]
  | boundary =>
    have same : (c.move k older).atBoundary = c.atBoundary := rfl
    rw [ends, ends, same]
    split <;> rfl
  | textEnd =>
    have same : (c.move k older).atEnd = c.atEnd := rfl
    rw [ends, ends, same]
    split <;> rfl
  | textStart => cases hp
  | notAhead body ih =>
    rw [ends, ends, ih hp, List.isEmpty_map]
    split <;> rfl

theorem refuses_or_takes (hp : p.floats = true) (b : Option Char) (t : Text) :
    p.Refuses b t ∨ ∃ u r m, t = u ++ r ∧ p.Takes b u r m := by
  have moved (i : Nat) (captures : List (Nat × Capture)) :
      p.ends ⟨b, t, i, captures⟩ = (p.ends ⟨b, t, 0, []⟩).map (Cursor.move i captures) := by
    have := ends_move hp i captures ⟨b, t, 0, []⟩
    rwa [Cursor.move, Nat.zero_add, List.nil_append] at this
  cases hends : p.ends ⟨b, t, 0, []⟩ with
  | nil => exact .inl fun i captures => by rw [moved, hends, List.map_nil]
  | cons d ds =>
    obtain ⟨u, _, stops⟩ := exists_stops (hends ▸ List.mem_cons_self : d ∈ p.ends ⟨b, t, 0, []⟩)
    refine .inr ⟨u, d.rest, Marking.of d.captures, stops.passes.rest, fun i captures => ?_⟩
    refine ⟨d.captures ++ captures, ?_, List.map_append⟩
    have index : d.index = 0 + u.length := stops.passes.index
    have before : d.before = lastChar b u := stops.passes.before
    rw [← stops.passes.rest, moved, hends, List.map_cons, List.head?_cons, Cursor.move,
      index, before]
    congr 2
    omega

/-- Whether the pattern looks at nothing but the characters it covers. -/
def isBlind : Pattern → Bool
  | seq first second | alt first second => first.isBlind && second.isBlind
  | capture _ body => body.isBlind
  | boundary | textStart | textEnd | notAhead _ => false
  | _ => true

theorem exists_mem_ends_of_covers (hp : p.isBlind = true) (h : p.Covers u) (b : Option Char)
    (r : Text) (i : Nat) (captures : List (Nat × Capture)) :
    ∃ captures', ⟨lastChar b u, r, i + u.length, captures'⟩ ∈ p.ends ⟨b, u ++ r, i, captures⟩ := by
  induction p generalizing u b r i captures with
  | skip =>
    obtain rfl : u = [] := h
    exact ⟨captures, List.mem_singleton_self _⟩
  | char accepts =>
    obtain ⟨c, hc, rfl⟩ := h
    exact ⟨captures, by simp [ends, hc]⟩
  | seq first second ih₁ ih₂ =>
    obtain ⟨hfirst, hsecond⟩ := (Bool.and_eq_true _ _).mp hp
    obtain ⟨v, w, hv, hw, rfl⟩ := h
    obtain ⟨captures₁, h₁⟩ := ih₁ hfirst hv b (w ++ r) i captures
    obtain ⟨captures₂, h₂⟩ := ih₂ hsecond hw (lastChar b v) r (i + v.length) captures₁
    refine ⟨captures₂, ?_⟩
    rw [List.append_assoc, lastChar_append, List.length_append, ← Nat.add_assoc]
    exact List.mem_flatMap.mpr ⟨_, h₁, h₂⟩
  | alt first second ih₁ ih₂ =>
    obtain ⟨hfirst, hsecond⟩ := (Bool.and_eq_true _ _).mp hp
    rcases h with h | h
    · exact (ih₁ hfirst h b r i captures).imp fun _ hd => List.mem_append_left _ hd
    · exact (ih₂ hsecond h b r i captures).imp fun _ hd => List.mem_append_right _ hd
  | many accepts => exact ⟨captures, List.mem_reverse.mpr (Cursor.mem_stopsFrom_of_forall h)⟩
  | few accepts => exact ⟨captures, Cursor.mem_stopsFrom_of_forall h⟩
  | capture slot body ih =>
    obtain ⟨captures', hd⟩ := ih hp h b r i captures
    exact ⟨_, List.mem_map.mpr ⟨_, hd, rfl⟩⟩
  | boundary | textStart | textEnd | notAhead => cases hp

/-- A blind pattern has a stop just when it covers a front of the text. -/
theorem ends_eq_nil_iff_of_blind (hp : p.isBlind = true) (c : Cursor) :
    p.ends c = [] ↔ ∀ u r, c.rest = u ++ r → ¬ p.Covers u := by
  obtain ⟨b, t, i, captures⟩ := c
  constructor
  · rintro hnone u r rfl h
    obtain ⟨captures', hd⟩ := exists_mem_ends_of_covers hp h b r i captures
    rw [hnone] at hd
    cases hd
  · exact fun h => refuses_of_not_covers h i captures

end Pattern

end SqlCanvas
