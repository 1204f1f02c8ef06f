import Mathlib.Data.List.Forall2

/-!
# Lists paired member by member

Texts and what they stand for are paired by `List.Forall₂`. Here is what a pairing says about the
lists.
-/

namespace SqlCanvas

variable {A B C : Type} {R : A → B → Prop} {xs : List A} {ys : List B}

theorem exists_forall₂ (h : ∀ x ∈ xs, ∃ y, R x y) : ∃ ys, List.Forall₂ R xs ys := by
  induction xs with
  | nil => exact ⟨[], .nil⟩
  | cons x xs ih =>
    obtain ⟨y, hy⟩ := h x List.mem_cons_self
    obtain ⟨ys, hys⟩ := ih fun z hz => h z (List.mem_cons_of_mem x hz)
    exact ⟨y :: ys, .cons hy hys⟩

theorem exists_of_forall₂_right (h : List.Forall₂ R xs ys) : ∀ y ∈ ys, ∃ x ∈ xs, R x y := by
  induction h with
  | nil => exact nofun
  | @cons x y xs ys hxy _ ih =>
    refine List.forall_mem_cons.mpr ⟨⟨x, List.mem_cons_self, hxy⟩, fun z hz => ?_⟩
    obtain ⟨w, hw, hwz⟩ := ih z hz
    exact ⟨w, List.mem_cons_of_mem x hw, hwz⟩

theorem exists_of_forall₂_left (h : List.Forall₂ R xs ys) : ∀ x ∈ xs, ∃ y ∈ ys, R x y :=
  exists_of_forall₂_right h.flip

theorem map_eq_map_of_forall₂ {f : A → C} {g : B → C} (h : List.Forall₂ R xs ys)
    (hfg : ∀ x y, R x y → f x = g y) : xs.map f = ys.map g := by
  induction h with
  | nil => rfl
  | cons hxy _ ih => rw [List.map_cons, List.map_cons, hfg _ _ hxy, ih]

theorem filterMap_of_forall₂ {f : B → Option C} {g : A → C} (h : List.Forall₂ R xs ys)
    (hfg : ∀ x y, R x y → f y = some (g x)) : ys.filterMap f = xs.map g := by
  induction h with
  | nil => rfl
  | cons hxy _ ih => rw [List.filterMap_cons_some (hfg _ _ hxy), ih, List.map_cons]

theorem mapM_of_forall₂ {ε : Type} {f : B → Except ε C} {g : A → C} (h : List.Forall₂ R xs ys)
    (hfg : ∀ x y, R x y → f y = .ok (g x)) : ys.mapM f = .ok (xs.map g) := by
  induction h with
  | nil => rfl
  | cons hxy _ ih =>
    rw [List.mapM_cons, hfg _ _ hxy, ih]
    rfl

theorem pairwise_iff_of_forall₂ {P : A → A → Prop} {Q : B → B → Prop} (h : List.Forall₂ R xs ys)
    (hPQ : ∀ {x y x' y'}, R x y → R x' y' → (P x x' ↔ Q y y')) : xs.Pairwise P ↔ ys.Pairwise Q := by
  induction h with
  | nil => exact ⟨fun _ => .nil, fun _ => .nil⟩
  | cons hfirst hrest ih =>
    rw [List.pairwise_cons, List.pairwise_cons]
    refine and_congr ⟨fun h y hy => ?_, fun h x hx => ?_⟩ ih
    · obtain ⟨x, hx, hxy⟩ := exists_of_forall₂_right hrest y hy
      exact (hPQ hfirst hxy).mp (h x hx)
    · obtain ⟨y, hy, hxy⟩ := exists_of_forall₂_left hrest x hx
      exact (hPQ hfirst hxy).mpr (h y hy)

end SqlCanvas
