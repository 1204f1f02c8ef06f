import SqlCanvas.Statement.Select

/-!
# Readings that succeed

`Yields` says of a reading that it gives a result of some kind from every state of its source of
ids.
-/

namespace SqlCanvas

namespace Reading

variable {σ α β : Type}

def Yields (x : Reading σ α) (P : α → Prop) : Prop :=
  ∀ s, ∃ a s', x.run s = (.ok a, s') ∧ P a

theorem Yields.mono {x : Reading σ α} {P Q : α → Prop} (h : x.Yields P) (hPQ : ∀ a, P a → Q a) :
    x.Yields Q := by
  intro s
  obtain ⟨a, s', hx, ha⟩ := h s
  exact ⟨a, s', hx, hPQ a ha⟩

theorem run_bind_ok {x : Reading σ α} {f : α → Reading σ β} {s s' : σ} {a : α}
    (h : x.run s = (.ok a, s')) : (x >>= f).run s = (f a).run s' := by
  change StateT.bind x.run (ExceptT.bindCont f) s = _
  rw [StateT.bind, h]
  rfl

theorem exists_of_run_bind {x : Reading σ α} {f : α → Reading σ β} {s s' : σ} {b : β}
    (h : (x >>= f).run s = (.ok b, s')) :
    ∃ a s₁, x.run s = (.ok a, s₁) ∧ (f a).run s₁ = (.ok b, s') := by
  change StateT.bind x.run (ExceptT.bindCont f) s = _ at h
  rw [StateT.bind] at h
  cases hx : x.run s with
  | mk result s₁ =>
    rw [hx] at h
    cases result with
    | error e => cases h
    | ok a => exact ⟨a, s₁, rfl, h⟩

theorem Yields.bind {x : Reading σ α} {f : α → Reading σ β} {P : α → Prop} {Q : β → Prop}
    (hx : x.Yields P) (hf : ∀ a, P a → (f a).Yields Q) : (x >>= f).Yields Q := by
  intro s
  obtain ⟨a, s', h, ha⟩ := hx s
  rw [run_bind_ok h]
  exact hf a ha s'

theorem yields_pure {a : α} {P : α → Prop} (h : P a) : (pure a : Reading σ α).Yields P :=
  fun s => ⟨a, s, rfl, h⟩

theorem yields_nextId (ids : IdSource σ) (stem : String) :
    (nextId ids stem).Yields fun _ => True :=
  fun s => ⟨(ids.next stem s).1, (ids.next stem s).2, rfl, trivial⟩

theorem yields_ofExcept {x : Except ReadError α} {a : α} (h : x = .ok a) :
    (ofExcept x : Reading σ α).Yields (· = a) := by
  subst h
  exact fun s => ⟨a, s, rfl, rfl⟩

end Reading

theorem exists_ok_bind {ε α β : Type} {x : Except ε α} {f : α → Except ε β}
    (hx : ∃ a, x = .ok a) (hf : ∀ a, x = .ok a → ∃ b, f a = .ok b) : ∃ b, x >>= f = .ok b := by
  obtain ⟨a, rfl⟩ := hx
  exact hf a rfl

theorem exists_of_bind_eq_ok {ε α β : Type} {x : Except ε α} {f : α → Except ε β} {b : β}
    (h : x >>= f = .ok b) : ∃ a, x = .ok a ∧ f a = .ok b := by
  cases x with
  | error e => cases h
  | ok a => exact ⟨a, rfl, h⟩

theorem exists_of_map_eq_ok {ε α β : Type} {x : Except ε α} {f : α → β} {b : β}
    (h : x.map f = .ok b) : ∃ a, x = .ok a ∧ f a = b := by
  cases x with
  | error e => cases h
  | ok a => exact ⟨a, rfl, Except.ok.inj h⟩

theorem exists_of_mem_mapM {ε α β : Type} {f : α → Except ε β} {xs : List α} {ys : List β}
    (h : xs.mapM f = .ok ys) : ∀ y ∈ ys, ∃ x ∈ xs, f x = .ok y := by
  induction xs generalizing ys with
  | nil =>
    cases h
    simp
  | cons x xs ih =>
    rw [List.mapM_cons] at h
    obtain ⟨y, hy, h⟩ := exists_of_bind_eq_ok h
    obtain ⟨ys, hys, h⟩ := exists_of_bind_eq_ok h
    cases h
    refine List.forall_mem_cons.mpr ⟨⟨x, List.mem_cons_self, hy⟩, fun z hz => ?_⟩
    obtain ⟨w, hw, hz⟩ := ih hys z hz
    exact ⟨w, List.mem_cons_of_mem _ hw, hz⟩

theorem exists_getElem?_of_mapM {ε α β : Type} {f : α → Except ε β} {xs : List α} {ys : List β}
    (h : xs.mapM f = .ok ys) {i : Nat} {x : α} (hx : xs[i]? = some x) :
    ∃ y, ys[i]? = some y ∧ f x = .ok y := by
  induction xs generalizing ys i with
  | nil => cases hx
  | cons x' xs ih =>
    rw [List.mapM_cons] at h
    obtain ⟨y, hy, h⟩ := exists_of_bind_eq_ok h
    obtain ⟨ys, hys, h⟩ := exists_of_bind_eq_ok h
    cases h
    cases i with
    | zero =>
      cases hx
      exact ⟨y, rfl, hy⟩
    | succ i => exact ih hys hx

theorem exists_ok_mapM {ε α β : Type} {f : α → Except ε β} {xs : List α}
    (h : ∀ x ∈ xs, ∃ y, f x = .ok y) : ∃ ys, xs.mapM f = .ok ys := by
  induction xs with
  | nil => exact ⟨[], rfl⟩
  | cons x xs ih =>
    obtain ⟨hx, hxs⟩ := List.forall_mem_cons.mp h
    obtain ⟨y, hy⟩ := hx
    obtain ⟨ys, hys⟩ := ih hxs
    exact ⟨y :: ys, by simp [List.mapM_cons, hy, hys, bind, Except.bind, pure, Except.pure]⟩

theorem eq_ok_of_toOption {ε α : Type} {x : Except ε α} {a : α} (h : a ∈ x.toOption) :
    x = .ok a := by
  cases x with
  | error e => cases h
  | ok b => exact congrArg Except.ok (Option.some.inj h)

theorem exists_eq_ok {ε α : Type} {x : Except ε α} (h : x.toOption.isSome) : ∃ a, x = .ok a := by
  obtain ⟨a, ha⟩ := Option.isSome_iff_exists.mp h
  exact ⟨a, eq_ok_of_toOption ha⟩

end SqlCanvas
