/-!
# Tables of intervals

A set of code points given by ascending, disjoint intervals, both ends included. Membership is a
binary search, so its answer is right for tables in that order; `mem_of_search` needs no order.
-/

namespace SqlCanvas.Text.Interval

/-- Looks for an interval with `n` in it among the entries from `low` up to, not including,
`high`. -/
def search (table : Array (Nat × Nat)) (n low high : Nat) : Bool :=
  if low < high then
    let middle := (low + high) / 2
    match table[middle]? with
    | none => false
    | some (first, last) =>
      if n < first then search table n low middle
      else if last < n then search table n (middle + 1) high
      else true
  else false
termination_by high - low
decreasing_by all_goals omega

def contains (table : Array (Nat × Nat)) (n : Nat) : Bool :=
  search table n 0 table.size

theorem mem_of_search {table : Array (Nat × Nat)} {n low high : Nat}
    (h : search table n low high = true) : ∃ i ∈ table, i.1 ≤ n ∧ n ≤ i.2 := by
  fun_induction search table n low high with
  | case1 => simp at h
  | case2 _ _ _ _ _ _ _ _ ih => exact ih h
  | case3 _ _ _ _ _ _ _ _ _ ih => exact ih h
  | case4 low high _ middle first last hm h₁ h₂ =>
    exact ⟨(first, last), Array.mem_of_getElem? hm, by omega, by omega⟩
  | case5 => simp at h

theorem mem_of_contains {table : Array (Nat × Nat)} {n : Nat} (h : contains table n = true) :
    ∃ i ∈ table, i.1 ≤ n ∧ n ≤ i.2 :=
  mem_of_search h

end SqlCanvas.Text.Interval
