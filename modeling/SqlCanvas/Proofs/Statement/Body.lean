import SqlCanvas.Proofs.Grammar.Statement
import SqlCanvas.Proofs.Statement.Classification
import SqlCanvas.Proofs.Statement.SetOperation

/-!
# Where the body of a statement stands

The body of a statement is cut out of its text: blanks and semicolons, the tables of a `WITH`
clause, the operands behind the first one and parentheses are cut off. No cut goes through a word,
so the words of the body are words of the text.
-/

namespace SqlCanvas

open Text Nesting Pattern

theorem Text.setOff_drop {t : Text} {i : Nat} {c : Char} (h : t[i]? = some c)
    (hc : isWord c = false) : SetOff (t.drop (i + 1)) t := by
  refine ⟨t.take (i + 1), [], by simp, fun d hd => ?_, fun _ _ _ => halts_nil _⟩
  rw [List.getLast?_take, if_neg (Nat.succ_ne_zero i), Nat.add_sub_cancel, h] at hd
  cases hd
  exact hc

theorem Text.setOff_behind_closing {t : Text} {i n : Nat} (h : closingParen? (t.drop i) = some n) :
    SetOff (t.drop (i + n + 1)) t := by
  have closing := getElem?_of_closingParen? h
  rw [List.getElem?_drop] at closing
  exact setOff_drop closing (by decide)

theorem Text.setOff_drop_stop {p : Pattern} {t : Text} {m : Match} (hm : p.match? t = some m)
    (hlast : ∀ u, p.Covers u → ∀ c ∈ u.getLast?, isWord c = false) : SetOff (t.drop m.stop) t := by
  obtain ⟨d, u, _, hs, hstop, -⟩ := exists_stops_of_match? hm
  have whole : t = u ++ d.rest := hs.passes.rest
  refine ⟨u, [], ?_, hlast u hs.covers, fun _ _ _ => halts_nil _⟩
  rw [hstop, whole, List.drop_left, List.append_nil]

theorem setOff_stripTerminator (sql : Text) : SetOff (stripTerminator sql) sql := by
  obtain ⟨e, he, htrailing⟩ := exists_trailing sql
  have front : SetOff (stripTerminator sql) sql.trim :=
    he ▸ SetOff.of_append (l := []) nofun htrailing.halts_isWord
  exact front.trans (setOff_trim sql)

theorem setOff_splitCommonTables (t : Text) : SetOff (splitCommonTables t).2 t := by
  fun_induction splitCommonTables t with
  | case1 => exact .refl _
  | case2 => exact .refl _
  | case3 t m hm opening length hl own rest hc => exact setOff_behind_closing hl
  | case4 t m hm opening length hl own rest comma hc entries rest' heq ih =>
    have behind : SetOff rest t := setOff_behind_closing hl
    have next : SetOff (rest.drop comma.stop) rest := by
      refine setOff_drop_stop hc ?_
      rintro _ ⟨g, _, -, ⟨x, hx, rfl⟩, rfl⟩ c hmem
      obtain rfl : x = ',' := beq_iff_eq.mp hx
      obtain rfl : ',' = c := by simpa using hmem
      decide
    rw [heq] at ih
    exact ih.trans (next.trans behind)

theorem last_of_covers_withHead {u : Text} (h : withHead.Covers u) :
    ∀ c ∈ u.getLast?, isWord c = false := by
  obtain ⟨_, _, rfl, ⟨g, _, -, ⟨w, _, -, ⟨g', _, hg', ⟨x, _, hx, rfl, rfl⟩, rfl⟩, rfl⟩, rfl⟩,
      rfl⟩ :=
    h
  rcases hx with ⟨w', g'', -, hg'', rfl⟩ | rfl
  · simpa using IsGap.last_not_isWord (covers_many1.mp hg'') (g ++ (w ++ (g' ++ w')))
  · simpa using IsGap.last_not_isWord (covers_many1.mp hg') (g ++ w)

theorem setOff_splitWith (t : Text) : SetOff (splitWith t).rest t := by
  rw [splitWith]
  split
  · exact .refl t
  · rename_i m hm
    exact (setOff_splitCommonTables _).trans (setOff_drop_stop hm fun _ => last_of_covers_withHead)

theorem setOff_splitSetOperations (t : Text) : SetOff (splitSetOperations t).1 t := by
  rw [splitSetOperations]
  cases hos : t.topLevelOccurrences setOperation with
  | nil => exact .refl t
  | cons o os =>
    obtain ⟨k, -, l, w, r, rfl, -, hl, -, -, hstart⟩ :=
      exists_word_of_mem startsWith_setOperation (hos ▸ List.mem_cons_self : o ∈
        t.topLevelOccurrences setOperation)
    have head : (l ++ (w ++ r)).slice 0 o.start = l := by
      rw [hstart]
      exact List.take_left
    simp only [between, head]
    refine ⟨[], w ++ r, rfl, by simp, fun c hc hword => ?_⟩
    rw [hl c hc] at hword
    cases hword

theorem Text.setOff_stripParens (t : Text) : SetOff t.stripParens t := by
  fun_induction stripParens t with
  | case1 t trimmed h ih =>
    have inside : SetOff trimmed.tail.dropLast trimmed :=
      ⟨['('], [')'], eq_of_isWrapped h, by decide, fun _ _ _ => halts_cons.mpr (by decide)⟩
    exact ih.trans (inside.trans (setOff_trim t))
  | case2 t => exact setOff_trim t

theorem Outline.setOff_body {sql : Text} {tables branches : List (Text × Outline)}
    {recursive : Bool} {keyword body : Text}
    (h : Outline.of sql = .mk tables recursive keyword body branches) : SetOff body sql := by
  have rest := (setOff_splitWith (stripTerminator sql)).trans (setOff_stripTerminator sql)
  rw [Outline.of_eq] at h
  simp only at h
  split at h
  · cases h
    exact (setOff_stripParens _).trans ((setOff_splitSetOperations _).trans rest)
  · cases h
    exact rest

namespace Statement

variable {σ : Type} {ids : IdSource σ} {a b : σ} {s : Statement}

theorem exists_of_run_select {tables branches : List (Text × Outline)} {recursive : Bool}
    {body : Text} (h : (ofOutline ids (.mk tables recursive "SELECT".toList body branches)).run a =
      (.ok s, b)) :
    ∃ ctes unions own a₁ b₁, (Select.read ids body).run a₁ = (.ok own, b₁) ∧
      s = .ofQuery .select (complete .select ctes unions own) := by
  have select : readKind "SELECT".toList = .ok .select := by decide
  rw [ofOutline, select] at h
  obtain ⟨ctes, a₁, -, h⟩ := Reading.exists_of_run_bind h
  obtain ⟨kind, a₂, hkey, h⟩ := Reading.exists_of_run_bind h
  cases hkey
  obtain ⟨own, a₃, hown, h⟩ := Reading.exists_of_run_bind h
  obtain ⟨unions, a₄, -, h⟩ := Reading.exists_of_run_bind h
  cases h
  exact ⟨ctes, unions, own, _, a₃, hown, rfl⟩

theorem exists_of_run_change {tables branches : List (Text × Outline)} {recursive : Bool}
    {keyword body : Text} (h : (ofOutline ids (.mk tables recursive keyword body branches)).run a =
      (.ok s, b)) (hkind : s.kind ≠ .select) :
    ∃ ctes changed, Change.read s.kind body = .ok changed ∧
      s = { changed with query := complete s.kind ctes [] changed.query } := by
  rw [ofOutline] at h
  obtain ⟨ctes, a₁, -, h⟩ := Reading.exists_of_run_bind h
  obtain ⟨kind, a₂, -, h⟩ := Reading.exists_of_run_bind h
  split at h
  · obtain ⟨own, a₃, -, h⟩ := Reading.exists_of_run_bind h
    obtain ⟨unions, a₄, -, h⟩ := Reading.exists_of_run_bind h
    cases h
    exact absurd rfl hkind
  · obtain ⟨changed, a₃, hchange, h⟩ := Reading.exists_of_run_bind h
    obtain ⟨hok, -⟩ := Prod.mk.inj hchange
    obtain ⟨rfl, -⟩ := kind_of_read hok
    cases h
    exact ⟨ctes, changed, hok, rfl⟩

theorem exists_body_of_select {sql : Text} (h : (read ids sql).run a = (.ok s, b))
    (hkind : s.kind = .select) :
    ∃ body, SetOff body sql ∧ ∃ ctes unions own a₁ b₁, (Select.read ids body).run a₁ =
      (.ok own, b₁) ∧ s = .ofQuery .select (complete .select ctes unions own) := by
  rw [read] at h
  cases houtline : Outline.of sql with
  | mk tables recursive keyword body branches =>
    rw [houtline] at h
    obtain ⟨rfl, -⟩ := kind_of_ofOutline h
    rw [hkind] at h
    exact ⟨body, Outline.setOff_body houtline, exists_of_run_select h⟩

theorem exists_body_of_change {sql : Text} (h : (read ids sql).run a = (.ok s, b))
    (hkind : s.kind ≠ .select) :
    ∃ body, SetOff body sql ∧ ∃ ctes changed, Change.read s.kind body = .ok changed ∧
      s = { changed with query := complete s.kind ctes [] changed.query } := by
  rw [read] at h
  cases houtline : Outline.of sql with
  | mk tables recursive keyword body branches =>
    rw [houtline] at h
    exact ⟨body, Outline.setOff_body houtline, exists_of_run_change h hkind⟩

end Statement

end SqlCanvas
