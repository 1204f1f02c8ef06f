import SqlCanvas.Proofs.Grammar.Resolution
import SqlCanvas.Proofs.Regeneration.Layout
import SqlCanvas.Proofs.Regeneration.Name
import SqlCanvas.Proofs.Statement.Writable

/-!
# Conditions of joins in generated text

A join holds the table it reads from and the table it leads to, and its conditions hold columns
only. So every comparison behind `ON` is written out as one between these two tables, whatever
tables it was about. The comparisons of a join are kept, each as it is or mirrored, exactly when all
of them compare the joined table with one and the same table.
-/

namespace SqlCanvas

open Text Nesting Pattern

theorem Text.cut_unique {c : Char} {s s' t t' : Text} (hs : c ∉ s) (hs' : c ∉ s')
    (h : s ++ c :: t = s' ++ c :: t') : s = s' ∧ t = t' := by
  induction s generalizing s' with
  | nil =>
    cases s' with
    | nil => exact ⟨rfl, (List.cons.inj h).2⟩
    | cons d s' => exact absurd (List.cons.inj h).1 (List.ne_of_not_mem_cons hs')
  | cons d s ih =>
    cases s' with
    | nil => exact absurd (List.cons.inj h).1.symm (List.ne_of_not_mem_cons hs)
    | cons d' s' =>
      obtain ⟨rfl, hrest⟩ := List.cons.inj h
      obtain ⟨rfl, rfl⟩ :=
        ih (List.not_mem_of_not_mem_cons hs) (List.not_mem_of_not_mem_cons hs') hrest
      exact ⟨rfl, rfl⟩

theorem Text.cut_unique_last {c : Char} {s s' t t' : Text} (ht : c ∉ t) (ht' : c ∉ t')
    (h : s ++ c :: t = s' ++ c :: t') : s = s' ∧ t = t' := by
  have reversed : t.reverse ++ c :: s.reverse = t'.reverse ++ c :: s'.reverse := by
    simpa using congrArg List.reverse h
  obtain ⟨h₁, h₂⟩ := cut_unique (by simpa using ht) (by simpa using ht') reversed
  exact ⟨List.reverse_inj.mp h₂, List.reverse_inj.mp h₁⟩

/-- Neither of the columns has a point or a space in it. -/
def JoinCondition.Named (c : JoinCondition) : Prop :=
  (∃ i : Ident, i.text = c.fromColumn.toList) ∧ ∃ i : Ident, i.text = c.toColumn.toList

def JoinCondition.mirrored (c : JoinCondition) : JoinCondition :=
  ⟨c.toColumn, c.fromColumn, c.operator.mirrored⟩

theorem JoinCondition.Named.mirrored {c : JoinCondition} (h : c.Named) : c.mirrored.Named :=
  ⟨h.2, h.1⟩

theorem TableRef.toList_column (t : TableRef) (column : String) :
    (t.column column).toList = t.reference.toList ++ '.' :: column.toList := by
  simp [TableRef.column]

theorem TableRef.reference_eq_of_column {t u : TableRef} {a b : String} (ha : '.' ∉ a.toList)
    (hb : '.' ∉ b.toList) (h : t.column a = u.column b) : t.reference = u.reference := by
  have h := congrArg String.toList h
  rw [toList_column, toList_column] at h
  exact String.toList_inj.mp (cut_unique_last ha hb h).1

theorem Comparison.space_not_mem (c : Comparison) : ' ' ∉ (Vocabulary.spelling c).toList := by
  cases c <;> decide

theorem JoinCondition.references_of_sql {c d : JoinCondition} (hc : c.Named) (hd : d.Named)
    {s t s' t' : TableRef} (hs : ' ' ∉ s.reference.toList) (hs' : ' ' ∉ s'.reference.toList)
    (h : c.sql s t = d.sql s' t') : s.reference = s'.reference ∧ t.reference = t'.reference := by
  obtain ⟨⟨i, hi⟩, j, hj⟩ := hc
  obtain ⟨⟨i', hi'⟩, j', hj'⟩ := hd
  have side {u : TableRef} {k : Ident} {column : String} (hu : ' ' ∉ u.reference.toList)
      (hk : k.text = column.toList) : ' ' ∉ (u.column column).toList := by
    rw [TableRef.toList_column, ← hk]
    simp [hu, not_mem_of_not_isWord k.isName (c := ' ') (by decide)]
  have point {k : Ident} {column : String} (hk : k.text = column.toList) : '.' ∉ column.toList :=
    hk ▸ not_mem_of_not_isWord k.isName (by decide)
  have whole : (s.column c.fromColumn).toList ++ ' ' :: ((Vocabulary.spelling c.operator).toList ++
      ' ' :: (t.column c.toColumn).toList) = (s'.column d.fromColumn).toList ++
        ' ' :: ((Vocabulary.spelling d.operator).toList ++
          ' ' :: (t'.column d.toColumn).toList) := by
    simpa [JoinCondition.sql] using congrArg String.toList h
  obtain ⟨left, rest⟩ := cut_unique (side hs hi) (side hs' hi') whole
  obtain ⟨-, right⟩ := cut_unique c.operator.space_not_mem d.operator.space_not_mem rest
  exact ⟨TableRef.reference_eq_of_column (point hi) (point hi') (String.toList_inj.mp left),
    TableRef.reference_eq_of_column (point hj) (point hj') (String.toList_inj.mp right)⟩

theorem NamesApart.eq_of_reference {ts : List TableRef} (h : NamesApart ts) {t u : TableRef}
    (ht : t ∈ ts) (hu : u ∈ ts) (href : t.reference = u.reference) : t = u := by
  refine h.unique ht hu t.goesBy_reference ?_
  rw [href]
  exact u.goesBy_reference

/-- No two tables of a statement go by the same name. -/
def WrittenSelect.Apart (s : WrittenSelect) : Prop :=
  s.tables.Pairwise fun t u => ∀ name, t.GoesBy name → ¬ u.GoesBy name

/-- The conjunction behind `ON` is made up of the comparisons. -/
def WrittenJoin.Compares (j : WrittenJoin) (cs : List WrittenComparison) : Prop :=
  ∃ o, j.on = some o ∧ o.conditions.items = cs.map WrittenComparison.conjunct

namespace WrittenComparison

def condition (c : WrittenComparison) : JoinCondition where
  fromColumn := String.ofList c.left.column.text
  toColumn := String.ofList c.right.column.text
  operator := c.operator

theorem named_condition (c : WrittenComparison) : c.condition.Named :=
  ⟨⟨c.left.column, String.toList_ofList.symm⟩, c.right.column, String.toList_ofList.symm⟩

/-- Both qualifiers are names of these tables. -/
def Within (c : WrittenComparison) (ts : List WrittenTable) : Prop :=
  (∃ t ∈ ts, t.GoesBy c.left.qualifier.text) ∧ ∃ t ∈ ts, t.GoesBy c.right.qualifier.text

/-- The comparison is between the two tables, on whatever side they stand. -/
def Links (c : WrittenComparison) (t u : TableRef) : Prop :=
  (t.GoesBy c.left.qualifier.text ∧ u.GoesBy c.right.qualifier.text) ∨
    (u.GoesBy c.left.qualifier.text ∧ t.GoesBy c.right.qualifier.text)

/-- The text is that of the comparison, with the references of its tables for its qualifiers, or
that of the mirrored comparison. -/
def Restated (c : WrittenComparison) (tables : List TableRef) (text : String) : Prop :=
  ∃ l ∈ tables, ∃ r ∈ tables, l.GoesBy c.left.qualifier.text ∧ r.GoesBy c.right.qualifier.text ∧
    (text = c.condition.sql l r ∨ text = c.condition.mirrored.sql r l)

structure Between (c : WrittenComparison) (tables : List TableRef) (l r : TableRef) : Prop where
  left_mem : l ∈ tables
  right_mem : r ∈ tables
  left : l.GoesBy c.left.qualifier.text
  right : r.GoesBy c.right.qualifier.text

/-- A comparison of two tables as the join to one of them holds it, with the table it is seen from:
it is turned when it starts with the joined table and is about another one, too. -/
inductive SeenFrom (c : WrittenComparison) (l r joined : TableRef) : TableRef → JoinCondition → Prop
  | kept (h : l = joined → r = joined) : SeenFrom c l r joined l c.condition
  | turned (hl : l = joined) (hr : r ≠ joined) : SeenFrom c l r joined r c.condition.mirrored

/-- The join holds the condition for the comparison, which is seen from the source. -/
def HeldAs (c : WrittenComparison) (tables : List TableRef) (joined source : TableRef)
    (d : JoinCondition) : Prop :=
  ∃ l r, c.Between tables l r ∧ c.SeenFrom l r joined source d

/-- The text is the condition that the join holds for the comparison, with the columns given to the
source and the joined table, whatever tables the comparison is about. -/
def PrintedBetween (c : WrittenComparison) (tables : List TableRef) (source joined : TableRef)
    (text : String) : Prop :=
  ∃ t d, c.HeldAs tables joined t d ∧ text = d.sql source joined

variable {c : WrittenComparison} {tables : List TableRef} {l r joined source : TableRef}

theorem SeenFrom.mem {d : JoinCondition} (h : c.SeenFrom l r joined source d)
    (hb : c.Between tables l r) : source ∈ tables := by
  cases h with
  | kept => exact hb.left_mem
  | turned => exact hb.right_mem

theorem SeenFrom.named {d : JoinCondition} (h : c.SeenFrom l r joined source d) : d.Named := by
  cases h with
  | kept => exact c.named_condition
  | turned => exact c.named_condition.mirrored

theorem exists_seenFrom {lookup : Lookup} (hids : (tables.map (·.id)).Nodup)
    (hb : c.Between tables l r) (hjoined : joined ∈ tables)
    (hl : lookup.find? c.left.qualifier.text = some l.id)
    (hr : lookup.find? c.right.qualifier.text = some r.id) :
    ∃ source, ((c.predicate lookup).oriented joined.id).left = some source.id ∧
      c.SeenFrom l r joined source ((c.predicate lookup).oriented joined.id).toCondition := by
  have same {t : TableRef} (ht : t ∈ tables) : t.id = joined.id ↔ t = joined :=
    ⟨fun h => List.inj_on_of_nodup_map hids ht hjoined h, congrArg _⟩
  by_cases h : l = joined ∧ r ≠ joined
  · refine ⟨r, ?_, ?_⟩
    · simp [Select.OnPredicate.oriented, predicate, hl, hr, same hb.right_mem, h,
        Select.OnPredicate.swapped]
    · have turned : ((c.predicate lookup).oriented joined.id).toCondition =
          c.condition.mirrored := by
        simp [Select.OnPredicate.oriented, predicate, hl, hr, same hb.right_mem, h,
          Select.OnPredicate.swapped, Select.OnPredicate.toCondition, JoinCondition.mirrored,
            condition]
      rw [turned]
      exact .turned h.1 h.2
  · have kept : (c.predicate lookup).oriented joined.id = c.predicate lookup := by
      rw [Select.OnPredicate.oriented, if_neg]
      rintro ⟨h₁, -, h₂⟩
      refine h ⟨(same hb.left_mem).mp ?_, fun hr' => h₂ ?_⟩
      · simpa [predicate, hl] using h₁
      · simp [predicate, hr, hr']
    refine ⟨l, by rw [kept, predicate, hl], ?_⟩
    rw [kept]
    exact .kept fun hl' => by_contra fun hr' => h ⟨hl', hr'⟩

/-- What is written for a comparison states it just when it is between the two tables of the
join. -/
theorem restated_iff (hapart : NamesApart tables) (hspace : ∀ t ∈ tables, ' ' ∉ t.reference.toList)
    (hb : c.Between tables l r) (hjoined : joined ∈ tables) (hsource : source ∈ tables)
    {s : TableRef} {d : JoinCondition} (hseen : c.SeenFrom l r joined s d) :
    c.Restated tables (d.sql source joined) ↔ c.Links source joined := by
  -- The names hold no space, so the two references can be read off the text of a condition.
  constructor
  · rintro ⟨l', hl', r', hr', hleft, hright, h | h⟩
    · obtain ⟨h₁, h₂⟩ :=
        JoinCondition.references_of_sql hseen.named c.named_condition (hspace _ hsource)
          (hspace _ hl') h
      rw [← hapart.eq_of_reference hsource hl' h₁] at hleft
      rw [← hapart.eq_of_reference hjoined hr' h₂] at hright
      exact .inl ⟨hleft, hright⟩
    · obtain ⟨h₁, h₂⟩ := JoinCondition.references_of_sql hseen.named c.named_condition.mirrored
        (hspace _ hsource) (hspace _ hr') h
      rw [← hapart.eq_of_reference hsource hr' h₁] at hright
      rw [← hapart.eq_of_reference hjoined hl' h₂] at hleft
      exact .inr ⟨hleft, hright⟩
  · have sides : (l = source ∧ r = joined) ∨ (l = joined ∧ r = source) →
        c.Restated tables (d.sql source joined) := by
      intro h
      refine ⟨l, hb.left_mem, r, hb.right_mem, hb.left, hb.right, ?_⟩
      cases hseen with
      | kept hkept =>
        rcases h with ⟨rfl, rfl⟩ | ⟨hl, rfl⟩
        · exact .inl rfl
        · rw [hl, hkept hl]
          exact .inl rfl
      | turned hl hr =>
        rcases h with ⟨-, hr'⟩ | ⟨hl', hr'⟩
        · exact absurd hr' hr
        · rw [hl', hr']
          exact .inr rfl
    rintro (⟨h₁, h₂⟩ | ⟨h₁, h₂⟩)
    · exact sides (.inl ⟨hapart.unique hb.left_mem hsource hb.left h₁,
        hapart.unique hb.right_mem hjoined hb.right h₂⟩)
    · exact sides (.inr ⟨hapart.unique hb.left_mem hjoined hb.left h₁,
        hapart.unique hb.right_mem hsource hb.right h₂⟩)

theorem SeenFrom.eq_of_links {d : JoinCondition} {s : TableRef} (h : c.SeenFrom l r joined s d)
    (hapart : NamesApart tables) (hb : c.Between tables l r) (hjoined : joined ∈ tables)
    (hsource : source ∈ tables) (hlinks : c.Links source joined) : s = source := by
  rcases hlinks with ⟨h₁, h₂⟩ | ⟨h₁, h₂⟩
  · have left := hapart.unique hb.left_mem hsource hb.left h₁
    have right := hapart.unique hb.right_mem hjoined hb.right h₂
    cases h with
    | kept => exact left
    | turned _ hr => exact absurd right hr
  · have left := hapart.unique hb.left_mem hjoined hb.left h₁
    have right := hapart.unique hb.right_mem hsource hb.right h₂
    cases h with
    | kept hkept => rw [left, ← hkept left, right]
    | turned => exact right

end WrittenComparison

theorem getElem?_filterMap_of_some {A B : Type} {f : A → Option B} {xs : List A}
    (h : ∀ x ∈ xs, ∃ y, f x = some y) {m : Nat} {x : A} (hx : xs[m]? = some x) :
    (xs.filterMap f)[m]? = f x := by
  induction xs generalizing m with
  | nil => cases hx
  | cons z xs ih =>
    obtain ⟨⟨y, hy⟩, h⟩ := List.forall_mem_cons.mp h
    rw [List.filterMap_cons_some hy]
    cases m with
    | zero =>
      cases hx
      exact hy.symm
    | succ m => exact ih h hx

theorem Dotted.not_mem (d : Dotted) {c : Char} (hc : isWord c = false) (hdot : c ≠ '.') :
    c ∉ d.text := by
  have word (i : Ident) := not_mem_of_not_isWord i.isName hc
  intro h
  obtain ⟨a, ha, h⟩ := List.mem_flatMap.mp h
  rcases List.mem_cons.mp ha with rfl | ha
  · exact word d.first h
  · obtain ⟨i, -, ha⟩ := List.mem_flatMap.mp ha
    rcases List.mem_pair.mp ha with rfl | rfl
    · exact hdot (List.mem_singleton.mp h)
    · exact word i h

theorem WrittenTable.IsHeldAs.space_not_mem {t : WrittenTable} {u : TableRef} (h : t.IsHeldAs u) :
    ' ' ∉ u.reference.toList := by
  rw [h.reference_eq, WrittenTable.reference, aliasText]
  cases t.aliasName with
  | none => exact t.name.not_mem (by decide) (by decide)
  | some a => exact not_mem_of_not_isWord a.name.isName (by decide)

theorem WrittenJoin.predicates_of_compares {j : WrittenJoin} {cs : List WrittenComparison}
    (h : j.Compares cs) (lookup : Lookup) (joined : String) :
    j.predicates lookup joined = cs.map fun c => (c.predicate lookup).oriented joined := by
  obtain ⟨o, ho, hcs⟩ := h
  rw [predicates, ho]
  simp only [hcs, List.filterMap_map, Function.comp_def, WrittenComparison.read?_eq]
  rw [← List.filterMap_eq_map, ← List.filterMap_eq_map, List.filterMap_filterMap]
  rfl

theorem WrittenJoin.readsFrom_of_compares {j : WrittenJoin} {c : WrittenComparison}
    {rest : List WrittenComparison} (h : j.Compares (c :: rest)) {scope : Scope}
    {joined id : String} (hleft : ((c.predicate scope.lookup).oriented joined).left = some id)
    (hid : id ≠ "") :
    j.readsFrom scope joined = some id := by
  rw [WrittenJoin.readsFrom, predicates_of_compares h, List.map_cons, Select.sourceTable, hleft]
  simp [nonempty?, hid]

theorem WrittenJoin.Compares.ne_nil {j : WrittenJoin} {cs : List WrittenComparison}
    (h : j.Compares cs) : cs ≠ [] := by
  obtain ⟨o, -, hcs⟩ := h
  rintro rfl
  exact absurd hcs (by simp [Series.items])

/-- The tables up to a joined one, as they are written and as they are held when its comparisons are
read. -/
structure Reaches (ts : List WrittenTable) (us : List TableRef) (lookup : Lookup)
    (joined : TableRef) : Prop where
  held : List.Forall₂ WrittenTable.IsHeldAs ts us
  named : Select.Named lookup us
  apart : NamesApart us
  ids : (us.map (·.id)).Nodup
  mem : joined ∈ us

namespace Reaches

variable {ts : List WrittenTable} {us : List TableRef} {lookup : Lookup} {joined : TableRef}
variable (h : Reaches ts us lookup joined) {c : WrittenComparison}

include h

theorem space_not_mem : ∀ t ∈ us, ' ' ∉ t.reference.toList := by
  intro t ht
  obtain ⟨w, -, hw⟩ := exists_of_forall₂_right h.held t ht
  exact hw.space_not_mem

theorem exists_named {name : Text} (hname : ∃ t ∈ ts, t.GoesBy name) :
    ∃ u ∈ us, u.GoesBy name ∧ lookup.find? name = some u.id := by
  obtain ⟨t, ht, hname⟩ := hname
  obtain ⟨u, hu, htu⟩ := exists_of_forall₂_left h.held t ht
  have hname := (htu.goesBy_iff name).mpr hname
  exact ⟨u, hu, hname, by rw [h.named, h.apart.lastNamed?_eq hu hname]; rfl⟩

theorem exists_heldAs (hc : c.Within ts) :
    ∃ t ∈ us, ((c.predicate lookup).oriented joined.id).left = some t.id ∧
      c.HeldAs us joined t ((c.predicate lookup).oriented joined.id).toCondition := by
  obtain ⟨l, hl, hleft, hfindl⟩ := h.exists_named hc.1
  obtain ⟨r, hr, hright, hfindr⟩ := h.exists_named hc.2
  have between : c.Between us l r := ⟨hl, hr, hleft, hright⟩
  obtain ⟨t, ht, hseen⟩ := WrittenComparison.exists_seenFrom h.ids between h.mem hfindl hfindr
  exact ⟨t, hseen.mem between, ht, l, r, between, hseen⟩

theorem restated_iff (hc : c.Within ts) {source : TableRef} (hsource : source ∈ us) :
    c.Restated us (((c.predicate lookup).oriented joined.id).toCondition.sql source joined) ↔
      c.Links source joined := by
  obtain ⟨t, -, -, l, r, hb, hseen⟩ := h.exists_heldAs hc
  exact WrittenComparison.restated_iff h.apart h.space_not_mem hb h.mem hsource hseen

end Reaches

namespace WrittenSelect

variable {σ : Type} {ids : IdSource σ} {st st' : σ} {s : WrittenSelect} {own : Query}

/-- The join is printed with one text for each of the comparisons, in their order. It reads from the
table that the first one is seen from, and all are printed between this table and the joined one. -/
structure PrintedJoin (tables : List TableRef) (joined : TableRef) (cs : List WrittenComparison)
    (source : TableRef) (texts : List String) : Prop where
  length : texts.length = cs.length
  mem : source ∈ tables
  first : ∃ c ∈ cs.head?, ∃ d, c.HeldAs tables joined source d
  printed : List.Forall₂ (fun c text => c.PrintedBetween tables source joined text) cs texts
  /-- A comparison is restated just when it is between the two tables. -/
  restated : List.Forall₂ (fun c text => c.Restated tables text ↔ c.Links source joined) cs texts

theorem exists_printedJoin (hread : (Select.read ids s.text).run st = (.ok own, st'))
    (hfresh : ids.Fresh [""] st) (hapart : s.Apart) {m : Nat} {g : Gap} {j : WrittenJoin}
    (hj : s.joins[m]? = some (g, j)) {cs : List WrittenComparison} (hcs : j.Compares cs)
    (hwithin : ∀ c ∈ cs, c.Within (s.tables.take (m + 2))) :
    ∃ join joined source texts, own.joins[m]? = some join ∧ own.tables[m + 1]? = some joined ∧
      join.sql? own.tables = some (Vocabulary.spelling j.joinKind ++ " JOIN " ++ joined.sql ++
        (" ON " ++ " AND ".intercalate texts)) ∧
      PrintedJoin (own.tables.take (m + 2)) joined cs source texts ∧
      (List.Forall₂ (fun c text => c.Restated (own.tables.take (m + 2)) text) cs texts ↔
        ∃ source ∈ own.tables.take (m + 2), ∀ c ∈ cs, c.Links source joined) := by
  obtain ⟨lookup, id, joined, hnamed, hjoined, hjoin⟩ := exists_join_of_read hread hj
  have fresh : ("" :: own.tables.map (·.id)).Nodup := (Select.fresh_read hfresh hread).nodup
  obtain ⟨hempty, hids⟩ := List.nodup_cons.mp fresh
  have held := held_of_read hread
  have htake : (own.tables.take (m + 2)).Sublist own.tables := List.take_sublist _ _
  have reached : Reaches (s.tables.take (m + 2)) (own.tables.take (m + 2)) lookup joined :=
    { held := List.forall₂_take _ held
      named := hnamed
      apart := ((namesApart_iff_of_held held).mpr hapart).sublist htake
      ids := hids.sublist (htake.map _)
      mem :=
        List.mem_of_getElem? (i := m + 1) (by rw [List.getElem?_take, if_pos (by omega), hjoined]) }
  -- The join reads from the table that its first comparison is seen from.
  obtain ⟨c₀, rest, rfl⟩ := List.exists_cons_of_ne_nil hcs.ne_nil
  obtain ⟨source, hsource, hleft₀, hheld₀⟩ := reached.exists_heldAs (hwithin c₀ List.mem_cons_self)
  have predicates := j.predicates_of_compares hcs lookup joined.id
  have hne : source.id ≠ "" := by
    intro h
    exact hempty (h ▸ List.mem_map_of_mem (htake.subset hsource))
  have reads : j.readsFrom ⟨lookup, own.tables.head?.map (·.id)⟩ joined.id = some source.id :=
    WrittenJoin.readsFrom_of_compares hcs hleft₀ hne
  have restated (c : WrittenComparison) (hc : c ∈ c₀ :: rest) :=
    reached.restated_iff (hwithin c hc) hsource
  refine ⟨_, joined, source, (c₀ :: rest).map fun c =>
    (((c.predicate lookup).oriented joined.id).toCondition).sql source joined, hjoin, hjoined,
      ?_, ?_, ?_⟩
  · rw [Join.sql?, reads, Option.getD_some, findTable?_of_nodup hids (htake.subset hsource),
      findTable?_of_nodup hids (htake.subset reached.mem), predicates]
    simp [Function.comp_def]
  · constructor
    · exact List.length_map _
    · exact hsource
    · exact ⟨c₀, rfl, _, hheld₀⟩
    · rw [List.forall₂_map_right_iff, List.forall₂_same]
      intro c hc
      obtain ⟨t, -, -, hheld⟩ := reached.exists_heldAs (hwithin c hc)
      exact ⟨t, _, hheld, rfl⟩
    · rw [List.forall₂_map_right_iff, List.forall₂_same]
      exact restated
  · rw [List.forall₂_map_right_iff, List.forall₂_same]
    constructor
    · exact fun h => ⟨source, hsource, fun c hc => (restated c hc).mp (h c hc)⟩
    · rintro ⟨t, ht, hlinks⟩ c hc
      obtain ⟨l₀, r₀, hb₀, hseen₀⟩ := hheld₀
      obtain rfl :=
        hseen₀.eq_of_links reached.apart hb₀ reached.mem ht (hlinks c₀ List.mem_cons_self)
      exact (restated c hc).mpr (hlinks c hc)

/-- The lines of a text that was read and is written again: every join has one, in order. -/
theorem exists_lines (hread : (Select.read ids s.text).run st = (.ok own, st')) (d : Dialect) :
    ∃ lines, own.sql d = .ok ("\n".intercalate lines) ∧
      ∀ m join, own.joins[m]? = some join → lines[m + 2]? = join.sql? own.tables := by
  obtain ⟨o, ho, -⟩ := s.exists_anchor
  obtain ⟨hcount, hgrounded⟩ := Select.read_of_anchor ho hread
  obtain ⟨sources, rest, -, -, rfl⟩ := exists_of_read hread
  generalize hq : ({ Select.assemble none (some (textOf s.columns)) s.readClauses sources rest with
    distinct := s.distinct.isSome } : Query) = q at *
  obtain ⟨anchor, others, htables⟩ := List.exists_cons_of_ne_nil (l := q.tables) (by
    intro h
    rw [h] at hcount
    cases hcount)
  refine ⟨q.ownLines d anchor, ?_, fun m join hjoin => ?_⟩
  · have ctes : q.ctes = none := by rw [← hq]; rfl
    have unions : q.unions = none := by rw [← hq]; rfl
    exact Query.sql_of_own htables ctes unions (Select.numerals_of_read hread d)
  · have shown : ∀ j ∈ q.joins, ∃ line, j.sql? q.tables = some line := by
      intro j hj
      obtain ⟨k, hk⟩ := List.getElem?_of_mem hj
      obtain ⟨⟨t, ht, hto⟩, hfrom⟩ := hgrounded.joins k j hk
      obtain ⟨u, hu, hid⟩ := isKnownTable_iff.mp hfrom
      refine Option.ne_none_iff_exists'.mp fun hnone => ?_
      rcases Join.sql?_eq_none_iff.mp hnone with h | h
      · rw [isKnownTable_iff.mpr ⟨u, List.mem_of_mem_take hu, hid⟩] at h
        cases h
      · rw [isKnownTable_iff.mpr ⟨t, List.mem_of_getElem? ht, hto⟩] at h
        cases h
    have kept : (q.joins.filterMap (·.sql? q.tables))[m]? = join.sql? q.tables :=
      getElem?_filterMap_of_some shown hjoin
    have inside : m < (q.joins.filterMap (·.sql? q.tables)).length := by
      obtain ⟨line, hline⟩ := shown join (List.mem_of_getElem? hjoin)
      rw [hline] at kept
      exact (List.getElem?_eq_some_iff.mp kept).1
    rw [← kept, Query.ownLines, List.append_assoc, List.append_assoc, List.append_assoc,
      List.append_assoc]
    exact List.getElem?_append_left inside

/-- When no two tables share a name, the text that is written for a statement has a line for every
join. The comparisons behind its `ON` are written there one by one in their order, each between the
joined table and the table that the first of them is seen from. They are kept, as they are or
mirrored, exactly when they all compare the joined table with one and the same table. -/
theorem on_clauses_written {statement : Statement}
    (hread : (Statement.read ids s.text).run st = (.ok statement, st')) (hfresh : ids.Fresh [""] st)
    (hapart : s.Apart) (d : Dialect) :
    ∃ lines, statement.query.sql d = .ok ("\n".intercalate lines) ∧
      ∀ m g j cs, s.joins[m]? = some (g, j) → j.Compares cs →
        (∀ c ∈ cs, c.Within (s.tables.take (m + 2))) →
          ∃ joined source texts, statement.query.tables[m + 1]? = some joined ∧
            lines[m + 2]? = some (Vocabulary.spelling j.joinKind ++ " JOIN " ++ joined.sql ++
              (" ON " ++ " AND ".intercalate texts)) ∧
            PrintedJoin (statement.query.tables.take (m + 2)) joined cs source texts ∧
            (List.Forall₂ (fun c text => c.Restated (statement.query.tables.take (m + 2)) text)
              cs texts ↔
              ∃ source ∈ statement.query.tables.take (m + 2), ∀ c ∈ cs, c.Links source joined) := by
  obtain ⟨own, hown, rfl⟩ := Statement.exists_of_read_select hread
  obtain ⟨lines, hlines, hjoins⟩ := exists_lines hown d
  refine ⟨lines, ?_, fun m g j cs hj hcs hwithin => ?_⟩
  · obtain ⟨sources, rest, -, -, rfl⟩ := exists_of_read hown
    rw [Query.sql_eq] at hlines ⊢
    exact hlines
  · obtain ⟨join, joined, source, texts, hjoin, hjoined, hsql, hprinted, hiff⟩ :=
      exists_printedJoin hown hfresh hapart hj hcs hwithin
    exact ⟨joined, source, texts, hjoined, (hjoins m join hjoin).trans hsql, hprinted, hiff⟩

/-- Two comparisons of the same tables, the first with the joined table in front. -/
theorem exists_turnedJoin :
    ∃ (s : WrittenSelect) (cs : List WrittenComparison) (g : Gap) (j : WrittenJoin),
    s.text = "SELECT a.x\nFROM a\nINNER JOIN b ON b.x < a.x AND a.y = b.y".toList ∧ s.Apart ∧
      s.joins[0]? = some (g, j) ∧ j.joinKind = .inner ∧ j.Compares cs ∧
      cs.map (textOf ·.tokens) = ["b.x < a.x".toList, "a.y = b.y".toList] ∧
      (∀ c ∈ cs, c.Within (s.tables.take 2)) ∧
        ∀ t u : TableRef, t.GoesBy "a".toList → u.GoesBy "b".toList → ∀ c ∈ cs, c.Links t u := by
  let a : Ident := (by decide : IsPlain "a").ident
  let b : Ident := (by decide : IsPlain "b").ident
  let x : Ident := (by decide : IsPlain "x").ident
  let y : Ident := (by decide : IsPlain "y").ident
  let turned : WrittenComparison := ⟨⟨b, x⟩, some .space, "<", by decide, some .space, ⟨a, x⟩⟩
  let kept : WrittenComparison := ⟨⟨a, y⟩, some .space, "=", by decide, some .space, ⟨b, y⟩⟩
  let both : Conjunction := ⟨turned.conjunct, [(.capital "AND" (by decide), kept.conjunct)]⟩
  let s : WrittenSelect := Draft.select {
    distinct := false
    columns := (⟨some a, x⟩ : Ref).tokens
    solid_columns := Ref.solid _
    avoids_columns := Dotted.avoids _ (by decide)
    table := ⟨⟨a, []⟩, by decide, none⟩
    joins := [.capital .inner ⟨⟨b, []⟩, by decide, none⟩ (some both)]
    ending := ⟨none, none, none, none, none⟩ }
  have disjoint : ∀ n ∈ (Lookup.labels "a".toList none).map lower,
      n ∉ (Lookup.labels "b".toList none).map lower := by decide
  have first : ∃ t ∈ s.tables.take 2, t.GoesBy "a".toList :=
    ⟨_, List.mem_cons_self, List.mem_cons_self⟩
  have second : ∃ t ∈ s.tables.take 2, t.GoesBy "b".toList :=
    ⟨_, List.mem_cons_of_mem _ List.mem_cons_self, List.mem_cons_self⟩
  refine ⟨s, [turned, kept], _, _, by decide +kernel, ?_, rfl, rfl, ⟨_, rfl, rfl⟩,
    by decide +kernel, ?_, ?_⟩
  · exact List.pairwise_pair.mpr fun name ha hb => disjoint _ ha hb
  · exact List.forall_mem_cons.mpr ⟨⟨second, first⟩, List.forall_mem_singleton.mpr ⟨first, second⟩⟩
  · intro t u ht hu
    exact List.forall_mem_cons.mpr ⟨.inr ⟨hu, ht⟩, List.forall_mem_singleton.mpr (.inl ⟨ht, hu⟩)⟩

theorem on_clause_of_turnedJoin : ∃ (s : WrittenSelect) (cs : List WrittenComparison),
    s.text = "SELECT a.x\nFROM a\nINNER JOIN b ON b.x < a.x AND a.y = b.y".toList ∧ s.Apart ∧
      cs.map (textOf ·.tokens) = ["b.x < a.x".toList, "a.y = b.y".toList] ∧
      ∃ statement st' lines texts, ∃ joined : TableRef,
        (Statement.read .sequential s.text).run (.fresh 1) = (.ok statement, st') ∧
          statement.query.sql .postgresql = .ok ("\n".intercalate lines) ∧
          lines[2]? =
            some ("INNER" ++ " JOIN " ++ joined.sql ++ (" ON " ++ " AND ".intercalate texts)) ∧
          texts.length = 2 ∧
          List.Forall₂
            (fun c text => c.Restated (statement.query.tables.take 2) text) cs texts := by
  obtain ⟨s, cs, g, j, htext, apart, hj, hkind, compares, written, within, links⟩ :=
    exists_turnedJoin
  have computed : ∃ p ∈ ((Statement.read .sequential
        "SELECT a.x\nFROM a\nINNER JOIN b ON b.x < a.x AND a.y = b.y".toList).run
          (.fresh 1)).1.toOption,
      ∃ joined ∈ p.query.tables[1]?, ∃ source ∈ p.query.tables.take 2,
        source.GoesBy "a".toList ∧ joined.GoesBy "b".toList := by
    decide +kernel
  rw [← htext] at computed
  obtain ⟨p, hp, joined, hjoined, source, hsource, ha, hb⟩ := computed
  obtain ⟨st', hread⟩ :
      ∃ st', (Statement.read .sequential s.text).run (.fresh 1) = (.ok p, st') :=
    ⟨_, Prod.ext (eq_ok_of_toOption hp) rfl⟩
  obtain ⟨lines, hlines, joins⟩ :=
    on_clauses_written hread (IdSource.fresh_sequential_empty _) apart .postgresql
  obtain ⟨u, _, texts, hu, hline, printed, kept⟩ := joins 0 g j cs hj compares within
  obtain rfl : joined = u := Option.some.inj (hjoined.symm.trans hu)
  have two : texts.length = 2 := by
    rw [printed.length, ← List.length_map (f := (textOf ·.tokens)), written]
    rfl
  rw [hkind] at hline
  exact ⟨s, cs, htext, apart, written, p, st', lines, texts, joined, hread, hlines, hline, two,
    kept.mpr ⟨source, hsource, links source joined ha hb⟩⟩

/-- A comparison with a third table is written as one with the table of the first comparison: `b.y =
c.y` becomes `a.y = c.y`, and neither itself nor its mirror image is left. -/
theorem third_table_replaced : ∃ statement st' sql,
    (Statement.read .sequential
        "SELECT a.x FROM a JOIN b ON a.x = b.x JOIN c ON a.x = c.x AND b.y = c.y".toList).run
          (.fresh 1) =
      (.ok statement, st') ∧ statement.query.sql .postgresql = .ok sql ∧
        sql =
          "SELECT a.x\nFROM a\nINNER JOIN b ON a.x = b.x\nINNER JOIN c ON a.x = c.x AND a.y = c.y" ∧
          ¬ "b.y = c.y".toList <:+: sql.toList ∧ ¬ "c.y = b.y".toList <:+: sql.toList := by
  have computed : ∃ p ∈ ((Statement.read .sequential
        "SELECT a.x FROM a JOIN b ON a.x = b.x JOIN c ON a.x = c.x AND b.y = c.y".toList).run
          (.fresh 1)).1.toOption,
      ∃ sql ∈ (p.query.sql .postgresql).toOption,
        "SELECT a.x\nFROM a\nINNER JOIN b ON a.x = b.x\nINNER JOIN c ON a.x = c.x AND a.y = c.y" =
          sql := by
    decide +kernel
  obtain ⟨p, hp, _, hsql, rfl⟩ := computed
  exact ⟨p, _, _, Prod.ext (eq_ok_of_toOption hp) rfl, eq_ok_of_toOption hsql, rfl,
    by decide +kernel, by decide +kernel⟩

end WrittenSelect

end SqlCanvas
