import SqlCanvas.Proofs.Layout.Part

/-!
# Lists and clauses in any layout

The select list of a tidy query and the clauses behind its joins. Of a clause only its keyword
counts and what is read of its body, which does not depend on the layout.
-/

namespace SqlCanvas

open Text Nesting Pattern

theorem stable_commaLexemes {A M : Type} {write : A → List Token} {meaning : A → M}
    {lss : List (List Lexeme)} (hne : lss ≠ []) (h : ∀ ls ∈ lss, Stable ls write meaning) :
    Stable (commaLexemes lss) (Series.tokens CommaGap.tokens write) fun x => x.items.map meaning :=
  .series (fun _ ht => ht.exists_comma) hne h

theorem Listing.quiet (l : Listing) {keywords : List String}
    (h : keywords ⊆ reserved.filter (· ≠ "AS")) : Quiet keywords l.tokens :=
  ⟨l.solid, fun a ha => (l.avoids a ha).mono h⟩

/-- What is read of the text between `SELECT` and `FROM`: the columns in each scope, and the tables
with their ticks. -/
def Select.listReading (t : Text) :
    (Scope → Except ReadError (List SelectedColumn)) × (List TableRef → List TableRef) :=
  (fun scope => readColumns scope (some t), tickedTables (some t))

theorem Selection.listReading_text (l : Selection) : Select.listReading l.listing.text =
    (fun scope => .ok ((l.items.map WrittenItem.selected).map fun column => column scope), id) := by
  refine Prod.ext (funext fun scope => ?_) (funext fun tables => if_neg ?_)
  · refine (l.readColumns_eq scope).trans (congrArg Except.ok ?_)
    simp only [List.map_map, Function.comp_def]
  · simpa using l.text_ne_star

namespace Query.Tidy

variable {q : Query} (h : q.Tidy)
include h

theorem settled_columns (hne : q.selectedColumns ≠ []) :
    Settled (commaLexemes (q.selectedColumns.map (·.lexemes q.tables))) columnKeywords
      Select.listReading := by
  have items : Stable (commaLexemes (q.selectedColumns.map (·.lexemes q.tables)))
      (Series.tokens CommaGap.tokens fun w : WrittenItem => w.item.tokens)
      fun l : Selection => l.items.map WrittenItem.selected :=
    stable_commaLexemes (by simpa using hne)
      (List.forall_mem_map.mpr fun c hc => (h.columns c hc).stable_lexemes h.tables)
  have listing (l : Selection) :
      Series.tokens CommaGap.tokens (fun w : WrittenItem => w.item.tokens) l =
        (Selection.listing l).tokens := by
    simp [Series.tokens, Listing.tokens, Selection.listing, List.flatMap_map]
  refine items.settled (fun l => ?_) fun l l' hl => ?_
  · rw [listing]
    exact Listing.quiet _ (by decide)
  · rw [listing, listing]
    refine (Selection.listReading_text l).trans (Eq.trans ?_ (Selection.listReading_text l').symm)
    rw [hl]

end Query.Tidy

theorem settled_star : Settled [.fixed "*"] columnKeywords Select.listReading := by
  have star : IsMark '*' := by decide
  refine ⟨Select.listReading ['*'],
    fun t ht => ⟨⟨[.mark '*' star], .singleton rfl (by decide : '*' ≠ ';')⟩, ?_⟩⟩
  rw [ht.eq_of_fixed]
  exact ⟨rfl, rfl⟩

/-- What is read of the body of a clause. -/
inductive ClauseReading where
  | filter (read : Scope → Except ReadError FilterGroup)
  | columns (read : Scope → List Text → List GroupColumn)
  | order (read : Scope → List Text → List OrderItem)
  | limit (read : Except ReadError Select.RowLimits)
  | rows (read : Except ReadError (Option Nat))

def Select.bodyReading (keyword : String) (body : Text) : ClauseReading :=
  if keyword = "GROUP BY" then .columns fun scope aliases => groupColumns scope aliases body
  else if keyword = "ORDER BY" then .order fun scope aliases => orderItems scope aliases body
  else if keyword = "LIMIT" then .limit (readLimit body)
  else if keyword = "OFFSET" then .rows (readNumber? offsetNumber body)
  else if keyword = "FETCH" then .rows (readNumber? fetchNumber body)
  else .filter fun scope => Filter.read scope body

/-- The keyword of a clause with what is read of its body. -/
def WrittenClause.content (c : WrittenClause) : String × ClauseReading :=
  (" ".intercalate c.words, Select.bodyReading (" ".intercalate c.words) (textOf c.body))

def WrittenClauses.content (cs : WrittenClauses) : List (String × ClauseReading) :=
  cs.map fun c => c.2.content

theorem WrittenClauses.map_body? (cs : WrittenClauses) (keyword : String) :
    (cs.body? keyword).map (Select.bodyReading keyword) =
      (cs.content.find? (·.1 == keyword)).map (·.2) := by
  induction cs with
  | nil => rfl
  | cons c cs ih =>
    rw [body?_cons, content, List.map_cons, ← content, List.find?_cons]
    by_cases hc : " ".intercalate c.2.words = keyword
    · simp [hc, WrittenClause.content]
    · rw [if_neg hc, ih, WrittenClause.content, beq_false_of_ne hc]

theorem Settled.clause {w : List String} (mem : w ∈ Select.clausePhrases)
    {hwords : ∀ k ∈ w, IsKeyword k.toList} {body : List Lexeme} {c : Char} {hc : isBlank c = true}
    (h : Settled body bodyKeywords (Select.bodyReading (" ".intercalate w))) :
    Stable (.blank c hc :: (Lexeme.phrase w hwords ++ .space :: body)) WrittenClauses.tokens
      WrittenClauses.content := by
  obtain ⟨m, h⟩ := h
  have clause : Stable (Lexeme.phrase w hwords ++ .space :: body)
      (fun c : WrittenClause => c.headTokens ++ c.bodyTokens) WrittenClause.content := by
    refine ⟨(" ".intercalate w, m), fun t ht => ?_⟩
    obtain ⟨u, v, rfl, hu, hv⟩ := ht.exists_of_append
    obtain ⟨p, rfl⟩ := hu.exists_phrase (WrittenClause.isPhrase_of_mem w mem).1
    obtain ⟨g, w, rfl, hw⟩ := hv.exists_of_blank
    obtain ⟨⟨ts, quiet⟩, rfl, rfl⟩ := h w hw
    refine ⟨⟨w, mem, p, g, ts, quiet.solid, quiet.avoids⟩, ?_, rfl⟩
    simp [WrittenClause.headTokens, WrittenClause.bodyTokens]
  exact clause.block WrittenClauses.blocks

theorem Settled.clauses {words : List String} (mem : words ∈ Select.clausePhrases)
    (hwords : ∀ k ∈ words, IsKeyword k.toList) {body : Option (List Lexeme)}
    (h : ∀ ls ∈ body, Settled ls bodyKeywords (Select.bodyReading (" ".intercalate words))) :
    ∀ ls ∈ clauseLexemes words hwords body,
    Stable (.line :: ls) WrittenClauses.tokens WrittenClauses.content := by
  intro ls hls
  obtain ⟨body, hbody, rfl⟩ : ∃ inside, body = some inside ∧ _ = ls := by
    simpa [clauseLexemes] using hls
  exact (h body hbody).clause mem

theorem Settled.map {M N : Type} {ls : List Lexeme} {keywords : List String} {read : Text → M}
    (h : Settled ls keywords read) (f : M → N) : Settled ls keywords fun t => f (read t) :=
  h.factor id (fun _ => rfl) fun _ _ h => congrArg f h

namespace Query.Tidy

variable {q : Query} (h : q.Tidy)
include h

theorem settled_groups {g : GroupClause} (hg : q.groupBy = some g) (hne : g.columns ≠ []) :
    Settled (g.columnsLexemes q.tables) bodyKeywords (Select.bodyReading "GROUP BY") := by
  have items : Stable (g.columnsLexemes q.tables) Listing.tokens fun l =>
      l.items.map Item.text := by
    refine stable_commaLexemes (by simpa using hne) (List.forall_mem_map.mpr fun c hc => ?_)
    obtain ⟨x, hx⟩ := exists_ref h.tables c.tableId (h.groups g hg c hc)
    exact ⟨x.text, fun t ht => ⟨x.item, ht.eq_of_fixed ▸ hx, rfl⟩⟩
  refine items.settled (fun l => l.quiet (by decide)) fun l l' hl =>
    congrArg ClauseReading.columns ?_
  have columns (l : Listing) (scope : Scope) (aliases : List Text) :
      Select.groupColumns scope aliases l.text =
        (l.items.map Item.text).map (Select.groupColumn scope aliases) := by
    rw [l.groupColumns_text, List.map_map]
    rfl
  funext scope aliases
  exact (columns l scope aliases).trans (hl ▸ (columns l' scope aliases).symm)

theorem stable_orderItem {os : List OrderItem} (hos : q.orderBy = some os) {o : OrderItem}
    (ho : o ∈ os) :
    Stable (o.lexemes q.tables) Item.tokens fun i scope aliases =>
      Select.readOrderItem? scope aliases i.text := by
  obtain ⟨x, hx⟩ := exists_ref h.tables o.tableId (h.orders os hos o ho)
  refine ⟨fun scope aliases => some ⟨(scope.resolve aliases x.text).1,
    String.ofList (scope.resolve aliases x.text).2, o.direction⟩, fun t ht => ?_⟩
  obtain ⟨t, rfl, h₁⟩ := ht.exists_of_fixed
  obtain ⟨g, t, rfl, h₂⟩ := h₁.exists_of_blank
  obtain ⟨word, t, rfl, h₃⟩ := h₂.exists_of_keyword
  let order : WrittenOrder := ⟨x, some ⟨g, _, o.direction.spelling_mem, word⟩⟩
  have direction : order.readDirection = o.direction := by
    cases hd : o.direction <;> simp only [order, WrittenOrder.readDirection, hd] <;> rfl
  refine ⟨order.item, ?_, ?_⟩
  · rw [← hx, h₃.eq_nil]
    simp [order, WrittenOrder.item, WrittenOrder.directionTokens, Ref.text]
  · funext scope aliases
    refine (order.readOrderItem_eq scope aliases).trans ?_
    rw [direction]

theorem settled_orders {os : List OrderItem} (hos : q.orderBy = some os) (hne : os ≠ []) :
    Settled (commaLexemes (os.map (·.lexemes q.tables))) bodyKeywords
      (Select.bodyReading "ORDER BY") := by
  have items : Stable (commaLexemes (os.map (·.lexemes q.tables))) Listing.tokens fun l =>
      l.items.map fun i scope aliases => Select.readOrderItem? scope aliases i.text :=
    stable_commaLexemes (by simpa using hne) (List.forall_mem_map.mpr fun o ho =>
      h.stable_orderItem hos ho)
  refine items.settled (fun l => l.quiet (by decide)) fun l l' hl => congrArg ClauseReading.order ?_
  have orders (l : Listing) (scope : Scope) (aliases : List Text) :
      Select.orderItems scope aliases l.text =
        (l.items.map fun i scope aliases => Select.readOrderItem? scope aliases i.text).filterMap
          fun read => read scope aliases := by
    rw [l.orderItems_text, List.filterMap_map]
    rfl
  funext scope aliases
  exact (orders l scope aliases).trans (hl ▸ (orders l' scope aliases).symm)

end Query.Tidy

theorem settled_number {keyword : String} {n : Nat} (h : IsReadable n) :
    Settled [.fixed (Dialect.intText n)] bodyKeywords (Select.bodyReading keyword) := by
  refine ⟨Select.bodyReading keyword (Dialect.intText n).toList, fun t ht =>
    ⟨⟨(WrittenNumber.ofNat n h).tokens, (WrittenNumber.ofNat n h).solid_tokens,
      (WrittenNumber.ofNat n h).avoids_tokens⟩, ?_⟩⟩
  have text : textOf (WrittenNumber.ofNat n h).tokens = (Dialect.intText n).toList := by
    rw [← WrittenNumber.digits_ofNat h]
    exact List.append_nil _
  exact ⟨text.trans ht.eq_of_fixed.symm, congrArg _ text⟩

theorem settled_offset {n : Nat} (h : IsReadable n) {hrows : ∀ k ∈ ["ROWS"], IsKeyword k.toList} :
    Settled (.fixed (Dialect.intText n) :: .space :: Lexeme.phrase ["ROWS"] hrows) bodyKeywords
      (Select.bodyReading "OFFSET") := by
  refine ⟨.rows (.ok (some n)), fun t ht => ?_⟩
  obtain ⟨t, rfl, h₁⟩ := ht.exists_of_fixed
  obtain ⟨g, t, rfl, h₂⟩ := h₁.exists_of_blank
  obtain ⟨s, t, rfl, h₃⟩ := h₂.exists_of_keyword
  let offset : WrittenOffset := ⟨.ofNat n h, some (g, s)⟩
  refine ⟨⟨offset.tokens, offset.solid, offset.avoids⟩, ?_, ?_⟩
  · rw [← WrittenNumber.digits_ofNat h]
    simp [offset, WrittenOffset.tokens, WrittenOffset.rowsTokens, h₃.eq_nil]
  · have := offset.readOffset_eq
    rw [show offset.number.value = n from WrittenNumber.value_ofNat h] at this
    exact congrArg ClauseReading.rows this

theorem settled_fetch {n : Nat} (h : IsReadable n) {hnext : ∀ k ∈ ["NEXT"], IsKeyword k.toList}
    {hrows : ∀ k ∈ ["ROWS", "ONLY"], IsKeyword k.toList} :
    Settled (Lexeme.phrase ["NEXT"] hnext ++ .space :: .fixed (Dialect.intText n) :: .space ::
      Lexeme.phrase ["ROWS", "ONLY"] hrows) bodyKeywords (Select.bodyReading "FETCH") := by
  refine ⟨.rows (.ok (some n)), fun t ht => ?_⟩
  obtain ⟨next, t, rfl, h₁⟩ := Relaid.exists_of_keyword ht
  obtain ⟨before, t, rfl, h₂⟩ := h₁.exists_of_blank
  obtain ⟨t, rfl, h₃⟩ := h₂.exists_of_fixed
  obtain ⟨after, t, rfl, h₄⟩ := h₃.exists_of_blank
  obtain ⟨rows, t, rfl, h₅⟩ := h₄.exists_of_keyword
  obtain ⟨gap, t, rfl, h₆⟩ := h₅.exists_of_blank
  obtain ⟨only, t, rfl, h₇⟩ := h₆.exists_of_keyword
  let fetch : WrittenFetch := ⟨next, before, .ofNat n h, after, rows, gap, only⟩
  refine ⟨⟨fetch.tokens, fetch.solid, fetch.avoids⟩, ?_, ?_⟩
  · rw [← WrittenNumber.digits_ofNat h]
    simp [fetch, WrittenFetch.tokens, h₇.eq_nil]
  · have := fetch.readFetch_eq
    rw [show fetch.number.value = n from WrittenNumber.value_ofNat h] at this
    exact congrArg ClauseReading.rows this

namespace Query.Tidy

variable {q : Query} (h : q.Tidy) (d : Dialect) {limit : Nat} (hlimit : q.limit = some limit)
include h hlimit

theorem stable_limitClauses (c : Char) (hc : isBlank c = true) :
    ∀ ls ∈ d.limitClauses limit q.offset,
      Stable (.blank c hc :: ls) WrittenClauses.tokens WrittenClauses.content := by
  have readable : IsReadable limit := h.limit limit hlimit
  have limited : ∀ ls ∈ Dialect.mysql.limitClauses limit q.offset,
      Stable (.blank c hc :: ls) WrittenClauses.tokens WrittenClauses.content := by
    refine List.forall_mem_cons.mpr ⟨(settled_number readable).clause (w := ["LIMIT"]) (by decide),
      ?_⟩
    intro ls hls
    obtain ⟨n, hfilter, rfl⟩ := Option.map_eq_some_iff.mp (Option.mem_toList.mp hls)
    obtain ⟨hn, -⟩ := Option.filter_eq_some_iff.mp hfilter
    exact (settled_number (h.offset n hn)).clause (w := ["OFFSET"]) (by decide)
  cases d with
  | sqlserver =>
    have offset : IsReadable (q.offset.getD 0) := by
      cases ho : q.offset with
      | none => exact isReadable_zero
      | some n => exact h.offset n ho
    exact List.forall_mem_cons.mpr ⟨(settled_offset offset).clause (w := ["OFFSET"]) (by decide),
      List.forall_mem_singleton.mpr ((settled_fetch readable).clause (w := ["FETCH"]) (by decide))⟩
  | _ => exact limited

theorem stable_limits :
    Stable
      (.line :: d.limitLexemes limit q.offset) WrittenClauses.tokens WrittenClauses.content := by
  have line := h.stable_limitClauses d hlimit '\n' (by decide)
  have space := h.stable_limitClauses d hlimit ' ' (by decide)
  rw [Dialect.limitLexemes]
  obtain ⟨first, rest, hclauses⟩ : ∃ first rest, d.limitClauses limit q.offset = first :: rest := by
    cases d <;> exact ⟨_, _, rfl⟩
  rw [hclauses] at line space ⊢
  rw [intercalate_singleton_cons, List.flatMap_def]
  have clauses : ∀ ls ∈ (.line :: first) :: rest.map (.space :: ·),
      Stable ls WrittenClauses.tokens WrittenClauses.content :=
    List.forall_mem_cons.mpr ⟨line first List.mem_cons_self,
      List.forall_mem_map.mpr fun ls hls => space ls (List.mem_cons_of_mem _ hls)⟩
  exact Stable.flatten WrittenClauses.blocks clauses

end Query.Tidy

theorem Query.Tidy.stable_ending {q : Query} (h : q.Tidy) (d : Dialect) :
    Stable
      ((q.endingLexemes d).flatMap (.line :: ·)) WrittenClauses.tokens WrittenClauses.content := by
  rw [List.flatMap_def]
  refine Stable.flatten WrittenClauses.blocks (List.forall_mem_map.mpr ?_)
  refine List.forall_mem_append.mpr ⟨Settled.clauses (by decide) _ fun ls hls => ?_,
    List.forall_mem_append.mpr ⟨Settled.clauses (by decide) _ fun ls hls => ?_,
      List.forall_mem_append.mpr ⟨Settled.clauses (by decide) _ fun ls hls => ?_,
        List.forall_mem_append.mpr ⟨Settled.clauses (by decide) _ fun ls hls => ?_,
          fun ls hls => ?_⟩⟩⟩⟩
  · obtain ⟨f, hf, hls⟩ := Option.bind_eq_some_iff.mp hls
    exact ((h.filters f hf).settled_lexemes h.tables hls).map ClauseReading.filter
  · obtain ⟨g, hg, rfl⟩ := Option.map_eq_some_iff.mp hls
    obtain ⟨hg, hne⟩ := Option.filter_eq_some_iff.mp hg
    exact h.settled_groups hg (by simpa using hne)
  · obtain ⟨g, hg, hls⟩ := Option.bind_eq_some_iff.mp hls
    obtain ⟨n, hn, hls⟩ := Option.bind_eq_some_iff.mp hls
    exact ((h.having g hg n hn).settled_lexemes h.tables hls).map ClauseReading.filter
  · obtain ⟨os, hos, rfl⟩ := Option.map_eq_some_iff.mp hls
    obtain ⟨hos, hne⟩ := Option.filter_eq_some_iff.mp hos
    exact h.settled_orders hos (by simpa using hne)
  · obtain ⟨limit, hlimit, rfl⟩ := Option.map_eq_some_iff.mp (Option.mem_toList.mp hls)
    exact h.stable_limits d hlimit

end SqlCanvas
