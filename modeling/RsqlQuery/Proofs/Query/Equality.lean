import RsqlQuery.Proofs.Filter.Equality
import RsqlQuery.Query.Basic

/-!
# Equality of queries

Two queries are equal if their filters are and all else is the same. Values bring two exceptions
into that: a zero equals the zero of the other sign, and a NaN equals nothing. The second makes
equality a partial equivalence, whose elements are the queries that hold no NaN anywhere. The first
makes equal queries differ in their texts if an operator writes a zero with its sign. Built-in
operators do not; a custom one is given the value itself and can.

## Main statements

* `Query.beq_self_iff` — a query equals itself exactly if it holds no NaN.
* `Query.forall_render_eq_iff` — the operators by which equal queries have one text.
* `Query.beq_partialEquiv_and_render_eq_iff` — the same for values, comparisons, chains and queries.
* `Query.render_ne_of_beq_signed` — equal queries by an operator that writes signs.
-/

namespace RsqlQuery

open Number Time

namespace Query

theorem beq_iff {x y : Query} :
    (x == y) = true ↔ (x.filters == y.filters) = true ∧ x.ordering = y.ordering ∧
      x.pageSize = y.pageSize ∧ x.pageNumber = y.pageNumber ∧ x.totalCount = y.totalCount ∧
      x.labels = y.labels := by
  have parts : (x == y) = (x.filters == y.filters && decide (x.ordering = y.ordering)
    && decide (x.pageSize = y.pageSize) && decide (x.pageNumber = y.pageNumber)
    && x.totalCount == y.totalCount && decide (x.labels = y.labels)) := rfl
  simp [parts, and_assoc]

instance : PartialEquivBEq Query where
  symm := by
    intro x y h
    obtain ⟨filters, rest⟩ := beq_iff.mp h
    exact beq_iff.mpr ⟨BEq.symm filters, by simp [rest]⟩
  trans := by
    intro x y q h k
    obtain ⟨first, rest⟩ := beq_iff.mp h
    obtain ⟨second, rest'⟩ := beq_iff.mp k
    exact beq_iff.mpr ⟨BEq.trans first second, by simp [rest, rest']⟩

theorem beq_self_iff {q : Query} :
    (q == q) = true ↔ ∀ c ∈ (Filter.chain q.filters).comparisons, c.value.holdsNaN = false := by
  rw [beq_iff, Chain.beq_eq, Filter.beq_self_iff]
  simp

theorem render_eq_of_beq (z : TimeZone) {x y : Query} (h : (x == y) = true)
    (filters : x.filters.render z = y.filters.render z) : x.render z = y.render z := by
  obtain ⟨-, ordering, pageSize, pageNumber, totalCount, labels⟩ := beq_iff.mp h
  have contents : x.contents z = y.contents z := by
    rw [Query.contents, Query.contents, filterContent, filterContent, orderingContent,
      orderingContent, pageSizeContent, pageSizeContent, pageNumberContent, pageNumberContent,
      filters, ordering, pageSize, pageNumber, totalCount]
  rw [render, render, contents, labels]

theorem contents_filters (z : TimeZone) (f : FilterChain) :
    ({ filters := f } : Query).contents z = ({ filters := f } : Query).filterContent z := by
  simp [contents, orderingContent, pageSizeContent, pageNumberContent]

/-- A query of filters alone is the section of the filters, or nothing. -/
theorem render_filters (z : TimeZone) (f : FilterChain) :
    ({ filters := f } : Query).render z =
      if f.render z = "" then "" else "$where=" ++ f.render z := by
  rw [render, contents_filters, filterContent]
  by_cases hidden : f.render z = ""
  · simp [hidden]
  · have label : ({} : Labels).get .filters ++ "=" = "$where=" := rfl
    simp [hidden, ← label]

theorem render_eq_of_render_filters_eq (z : TimeZone) {f g : FilterChain}
    (h : ({ filters := f } : Query).render z = ({ filters := g } : Query).render z) :
    f.render z = g.render z := by
  rw [render_filters, render_filters] at h
  split_ifs at h with hf hg hg
  · rw [hf, hg]
  · simp at h
  · simp at h
  · simpa using h

/-- Equal queries of comparisons by certain operators are written in the same way exactly if none of
those operators shows the sign of a zero. -/
theorem forall_render_eq_iff (z : TimeZone) {ops : Operator → Prop}
    (marked : Operator.UniquelyMarked ops) :
    (∀ x y : Query, (Filter.chain x.filters).Uses ops → (Filter.chain y.filters).Uses ops →
      (x == y) = true → x.render z = y.render z) ↔ ∀ op, ops op → op.IgnoresZeroSigns z := by
  rw [← Chain.forall_render_eq_iff z marked]
  constructor
  · intro same f g hf hg h
    apply render_eq_of_render_filters_eq
    exact same { filters := f } { filters := g } hf hg (beq_iff.mpr ⟨h, by simp⟩)
  · intro same x y hx hy h
    exact render_eq_of_beq z h (same _ _ hx hy (beq_iff.mp h).1)

/-- The equality of values, comparisons, chains and queries is symmetric and transitive; its
elements equal themselves exactly if no NaN occurs in them anywhere; and equal values are written in
the same way in every zone and with all options. Take operators of which no two are equal. Equal
comparisons by these operators are written in the same way exactly if each operator writes every
value as it writes the same value without the signs of its zeros, as all built-in operators do; and
likewise for chains and queries. -/
theorem beq_partialEquiv_and_render_eq_iff (z : TimeZone) (ops : Operator → Prop)
    (marked : Operator.UniquelyMarked ops) :
    (PartialEquivBEq Value ∧ PartialEquivBEq Comparison ∧ PartialEquivBEq FilterChain ∧
      PartialEquivBEq Query) ∧
    ((∀ v : Value, (v == v) = true ↔ v.holdsNaN = false) ∧
      (∀ c : Comparison, (c == c) = true ↔ c.value.holdsNaN = false) ∧
      (∀ f : FilterChain, (f == f) = true ↔
        ∀ c ∈ (Filter.chain f).comparisons, c.value.holdsNaN = false) ∧
      ∀ q : Query, (q == q) = true ↔
        ∀ c ∈ (Filter.chain q.filters).comparisons, c.value.holdsNaN = false) ∧
    (∀ (o : RenderOptions) (v w : Value), (v == w) = true → v.literal z o = w.literal z o) ∧
    (∀ b : BuiltIn, (Operator.builtIn b).IgnoresZeroSigns z) ∧
    ((∀ c d : Comparison, ops c.operator → ops d.operator → (c == d) = true →
      c.render z = d.render z) ↔ ∀ op, ops op → op.IgnoresZeroSigns z) ∧
    ((∀ f g : FilterChain, (Filter.chain f).Uses ops → (Filter.chain g).Uses ops →
      (f == g) = true → f.render z = g.render z) ↔ ∀ op, ops op → op.IgnoresZeroSigns z) ∧
    ((∀ x y : Query, (Filter.chain x.filters).Uses ops → (Filter.chain y.filters).Uses ops →
      (x == y) = true → x.render z = y.render z) ↔ ∀ op, ops op → op.IgnoresZeroSigns z) := by
  refine ⟨⟨inferInstance, inferInstance, inferInstance, inferInstance⟩,
    ⟨fun _ => Value.beq_self_iff, fun _ => Comparison.beq_self_iff, fun _ => Filter.beq_self_iff,
      fun _ => beq_self_iff⟩, ?_, ?_, ?_, ?_, ?_⟩
  · exact fun o v w => Value.literal_eq_of_beq z o
  · exact fun b => Operator.ignoresZeroSigns_builtIn z b
  · exact Comparison.forall_render_eq_iff z marked
  · exact Chain.forall_render_eq_iff z marked
  · exact forall_render_eq_iff z marked

/-- A custom operator and a built-in one on the same number, for the one inside two sequences. -/
def twice (x : Binary64) : Query where
  filters := (Chain.ofFilter
    ((field "a").custom ⟨0, Catalogue.echo⟩ (.array [.array [.float x]]))).or
      ((field "b").greaterThan x)

/-- The operators of these queries. -/
def echoOrGreater (op : Operator) : Prop :=
  op = .custom ⟨0, Catalogue.echo⟩ ∨ op = .builtIn .greaterThan

theorem beq_partialEquiv_and_render_eq_iff_zeros :
    Operator.UniquelyMarked echoOrGreater ∧
    (Filter.chain (twice ⟨0⟩).filters).Uses echoOrGreater ∧
    (twice ⟨0⟩ == twice ⟨0x8000000000000000⟩) = true ∧
    (twice ⟨0⟩).render .utc = (twice ⟨0x8000000000000000⟩).render .utc ∧
    (twice ⟨0x7FF8000000000000⟩ == twice ⟨0x7FF8000000000000⟩) = false := by
  have marked : Operator.UniquelyMarked echoOrGreater := by
    rintro a b (rfl | rfl) (rfl | rfl) h
    · rfl
    · exact absurd h Bool.false_ne_true
    · exact absurd h Bool.false_ne_true
    · rfl
  have used : ∀ x, (Filter.chain (twice x).filters).Uses echoOrGreater := by
    intro x
    have operators : (Filter.chain (twice x).filters).comparisons =
        [(field "a").custom ⟨0, Catalogue.echo⟩ (.array [.array [.float x]]),
          (field "b").greaterThan x] := rfl
    intro c hc
    rw [operators, List.mem_cons, List.mem_singleton] at hc
    obtain rfl | rfl := hc
    · exact .inl rfl
    · exact .inr rfl
  obtain ⟨-, ⟨-, -, -, itself⟩, -, builtIn, -, -, queries⟩ :=
    beq_partialEquiv_and_render_eq_iff .utc echoOrGreater marked
  have unsigned : ∀ op, echoOrGreater op → op.IgnoresZeroSigns .utc := by
    rintro op (rfl | rfl)
    · have listed : ("echo", Catalogue.echo) ∈ Catalogue.entries := by simp [Catalogue.entries]
      exact Operator.ignoresZeroSigns_custom_of_listed .utc listed
    · exact builtIn .greaterThan
  refine ⟨marked, used _, rfl, queries.mpr unsigned _ _ (used _) (used _) rfl, ?_⟩
  rw [Bool.eq_false_iff, ne_eq, itself]
  decide

/-- An operator that writes the sign of a number, that of a zero included. -/
def signed : CustomOperator where
  mark := 0
  suffix v l :=
    match v with
    | .float x => "=signed=" ++ (if x.bits.toNat < binary64.signBit then "+" else "-") ++ l.text
    | _ => "=signed=" ++ l.text

/-- A comparison of a number by that operator. -/
def signedComparison (x : Binary64) : Comparison := (field "a").custom signed (.float x)

/-- One operator makes two equal comparisons with different texts of the two zeros, and from them
chains and queries that are equal and have different texts. -/
theorem render_ne_of_beq_signed :
    Operator.UniquelyMarked (fun op => op = .custom signed) ∧
    (signedComparison ⟨0⟩ == signedComparison ⟨0x8000000000000000⟩) = true ∧
    (signedComparison ⟨0⟩).render .utc = "a=signed=+0" ∧
    (signedComparison ⟨0x8000000000000000⟩).render .utc = "a=signed=-0" ∧
    (Chain.ofFilter (signedComparison ⟨0⟩) ==
      Chain.ofFilter (signedComparison ⟨0x8000000000000000⟩)) = true ∧
    (Chain.ofFilter (signedComparison ⟨0⟩)).render .utc = "a=signed=+0" ∧
    (Chain.ofFilter (signedComparison ⟨0x8000000000000000⟩)).render .utc = "a=signed=-0" ∧
    (({ filters := Chain.ofFilter (signedComparison ⟨0⟩) } : Query) ==
      { filters := Chain.ofFilter (signedComparison ⟨0x8000000000000000⟩) }) = true ∧
    ({ filters := Chain.ofFilter (signedComparison ⟨0⟩) } : Query).render .utc =
      "$where=a=signed=+0" ∧
    ({ filters := Chain.ofFilter (signedComparison ⟨0x8000000000000000⟩) } : Query).render .utc =
      "$where=a=signed=-0" := by
  have marked : Operator.UniquelyMarked (fun op => op = .custom signed) :=
    fun a b ha hb _ => ha.trans hb.symm
  exact ⟨marked, by decide⟩

end Query

end RsqlQuery
