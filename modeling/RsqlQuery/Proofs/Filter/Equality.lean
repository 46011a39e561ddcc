import Mathlib.Data.List.Forall2
import RsqlQuery.Filter.Catalogue
import RsqlQuery.Proofs.Filter.NormalForm
import RsqlQuery.Proofs.Value.Equality

/-!
# Equality of filters

Two comparisons are equal if their four parts are, and two chains if their links are equal one by
one. The operators of equal comparisons are the same built-in one, or two custom ones with one mark.
A mark stands for the operator that was made with it, so that they are one operator in either case.
Still it can be given different values on both sides, for equal values may differ in the signs of
their zeros. So equal filters are written in the same way, unless an operator in them shows those
signs; and any operator that does writes two equal comparisons in two ways.

## Main definitions

* `Operator.UniquelyMarked` — operators among which a mark stands for one.
* `Operator.IgnoresZeroSigns` — an operator that does not show the signs of zeros.
* `Filter.Uses` — a filter all of whose comparisons are by certain operators.

## Main statements

* `Filter.chain_beq_chain_iff` — equality of chains, link by link.
* `Filter.beq_self_iff` — a filter equals itself exactly if no comparison in it holds a NaN.
* `Comparison.forall_render_eq_iff`, `Chain.forall_render_eq_iff` — the operators by which equal
  comparisons, or equal chains, are written in the same way.
-/

namespace RsqlQuery

open Time

/-! ## Operators -/

instance : EquivBEq CustomOperator where
  rfl := by intro a; exact beq_self_eq_true a.mark
  symm := by intro a b h; exact BEq.symm (a := a.mark) h
  trans := by intro a b c h k; exact BEq.trans (a := a.mark) h k

/-- No operator of the catalogue sees the sign of a zero. -/
theorem Catalogue.suffix_unsignedZeros {name : String} {suffix : Value → Literal → String}
    (listed : (name, suffix) ∈ entries) (v : Value) (l : Literal) :
    suffix v.unsignedZeros l = suffix v l := by
  simp only [entries, List.mem_cons, List.not_mem_nil, or_false, Prod.mk.injEq] at listed
  obtain ⟨-, rfl⟩ | ⟨-, rfl⟩ | ⟨-, rfl⟩ | ⟨-, rfl⟩ | ⟨-, rfl⟩ | ⟨-, rfl⟩ := listed
  · rfl
  · rfl
  · simp only [echo, Value.isAbsent_unsignedZeros]
  · simp only [ilike, Value.isString_unsignedZeros]
  · rw [count, count, Value.items?_unsignedZeros]
    cases v.items? <;> simp
  · rfl

namespace Operator

/-- A mark among these operators stands for one of them, so that equal ones are the same. -/
def UniquelyMarked (ops : Operator → Prop) : Prop :=
  ∀ a b, ops a → ops b → (a == b) = true → a = b

/-- What an operator writes behind the field for a value, whose literal it is given with it. -/
def written (z : TimeZone) (o : RenderOptions) (op : Operator) (v : Value) : String :=
  op.suffix v (v.literal z o)

/-- An operator that writes every value as it writes the same value without the signs of its zeros.
Values that hold a NaN are left out, as they equal no value at all. -/
def IgnoresZeroSigns (z : TimeZone) (op : Operator) : Prop :=
  ∀ (o : RenderOptions) (v : Value), v.holdsNaN = false →
    op.written z o v.unsignedZeros = op.written z o v

@[simp] theorem builtIn_beq_builtIn (a b : BuiltIn) :
    (builtIn a == builtIn b) = decide (a = b) := rfl

@[simp] theorem custom_beq_custom (a b : CustomOperator) : (custom a == custom b) = (a == b) := rfl

@[simp] theorem builtIn_beq_custom (a : BuiltIn) (b : CustomOperator) :
    (builtIn a == custom b) = false := rfl

@[simp] theorem custom_beq_builtIn (a : CustomOperator) (b : BuiltIn) :
    (custom a == builtIn b) = false := rfl

instance : EquivBEq Operator where
  rfl := by intro a; cases a <;> simp
  symm := by
    intro a b h
    cases a <;> cases b <;> simp_all [BEq.comm]
  trans := by
    intro a b c h k
    cases a <;> cases b <;> cases c <;> simp_all
    exact BEq.trans h k

/-- A built-in operator sees no more of a value than its literal, which has no signs at zeros. -/
theorem ignoresZeroSigns_builtIn (z : TimeZone) (b : BuiltIn) :
    (builtIn b).IgnoresZeroSigns z := by
  intro o v _
  exact congrArg b.suffix (v.literal_unsignedZeros z o)

/-- No operator of the catalogue shows the sign of a zero. -/
theorem ignoresZeroSigns_custom_of_listed (z : TimeZone) {name : String} {op : CustomOperator}
    (listed : (name, op.suffix) ∈ Catalogue.entries) : (custom op).IgnoresZeroSigns z := by
  intro o v _
  calc (custom op).written z o v.unsignedZeros
      = op.suffix v.unsignedZeros (v.literal z o) :=
        congrArg (op.suffix v.unsignedZeros) (v.literal_unsignedZeros z o)
    _ = (custom op).written z o v := Catalogue.suffix_unsignedZeros listed v _

theorem IgnoresZeroSigns.written_eq {z : TimeZone} {op : Operator} (h : op.IgnoresZeroSigns z)
    (o : RenderOptions) {v w : Value} (same : (v == w) = true) :
    op.written z o v = op.written z o w := by
  obtain ⟨noNaN, unsigned⟩ := Value.beq_iff.mp same
  obtain ⟨noNaN', -⟩ := Value.beq_iff.mp (BEq.symm same)
  calc op.written z o v = op.written z o v.unsignedZeros := (h o v noNaN).symm
    _ = op.written z o w.unsignedZeros := by rw [unsigned]
    _ = op.written z o w := h o w noNaN'

end Operator

/-! ## Comparisons -/

namespace Comparison

theorem beq_iff {c d : Comparison} :
    (c == d) = true ↔ c.field = d.field ∧ (c.operator == d.operator) = true ∧
      (c.value == d.value) = true ∧ c.options = d.options := by
  have parts : (c == d) = (c.field == d.field && c.operator == d.operator && c.value == d.value
    && decide (c.options = d.options)) := rfl
  simp [parts, and_assoc]

theorem beq_self_iff {c : Comparison} : (c == c) = true ↔ c.value.holdsNaN = false := by
  simp [beq_iff, Value.beq_self_iff]

instance : PartialEquivBEq Comparison where
  symm := by
    intro c d h
    obtain ⟨field, operator, value, options⟩ := beq_iff.mp h
    exact beq_iff.mpr ⟨field.symm, BEq.symm operator, BEq.symm value, options.symm⟩
  trans := by
    intro b c d h k
    obtain ⟨field, operator, value, options⟩ := beq_iff.mp h
    obtain ⟨field', operator', value', options'⟩ := beq_iff.mp k
    exact beq_iff.mpr ⟨field.trans field', BEq.trans operator operator', BEq.trans value value',
      options.trans options'⟩

theorem render_eq_of_beq {z : TimeZone} {c d : Comparison} (one : c.operator = d.operator)
    (unsigned : d.operator.IgnoresZeroSigns z) (h : (c == d) = true) :
    c.render z = d.render z := by
  obtain ⟨field, -, value, options⟩ := beq_iff.mp h
  have written := unsigned.written_eq c.options value
  calc c.render z = c.field ++ c.operator.written z c.options c.value := rfl
    _ = d.field ++ d.operator.written z d.options d.value := by rw [field, one, written, options]

/-- Equal comparisons by certain operators are written in the same way exactly if none of those
operators shows the sign of a zero. If one does for some value, it writes the value and the same
without signs, which are equal, in two ways. -/
theorem forall_render_eq_iff (z : TimeZone) {ops : Operator → Prop}
    (marked : Operator.UniquelyMarked ops) :
    (∀ c d : Comparison, ops c.operator → ops d.operator → (c == d) = true →
      c.render z = d.render z) ↔ ∀ op, ops op → op.IgnoresZeroSigns z := by
  constructor
  · intro same op hop o v noNaN
    have equal : (({ field := "", operator := op, value := v.unsignedZeros, options := o } :
        Comparison) == { field := "", operator := op, value := v, options := o }) = true :=
      beq_iff.mpr ⟨rfl, BEq.refl op, BEq.symm (Value.beq_unsignedZeros noNaN), rfl⟩
    have texts := same _ _ hop hop equal
    rwa [render, render, String.empty_append, String.empty_append] at texts
  · intro unsigned c d hc hd h
    have one := marked _ _ hc hd (beq_iff.mp h).2.1
    exact render_eq_of_beq one (unsigned _ hd) h

end Comparison

/-! ## Filters -/

namespace Filter

/-- All comparisons in a filter are by some of these operators. -/
def Uses (ops : Operator → Prop) (f : Filter) : Prop := ∀ c ∈ f.comparisons, ops c.operator

/-- Two links are equal if their connectives and their items are. -/
def LinkBEq (l m : Link Filter) : Prop := l.connective = m.connective ∧ (l.item == m.item) = true

theorem comparison_beq_comparison (c d : Comparison) :
    (comparison c == comparison d) = (c == d) := rfl

theorem beqLinks_iff {as bs : List (Link Filter)} :
    beqLinks as bs = true ↔ List.Forall₂ LinkBEq as bs := by
  induction as generalizing bs with
  | nil => cases bs <;> simp [beqLinks]
  | cons l as ih =>
    cases bs with
    | nil => simp [beqLinks]
    | cons m bs =>
      have item : beq l.item m.item = (l.item == m.item) := rfl
      simp [beqLinks, LinkBEq, item, ih]

theorem chain_beq_chain_iff {as bs : List (Link Filter)} {g h : Bool} :
    (chain ⟨as, g⟩ == chain ⟨bs, h⟩) = true ↔ List.Forall₂ LinkBEq as bs ∧ g = h := by
  have parts : (chain ⟨as, g⟩ == chain ⟨bs, h⟩) = (beqLinks as bs && g == h) := rfl
  simp [parts, beqLinks_iff]

/-- What equals a comparison is a comparison. -/
theorem exists_of_comparison_beq {c : Comparison} {f : Filter} (h : (comparison c == f) = true) :
    ∃ d, f = comparison d ∧ (c == d) = true := by
  cases f with
  | comparison d => exact ⟨d, rfl, h⟩
  | chain d => exact absurd h Bool.false_ne_true

/-- What equals a chain is a chain of as many links, each equal to its own. -/
theorem exists_of_chain_beq {links : List (Link Filter)} {grouped : Bool} {f : Filter}
    (h : (chain ⟨links, grouped⟩ == f) = true) :
    ∃ others, f = chain ⟨others, grouped⟩ ∧ List.Forall₂ LinkBEq links others := by
  cases f with
  | comparison d => exact absurd h Bool.false_ne_true
  | chain d =>
    obtain ⟨same, rfl⟩ := chain_beq_chain_iff.mp h
    exact ⟨d.links, rfl, same⟩

theorem beq_symm {f g : Filter} (h : (f == g) = true) : (g == f) = true := by
  induction f using chain_induction generalizing g with
  | comparison c =>
    obtain ⟨d, rfl, same⟩ := exists_of_comparison_beq h
    exact BEq.symm (a := c) same
  | chain links grouped ih =>
    obtain ⟨others, rfl, same⟩ := exists_of_chain_beq h
    have back : List.Forall₂ (flip LinkBEq) links others :=
      ((List.forall₂_and_left ..).mpr ⟨ih, same⟩).imp
        fun l m ⟨item, connective, equal⟩ => ⟨connective.symm, item equal⟩
    exact chain_beq_chain_iff.mpr ⟨back.flip, rfl⟩

theorem forall₂_linkBEq_trans {as bs cs : List (Link Filter)}
    (item : ∀ l ∈ as, ∀ f g, (l.item == f) = true → (f == g) = true → (l.item == g) = true)
    (first : List.Forall₂ LinkBEq as bs) (second : List.Forall₂ LinkBEq bs cs) :
    List.Forall₂ LinkBEq as cs := by
  induction first generalizing cs with
  | nil => exact second
  | @cons l m as bs lm _ ih =>
    obtain ⟨n, cs, mn, tail, rfl⟩ := List.forall₂_cons_left_iff.mp second
    refine .cons ⟨lm.1.trans mn.1, item l List.mem_cons_self _ _ lm.2 mn.2⟩ (ih ?_ tail)
    exact fun k hk => item k (List.mem_cons_of_mem _ hk)

theorem beq_trans {f g k : Filter} (hfg : (f == g) = true) (hgk : (g == k) = true) :
    (f == k) = true := by
  induction f using chain_induction generalizing g k with
  | comparison c =>
    obtain ⟨d, rfl, first⟩ := exists_of_comparison_beq hfg
    obtain ⟨e, rfl, second⟩ := exists_of_comparison_beq hgk
    exact BEq.trans (a := c) first second
  | chain links grouped ih =>
    obtain ⟨others, rfl, first⟩ := exists_of_chain_beq hfg
    obtain ⟨more, rfl, second⟩ := exists_of_chain_beq hgk
    exact chain_beq_chain_iff.mpr
      ⟨forall₂_linkBEq_trans (fun l hl f g => ih l hl) first second, rfl⟩

instance : PartialEquivBEq Filter where
  symm := beq_symm
  trans := beq_trans

theorem beq_self_iff {f : Filter} :
    (f == f) = true ↔ ∀ c ∈ f.comparisons, c.value.holdsNaN = false := by
  induction f using chain_induction with
  | comparison c =>
    rw [comparison_beq_comparison, Comparison.beq_self_iff]
    simp [comparisons]
  | chain links grouped ih =>
    rw [chain_beq_chain_iff, List.forall₂_same, comparisons_chain, List.forall_mem_flatMap]
    simp only [and_true, LinkBEq, true_and]
    exact forall₂_congr ih

/-- Equal filters render the same if the equal comparisons in them do. -/
theorem fragment_eq_of_beq (z : TimeZone) {f g : Filter} (h : (f == g) = true)
    (texts : ∀ c ∈ f.comparisons, ∀ d ∈ g.comparisons, (c == d) = true → c.render z = d.render z) :
    f.fragment z = g.fragment z := by
  induction f using chain_induction generalizing g with
  | comparison c =>
    obtain ⟨d, rfl, same⟩ := exists_of_comparison_beq h
    rw [fragment, fragment, texts c (by simp [comparisons]) d (by simp [comparisons]) same]
  | chain links grouped ih =>
    obtain ⟨others, rfl, same⟩ := exists_of_chain_beq h
    rw [comparisons_chain, comparisons_chain] at texts
    have link : ∀ {l m}, (l, m) ∈ links.zip others → fragmentLink z l = fragmentLink z m := by
      intro l m hlm
      obtain ⟨hl, hm⟩ := List.of_mem_zip hlm
      obtain ⟨connective, item⟩ := List.forall₂_zip same hlm
      rw [fragmentLink, fragmentLink, connective, ih l hl item fun c hc d hd =>
        texts c (List.mem_flatMap_of_mem hl hc) d (List.mem_flatMap_of_mem hm hd)]
    have fragments : links.map (fragmentLink z) = others.map (fragmentLink z) := by
      rw [← List.forall₂_eq_eq_eq, List.forall₂_map_left_iff, List.forall₂_map_right_iff]
      exact List.forall₂_iff_zip.mpr ⟨same.length_eq, link⟩
    rw [fragment_chain_mk, fragment_chain_mk, fragments]

end Filter

/-! ## Chains -/

namespace Chain

theorem beq_eq (f g : FilterChain) : (f == g) = (Filter.chain f == Filter.chain g) := rfl

instance : PartialEquivBEq FilterChain where
  symm := Filter.beq_symm
  trans := Filter.beq_trans

theorem beq_ofFilter {f g : Filter} (h : (f == g) = true) : (ofFilter f == ofFilter g) = true :=
  Filter.chain_beq_chain_iff.mpr ⟨.cons ⟨rfl, h⟩ .nil, rfl⟩

theorem render_ofFilter (z : TimeZone) (f : Filter) :
    (ofFilter f).render z = (f.fragment z).text :=
  congrArg Fragment.text (Filter.fragment_ofFilter z f)

theorem uses_ofFilter {ops : Operator → Prop} {f : Filter} (h : f.Uses ops) :
    (Filter.chain (ofFilter f)).Uses ops := by
  intro c hc
  have held : c ∈ [(⟨none, f⟩ : Link Filter)].flatMap fun l => l.item.comparisons := by
    rwa [← Filter.comparisons_chain _ false]
  exact h c (by simpa using held)

/-- Equal chains of comparisons by certain operators are written in the same way exactly if none of
those operators shows the sign of a zero: a comparison alone makes a chain with its text. -/
theorem forall_render_eq_iff (z : TimeZone) {ops : Operator → Prop}
    (marked : Operator.UniquelyMarked ops) :
    (∀ f g : FilterChain, (Filter.chain f).Uses ops → (Filter.chain g).Uses ops →
      (f == g) = true → f.render z = g.render z) ↔ ∀ op, ops op → op.IgnoresZeroSigns z := by
  rw [← Comparison.forall_render_eq_iff z marked]
  constructor
  · intro same c d hc hd h
    have alone : ∀ e : Comparison, ops e.operator →
        (Filter.chain (ofFilter (.comparison e))).Uses ops := by
      intro e he
      apply uses_ofFilter
      intro e' he'
      rwa [List.mem_singleton.mp he']
    have texts := same _ _ (alone c hc) (alone d hd) (beq_ofFilter h)
    rw [render_ofFilter, render_ofFilter] at texts
    exact texts
  · intro same f g hf hg h
    rw [render, render, Filter.fragment_eq_of_beq z h]
    exact fun c hc d hd equal => same c d (hf c hc) (hg d hd) equal

end Chain

end RsqlQuery
