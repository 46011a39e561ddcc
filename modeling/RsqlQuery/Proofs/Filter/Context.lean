import Mathlib.Data.List.Basic
import Mathlib.Logic.Function.Iterate
import RsqlQuery.Filter.Catalogue
import RsqlQuery.Proofs.Filter.NormalForm

/-!
# Filters inside other filters

A chain that is an item of another shows in what that renders through its fragment alone. So two
chains with one fragment can take each other's place at any depth, whatever is around them and
whatever their comparisons render. Two edits keep the fragment of a chain: making it the only item
of a new chain, and adding an item that renders nothing. The second can take the connective away
from what was the first item of the chain, or give it one, but that connective is never printed.

## Main definitions

* `Surrounding`, `Chain.within` — a chain with a place for another, and a chain in such places.
* `Chain.wrap`, `Chain.ofSequence` — a chain as the only item of another, and one from its items.
* `Fragment.row` — fragments one after the other, with the connectives that they were given with.

## Main statements

* `Chain.fragment_within_congr` — chains with one fragment can take each other's place.
* `Chain.fragment_ofSequence` — what a chain renders, from the items it was made of.
* `Chain.render_within_of_invisible` — the two edits cannot be seen from outside.
-/

namespace RsqlQuery

open Time

/-- A chain with a place for another one among its links. -/
structure Surrounding where
  before : List (Link Filter)
  connective : Option Connective
  after : List (Link Filter)
  grouped : Bool

def Surrounding.fill (s : Surrounding) (c : FilterChain) : FilterChain where
  links := s.before ++ ⟨s.connective, .chain c⟩ :: s.after
  grouped := s.grouped

/-- Fragments one after the other, each behind the first after its connective. -/
def Fragment.row : List (Connective × Fragment) → Fragment
  | [] => {}
  | [p] => p.2
  | p :: rest =>
    { text := p.2.asPart ++ String.join (rest.map fun q => q.1.encoded ++ q.2.asPart)
      compound := true }

namespace Chain

/-- A chain inside others, from the innermost outwards. -/
def within (c : FilterChain) (around : List Surrounding) : FilterChain :=
  around.foldl (fun inner s => s.fill inner) c

/-- A chain as the only item of a new one. -/
def wrap (c : FilterChain) : FilterChain := Chain.empty.and (.chain c)

/-- The chain made by adding items to an empty one, each with its connective. -/
def ofSequence (items : List (Connective × Filter)) : FilterChain :=
  items.foldl (fun c i => c.add i.1 i.2) Chain.empty

variable (z : TimeZone)

/-- The items that render anything, as their fragments. -/
def shown (items : List (Connective × Filter)) : List (Connective × Fragment) :=
  (items.map fun i => (i.1, i.2.fragment z)).filter fun p => p.2.isVisible

/-! ## Chains inside others -/

theorem fragment_fill_congr {c d : FilterChain}
    (h : Filter.fragment z (.chain c) = Filter.fragment z (.chain d)) (s : Surrounding) :
    Filter.fragment z (.chain (s.fill c)) = Filter.fragment z (.chain (s.fill d)) := by
  have link : Filter.fragmentLink z ⟨s.connective, .chain c⟩ =
      Filter.fragmentLink z ⟨s.connective, .chain d⟩ := by
    rw [Filter.fragmentLink, Filter.fragmentLink, h]
  rw [Surrounding.fill, Surrounding.fill, Filter.fragment_chain_mk, Filter.fragment_chain_mk,
    List.map_append, List.map_append, List.map_cons, List.map_cons, link]

theorem fragment_within_congr {c d : FilterChain}
    (h : Filter.fragment z (.chain c) = Filter.fragment z (.chain d))
    (around : List Surrounding) :
    Filter.fragment z (.chain (c.within around)) =
      Filter.fragment z (.chain (d.within around)) := by
  induction around generalizing c d with
  | nil => exact h
  | cons s around ih => exact ih (fragment_fill_congr z h s)

/-! ## Chains of a single item -/

theorem fragment_wrap (c : FilterChain) :
    Filter.fragment z (.chain c.wrap) = Filter.fragment z (.chain c) :=
  Filter.fragment_ofFilter z (.chain c)

theorem fragment_iterate_wrap (c : FilterChain) (n : Nat) :
    Filter.fragment z (.chain (wrap^[n] c)) = Filter.fragment z (.chain c) := by
  induction n with
  | zero => rfl
  | succ n ih => rw [Function.iterate_succ_apply', fragment_wrap, ih]

/-! ## Chains from their items -/

/-- Behind the first item, every item keeps the connective it is added with. -/
theorem foldl_add_of_ne_nil {c : FilterChain} (h : c.links ≠ [])
    (items : List (Connective × Filter)) :
    items.foldl (fun c i => c.add i.1 i.2) c =
      ⟨c.links ++ items.map fun i => ⟨some i.1, i.2⟩, c.grouped⟩ := by
  induction items generalizing c with
  | nil => simp
  | cons i items ih =>
    have added : (c.add i.1 i.2).links = c.links ++ [⟨some i.1, i.2⟩] := by
      simp [add, h]
    rw [List.foldl_cons, ih (by simp [added]), added, grouped_add, List.map_cons,
      List.append_assoc, List.singleton_append]

theorem ofSequence_cons (i : Connective × Filter) (items : List (Connective × Filter)) :
    ofSequence (i :: items) = ⟨⟨none, i.2⟩ :: items.map fun i => ⟨some i.1, i.2⟩, false⟩ := by
  rw [ofSequence, List.foldl_cons, foldl_add_of_ne_nil (by simp [add])]
  rfl

/-- The connective of the first of several fragments is not looked at. -/
theorem join_eq_row (k : Option Connective) (p : Connective × Fragment)
    (rest : List (Connective × Fragment)) :
    Fragment.join false (⟨k, p.2⟩ :: rest.map fun q => ⟨some q.1, q.2⟩) =
      Fragment.row (p :: rest) := by
  cases rest with
  | nil => rfl
  | cons q rest => simp [Fragment.join, Fragment.row, Fragment.joinRest, Function.comp_def]

theorem visible_links (items : List (Connective × Filter)) :
    Fragment.visible ((items.map fun i => ⟨some i.1, i.2⟩).map (Filter.fragmentLink z)) =
      (shown z items).map fun p => ⟨some p.1, p.2⟩ := by
  simp [Fragment.visible, shown, List.filter_map, Function.comp_def, Filter.fragmentLink]

theorem shown_cons (i : Connective × Filter) (items : List (Connective × Filter)) :
    shown z (i :: items) =
      if (i.2.fragment z).isVisible then (i.1, i.2.fragment z) :: shown z items
      else shown z items := by
  rw [shown, List.map_cons, List.filter_cons, ← shown]

/-- A chain made by adding items renders those that render anything, one after the other. Each is
printed after the connective that it was added with, but for the first one that is left. -/
theorem fragment_ofSequence (items : List (Connective × Filter)) :
    Filter.fragment z (.chain (ofSequence items)) = Fragment.row (shown z items) := by
  cases items with
  | nil => rfl
  | cons i items =>
    rw [ofSequence_cons, Filter.fragment_chain_mk, List.map_cons, Fragment.visible,
      List.filter_cons, ← Fragment.visible, visible_links, shown_cons, Filter.fragmentLink]
    -- The first item has lost its connective. It is either not shown, or the first to be shown.
    cases visible : (i.2.fragment z).isVisible with
    | true => exact join_eq_row none (i.1, i.2.fragment z) (shown z items)
    | false =>
      cases shown z items with
      | nil => rfl
      | cons p rest => exact join_eq_row (some p.1) p rest

theorem shown_insert {e : Filter} (hidden : (e.fragment z).text = "") (k : Connective)
    (s t : List (Connective × Filter)) : shown z (s ++ (k, e) :: t) = shown z (s ++ t) := by
  simp [shown, Fragment.isVisible, hidden]

/-- Every chain that is made without a group is made by adding items to the empty chain. -/
theorem exists_eq_ofSequence {c : FilterChain} (built : Filter.Built (.chain c))
    (ungrouped : c.grouped = false) : ∃ items, c = ofSequence items := by
  generalize hf : Filter.chain c = f at built
  induction built generalizing c with
  | comparison d => cases hf
  | empty =>
    cases hf
    exact ⟨[], rfl⟩
  | @add d k g _ _ ih _ =>
    cases hf
    obtain ⟨items, rfl⟩ := ih (show d.grouped = false from ungrouped) rfl
    exact ⟨items ++ [(k, g)], by rw [ofSequence, ofSequence, List.foldl_append]; rfl⟩
  | group k _ _ _ _ =>
    cases hf
    exact absurd ungrouped (by simp [group])

/-- Whatever is around a chain renders the same if the chain is replaced by one that has it as its
only item, any number of times, and if an item that renders nothing is put anywhere among those that
the chain is made of, with any connective. Every chain made without a group is made of items in that
way; and with such an item in front, the others are printed with the connectives they were added
with. -/
theorem render_within_of_invisible (around : List Surrounding) :
    (∀ (c : FilterChain) (n : Nat),
      ((wrap^[n] c).within around).render z = (c.within around).render z) ∧
    (∀ (s t : List (Connective × Filter)) (k : Connective) (e : Filter),
      (e.fragment z).text = "" →
      ((ofSequence (s ++ (k, e) :: t)).within around).render z =
        ((ofSequence (s ++ t)).within around).render z) ∧
    (∀ c : FilterChain, Filter.Built (.chain c) → c.grouped = false →
      ∃ items, c = ofSequence items) ∧
    ∀ (items : List (Connective × Filter)) (k : Connective) (e : Filter),
      (e.fragment z).text = "" →
      (ofSequence ((k, e) :: items)).render z = (Fragment.row (shown z items)).text := by
  refine ⟨?_, ?_, fun c => exists_eq_ofSequence, ?_⟩
  · intro c n
    rw [render, render, fragment_within_congr z (fragment_iterate_wrap z c n)]
  · intro s t k e hidden
    have same : Filter.fragment z (.chain (ofSequence (s ++ (k, e) :: t))) =
        Filter.fragment z (.chain (ofSequence (s ++ t))) := by
      rw [fragment_ofSequence, fragment_ofSequence, shown_insert z hidden]
    rw [render, render, fragment_within_congr z same]
  · intro items k e hidden
    have front := shown_insert z hidden k [] items
    rw [List.nil_append, List.nil_append] at front
    rw [render, fragment_ofSequence, front]

/-- A comparison that renders nothing: no field, and an operator that writes nothing. -/
def silent : Filter :=
  .comparison { field := "", operator := (⟨0, Catalogue.blank⟩ : CustomOperator), value := .absent }

/-- A choice of two comparisons. -/
def alternatives : FilterChain :=
  ((empty : FilterChain).and (field "a").isNull).or (field "b").isNull

/-- Behind a third comparison. -/
def restricted : Surrounding where
  before := [⟨none, (field "c").isNull⟩]
  connective := some .and
  after := []
  grouped := false

theorem render_within_of_invisible_restricted :
    (silent.fragment .utc).text = "" ∧
    Filter.Built (.chain alternatives) ∧ alternatives.grouped = false ∧
    (∃ items, alternatives = ofSequence items) ∧
    ((wrap^[2] alternatives).within [restricted]).render .utc =
      "c==null%20and%20(a==null%20or%20b==null)" ∧
    ((ofSequence [(.or, silent), (.and, (field "a").isNull), (.or, (field "b").isNull)]).within
      [restricted]).render .utc = "c==null%20and%20(a==null%20or%20b==null)" ∧
    (ofSequence [(.or, silent), (.and, (field "a").isNull), (.or, (field "b").isNull)]).render
      .utc = "a==null%20or%20b==null" := by
  have hidden : (silent.fragment .utc).text = "" := by decide
  have built : Filter.Built (.chain alternatives) :=
    .add .or (.add .and .empty (.comparison _)) (.comparison _)
  obtain ⟨wrapped, inserted, sequence, front⟩ := render_within_of_invisible .utc [restricted]
  refine ⟨hidden, built, rfl, sequence alternatives built rfl, ?_, ?_, ?_⟩
  · exact (wrapped alternatives 2).trans (by decide)
  · exact (inserted [] _ .or silent hidden).trans (by decide)
  · exact (front _ .or silent hidden).trans (by decide)

end Chain

end RsqlQuery
