import RsqlQuery.Filter.Chain

/-!
# How chains are linked

A chain is made by starting empty or from a group of two chains and by adding filters at its end. In
every chain made this way, at every depth, the first link has no connective and each later one has.

## Main definitions

* `Filter.Built` — what the operations on chains can make.
* `Filter.WellLinked` — exactly the first link of each chain is without a connective.

## Main statements

* `Filter.Built.wellLinked` — what is built is well linked.
-/

namespace RsqlQuery.Filter

/-- The filters that can be made: comparisons, the empty chain, a chain with one more filter at its
end, and a group of two chains. -/
inductive Built : Filter → Prop
  | comparison (c : Comparison) : Built (.comparison c)
  | empty : Built (.chain {})
  | add {c : FilterChain} (k : Connective) {f : Filter} :
      Built (.chain c) → Built f → Built (.chain (c.add k f))
  | group {left right : FilterChain} (k : Connective) :
      Built (.chain left) → Built (.chain right) → Built (.chain (Chain.group left k right))

theorem Built.ofFilter {f : Filter} (h : Built f) : Built (.chain (Chain.ofFilter f)) :=
  .add .and .empty h

/-- A comparison joined with a filter is built by adding both to the empty chain. -/
theorem Built.joined (c : Comparison) (k : Connective) {f : Filter} (h : Built f) :
    Built (.chain (c.joined k f)) :=
  .add k (.ofFilter (.comparison c)) h

/-- The first link of each chain has no connective and every later one has. -/
inductive WellLinked : Filter → Prop
  | comparison (c : Comparison) : WellLinked (.comparison c)
  | chain {links : List (Link Filter)} {grouped : Bool} :
      (∀ l ∈ links.head?, l.connective = none) →
      (∀ l ∈ links.tail, l.connective.isSome = true) →
      (∀ l ∈ links, WellLinked l.item) → WellLinked (.chain ⟨links, grouped⟩)

theorem WellLinked.later {c : FilterChain} (h : WellLinked (.chain c)) :
    ∀ l ∈ c.links.tail, l.connective.isSome = true := by
  cases h with
  | chain _ later _ => exact later

theorem WellLinked.add {c : FilterChain} (hc : WellLinked (.chain c)) (k : Connective) {f : Filter}
    (hf : WellLinked f) : WellLinked (.chain (c.add k f)) := by
  cases hc with
  | @chain links grouped first later items =>
    cases links with
    | nil => exact .chain (by simp) (by simp) (by simpa using hf)
    | cons l rest =>
      refine .chain first ?_ ?_
      · intro m hm
        obtain hm | hm := List.mem_append.mp hm
        · exact later m hm
        · rw [List.mem_singleton.mp hm]
          rfl
      · intro m hm
        obtain hm | hm := List.mem_append.mp hm
        · exact items m hm
        · rw [List.mem_singleton.mp hm]
          exact hf

theorem WellLinked.group {left right : FilterChain} (hl : WellLinked (.chain left))
    (k : Connective) (hr : WellLinked (.chain right)) :
    WellLinked (.chain (Chain.group left k right)) :=
  .chain (by simp) (by simp) (by simp [hl, hr])

theorem Built.wellLinked {f : Filter} (h : Built f) : WellLinked f := by
  induction h with
  | comparison c => exact .comparison c
  | empty => exact .chain (by simp) (by simp) (by simp)
  | add k _ _ hc hf => exact hc.add k hf
  | group k _ _ hl hr => exact hl.group k hr

end RsqlQuery.Filter
