import RsqlQuery.Proofs.Filter.NormalForm

/-!
# Chains and their histories

A chain does not tell which operations made it. A history does: it holds the operations with all
that they were given. Every filter is given with a connective or, at the start of a chain, without
one, and a chain keeps exactly that, at every depth, but for the connective of its first link. So
when links that render nothing are passed over, each part behind the first that is left has the
connective that it was given with, and that one is printed.

## Main definitions

* `History`, `Origin` — the operations that made a chain, and what a filter was made from.
* `History.arrivals` — the filters that came into a chain, as they were given.
* `Filter.nested?`, `Origin.nested?` — what is found along a path into nested chains.
* `Fragment.joinWith` — the join of parts, for any text in place of a missing connective.

## Main statements

* `Filter.built_iff_exists_origin` — exactly the filters that can be built have an origin.
* `History.links_chain` — the links of a chain are its arrivals.
* `Origin.nested?_filter` — what is nested in a filter has its origin at the same place.
* `History.connectives_kept` — stored and printed connectives are those that were given.
-/

namespace RsqlQuery

open Time

/-! ## Definitions -/

mutual

/-- What a filter was made from: a comparison, or the operations that made a chain. -/
inductive Origin where
  | comparison (c : Comparison)
  | chain (h : History)

/-- The operations that made a chain, each with what it was given. -/
inductive History where
  | empty
  | ofFilter (o : Origin)
  | group (left : History) (k : Connective) (right : History)
  | add (h : History) (k : Connective) (o : Origin)
  | and (h : History) (o : Origin)
  | or (h : History) (o : Origin)
  | joined (c : Comparison) (k : Connective) (o : Origin)

end

mutual

def Origin.filter : Origin → Filter
  | .comparison c => .comparison c
  | .chain h => .chain h.chain

/-- The chain after all operations. -/
def History.chain : History → FilterChain
  | .empty => Chain.empty
  | .ofFilter o => Chain.ofFilter o.filter
  | .group left k right => Chain.group left.chain k right.chain
  | .add h k o => h.chain.add k o.filter
  | .and h o => h.chain.and o.filter
  | .or h o => h.chain.or o.filter
  | .joined c k o => c.joined k o.filter

end

/-- What came into a chain, in order, each with the connective that the operation was given for it.
The side on which a group starts is given without one, and so is what a chain is made of. -/
def History.arrivals : History → List (Link Origin)
  | .empty => []
  | .ofFilter o => [⟨none, o⟩]
  | .group left k right => [⟨none, .chain left⟩, ⟨some k, .chain right⟩]
  | .add h k o => h.arrivals ++ [⟨some k, o⟩]
  | .and h o => h.arrivals ++ [⟨some .and, o⟩]
  | .or h o => h.arrivals ++ [⟨some .or, o⟩]
  | .joined c k o => [⟨none, .comparison c⟩, ⟨some k, o⟩]

/-- The filter at the end of a path, which goes from link to link into nested chains. -/
def Filter.nested? : Filter → List Nat → Option Filter
  | f, [] => some f
  | .comparison _, _ :: _ => none
  | .chain c, n :: path => c.links[n]?.bind fun l => l.item.nested? path

/-- The origin at the end of a path, which goes from arrival to arrival. -/
def Origin.nested? : Origin → List Nat → Option Origin
  | o, [] => some o
  | .comparison _, _ :: _ => none
  | .chain h, n :: path => h.arrivals[n]?.bind fun a => a.item.nested? path

def Link.map {α β : Type} (f : α → β) (l : Link α) : Link β := ⟨l.connective, f l.item⟩

/-- The links without the connective of the first. -/
def unjoinHead {α : Type} : List (Link α) → List (Link α)
  | [] => []
  | l :: rest => ⟨none, l.item⟩ :: rest

/-- The arrivals that render anything, as their fragments. -/
def History.shown (z : TimeZone) (h : History) : List (Link Fragment) :=
  Fragment.visible (h.arrivals.map (Link.map fun o => o.filter.fragment z))

/-- The join of parts, with a text of one's own for each connective that is missing. -/
def Fragment.joinWith (missing : String) (grouped : Bool) : List (Link Fragment) → Fragment
  | [] => {}
  | [p] => p.item
  | p :: rest =>
    let text := p.item.asPart ++ String.join (rest.map fun q =>
      q.connective.elim missing Connective.encoded ++ q.item.asPart)
    if grouped then { text := parenthesized text } else { text, compound := true }

/-! ## What can be built has an origin -/

mutual

theorem Origin.built : ∀ o : Origin, Filter.Built o.filter
  | .comparison c => .comparison c
  | .chain h => h.built

theorem History.built : ∀ h : History, Filter.Built (.chain h.chain)
  | .empty => .empty
  | .ofFilter o => .ofFilter o.built
  | .group left k right => .group k left.built right.built
  | .add h k o => .add k h.built o.built
  | .and h o => .add .and h.built o.built
  | .or h o => .add .or h.built o.built
  | .joined c k o => .joined c k o.built

end

theorem Filter.Built.exists_origin {f : Filter} (h : Built f) : ∃ o : Origin, o.filter = f := by
  induction h with
  | comparison c => exact ⟨.comparison c, rfl⟩
  | empty => exact ⟨.chain .empty, rfl⟩
  | @add c k f _ _ hc hf =>
    obtain ⟨o, rfl⟩ := hf
    obtain ⟨d | h, hc⟩ := hc
    · cases hc
    · cases hc
      exact ⟨.chain (.add h k o), rfl⟩
  | @group left right k _ _ hl hr =>
    obtain ⟨d | l, hl⟩ := hl
    · cases hl
    · obtain ⟨e | r, hr⟩ := hr
      · cases hr
      · cases hl
        cases hr
        exact ⟨.chain (.group l k r), rfl⟩

theorem Filter.built_iff_exists_origin {f : Filter} : Built f ↔ ∃ o : Origin, o.filter = f :=
  ⟨Built.exists_origin, fun ⟨o, same⟩ => same ▸ o.built⟩

/-! ## Links without the connective of the first -/

section

variable {α β : Type}

theorem map_unjoinHead (f : α → β) (ls : List (Link α)) :
    (unjoinHead ls).map (Link.map f) = unjoinHead (ls.map (Link.map f)) := by
  cases ls <;> rfl

theorem tail_unjoinHead (ls : List (Link α)) : (unjoinHead ls).tail = ls.tail := by
  cases ls <;> rfl

theorem getElem?_unjoinHead (ls : List (Link α)) (n : Nat) :
    (unjoinHead ls)[n]? =
      ls[n]?.map fun l => ⟨if n = 0 then none else l.connective, l.item⟩ := by
  cases ls with
  | nil => rfl
  | cons l rest => cases n <;> simp [unjoinHead]

/-- What is added at the end of links is the first only if there are none. -/
theorem Chain.links_add {c : Chain α} {ls : List (Link α)} (h : c.links = unjoinHead ls)
    (k : Connective) (x : α) : (c.add k x).links = unjoinHead (ls ++ [⟨some k, x⟩]) := by
  cases ls with
  | nil => simp [add, h, unjoinHead]
  | cons l rest => simp [add, h, unjoinHead]

end

/-! ## Links are arrivals -/

namespace History

/-- One more filter is one more arrival, whatever came before it. -/
theorem links_chain_add {h : History}
    (before : h.chain.links = unjoinHead (h.arrivals.map (Link.map Origin.filter)))
    (k : Connective) (o : Origin) :
    (h.add k o).chain.links =
      unjoinHead ((h.add k o).arrivals.map (Link.map Origin.filter)) := by
  rw [arrivals, List.map_append]
  exact Chain.links_add before k o.filter

/-- The links of a chain are what came into it, each with the connective that it was given with, but
for the first, which has none. -/
theorem links_chain : ∀ h : History,
    h.chain.links = unjoinHead (h.arrivals.map (Link.map Origin.filter))
  | .empty => rfl
  | .ofFilter _ => rfl
  | .group _ _ _ => rfl
  | .joined _ _ _ => rfl
  | .add h k o => links_chain_add h.links_chain k o
  | .and h o => links_chain_add h.links_chain .and o
  | .or h o => links_chain_add h.links_chain .or o

theorem getElem?_links (h : History) (n : Nat) :
    h.chain.links[n]? = h.arrivals[n]?.map fun a =>
      ⟨if n = 0 then none else a.connective, a.item.filter⟩ := by
  rw [links_chain, getElem?_unjoinHead, List.getElem?_map, Option.map_map]
  rfl

/-- Only at the start of a chain is anything given without a connective. -/
theorem isSome_of_mem_tail_arrivals (h : History) :
    ∀ a ∈ h.arrivals.tail, a.connective.isSome = true := by
  intro a ha
  have later := h.built.wellLinked.later
  rw [links_chain, tail_unjoinHead, ← List.map_tail] at later
  exact later (a.map Origin.filter) (List.mem_map_of_mem ha)

end History

theorem Origin.nested?_filter (o : Origin) (path : List Nat) :
    o.filter.nested? path = (o.nested? path).map Origin.filter := by
  induction path generalizing o with
  | nil => cases o <;> rfl
  | cons n path ih =>
    cases o with
    | comparison c => rfl
    | chain h =>
      rw [filter, Filter.nested?, nested?, h.getElem?_links]
      cases h.arrivals[n]? with
      | none => rfl
      | some a => exact ih a.item

/-- A chain that is nested in another was made by a history that is found at the same place. -/
theorem History.exists_nested? {h : History} {path : List Nat} {c : FilterChain}
    (inside : (Filter.chain h.chain).nested? path = some (.chain c)) :
    ∃ own : History, (Origin.chain h).nested? path = some (.chain own) ∧ own.chain = c := by
  have same := (Origin.chain h).nested?_filter path
  rw [Origin.filter, inside] at same
  obtain ⟨o, found, made⟩ := Option.map_eq_some_iff.mp same.symm
  cases o with
  | comparison d => cases made
  | chain own => exact ⟨own, found, Filter.chain.inj made⟩

/-! ## Parts that are left -/

namespace Fragment

/-- Without the connective of the first link, the parts that are left are the same, but for the
first of them if it is that link. -/
theorem visible_unjoinHead (ps : List (Link Fragment)) :
    visible (unjoinHead ps) = visible ps ∨ visible (unjoinHead ps) = unjoinHead (visible ps) := by
  cases ps with
  | nil => exact .inl rfl
  | cons p rest =>
    cases shown : p.item.isVisible with
    | true => exact .inr (by simp [visible, unjoinHead, shown])
    | false => exact .inl (by simp [visible, unjoinHead, shown])

theorem tail_visible_unjoinHead (ps : List (Link Fragment)) :
    (visible (unjoinHead ps)).tail = (visible ps).tail := by
  obtain same | same := visible_unjoinHead ps
  · rw [same]
  · rw [same, tail_unjoinHead]

theorem mem_tail_of_mem_tail_visible {ps : List (Link Fragment)} {p : Link Fragment}
    (h : p ∈ (visible ps).tail) : p ∈ ps.tail :=
  List.filter_sublist.tail.subset h

/-- The connective of the first part is not looked at. -/
theorem join_unjoinHead (grouped : Bool) (ps : List (Link Fragment)) :
    join grouped (unjoinHead ps) = join grouped ps := by
  match ps with
  | [] => rfl
  | [_] => rfl
  | _ :: _ :: _ => rfl

theorem join_visible_unjoinHead (grouped : Bool) (ps : List (Link Fragment)) :
    join grouped (visible (unjoinHead ps)) = join grouped (visible ps) := by
  obtain same | same := visible_unjoinHead ps
  · rw [same]
  · rw [same, join_unjoinHead]

/-- The text that is printed in place of a missing connective makes no difference if all parts
behind the first have one. -/
theorem join_eq_joinWith {ps : List (Link Fragment)}
    (carried : ∀ p ∈ ps.tail, p.connective.isSome = true) (missing : String) (grouped : Bool) :
    join grouped ps = joinWith missing grouped ps := by
  match ps with
  | [] => rfl
  | [_] => rfl
  | p :: q :: rest =>
    have printed : joinRest (q :: rest) = String.join ((q :: rest).map fun q =>
        q.connective.elim missing Connective.encoded ++ q.item.asPart) := by
      apply congrArg String.join
      apply List.map_congr_left
      intro r hr
      obtain ⟨k, hk⟩ := Option.isSome_iff_exists.mp (carried r hr)
      rw [hk, Option.getD_some, Option.elim_some]
    simp only [join, joinWith, printed]

end Fragment

namespace History

variable (z : TimeZone)

theorem map_fragmentLink_links (h : History) :
    h.chain.links.map (Filter.fragmentLink z) =
      unjoinHead (h.arrivals.map (Link.map fun o => o.filter.fragment z)) := by
  have mapped := map_unjoinHead (Filter.fragment z) (h.arrivals.map (Link.map Origin.filter))
  rw [List.map_map] at mapped
  rw [links_chain]
  exact mapped

/-- Behind the first part that is left, all parts are as they were given. -/
theorem tail_parts (h : History) :
    (Fragment.visible (h.chain.links.map (Filter.fragmentLink z))).tail = (h.shown z).tail := by
  rw [map_fragmentLink_links, Fragment.tail_visible_unjoinHead]
  rfl

theorem isSome_of_mem_tail_shown (h : History) :
    ∀ p ∈ (h.shown z).tail, p.connective.isSome = true := by
  intro p hp
  have given := Fragment.mem_tail_of_mem_tail_visible hp
  rw [← List.map_tail] at given
  obtain ⟨a, ha, rfl⟩ := List.mem_map.mp given
  exact h.isSome_of_mem_tail_arrivals a ha

theorem fragment_chain_eq_joinWith (h : History) (missing : String) :
    Filter.fragment z (.chain h.chain) =
      Fragment.joinWith missing h.chain.grouped (h.shown z) := by
  rw [Filter.fragment_chain_mk, map_fragmentLink_links, Fragment.join_visible_unjoinHead]
  exact Fragment.join_eq_joinWith (h.isSome_of_mem_tail_shown z) missing h.chain.grouped

/-- Whatever operations made a chain, each chain that is nested in it, itself included, was made by
a history at the same place, and its links are what came in by that history: the first has no
connective, and every later one the connective that it was given with. Of the parts that render
something, all behind the first that is left have one, the one they were given with. It is printed
in front of them; what would be printed in place of a missing connective makes no difference. -/
theorem connectives_kept (h : History) (path : List Nat) (c : FilterChain)
    (inside : (Filter.chain h.chain).nested? path = some (.chain c)) :
    ∃ own : History, (Origin.chain h).nested? path = some (.chain own) ∧ own.chain = c ∧
      (∀ n : Nat, c.links[n]? = own.arrivals[n]?.map fun a =>
        (⟨if n = 0 then none else a.connective, a.item.filter⟩ : Link Filter)) ∧
      (∀ a ∈ own.arrivals.tail, a.connective.isSome = true) ∧
      (Fragment.visible (c.links.map (Filter.fragmentLink z))).tail = (own.shown z).tail ∧
      (∀ p ∈ (Fragment.visible (c.links.map (Filter.fragmentLink z))).tail,
        p.connective.isSome = true) ∧
      ∀ missing, Filter.fragment z (.chain c) =
        Fragment.joinWith missing c.grouped (own.shown z) := by
  obtain ⟨own, found, rfl⟩ := exists_nested? inside
  refine ⟨own, found, rfl, own.getElem?_links, own.isSome_of_mem_tail_arrivals,
    own.tail_parts z, ?_, own.fragment_chain_eq_joinWith z⟩
  rw [tail_parts]
  exact own.isSome_of_mem_tail_shown z

/-- A chain that starts with an empty one. -/
def trimmed : History :=
  ((History.empty.and (.chain .empty)).or (.comparison (field "a").isNull)).or
    (.comparison (field "b").isNull)

/-- A group with that chain on its right side, and one more comparison. -/
def grown : History :=
  (History.group (.ofFilter (.comparison (field "c").isNull)) .and trimmed).or
    (.comparison (field "d").isNull)

theorem connectives_kept_trimmed :
    (Filter.chain grown.chain).nested? [1] = some (.chain trimmed.chain) ∧
    trimmed.chain.links[0]? = some ⟨none, .chain {}⟩ ∧
    trimmed.chain.links[1]? = some ⟨some .or, (field "a").isNull⟩ ∧
    (trimmed.shown .utc).map (fun p => p.connective) = [some .or, some .or] ∧
    Filter.fragment .utc (.chain trimmed.chain) = ⟨"a==null%20or%20b==null", true⟩ := by
  have inside : (Filter.chain grown.chain).nested? [1] = some (.chain trimmed.chain) := rfl
  have here : (Origin.chain grown).nested? [1] = some (.chain trimmed) := rfl
  obtain ⟨own, found, -, stored, -, -, -, printed⟩ :=
    connectives_kept .utc grown [1] trimmed.chain inside
  obtain rfl : own = trimmed := Origin.chain.inj (Option.some.inj (found.symm.trans here))
  exact ⟨inside, stored 0, stored 1, by decide, (printed "").trans (by decide)⟩

end History

end RsqlQuery
