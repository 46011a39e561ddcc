import Mathlib.Tactic.SplitIfs
import RsqlQuery.Proofs.Filter.Linking

/-!
# Normal forms of filters

What a filter renders depends on less than the filter: a link that renders nothing could be left
out, and a chain that keeps a single link could be replaced by the item of that link. The normal
form of a filter has both done at every depth. It renders the same, nothing in it renders nothing,
and each of its chains is a join of two parts or more.

## Main definitions

* `Filter.normal` — the normal form, if the filter renders anything.
* `Filter.IsNormal` — what every normal form is.
* `Filter.comparisons` — the comparisons of a filter from left to right.
* `Filter.isOpenJoin` — whether a filter renders as a join without parentheses around it.

## Main statements

* `Filter.fragment_normal` — a filter renders as its normal form does.
* `Filter.isNormal_of_normal` — normal forms are normal.
* `Filter.comparisons_normal` — no comparison that renders anything is lost, and none moves.
-/

namespace RsqlQuery.Filter

open Time

variable (z : TimeZone)

/-! ## Definitions -/

/-- The filter of the links that are left of a chain; the first has nothing to be joined to. -/
def collapse (grouped : Bool) : List (Link Filter) → Option Filter
  | [] => none
  | [l] => some l.item
  | l :: rest => some (.chain ⟨⟨none, l.item⟩ :: rest, grouped⟩)

mutual

/-- The filter without what renders nothing and without chains of a single link. -/
def normal : Filter → Option Filter
  | comparison c => if (c.render z).isEmpty then none else some (comparison c)
  | chain ⟨links, grouped⟩ => collapse grouped (normalLinks links)

/-- The links that render anything, with the normal forms of their items. -/
def normalLinks : List (Link Filter) → List (Link Filter)
  | [] => []
  | ⟨k, f⟩ :: rest =>
    match normal f with
    | none => normalLinks rest
    | some n => ⟨k, n⟩ :: normalLinks rest

end

mutual

/-- The comparisons of a filter from left to right. -/
def comparisons : Filter → List Comparison
  | comparison c => [c]
  | chain ⟨links, _⟩ => linkComparisons links

def linkComparisons : List (Link Filter) → List Comparison
  | [] => []
  | ⟨_, f⟩ :: rest => f.comparisons ++ linkComparisons rest

end

/-- Comparisons that render something and chains of two links or more. -/
inductive IsNormal : Filter → Prop
  | comparison {c : Comparison} : c.render z ≠ "" → IsNormal (.comparison c)
  | chain {first : Filter} {rest : List (Link Filter)} {grouped : Bool} :
      rest ≠ [] → IsNormal first → (∀ l ∈ rest, IsNormal l.item) →
      IsNormal (.chain ⟨⟨none, first⟩ :: rest, grouped⟩)

/-- Whether a filter is a chain that encloses its join itself. -/
def isGrouped : Filter → Bool
  | comparison _ => false
  | chain c => c.grouped

/-- Whether what is left of a filter is a join of several parts without parentheses around it. -/
def isOpenJoin (f : Filter) : Bool :=
  match f.normal z with
  | some (.chain c) => !c.grouped
  | _ => false

/-! ## Equations -/

theorem linkComparisons_eq (links : List (Link Filter)) :
    linkComparisons links = links.flatMap fun l => l.item.comparisons := by
  induction links with
  | nil => rfl
  | cons l rest ih => simp [linkComparisons, ih]

theorem comparisons_chain (links : List (Link Filter)) (grouped : Bool) :
    comparisons (.chain ⟨links, grouped⟩) = links.flatMap fun l => l.item.comparisons := by
  rw [comparisons, linkComparisons_eq]

theorem normalLinks_eq (links : List (Link Filter)) :
    normalLinks z links =
      links.filterMap fun l => (l.item.normal z).map fun n => ⟨l.connective, n⟩ := by
  induction links with
  | nil => rfl
  | cons l rest ih =>
    rw [normalLinks, List.filterMap_cons]
    cases l.item.normal z <;> simp [ih]

theorem mem_normalLinks {links : List (Link Filter)} {m : Link Filter} :
    m ∈ normalLinks z links ↔
      ∃ l ∈ links, l.item.normal z = some m.item ∧ l.connective = m.connective := by
  rw [normalLinks_eq, List.mem_filterMap]
  constructor
  · rintro ⟨l, hl, h⟩
    obtain ⟨n, hn, rfl⟩ := Option.map_eq_some_iff.mp h
    exact ⟨l, hl, hn, rfl⟩
  · rintro ⟨l, hl, hn, hk⟩
    exact ⟨l, hl, by rw [hn, hk, Option.map_some]⟩

/-- What holds of the normal forms of the items of a chain holds of the items that are left. -/
theorem forall_mem_normalLinks {links : List (Link Filter)} {P : Filter → Prop}
    (h : ∀ l ∈ links, ∀ n, l.item.normal z = some n → P n) :
    ∀ m ∈ normalLinks z links, P m.item := by
  intro m hm
  obtain ⟨l, hl, hn, -⟩ := (mem_normalLinks z).mp hm
  exact h l hl m.item hn

theorem normal_comparison {c : Comparison} {n : Filter}
    (h : (Filter.comparison c).normal z = some n) : n = .comparison c ∧ c.render z ≠ "" := by
  rw [normal] at h
  split at h
  · simp at h
  · next visible => exact ⟨(Option.some.inj h).symm, by simpa using visible⟩

/-- A chain leaves nothing, the normal form of one link, or a join of several. -/
theorem normal_chain_cases (links : List (Link Filter)) (grouped : Bool) :
    (normalLinks z links = [] ∧ (Filter.chain ⟨links, grouped⟩).normal z = none) ∨
    (∃ l, normalLinks z links = [l] ∧ (Filter.chain ⟨links, grouped⟩).normal z = some l.item) ∨
    ∃ l rest, rest ≠ [] ∧ normalLinks z links = l :: rest ∧
      (Filter.chain ⟨links, grouped⟩).normal z =
        some (.chain ⟨⟨none, l.item⟩ :: rest, grouped⟩) := by
  rw [normal]
  cases normalLinks z links with
  | nil => exact .inl ⟨rfl, rfl⟩
  | cons l rest =>
    cases rest with
    | nil => exact .inr (.inl ⟨l, rfl, rfl⟩)
    | cons m rest => exact .inr (.inr ⟨l, m :: rest, by simp, rfl, rfl⟩)

/-! ## Normal forms are normal -/

theorem isNormal_of_normal (f : Filter) : ∀ n, f.normal z = some n → IsNormal z n := by
  induction f using chain_induction with
  | comparison c =>
    intro n h
    obtain ⟨rfl, visible⟩ := normal_comparison z h
    exact .comparison visible
  | chain links grouped ih =>
    intro n h
    have items := forall_mem_normalLinks z ih
    obtain ⟨-, hn⟩ | ⟨l, hs, hn⟩ | ⟨l, rest, more, hs, hn⟩ := normal_chain_cases z links grouped
    · simp [hn] at h
    · obtain rfl := Option.some.inj (hn.symm.trans h)
      exact items l (by simp [hs])
    · obtain rfl := Option.some.inj (hn.symm.trans h)
      rw [hs] at items
      exact .chain more (items l List.mem_cons_self) fun m hm =>
        items m (List.mem_cons_of_mem l hm)

/-! ## Normal forms are well linked -/

/-- Leaving links out keeps a connective at every link but the first. -/
theorem isSome_of_mem_tail_normalLinks {links : List (Link Filter)}
    (later : ∀ l ∈ links.tail, l.connective.isSome = true) :
    ∀ m ∈ (normalLinks z links).tail, m.connective.isSome = true := by
  cases links with
  | nil => simp [normalLinks]
  | cons l rest =>
    intro m hm
    have hm' : m ∈ normalLinks z rest := by
      rw [normalLinks] at hm
      split at hm
      · exact List.mem_of_mem_tail hm
      · exact hm
    obtain ⟨k, hk, -, same⟩ := (mem_normalLinks z).mp hm'
    exact same ▸ later k hk

theorem WellLinked.normal {f : Filter} (h : WellLinked f) :
    ∀ n, f.normal z = some n → WellLinked n := by
  induction h with
  | comparison c =>
    intro n hn
    obtain ⟨rfl, -⟩ := normal_comparison z hn
    exact .comparison c
  | @chain links grouped _ later _ ih =>
    intro n h
    have items := forall_mem_normalLinks z ih
    have linked := isSome_of_mem_tail_normalLinks z later
    obtain ⟨-, hn⟩ | ⟨l, hs, hn⟩ | ⟨l, rest, -, hs, hn⟩ := normal_chain_cases z links grouped
    · simp [hn] at h
    · obtain rfl := Option.some.inj (hn.symm.trans h)
      exact items l (by simp [hs])
    · obtain rfl := Option.some.inj (hn.symm.trans h)
      rw [hs] at items linked
      refine .chain (by simp) linked ?_
      simpa using items

/-! ## Normal forms render the same -/

def fragmentLink (l : Link Filter) : Link Fragment := ⟨l.connective, l.item.fragment z⟩

theorem fragment_chain_mk (links : List (Link Filter)) (grouped : Bool) :
    fragment z (.chain ⟨links, grouped⟩) =
      Fragment.join grouped (Fragment.visible (links.map (fragmentLink z))) :=
  fragment_chain z ⟨links, grouped⟩

theorem visible_of_isVisible {parts : List (Link Fragment)}
    (h : ∀ p ∈ parts, p.item.isVisible = true) : Fragment.visible parts = parts :=
  List.filter_eq_self.mpr h

theorem join_cons_of_ne_nil {rest : List (Link Fragment)} (more : rest ≠ [])
    (p : Link Fragment) (grouped : Bool) :
    Fragment.join grouped (p :: rest) =
      if grouped then { text := parenthesized (p.item.asPart ++ Fragment.joinRest rest) }
      else { text := p.item.asPart ++ Fragment.joinRest rest, compound := true } := by
  cases rest with
  | nil => exact absurd rfl more
  | cons q rest => rfl

theorem asPart_ne_empty {f : Fragment} (h : f.isVisible = true) : f.asPart ≠ "" := by
  rw [Fragment.isVisible_iff] at h
  unfold Fragment.asPart parenthesized
  split_ifs <;> simp [h]

/-- A chain whose links all render something, and which has more than one, joins their parts. -/
theorem fragment_join {rest : List (Link Filter)} (more : rest ≠ []) (l : Link Filter)
    (grouped : Bool) (hl : (l.item.fragment z).isVisible = true)
    (hr : ∀ m ∈ rest, (m.item.fragment z).isVisible = true) :
    fragment z (.chain ⟨l :: rest, grouped⟩) =
      if grouped then
        { text := parenthesized ((l.item.fragment z).asPart
            ++ Fragment.joinRest (rest.map (fragmentLink z))) }
      else
        { text := (l.item.fragment z).asPart ++ Fragment.joinRest (rest.map (fragmentLink z))
          compound := true } := by
  have parts : ∀ p ∈ (l :: rest).map (fragmentLink z), p.item.isVisible = true := by
    simp only [List.map_cons, List.mem_cons, List.mem_map]
    rintro _ (rfl | ⟨m, hm, rfl⟩)
    · exact hl
    · exact hr m hm
  rw [fragment_chain_mk, visible_of_isVisible parts, List.map_cons,
    join_cons_of_ne_nil (by simpa using more)]
  rfl

theorem IsNormal.isVisible {n : Filter} (h : IsNormal z n) :
    (fragment z n).isVisible = true := by
  induction h with
  | comparison visible => exact Fragment.isVisible_iff.mpr visible
  | chain more _ _ hf hr =>
    rw [fragment_join z more _ _ hf hr, Fragment.isVisible_iff]
    split_ifs
    · simp [parenthesized]
    · simp [asPart_ne_empty hf]

theorem fragment_chain_of_isNormal {first : Filter} {rest : List (Link Filter)} (more : rest ≠ [])
    (k : Option Connective) (grouped : Bool) (hf : IsNormal z first)
    (hr : ∀ l ∈ rest, IsNormal z l.item) :
    fragment z (.chain ⟨⟨k, first⟩ :: rest, grouped⟩) =
      if grouped then
        { text := parenthesized ((first.fragment z).asPart
            ++ Fragment.joinRest (rest.map (fragmentLink z))) }
      else
        { text := (first.fragment z).asPart ++ Fragment.joinRest (rest.map (fragmentLink z))
          compound := true } :=
  fragment_join z more ⟨k, first⟩ grouped hf.isVisible fun m hm => (hr m hm).isVisible

/-- The links of a chain that render something render as their normal forms do. -/
theorem visible_fragmentLinks {links : List (Link Filter)}
    (ih : ∀ l ∈ links, (l.item.normal z).elim {} (fragment z) = l.item.fragment z) :
    Fragment.visible (links.map (fragmentLink z)) =
      (normalLinks z links).map (fragmentLink z) := by
  induction links with
  | nil => rfl
  | cons l rest step =>
    have head := ih l List.mem_cons_self
    have tail := step fun m hm => ih m (List.mem_cons_of_mem l hm)
    rw [normalLinks_eq] at tail
    rw [normalLinks_eq, List.map_cons, List.filterMap_cons, Fragment.visible, List.filter_cons,
      ← Fragment.visible, tail]
    cases hn : l.item.normal z with
    | none =>
      rw [hn] at head
      simp [fragmentLink, ← head, Fragment.isVisible]
    | some n =>
      rw [hn] at head
      have visible := (isNormal_of_normal z l.item n hn).isVisible
      simp only [Option.elim_some] at head
      simp [fragmentLink, ← head, visible]

/-- A filter renders as its normal form does, and not at all if it has none. -/
theorem fragment_normal (f : Filter) : (f.normal z).elim {} (fragment z) = f.fragment z := by
  induction f using chain_induction with
  | comparison c =>
    rw [normal]
    split_ifs with hidden
    · simpa [fragment] using hidden.symm
    · rfl
  | chain links grouped ih =>
    rw [fragment_chain_mk, visible_fragmentLinks z ih]
    obtain ⟨hs, hn⟩ | ⟨l, hs, hn⟩ | ⟨l, rest, more, hs, hn⟩ := normal_chain_cases z links grouped
    · rw [hs, hn]
      rfl
    · rw [hs, hn]
      rfl
    · have normal := isNormal_of_normal z _ _ hn
      cases normal with
      | chain _ hf hr =>
        rw [hs, hn, Option.elim_some, List.map_cons, join_cons_of_ne_nil (by simpa using more),
          fragment_chain_of_isNormal z more none grouped hf hr]
        rfl

theorem fragment_of_normal {f n : Filter} (h : f.normal z = some n) :
    f.fragment z = n.fragment z := by
  rw [← fragment_normal, h, Option.elim_some]

/-- Exactly the filters without a normal form render nothing. -/
theorem normal_eq_none_iff {f : Filter} : f.normal z = none ↔ (f.fragment z).text = "" := by
  constructor
  · intro h
    rw [← fragment_normal, h]
    rfl
  · intro hidden
    cases h : f.normal z with
    | none => rfl
    | some n =>
      have visible := (isNormal_of_normal z f n h).isVisible
      rw [Fragment.isVisible_iff, ← fragment_of_normal z h] at visible
      exact absurd hidden visible

theorem fragment_of_text_eq_empty {f : Filter} (h : (f.fragment z).text = "") :
    f.fragment z = {} := by
  rw [← fragment_normal, (normal_eq_none_iff z).mpr h]
  rfl

/-- A fragment is nothing at all if its text is empty, so a chain of one filter renders as the filter
does, the flag for parentheses included. -/
theorem fragment_ofFilter (f : Filter) :
    fragment z (.chain (Chain.ofFilter f)) = f.fragment z := by
  have single : fragment z (.chain (Chain.ofFilter f)) =
      Fragment.join false (Fragment.visible [⟨none, f.fragment z⟩]) :=
    fragment_chain_mk z [⟨none, f⟩] false
  rw [single, Fragment.visible, List.filter_cons, List.filter_nil]
  split_ifs with visible
  · rfl
  · have hidden : (f.fragment z).text = "" := by simpa [Fragment.isVisible] using visible
    exact (fragment_of_text_eq_empty z hidden).symm

/-- The flag of a fragment tells whether the normal form is a join without parentheses. -/
theorem compound_fragment (f : Filter) : (f.fragment z).compound = f.isOpenJoin z := by
  rw [isOpenJoin, ← fragment_normal]
  cases hn : f.normal z with
  | none => rfl
  | some n =>
    have normal := isNormal_of_normal z f n hn
    cases normal with
    | comparison visible => rfl
    | @chain first rest grouped more hf hr =>
      rw [Option.elim_some, fragment_chain_of_isNormal z more none grouped hf hr]
      cases grouped <;> rfl

/-! ## Normal forms hold the same comparisons -/

theorem comparisons_normalLinks {links : List (Link Filter)}
    (ih : ∀ l ∈ links, (l.item.normal z).elim [] comparisons =
      l.item.comparisons.filter fun c => !(c.render z).isEmpty) :
    ((normalLinks z links).flatMap fun l => l.item.comparisons) =
      (links.flatMap fun l => l.item.comparisons).filter fun c => !(c.render z).isEmpty := by
  induction links with
  | nil => rfl
  | cons l rest step =>
    have head := ih l List.mem_cons_self
    have tail := step fun m hm => ih m (List.mem_cons_of_mem l hm)
    rw [normalLinks_eq] at tail
    rw [normalLinks_eq, List.filterMap_cons, List.flatMap_cons, List.filter_append, ← tail, ← head]
    cases l.item.normal z <;> simp

/-- The normal form of a filter holds those of its comparisons that render something, in order. -/
theorem comparisons_normal (f : Filter) :
    (f.normal z).elim [] comparisons = f.comparisons.filter fun c => !(c.render z).isEmpty := by
  induction f using chain_induction with
  | comparison c =>
    rw [normal, comparisons]
    split_ifs with hidden <;> simp [hidden, comparisons]
  | chain links grouped ih =>
    rw [comparisons_chain, ← comparisons_normalLinks z ih]
    obtain ⟨hs, hn⟩ | ⟨l, hs, hn⟩ | ⟨l, rest, -, hs, hn⟩ := normal_chain_cases z links grouped
    · simp [hs, hn]
    · simp [hs, hn]
    · simp [hs, hn, comparisons_chain]

end RsqlQuery.Filter
