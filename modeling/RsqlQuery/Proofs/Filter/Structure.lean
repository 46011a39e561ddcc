import RsqlQuery.Proofs.Filter.Grammar
import RsqlQuery.Proofs.Filter.NormalForm

/-!
# Rendering keeps the structure of filters

What a chain renders is derived by one syntax tree of the grammar, and that tree is the normal form
of the chain: the same texts in the same order, joined by the same connectives and nested in the
same way. Two flags could put a pair of parentheses too many or leave one out, that of a join
without parentheses and that of a grouped chain; they work together so that a join inside another is
between one pair, and the whole text is between one if the join at its root is of a grouped chain.

## Main definitions

* `Filter.part`, `Filter.branches` — normal forms as syntax trees.
* `Filter.tree` — the list that a normal form is written as on its own.

## Main statements

* `Filter.IsNormal.derives_tree` — the tree of a normal form derives what it renders.
* `Chain.render_derives_normal` — the only tree of a rendered chain is its normal form.
-/

namespace RsqlQuery

open Time

/-! ## Normal forms as syntax trees -/

namespace Filter

variable (z : TimeZone)

mutual

/-- A filter as a part of a list. -/
def part : Filter → Part
  | comparison c => .fragment (c.render z).toList
  | chain ⟨links, _⟩ => .group (linkParts links)

def linkParts : List (Link Filter) → List (Link Part)
  | [] => []
  | ⟨k, f⟩ :: rest => ⟨k, part f⟩ :: linkParts rest

end

/-- A filter as a list of parts: the branches at its root. -/
def branches : Filter → List (Link Part)
  | comparison c => [⟨none, (comparison c).part z⟩]
  | chain ⟨links, _⟩ => linkParts z links

/-- The parts that a filter renders as on its own. A grouped chain is a single one. -/
def tree (n : Filter) : List (Link Part) :=
  if n.isGrouped then [⟨none, n.part z⟩] else n.branches z

theorem linkParts_eq (links : List (Link Filter)) :
    linkParts z links = links.map fun l => ⟨l.connective, l.item.part z⟩ := by
  induction links with
  | nil => rfl
  | cons l rest ih => rw [linkParts, ih, List.map_cons]

theorem toList_encoded (k : Connective) : k.encoded.toList = k.spaced := by
  cases k <;> rfl

/-- Behind the first part each part is written after its own connective. -/
theorem toList_joinRest {rest : List (Link Filter)}
    (linked : ∀ l ∈ rest, l.connective.isSome = true)
    (parts : ∀ l ∈ rest, (l.item.fragment z).asPart.toList = (l.item.part z).chars) :
    (Fragment.joinRest (rest.map (fragmentLink z))).toList = Part.linkChars (linkParts z rest) := by
  induction rest with
  | nil => rfl
  | cons l rest ih =>
    obtain ⟨k, f⟩ := l
    obtain ⟨k, rfl⟩ := Option.isSome_iff_exists.mp (linked ⟨k, f⟩ List.mem_cons_self)
    have tail := ih (fun m hm => linked m (List.mem_cons_of_mem _ hm))
      (fun m hm => parts m (List.mem_cons_of_mem _ hm))
    have head := parts ⟨some k, f⟩ List.mem_cons_self
    rw [linkParts, Part.linkChars_cons_some, ← tail, ← head, ← toList_encoded]
    simp [Fragment.joinRest, fragmentLink]

theorem toList_parenthesized (s : String) :
    (parenthesized s).toList = '(' :: s.toList ++ [')'] := by
  simp [parenthesized]

theorem toList_join {first : Filter} {rest : List (Link Filter)}
    (linked : ∀ l ∈ rest, l.connective.isSome = true)
    (hf : (first.fragment z).asPart.toList = (first.part z).chars)
    (hr : ∀ l ∈ rest, (l.item.fragment z).asPart.toList = (l.item.part z).chars) :
    ((first.fragment z).asPart ++ Fragment.joinRest (rest.map (fragmentLink z))).toList =
      Part.linkChars (linkParts z (⟨none, first⟩ :: rest)) := by
  rw [String.toList_append, toList_joinRest z linked hr, hf, linkParts, Part.linkChars]
  rfl

/-- As a part of another filter a normal form is written as its tree: a join gets its parentheses
from its own chain or from the one around it, and never from both. -/
theorem IsNormal.toList_asPart {n : Filter} (h : IsNormal z n) (linked : WellLinked n) :
    (n.fragment z).asPart.toList = (n.part z).chars := by
  induction h with
  | comparison _ => rfl
  | @chain first rest grouped more hf hr ihf ihr =>
    cases linked with
    | chain _ later items =>
      have later : ∀ l ∈ rest, l.connective.isSome = true := later
      have joined := toList_join z later (ihf (items _ List.mem_cons_self))
        fun l hl => ihr l hl (items l (List.mem_cons_of_mem _ hl))
      rw [fragment_chain_of_isNormal z more none grouped hf hr, part, Part.chars, ← joined]
      cases grouped <;> simp [Fragment.asPart, toList_parenthesized]

/-- On its own, a normal form is written as the list of its branches, and between parentheses if it
is a grouped chain. -/
theorem IsNormal.toList_text {n : Filter} (h : IsNormal z n) (linked : WellLinked n) :
    (n.fragment z).text.toList = Part.linkChars (n.tree z) := by
  have whole := h.toList_asPart z linked
  cases h with
  | comparison _ =>
    simpa [tree, isGrouped, branches, Part.linkChars, fragment, Fragment.asPart] using whole
  | @chain first rest grouped more hf hr =>
    rw [fragment_chain_of_isNormal z more none grouped hf hr] at whole ⊢
    cases grouped with
    | true => simpa [tree, isGrouped, Part.linkChars, Fragment.asPart] using whole
    | false =>
      simp only [Fragment.asPart, toList_parenthesized, part, Part.chars, tree, isGrouped,
        branches, List.cons_append, List.cons.injEq, true_and, Bool.false_eq_true, if_false,
        if_true] at whole ⊢
      exact List.append_cancel_right whole

/-! ## The trees are proper trees of the grammar -/

theorem IsNormal.valid_part {n : Filter} (h : IsNormal z n) (linked : WellLinked n)
    (plain : ∀ c ∈ n.comparisons, c.render z = "" ∨ IsFragment (c.render z).toList) :
    (n.part z).Valid := by
  induction h with
  | @comparison c visible =>
    have ok := plain c (by simp [comparisons])
    exact .fragment (ok.resolve_left visible)
  | @chain first rest grouped more hf hr ihf ihr =>
    rw [comparisons_chain] at plain
    cases linked with
    | chain _ later items =>
      have later : ∀ l ∈ rest, l.connective.isSome = true := later
      rw [part, linkParts, linkParts_eq]
      refine .group ?_ ?_ ?_
      · refine ihf (items _ List.mem_cons_self) fun c hc => plain c ?_
        exact List.mem_flatMap.mpr ⟨_, List.mem_cons_self, hc⟩
      · simpa using later
      · rintro _ hm
        obtain ⟨l, hl, rfl⟩ := List.mem_map.mp hm
        refine ihr l hl (items l (List.mem_cons_of_mem _ hl)) fun c hc => plain c ?_
        exact List.mem_flatMap.mpr ⟨l, List.mem_cons_of_mem _ hl, hc⟩

theorem IsNormal.proper_part {n : Filter} (h : IsNormal z n) : (n.part z).Proper := by
  induction h with
  | comparison _ => exact .fragment _
  | @chain first rest grouped more _ _ hf hr =>
    rw [part, linkParts, linkParts_eq]
    refine .group ?_ ?_
    · simpa using Nat.succ_le_of_lt (List.length_pos_iff.mpr more)
    · simpa using ⟨hf, hr⟩

theorem IsNormal.valid_tree {n : Filter} (h : IsNormal z n) (linked : WellLinked n)
    (plain : ∀ c ∈ n.comparisons, c.render z = "" ∨ IsFragment (c.render z).toList) :
    (Part.group (n.tree z)).Valid := by
  have valid := h.valid_part z linked plain
  unfold tree
  split_ifs with wrapped
  · exact .group valid (by simp) (by simp)
  · cases h with
    | comparison _ => exact .group valid (by simp) (by simp)
    | chain _ _ _ => exact valid

theorem IsNormal.derives_tree {n : Filter} (h : IsNormal z n) (linked : WellLinked n)
    (plain : ∀ c ∈ n.comparisons, c.render z = "" ∨ IsFragment (c.render z).toList) :
    Derives (n.tree z) (n.fragment z).text.toList :=
  ⟨h.valid_tree z linked plain, (h.toList_text z linked).symm⟩

theorem IsNormal.proper_tree {n : Filter} (h : IsNormal z n) :
    ∀ l ∈ n.tree z, l.item.Proper := by
  have proper := h.proper_part z
  unfold tree
  split_ifs with wrapped
  · simpa using proper
  · cases h with
    | comparison _ => simpa [branches] using proper
    | chain _ _ _ =>
      cases proper with
      | group _ items => exact items

theorem IsNormal.unwrap_tree {n : Filter} (h : IsNormal z n) :
    Part.unwrap (n.tree z) = n.branches z ∧ Part.isWrapped (n.tree z) = n.isGrouped := by
  cases h with
  | comparison _ => exact ⟨rfl, rfl⟩
  | @chain first rest grouped more _ _ =>
    cases grouped with
    | true => exact ⟨rfl, rfl⟩
    | false =>
      cases rest with
      | nil => exact absurd rfl more
      | cons l rest => exact ⟨Part.unwrap_cons_cons _ _ _, Part.isWrapped_cons_cons _ _ _⟩

theorem mem_comparisons_of_normal {f n : Filter} (h : f.normal z = some n) {c : Comparison}
    (hc : c ∈ n.comparisons) : c ∈ f.comparisons := by
  have same := comparisons_normal z f
  rw [h, Option.elim_some] at same
  exact (List.mem_filter.mp (same ▸ hc)).1

end Filter

/-- A chain that is built from comparisons whose texts are fragments, or empty, renders nothing or
what the grammar derives by a single syntax tree. But for a pair of parentheses around the whole
text, which is there exactly when the root of the normal form is a grouped chain, that tree is the
normal form of the chain, and no parentheses in it enclose less than two parts. -/
theorem Chain.render_derives_normal (z : TimeZone) (c : FilterChain)
    (built : Filter.Built (.chain c))
    (plain : ∀ e ∈ (Filter.chain c).comparisons,
      e.render z = "" ∨ IsFragment (e.render z).toList) :
    match (Filter.chain c).normal z with
    | none => c.render z = ""
    | some n => ∃ tree, Derives tree (c.render z).toList ∧
        (∀ other, Derives other (c.render z).toList → other = tree) ∧
        Part.unwrap tree = n.branches z ∧ (Part.isWrapped tree = true ↔ n.isGrouped = true) ∧
        ∀ l ∈ tree, l.item.Proper := by
  cases hn : (Filter.chain c).normal z with
  | none => exact (Filter.normal_eq_none_iff z).mp hn
  | some n =>
    have normal := Filter.isNormal_of_normal z _ n hn
    have linked := built.wellLinked.normal z n hn
    have derived := normal.derives_tree z linked fun e he =>
      plain e (Filter.mem_comparisons_of_normal z hn he)
    rw [← Filter.fragment_of_normal z hn] at derived
    obtain ⟨branches, wrapped⟩ := normal.unwrap_tree z
    exact ⟨n.tree z, derived, fun other h => h.unique derived, branches, by rw [wrapped],
      normal.proper_tree z⟩

/-- A group of a join and of a chain that starts with an empty one. -/
def Chain.nestedGroup : FilterChain :=
  Chain.group ((Chain.ofFilter (field "a").isNull).or (field "b").isNull) .and
    ((Chain.ofFilter (Chain.empty : FilterChain)).or (field "c").isNull)

theorem Chain.render_derives_normal_nestedGroup :
    Filter.Built (.chain Chain.nestedGroup) ∧
    (∀ e ∈ (Filter.chain Chain.nestedGroup).comparisons,
      e.render .utc = "" ∨ IsFragment (e.render .utc).toList) ∧
    ∃ tree, Derives tree (Chain.nestedGroup.render .utc).toList ∧
      (∀ other, Derives other (Chain.nestedGroup.render .utc).toList → other = tree) ∧
      Part.unwrap tree =
        [⟨none, .group [⟨none, .fragment ['a', '=', '=', 'n', 'u', 'l', 'l']⟩,
          ⟨some .or, .fragment ['b', '=', '=', 'n', 'u', 'l', 'l']⟩]⟩,
         ⟨some .and, .fragment ['c', '=', '=', 'n', 'u', 'l', 'l']⟩] ∧
      Part.isWrapped tree = true := by
  have built : Filter.Built (.chain Chain.nestedGroup) := by
    refine .group .and (.add .or (.ofFilter ?_) ?_) (.add .or (.ofFilter .empty) ?_)
    · exact .comparison _
    · exact .comparison _
    · exact .comparison _
  have comparisons : (Filter.chain Chain.nestedGroup).comparisons =
      [(field "a").isNull, (field "b").isNull, (field "c").isNull] := rfl
  have a : ((field "a").isNull.render .utc).toList = ['a', '=', '=', 'n', 'u', 'l', 'l'] := rfl
  have b : ((field "b").isNull.render .utc).toList = ['b', '=', '=', 'n', 'u', 'l', 'l'] := rfl
  have c : ((field "c").isNull.render .utc).toList = ['c', '=', '=', 'n', 'u', 'l', 'l'] := rfl
  have plain : ∀ e ∈ (Filter.chain Chain.nestedGroup).comparisons,
      e.render .utc = "" ∨ IsFragment (e.render .utc).toList := by
    rw [comparisons]
    simp only [List.forall_mem_cons, List.not_mem_nil, false_implies, implies_true, and_true, a, b,
      c]
    exact ⟨.inr (by decide), .inr (by decide), .inr (by decide)⟩
  have normal : (Filter.chain Chain.nestedGroup).normal .utc = some (.chain
      ⟨[⟨none, .chain ⟨[⟨none, (field "a").isNull⟩, ⟨some .or, (field "b").isNull⟩], false⟩⟩,
        ⟨some .and, (field "c").isNull⟩], true⟩) := rfl
  have derives := Chain.render_derives_normal .utc Chain.nestedGroup built plain
  rw [normal] at derives
  obtain ⟨tree, derived, only, branches, wrapped, -⟩ := derives
  refine ⟨built, plain, tree, derived, only, ?_, wrapped.mpr rfl⟩
  simpa [Filter.branches, Filter.linkParts, Filter.part, a, b, c] using branches

end RsqlQuery
