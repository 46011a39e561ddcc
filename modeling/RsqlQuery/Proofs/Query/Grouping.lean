import RsqlQuery.Proofs.Query.Merging

/-!
# Adding to a group

A group encloses its join in parentheses, and that is a property of the chain and not of the two
filters that it was made of. A filter that is added to a group is one more link of the same chain,
so it stands inside the parentheses. A group stays a part of its own when it is an item of another
chain, and the filter is added to that.

## Main statements

* `Chain.render_add_group`, `Chain.render_add_ofFilter_group` — what a group renders with one more
  filter, in it or beside it.
* `Chain.render_group_extended` — the two beside the group alone, and for the filters of a merge.
-/

namespace RsqlQuery.Chain

open Time

variable (z : TimeZone)

/-- A group of two chains that render something puts their parts between parentheses. -/
theorem fragment_group {left right : FilterChain} (hl : left.render z ≠ "")
    (hr : right.render z ≠ "") (k : Connective) :
    Filter.fragment z (.chain (group left k right)) =
      (Filter.fragment z (.chain left)).enclose k (Filter.fragment z (.chain right)) := by
  rw [Filter.fragment_group, Fragment.merge, Fragment.isVisible_iff.mpr hl,
    Fragment.isVisible_iff.mpr hr]

/-- A filter that is added to a group stands inside the parentheses. -/
theorem render_add_group {left right : FilterChain} {f : Filter} (hl : left.render z ≠ "")
    (hr : right.render z ≠ "") (hf : (f.fragment z).text ≠ "") (k j : Connective) :
    ((group left k right).add j f).render z =
      parenthesized ((Filter.fragment z (.chain left)).asPart ++ k.encoded
        ++ (Filter.fragment z (.chain right)).asPart ++ j.encoded ++ (f.fragment z).asPart) := by
  have visible : ∀ m ∈ [(⟨some k, .chain right⟩ : Link Filter), ⟨some j, f⟩],
      (m.item.fragment z).isVisible = true := by
    simp only [List.forall_mem_cons, List.not_mem_nil, false_implies, implies_true, and_true]
    exact ⟨Fragment.isVisible_iff.mpr hr, Fragment.isVisible_iff.mpr hf⟩
  have joined := Filter.fragment_join z (List.cons_ne_nil _ _) ⟨none, .chain left⟩ true
    (Fragment.isVisible_iff.mpr hl) visible
  have three : (group left k right).add j f =
      ⟨⟨none, .chain left⟩ :: [⟨some k, .chain right⟩, ⟨some j, f⟩], true⟩ := rfl
  rw [render, three, joined]
  simp [Fragment.joinRest, Filter.fragmentLink, String.append_assoc]

/-- A filter that is added to a chain with a group in it stands behind the parentheses. -/
theorem render_add_ofFilter_group {left right : FilterChain} {f : Filter}
    (hl : left.render z ≠ "") (hr : right.render z ≠ "") (hf : (f.fragment z).text ≠ "")
    (k j : Connective) :
    ((ofFilter (.chain (group left k right))).add j f).render z =
      (group left k right).render z ++ j.encoded ++ (f.fragment z).asPart := by
  have enclosed := fragment_group z hl hr k
  have group_visible : (Filter.fragment z (.chain (group left k right))).isVisible = true := by
    rw [enclosed, Fragment.isVisible_enclose]
  have visible : ∀ m ∈ [(⟨some j, f⟩ : Link Filter)], (m.item.fragment z).isVisible = true := by
    simpa [Fragment.isVisible_iff] using hf
  have joined := Filter.fragment_join z (List.cons_ne_nil _ _)
    ⟨none, .chain (group left k right)⟩ false group_visible visible
  have two : (ofFilter (.chain (group left k right))).add j f =
      ⟨⟨none, .chain (group left k right)⟩ :: [⟨some j, f⟩], false⟩ := rfl
  rw [render, two, joined, render, enclosed]
  simp [Fragment.joinRest, Filter.fragmentLink, Fragment.asPart, Fragment.enclose,
    String.append_assoc]

/-- Two chains that render something merge into a group, which renders their parts, joined and
between parentheses. One more filter that is added to the group is joined to them inside the
parentheses. Added to a chain with the group as its item, the filter is joined to the group from
outside. -/
theorem render_group_extended (left right : FilterChain) (k j : Connective) (f : Filter)
    (hl : left.render z ≠ "") (hr : right.render z ≠ "") (hf : (f.fragment z).text ≠ "") :
    let inside := (Filter.fragment z (.chain left)).asPart ++ k.encoded
      ++ (Filter.fragment z (.chain right)).asPart
    let further := j.encoded ++ (f.fragment z).asPart
    Query.mergeFilters left k right = group left k right ∧
    (group left k right).render z = "(" ++ inside ++ ")" ∧
    ((group left k right).add j f).render z = "(" ++ inside ++ further ++ ")" ∧
    ((ofFilter (.chain (group left k right))).add j f).render z =
      "(" ++ inside ++ ")" ++ further := by
  intro inside further
  have alone : (group left k right).render z = "(" ++ inside ++ ")" :=
    congrArg Fragment.text (fragment_group z hl hr k)
  refine ⟨?_, alone, ?_, ?_⟩
  · rw [Query.mergeFilters, hasContent_of_render z hl, hasContent_of_render z hr]
  · rw [render_add_group z hl hr hf]
    simp only [parenthesized, inside, further, String.append_assoc]
  · rw [render_add_ofFilter_group z hl hr hf, alone]
    simp only [further, String.append_assoc]

/-- A choice of two comparisons. -/
def choice : FilterChain :=
  group (ofFilter (field "a").isNull) .or (ofFilter (field "b").isNull)

/-- A third comparison restricts the choice when it is added beside it. -/
theorem render_group_extended_choice :
    (ofFilter (field "a").isNull).render .utc ≠ "" ∧
    (ofFilter (field "b").isNull).render .utc ≠ "" ∧
    ((Filter.comparison (field "c").isNull).fragment .utc).text ≠ "" ∧
    choice.render .utc = "(a==null%20or%20b==null)" ∧
    ((ofFilter choice).and (field "c").isNull).render .utc =
      "(a==null%20or%20b==null)%20and%20c==null" := by
  have a : (ofFilter (field "a").isNull).render .utc ≠ "" := by decide
  have b : (ofFilter (field "b").isNull).render .utc ≠ "" := by decide
  have c : ((Filter.comparison (field "c").isNull).fragment .utc).text ≠ "" := by decide
  obtain ⟨-, alone, -, beside⟩ := render_group_extended .utc _ _ .or .and _ a b c
  exact ⟨a, b, c, alone.trans (by decide), beside.trans (by decide)⟩

/-- Added to the choice itself, it does not stand behind what the choice renders, but inside. -/
theorem render_add_choice_inside :
    (choice.and (field "c").isNull).render .utc = "(a==null%20or%20b==null%20and%20c==null)" ∧
    (choice.and (field "c").isNull).render .utc ≠
      choice.render .utc ++ Connective.and.encoded ++
        ((Filter.comparison (field "c").isNull).fragment .utc).asPart := by
  decide

end RsqlQuery.Chain
