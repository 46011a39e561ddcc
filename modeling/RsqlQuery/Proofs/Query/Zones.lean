import RsqlQuery.Proofs.Filter.NormalForm
import RsqlQuery.Proofs.Value.Leaves
import RsqlQuery.Query.Basic

/-!
# What a query takes from the time zone

A query is written on one machine and read on another, so the zone of the machine should show in it
as little as possible. It shows in the dates that are written without a time of day. A zone reaches
a query through the literals of its comparisons alone, and it goes through every chain of filters
unchanged; so a query that asks for timestamps wherever it holds a date is the same in every zone.

## Main statements

* `Filter.fragment_congr` — a filter takes from the zone what its comparisons take.
* `Query.render_eq_of_timestamps` — the zone and the options show in dates only.
-/

namespace RsqlQuery

open Time

variable {z w : TimeZone}

theorem Comparison.render_congr {c : Comparison}
    (h : Value.DatesAgree z w c.options c.options c.value) : c.render z = c.render w := by
  rw [render, render, Value.literal_congr h]

/-- A chain hands its zone to every link as it is. -/
theorem Filter.fragment_congr {f : Filter} (h : ∀ c ∈ f.comparisons, c.render z = c.render w) :
    f.fragment z = f.fragment w := by
  induction f using chain_induction with
  | comparison c => rw [fragment, fragment, h c (by simp [comparisons])]
  | chain links grouped ih =>
    rw [comparisons_chain] at h
    have link : ∀ l ∈ links, fragmentLink z l = fragmentLink w l := by
      intro l hl
      rw [fragmentLink, fragmentLink, ih l hl fun c hc => h c (List.mem_flatMap_of_mem hl hc)]
    rw [fragment_chain_mk, fragment_chain_mk, List.map_congr_left link]

namespace Query

/-- Only the section of the filters is written with the zone. -/
theorem render_congr {q : Query} (h : q.filters.render z = q.filters.render w) :
    q.render z = q.render w := by
  have contents : q.contents z = q.contents w := by
    rw [Query.contents, Query.contents, filterContent, filterContent, h]
  rw [render, render, contents]

/-- A query in which every comparison that holds a date, at any depth of its value, asks for
timestamps is the same in every zone; and the literal of a value that holds no date at any depth is
the same in every zone and with all options. -/
theorem render_eq_of_timestamps :
    (∀ (q : Query) (z w : TimeZone),
      (∀ c ∈ (Filter.chain q.filters).comparisons,
        c.value.holdsDate = true → c.options.includeTimestamp = true) →
      q.render z = q.render w) ∧
    ∀ (v : Value) (z w : TimeZone) (o p : RenderOptions),
      v.holdsDate = false → v.literal z o = v.literal w p := by
  refine ⟨fun q z w timestamps => ?_, fun v z w o p none => ?_⟩
  · have comparison : ∀ c ∈ (Filter.chain q.filters).comparisons, c.render z = c.render w :=
      fun c hc => Comparison.render_congr (Value.datesAgree_of_timestamp (timestamps c hc))
    apply render_congr
    rw [Chain.render, Chain.render, Filter.fragment_congr comparison]
  · exact Value.literal_congr (Value.datesAgree_of_not_holdsDate none)

/-- A date two sequences deep, asked for with its time of day, beside a comparison without dates. -/
def nestedDate : Query where
  filters := (Chain.ofFilter ((field "n").equal (3 : Int))).or
    (Chain.ofFilter ((field "at").withTimestamp.isIn (Value.array [.array [.date ⟨0, 0⟩]])))

theorem render_eq_of_timestamps_nestedDate :
    (∀ c ∈ (Filter.chain nestedDate.filters).comparisons,
      c.value.holdsDate = true → c.options.includeTimestamp = true) ∧
    nestedDate.render .utc = nestedDate.render { standard := -90 } ∧
    (Value.array [.null, .int 3]).holdsDate = false ∧
    (Value.array [.null, .int 3]).literal .utc {} =
      (Value.array [.null, .int 3]).literal { standard := -90 } { includeTimestamp := true } := by
  have comparisons : (Filter.chain nestedDate.filters).comparisons =
      [(field "n").equal (3 : Int),
        (field "at").withTimestamp.isIn (Value.array [.array [.date ⟨0, 0⟩]])] := rfl
  have timestamps : ∀ c ∈ (Filter.chain nestedDate.filters).comparisons,
      c.value.holdsDate = true → c.options.includeTimestamp = true := by
    rw [comparisons]
    decide
  obtain ⟨queries, literals⟩ := render_eq_of_timestamps
  exact ⟨timestamps, queries nestedDate _ _ timestamps, rfl, literals _ _ _ _ _ rfl⟩

/-- Without its time of day a date is the one of the zone. -/
example : (Value.date ⟨0, 0⟩).literal .utc {} ≠
    (Value.date ⟨0, 0⟩).literal { standard := -90 } {} := by
  decide

end Query

end RsqlQuery
