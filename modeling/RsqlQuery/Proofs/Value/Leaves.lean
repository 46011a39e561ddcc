import RsqlQuery.Value.Literal

/-!
# The leaves of a value

What a value holds at any depth, once its sequences are taken apart and what is absent is dropped.
A literal depends on the time zone and on the options through the texts of the dates among the
leaves, and through nothing else.

## Main definitions

* `Value.leaves` — the leaves of a value from left to right.
* `Value.holdsNaN`, `Value.holdsDate` — whether a NaN or a date is among them.
* `Value.DatesAgree` — whether two zones and two options write the dates of a value alike.

## Main statements

* `Value.plainText_congr`, `Value.literal_congr` — zones and options that agree on the dates in a
  value agree on the value.
-/

namespace RsqlQuery.Value

open Time

mutual

/-- What a value holds besides sequences and absent values, from left to right. -/
def leaves : Value → List Value
  | absent => []
  | array items => itemLeaves items
  | v => [v]

def itemLeaves : List Value → List Value
  | [] => []
  | v :: rest => leaves v ++ itemLeaves rest

end

theorem itemLeaves_eq (items : List Value) : itemLeaves items = items.flatMap leaves := by
  induction items with
  | nil => rfl
  | cons v rest ih => rw [itemLeaves, ih, List.flatMap_cons]

@[simp] theorem leaves_array (items : List Value) :
    (array items).leaves = items.flatMap leaves := by
  rw [leaves, itemLeaves_eq]

/-! ## Kinds of leaves -/

def isNaN : Value → Bool
  | float x => x.isNaN
  | _ => false

def isDate : Value → Bool
  | date _ => true
  | _ => false

/-- Whether a NaN occurs in a value at any depth. -/
def holdsNaN (v : Value) : Bool := v.leaves.any isNaN

/-- Whether a date occurs in a value at any depth. -/
def holdsDate (v : Value) : Bool := v.leaves.any isDate

theorem holdsNaN_array (items : List Value) : (array items).holdsNaN = items.any holdsNaN := by
  rw [holdsNaN, leaves_array, List.any_flatMap]
  rfl

theorem holdsDate_iff {v : Value} : v.holdsDate = true ↔ ∃ t, date t ∈ v.leaves := by
  rw [holdsDate, List.any_eq_true]
  constructor
  · rintro ⟨leaf, hl, isDate⟩
    cases leaf with
    | date t => exact ⟨t, hl⟩
    | _ => exact absurd isDate Bool.false_ne_true
  · rintro ⟨t, ht⟩
    exact ⟨date t, ht, rfl⟩

/-! ## What a literal takes from the zone and the options -/

/-- Whether two zones and two options write the dates in a value in the same way. -/
def DatesAgree (z w : TimeZone) (o p : RenderOptions) (v : Value) : Prop :=
  ∀ t, date t ∈ v.leaves → t.text z o.includeTimestamp = t.text w p.includeTimestamp

variable {z w : TimeZone} {o p : RenderOptions}

theorem DatesAgree.item {items : List Value} (h : DatesAgree z w o p (array items)) {v : Value}
    (hv : v ∈ present items) : DatesAgree z w o p v := by
  intro t ht
  refine h t ?_
  rw [leaves_array]
  exact List.mem_flatMap_of_mem (List.mem_filter.mp hv).1 ht

theorem plainText_congr {v : Value} (h : DatesAgree z w o p v) :
    plainText z o v = plainText w p v := by
  induction v using nested_induction with
  | date t => rw [plainText, plainText, h t List.mem_cons_self]
  | array items ih =>
    have item : ∀ v ∈ present items, plainText z o v = plainText w p v :=
      fun v hv => ih v (List.mem_filter.mp hv).1 (h.item hv)
    rw [plainText, plainText, plainTexts_eq, plainTexts_eq, List.map_congr_left item]
  | _ => rfl

theorem piece_congr {v : Value} (h : DatesAgree z w o p v) : piece z o v = piece w p v := by
  cases v with
  | string s => rfl
  | _ => simp only [piece, plainText_congr h]

theorem literal_congr {v : Value} (h : DatesAgree z w o p v) : literal z o v = literal w p v := by
  cases v with
  | string s => rfl
  | array items =>
    have item : ∀ v ∈ present items, piece z o v = piece w p v :=
      fun v hv => piece_congr (h.item hv)
    rw [literal, literal, List.map_congr_left item]
  | _ => simp only [literal, plainText_congr h]

/-- The zone has no say in timestamps. -/
theorem datesAgree_of_timestamp {v : Value}
    (timestamp : v.holdsDate = true → o.includeTimestamp = true) : DatesAgree z w o o v := by
  intro t ht
  have asked : o.includeTimestamp = true := timestamp (holdsDate_iff.mpr ⟨t, ht⟩)
  rw [Instant.text, Instant.text, if_pos asked, if_pos asked]

theorem datesAgree_of_not_holdsDate {v : Value} (h : v.holdsDate = false) :
    DatesAgree z w o p v := by
  intro t ht
  have held : v.holdsDate = true := holdsDate_iff.mpr ⟨t, ht⟩
  exact absurd held (by simp [h])

end RsqlQuery.Value
