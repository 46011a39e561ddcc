import Mathlib.Logic.Function.Iterate
import RsqlQuery.Proofs.Value.Leaves
import RsqlQuery.Proofs.Value.Sequence

/-!
# Sequences inside sequences are flattened

A sequence inside a sequence is one item, and its text is that of its own items with commas between
them. If one of these is a sequence again, its text has commas of the same kind, so the text of the
whole does not tell where the inner sequences begin and end. It is that of the leaves, with a comma
between any two of them, as long as every sequence on the way down has a leaf to show: one without
any would be an empty text between two commas.

## Main definitions

* `Value.sequences` — the sequences in a value at any depth, the value itself included.
* `Value.Full` — values in which every sequence holds a leaf.
* `Value.wrap` — the sequence of one item.

## Main statements

* `Value.plainText_eq_intercalate` — the plain text of a full value is that of its leaves.
* `Value.literal_regrouped` — grouping the leaves of an item in another way changes no literal.
-/

namespace RsqlQuery.Value

open Text Time

/-! ## Full values -/

mutual

/-- The sequences in a value at any depth, the value itself included. -/
def sequences : Value → List Value
  | array items => array items :: itemSequences items
  | _ => []

def itemSequences : List Value → List Value
  | [] => []
  | v :: rest => sequences v ++ itemSequences rest

end

theorem itemSequences_eq (items : List Value) :
    itemSequences items = items.flatMap sequences := by
  induction items with
  | nil => rfl
  | cons v rest ih => rw [itemSequences, ih, List.flatMap_cons]

@[simp] theorem sequences_array (items : List Value) :
    (array items).sequences = array items :: items.flatMap sequences := by
  rw [sequences, itemSequences_eq]

/-- Every sequence in the value holds a leaf, at whatever depth. -/
def Full (v : Value) : Prop := ∀ a ∈ v.sequences, a.leaves ≠ []

theorem full_array_iff {items : List Value} :
    (array items).Full ↔ (array items).leaves ≠ [] ∧ ∀ v ∈ items, v.Full := by
  simp only [Full, sequences_array, List.forall_mem_cons, List.mem_flatMap, forall_exists_index,
    and_imp]
  exact and_congr_right fun _ => ⟨fun h v hv a ha => h a v hv ha, fun h a v hv ha => h v hv a ha⟩

/-- A full value that is not absent has something to show. -/
theorem Full.leaves_ne_nil {v : Value} (h : v.Full) (visible : v.isAbsent = false) :
    v.leaves ≠ [] := by
  cases v with
  | absent => simp [isAbsent] at visible
  | array items => exact (full_array_iff.mp h).1
  | _ => exact List.cons_ne_nil _ _

/-- The sequence of one item. -/
def wrap (v : Value) : Value := array [v]

@[simp] theorem leaves_wrap (v : Value) : (wrap v).leaves = v.leaves := by
  simp [wrap]

theorem Full.wrap {v : Value} (h : v.Full) (visible : v.isAbsent = false) : (wrap v).Full := by
  refine full_array_iff.mpr ⟨?_, by simpa using h⟩
  change v.wrap.leaves ≠ []
  rw [leaves_wrap]
  exact h.leaves_ne_nil visible

/-- However often a sequence is wrapped, it stays a full sequence with the same leaves. -/
theorem exists_iterate_wrap {items : List Value} (h : (array items).Full) (n : Nat) :
    ∃ others, wrap^[n] (array items) = array others ∧ (array others).Full ∧
      (array others).leaves = (array items).leaves := by
  induction n with
  | zero => exact ⟨items, rfl, h, rfl⟩
  | succ n ih =>
    obtain ⟨others, wrapped, full, same⟩ := ih
    refine ⟨[array others], ?_, full.wrap rfl, ?_⟩
    · rw [Function.iterate_succ_apply', wrapped, Value.wrap]
    · rw [← same]
      exact leaves_wrap (array others)

/-! ## Texts -/

/-- Joining what parts with something in them are joined to is joining all their members. -/
theorem intercalate_intercalate (sep : String) {parts : List (List String)}
    (h : ∀ p ∈ parts, p ≠ []) :
    sep.intercalate (parts.map sep.intercalate) = sep.intercalate parts.flatten := by
  induction parts with
  | nil => rfl
  | cons first parts ih =>
    have one : first ≠ [] := h first List.mem_cons_self
    have later : ∀ p ∈ parts, p ≠ [] := fun p hp => h p (List.mem_cons_of_mem first hp)
    cases parts with
    | nil => simp
    | cons next parts =>
      have more : (next :: parts).flatten ≠ [] := by
        rw [List.flatten_cons]
        exact List.append_ne_nil_of_left_ne_nil (later next List.mem_cons_self) _
      rw [List.map_cons, String.intercalate_cons_of_ne_nil (by simp), ih later]
      exact (String.intercalate_append_of_ne_nil one more).symm

/-- What is absent has no leaves. -/
theorem flatMap_leaves_present (items : List Value) :
    (present items).flatMap leaves = items.flatMap leaves := by
  induction items with
  | nil => rfl
  | cons v items ih =>
    cases v with
    | absent => simpa [present, isAbsent, leaves] using ih
    | _ => simpa [present, isAbsent] using ih

variable (z : TimeZone) (o : RenderOptions)

/-- The plain text of a full value is that of its leaves, with a comma between any two of them. -/
theorem plainText_eq_intercalate {v : Value} (full : v.Full) (visible : v.isAbsent = false) :
    plainText z o v = itemSeparator.intercalate (v.leaves.map (plainText z o)) := by
  induction v using nested_induction with
  | absent => simp [isAbsent] at visible
  | array items ih =>
    have inside := (full_array_iff.mp full).2
    have shown : ∀ v ∈ present items, v ∈ items ∧ v.isAbsent = false := by
      intro v hv
      simpa [present] using hv
    have item : ∀ v ∈ present items,
        plainText z o v = itemSeparator.intercalate (v.leaves.map (plainText z o)) := by
      intro v hv
      obtain ⟨member, visible⟩ := shown v hv
      exact ih v member (inside v member) visible
    have nonempty : ∀ p ∈ (present items).map fun v => v.leaves.map (plainText z o), p ≠ [] := by
      rw [List.forall_mem_map]
      intro v hv
      obtain ⟨member, visible⟩ := shown v hv
      simpa using (inside v member).leaves_ne_nil visible
    calc plainText z o (array items)
        = itemSeparator.intercalate ((present items).map (plainText z o)) := by
          rw [plainText, plainTexts_eq]
      _ = itemSeparator.intercalate (((present items).map fun v =>
            v.leaves.map (plainText z o)).map itemSeparator.intercalate) := by
          rw [List.map_congr_left item, List.map_map]
          rfl
      _ = itemSeparator.intercalate (((present items).flatMap leaves).map (plainText z o)) := by
          rw [intercalate_intercalate itemSeparator nonempty, List.map_flatMap, List.flatMap]
      _ = itemSeparator.intercalate ((array items).leaves.map (plainText z o)) := by
          rw [flatMap_leaves_present, leaves_array]
  | _ => exact String.intercalate_singleton.symm

variable {xs ys : List Value}

theorem piece_eq_of_leaves (fullX : (array xs).Full) (fullY : (array ys).Full)
    (same : (array xs).leaves = (array ys).leaves) :
    piece z o (array xs) = piece z o (array ys) := by
  simp only [piece, plainText_eq_intercalate z o fullX rfl, plainText_eq_intercalate z o fullY rfl,
    same]

theorem present_insert (before after : List Value) (items : List Value) :
    present (before ++ array items :: after) = present before ++ array items :: present after := by
  simp [present, isAbsent]

theorem literal_eq_of_leaves (before after : List Value) (fullX : (array xs).Full)
    (fullY : (array ys).Full) (same : (array xs).leaves = (array ys).leaves) :
    literal z o (array (before ++ array xs :: after)) =
      literal z o (array (before ++ array ys :: after)) := by
  simp only [literal, present_insert, List.map_append, List.map_cons,
    piece_eq_of_leaves z o fullX fullY same]

/-- The piece of an item stands behind those of the items before it that are not absent. -/
theorem getElem?_pieces (before after : List Value) :
    (pieces (literal z o (array (before ++ array xs :: after))).text)[(present before).length]? =
      some (piece z o (array xs)) := by
  have cut : pieces (literal z o (array (before ++ array xs :: after))).text =
      (present (before ++ array xs :: after)).map (piece z o) := by
    refine pieces_intercalate (by simp [present_insert]) (List.forall_mem_map.mpr ?_)
    exact fun v _ => comma_not_mem_piece z o v
  rw [cut, present_insert]
  simp

/-- The literal of a sequence depends on a full sequence in it through the leaves of that one alone,
so grouping them in another way changes nothing. Its piece decodes to their plain texts with commas
between them. Wrapping it into further sequences is one way of grouping. -/
theorem literal_regrouped (before after : List Value) (fullX : (array xs).Full)
    (fullY : (array ys).Full) (same : (array xs).leaves = (array ys).leaves) :
    literal z o (array (before ++ array xs :: after)) =
      literal z o (array (before ++ array ys :: after)) ∧
    (∃ p, (pieces (literal z o (array (before ++ array xs :: after))).text)[
        (present before).length]? = some p ∧
      percentDecode p = ",".intercalate ((array xs).leaves.map (plainText z o))) ∧
    ∀ n, literal z o (array (before ++ wrap^[n] (array xs) :: after)) =
      literal z o (array (before ++ array xs :: after)) := by
  refine ⟨literal_eq_of_leaves z o before after fullX fullY same,
    ⟨piece z o (array xs), getElem?_pieces z o before after, ?_⟩, fun n => ?_⟩
  · have encoded : piece z o (array xs) = percentEncode (plainText z o (array xs)) := rfl
    rw [encoded, percentDecode_percentEncode, plainText_eq_intercalate z o fullX rfl]
    rfl
  · obtain ⟨others, wrapped, full, leaves⟩ := exists_iterate_wrap fullX n
    rw [wrapped]
    exact literal_eq_of_leaves z o before after full fullX leaves

/-- A text with a comma, a number and null between two items, one of them absent: in a flat sequence
with something absent, and in nested ones. -/
theorem literal_regrouped_nested :
    (array [string "a,b", absent, int 1, null]).Full ∧
    (array [array [array [string "a,b"], int 1], array [null]]).Full ∧
    (array [string "a,b", absent, int 1, null]).leaves =
      (array [array [array [string "a,b"], int 1], array [null]]).leaves ∧
    literal .utc {} (array [bool true, absent,
      array [array [array [string "a,b"], int 1], array [null]], string "c"]) =
      literal .utc {} (array [bool true, absent,
        array [string "a,b", absent, int 1, null], string "c"]) ∧
    ∃ p, (pieces (literal .utc {} (array [bool true, absent,
        array [string "a,b", absent, int 1, null], string "c"])).text)[1]? = some p ∧
      percentDecode p = "a,b,1,null" := by
  have flat : (array [string "a,b", absent, int 1, null]).Full := by
    simp [Full, sequences, itemSequences, leaves, itemLeaves]
  have nested : (array [array [array [string "a,b"], int 1], array [null]]).Full := by
    simp [Full, sequences, itemSequences, leaves, itemLeaves]
  have same : (array [string "a,b", absent, int 1, null]).leaves =
      (array [array [array [string "a,b"], int 1], array [null]]).leaves := rfl
  obtain ⟨unchanged, ⟨p, cut, decoded⟩, -⟩ :=
    literal_regrouped .utc {} [bool true, absent] [string "c"] flat nested same
  refine ⟨flat, nested, same, unchanged.symm, p, cut, decoded.trans ?_⟩
  decide

end RsqlQuery.Value
