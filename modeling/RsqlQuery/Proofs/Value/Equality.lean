import Mathlib.Data.List.Basic
import RsqlQuery.Proofs.Value.Leaves

/-!
# Equality of values

Values compare as floating point does, so their equality is not identity: the two zeros are equal,
and a NaN is not even equal to itself. Both exceptions come apart. Take the signs off all zeros of a
value: two values are equal exactly if they are the same then and hold no NaN. That equality is
symmetric and transitive is read off this, and as no zero is written with a sign, so is that equal
values are written in the same way.

## Main definitions

* `Binary64.unsignedZero`, `Value.unsignedZeros` — a number and a value without the signs of zeros.

## Main statements

* `Value.beq_iff` — equality as identity of what has no signs at its zeros.
* `Value.beq_self_iff` — a value equals itself exactly if it holds no NaN.
* `Value.literal_eq_of_beq` — equal values have one literal.
-/

namespace RsqlQuery

open Number Text Time

/-! ## Numbers -/

namespace Number.Binary64

variable {x y : Binary64}

/-- The number, or the positive zero if it is a zero. -/
def unsignedZero (x : Binary64) : Binary64 := if x.isZero then ⟨0⟩ else x

theorem exists_datum_of_isZero (h : x.isZero = true) :
    ∃ negative, x.datum = .finite negative 0 0 := by
  have zero : x.bits.toNat % binary64.signBit = 0 := by simpa [isZero] using h
  have infinity : 0 ≠ binary64.infinityBits := by decide
  refine ⟨decide (binary64.signBit ≤ x.bits.toNat), ?_⟩
  simp [datum, BinaryFormat.datum, zero, infinity]

theorem text_of_isZero (h : x.isZero = true) : x.text = "0" := by
  obtain ⟨negative, zero⟩ := exists_datum_of_isZero h
  rw [text, zero]
  rfl

theorem isNaN_of_isZero (h : x.isZero = true) : x.isNaN = false := by
  obtain ⟨negative, zero⟩ := exists_datum_of_isZero h
  simp [isNaN, zero]

@[simp] theorem isNaN_unsignedZero (x : Binary64) : x.unsignedZero.isNaN = x.isNaN := by
  rw [unsignedZero]
  split
  next zero => rw [isNaN_of_isZero zero, isNaN_of_isZero rfl]
  next => rfl

/-- No zero is written with its sign. -/
@[simp] theorem text_unsignedZero (x : Binary64) : x.unsignedZero.text = x.text := by
  rw [unsignedZero]
  split
  next zero => rw [text_of_isZero zero, text_of_isZero rfl]
  next => rfl

theorem unsignedZero_unsignedZero (x : Binary64) : x.unsignedZero.unsignedZero = x.unsignedZero := by
  by_cases zero : x.isZero = true
  · simp only [unsignedZero, zero, if_true, ite_self]
  · simp only [unsignedZero, zero, if_false, Bool.false_eq_true]

theorem beq_iff : (x == y) = true ↔ x.isNaN = false ∧ x.unsignedZero = y.unsignedZero := by
  have zero : (⟨0⟩ : Binary64).isZero = true := rfl
  have notNaN := @isNaN_of_isZero
  simp only [beq_def, unsignedZero, Bool.and_eq_true, Bool.or_eq_true, Bool.not_eq_true',
    decide_eq_true_eq]
  grind

end Number.Binary64

/-! ## Values -/

namespace Value

mutual

/-- The value with the signs taken off its zeros, at any depth. -/
def unsignedZeros : Value → Value
  | float x => float x.unsignedZero
  | array items => array (itemsUnsignedZeros items)
  | v => v

def itemsUnsignedZeros : List Value → List Value
  | [] => []
  | v :: rest => unsignedZeros v :: itemsUnsignedZeros rest

end

theorem itemsUnsignedZeros_eq (items : List Value) :
    itemsUnsignedZeros items = items.map unsignedZeros := by
  induction items with
  | nil => rfl
  | cons v rest ih => rw [itemsUnsignedZeros, ih, List.map_cons]

@[simp] theorem unsignedZeros_array (items : List Value) :
    (array items).unsignedZeros = array (items.map unsignedZeros) := by
  rw [unsignedZeros, itemsUnsignedZeros_eq]

@[simp] theorem isAbsent_unsignedZeros (v : Value) : v.unsignedZeros.isAbsent = v.isAbsent := by
  cases v <;> rfl

@[simp] theorem isString_unsignedZeros (v : Value) : v.unsignedZeros.isString = v.isString := by
  cases v <;> rfl

theorem items?_unsignedZeros (v : Value) :
    v.unsignedZeros.items? = v.items?.map (List.map unsignedZeros) := by
  cases v with
  | array items => rw [unsignedZeros_array, items?, items?, Option.map_some]
  | _ => rfl

@[simp] theorem isNaN_unsignedZeros (v : Value) : v.unsignedZeros.isNaN = v.isNaN := by
  cases v with
  | float x => exact x.isNaN_unsignedZero
  | _ => rfl

@[simp] theorem leaves_unsignedZeros (v : Value) :
    v.unsignedZeros.leaves = v.leaves.map unsignedZeros := by
  induction v using nested_induction with
  | array items ih =>
    rw [unsignedZeros_array, leaves_array, leaves_array, List.flatMap_map, List.map_flatMap]
    exact List.flatMap_congr ih
  | _ => rfl

theorem holdsNaN_unsignedZeros (v : Value) : v.unsignedZeros.holdsNaN = v.holdsNaN := by
  simp [holdsNaN, Function.comp_def]

/-! ### Equality -/

theorem beqItems_iff {as : List Value}
    (item : ∀ v ∈ as, ∀ w, (v == w) = true ↔
      v.holdsNaN = false ∧ v.unsignedZeros = w.unsignedZeros) (bs : List Value) :
    beqItems as bs = true ↔
      (∀ v ∈ as, v.holdsNaN = false) ∧ as.map unsignedZeros = bs.map unsignedZeros := by
  induction as generalizing bs with
  | nil => cases bs <;> simp [beqItems]
  | cons v as ih =>
    cases bs with
    | nil => simp [beqItems]
    | cons w bs =>
      have head : beq v w = true ↔ _ := item v List.mem_cons_self w
      have tail := ih (fun u hu => item u (List.mem_cons_of_mem _ hu)) bs
      simp only [beqItems, Bool.and_eq_true, head, tail, List.forall_mem_cons, List.map_cons,
        List.cons.injEq]
      exact and_and_and_comm

/-- Two values are equal if they hold no NaN and differ in nothing but the signs of zeros. -/
theorem beq_iff {v w : Value} :
    (v == w) = true ↔ v.holdsNaN = false ∧ v.unsignedZeros = w.unsignedZeros := by
  induction v using nested_induction generalizing w with
  | float x =>
    cases w with
    | float y =>
      have same : (float x == float y) = (x == y) := rfl
      simp [same, Binary64.beq_iff, holdsNaN, leaves, isNaN, unsignedZeros]
    | _ => simp [BEq.beq, beq, unsignedZeros, itemsUnsignedZeros_eq]
  | array as ih =>
    cases w with
    | array bs =>
      have same : (array as == array bs) = beqItems as bs := rfl
      simp [same, beqItems_iff fun v hv _ => ih v hv, holdsNaN_array]
    | _ => simp [BEq.beq, beq, unsignedZeros, itemsUnsignedZeros_eq]
  | _ =>
    cases w <;>
      simp [BEq.beq, beq, unsignedZeros, holdsNaN, leaves, isNaN, itemsUnsignedZeros_eq]

theorem unsignedZeros_unsignedZeros (v : Value) :
    v.unsignedZeros.unsignedZeros = v.unsignedZeros := by
  induction v using nested_induction with
  | float x => exact congrArg float x.unsignedZero_unsignedZero
  | array items ih =>
    rw [unsignedZeros_array, unsignedZeros_array, List.map_map]
    exact congrArg array (List.map_congr_left ih)
  | _ => rfl

/-- A value without a NaN equals what is left of it without the signs of its zeros. -/
theorem beq_unsignedZeros {v : Value} (noNaN : v.holdsNaN = false) :
    (v == v.unsignedZeros) = true :=
  beq_iff.mpr ⟨noNaN, v.unsignedZeros_unsignedZeros.symm⟩

theorem beq_self_iff {v : Value} : (v == v) = true ↔ v.holdsNaN = false := by
  simp [beq_iff]

instance : PartialEquivBEq Value where
  symm := by
    intro v w h
    obtain ⟨noNaN, same⟩ := beq_iff.mp h
    refine beq_iff.mpr ⟨?_, same.symm⟩
    rw [← holdsNaN_unsignedZeros, ← same, holdsNaN_unsignedZeros, noNaN]
  trans := by
    intro u v w huv hvw
    obtain ⟨noNaN, first⟩ := beq_iff.mp huv
    obtain ⟨-, second⟩ := beq_iff.mp hvw
    exact beq_iff.mpr ⟨noNaN, first.trans second⟩

/-! ### Texts -/

variable (z : TimeZone) (o : RenderOptions)

theorem present_map_unsignedZeros (items : List Value) :
    present (items.map unsignedZeros) = (present items).map unsignedZeros := by
  simp [present, List.filter_map, Function.comp_def]

theorem plainText_unsignedZeros (v : Value) : plainText z o v.unsignedZeros = plainText z o v := by
  induction v using nested_induction with
  | float x => exact x.text_unsignedZero
  | array items ih =>
    have item : ∀ v ∈ present items, plainText z o v.unsignedZeros = plainText z o v :=
      fun v hv => ih v (List.mem_filter.mp hv).1
    rw [unsignedZeros_array, plainText, plainText, plainTexts_eq, plainTexts_eq,
      present_map_unsignedZeros, List.map_map, Function.comp_def, List.map_congr_left item]
  | _ => rfl

theorem piece_unsignedZeros (v : Value) : piece z o v.unsignedZeros = piece z o v := by
  have plain := plainText_unsignedZeros z o v
  cases v with
  | float x => exact plain
  | array items =>
    rw [unsignedZeros_array] at plain ⊢
    simp only [piece, plain]
  | _ => rfl

theorem literal_unsignedZeros (v : Value) : literal z o v.unsignedZeros = literal z o v := by
  have plain := plainText_unsignedZeros z o v
  cases v with
  | float x => simp only [unsignedZeros, literal] at plain ⊢; rw [plain]
  | array items =>
    rw [unsignedZeros_array, literal, literal, present_map_unsignedZeros, List.map_map]
    simp only [Function.comp_def, piece_unsignedZeros]
  | _ => rfl

theorem literal_eq_of_beq {v w : Value} (h : (v == w) = true) : literal z o v = literal z o w := by
  rw [← literal_unsignedZeros, (beq_iff.mp h).2, literal_unsignedZeros]

end Value

end RsqlQuery
