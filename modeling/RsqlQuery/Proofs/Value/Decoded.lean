import RsqlQuery.Proofs.Text.Foreign
import RsqlQuery.Proofs.Value.Foreign

/-!
# What literals decode to

Only the items of a sequence are percent-encoded in a literal, and not even all of them. So a
literal decodes to itself, but for a sequence, which decodes to the texts of its items with commas
between them. A percent sign in what a literal decodes to comes from a text in the value; one in the
literal itself may also stand for a character of an item.

## Main definitions

* `Value.texts` — the texts in a value, at any depth.
* `Value.itemText` — the text of an item of a sequence before any encoding.
* `Value.decodedLiteral` — what the literal of a value decodes to.

## Main statements

* `Value.mem_plainText` — where the special characters of a plain text come from.
* `Value.reads_literal` — what a literal decodes to.
* `Value.percent_mem_literal_iff` — when a literal holds a percent sign.
-/

namespace RsqlQuery.Value

open Number Text Time

mutual

/-- The texts in a value, at any depth. -/
def texts : Value → List String
  | string s => [s]
  | array items => itemTexts items
  | _ => []

def itemTexts : List Value → List String
  | [] => []
  | v :: rest => texts v ++ itemTexts rest

end

theorem texts_array (items : List Value) : texts (.array items) = items.flatMap texts := by
  rw [texts]
  induction items with
  | nil => rfl
  | cons v rest ih => rw [itemTexts, ih, List.flatMap_cons]

theorem texts_of_mem {items : List Value} {v : Value} (hv : v ∈ items) {s : String}
    (hs : s ∈ texts v) : s ∈ texts (.array items) := by
  rw [texts_array]
  exact List.mem_flatMap.mpr ⟨v, hv, hs⟩

variable (z : TimeZone) (o : RenderOptions)

/-- The text of an item of a sequence before any encoding. -/
def itemText : Value → String
  | string s => escape s
  | v => plainText z o v

/-- What the literal of a value decodes to, as long as no text in it holds a percent sign. -/
def decodedLiteral : Value → String
  | array items => itemSeparator.intercalate ((present items).map (itemText z o))
  | v => (literal z o v).text

/-! ## Plain texts -/

/-- A character in a plain text that numbers do not hold comes from a text in the value, or it
separates items or the parts of a time of day. -/
theorem mem_plainText {x : Char} (special : isNumeric x = false) (colon : x ≠ ':') (comma : x ≠ ',')
    (v : Value) (h : x ∈ (plainText z o v).toList) : ∃ s ∈ texts v, x ∈ s.toList := by
  have word : ∀ {s : String}, s.toList.all isNumeric = true → x ∉ s.toList := by
    intro s letters held
    exact Bool.false_ne_true (special ▸ List.all_eq_true.mp letters x held)
  induction v using nested_induction with
  | absent => simp [plainText] at h
  | null => exact absurd h (word (s := nullText) (by decide))
  | bool b => exact absurd h (word (s := boolText b) (by cases b <;> decide))
  | int n =>
    rw [plainText, String.toList_ofList] at h
    exact absurd h (not_mem_integerText special n.toInt)
  | float f => exact absurd h (not_mem_text special f)
  | string s => exact ⟨s, by simp [texts], h⟩
  | date t =>
    rw [plainText, String.toList_ofList] at h
    rcases isNumeric_or_colon_of_mem_text h with numeric | rfl
    · exact absurd numeric (by simp [special])
    · exact absurd rfl colon
  | array items ih =>
    have separator : x ∉ itemSeparator.toList := by simpa [itemSeparator] using comma
    rw [plainText, plainTexts_eq, mem_intercalate_iff separator] at h
    obtain ⟨_, hs, held⟩ := h
    obtain ⟨v, hv, rfl⟩ := List.mem_map.mp hs
    have member : v ∈ items := (List.mem_filter.mp hv).1
    obtain ⟨s, hs, held⟩ := ih v member held
    exact ⟨s, texts_of_mem member hs, held⟩

theorem percent_not_mem_itemText {v : Value} (h : ∀ s ∈ texts v, '%' ∉ s.toList) :
    '%' ∉ (itemText z o v).toList := by
  intro held
  unfold itemText at held
  split at held
  · next s => exact h s (by simp [texts]) ((mem_escape_iff (by decide) s).mp held)
  · obtain ⟨s, hs, held⟩ := mem_plainText z o (by decide) (by decide) (by decide) v held
    exact h s hs held

/-! ## Items of a sequence -/

/-- An item is written as it is if it is a number, and percent-encoded otherwise. -/
theorem piece_eq (v : Value) :
    piece z o v = if v.isNumber then itemText z o v else percentEncode (itemText z o v) := by
  cases v <;> rfl

theorem percent_not_mem_number {v : Value} (h : v.isNumber = true) :
    '%' ∉ (itemText z o v).toList := by
  cases v with
  | int n =>
    change '%' ∉ (plainText z o (.int n)).toList
    rw [plainText, String.toList_ofList]
    exact not_mem_integerText (by decide) n.toInt
  | float f => exact not_mem_text (by decide) f
  | _ => simp [isNumber] at h

/-- Every item reads back as its text. -/
theorem reads_piece (v : Value) : Percent.Reads (piece z o v).toList (itemText z o v).toList := by
  rw [piece_eq]
  split_ifs with number
  · exact Percent.reads_of_not_mem (percent_not_mem_number z o number)
  · rw [toList_percentEncode]
    exact Percent.reads_encode _

/-- An item is written with a percent sign exactly if it is encoded and not left as it is. -/
theorem percent_mem_piece_iff (v : Value) :
    '%' ∈ (piece z o v).toList ↔
      v.isNumber = false ∧ ∃ c ∈ (itemText z o v).toList, Percent.keeps c = false := by
  rw [piece_eq]
  split_ifs with number
  · simp [number, percent_not_mem_number z o number]
  · rw [toList_percentEncode, Percent.percent_mem_encode_iff]
    simp [number]

/-! ## Literals -/

theorem eq_array_or_not_isArray (v : Value) : (∃ items, v = .array items) ∨ v.isArray = false := by
  cases v with
  | array items => exact .inl ⟨items, rfl⟩
  | _ => exact .inr rfl

theorem literal_text_of_not_isArray {v : Value} (h : v.isArray = false) :
    (literal z o v).text = itemText z o v := by
  cases v with
  | array items => simp [isArray] at h
  | _ => rfl

theorem decodedLiteral_of_not_isArray {v : Value} (h : v.isArray = false) :
    decodedLiteral z o v = itemText z o v := by
  cases v with
  | array items => simp [isArray] at h
  | _ => rfl

/-- A literal reads back without any percent sign if the texts of its value hold none. -/
theorem reads_literal {v : Value} (h : ∀ s ∈ texts v, '%' ∉ s.toList) :
    Percent.Reads (literal z o v).text.toList (decodedLiteral z o v).toList ∧
      '%' ∉ (decodedLiteral z o v).toList := by
  rcases eq_array_or_not_isArray v with ⟨items, rfl⟩ | single
  · have comma : Percent.Reads itemSeparator.toList itemSeparator.toList :=
      Percent.reads_of_not_mem (by decide)
    constructor
    · have joined := comma.intercalate fun w (_ : w ∈ present items) => reads_piece z o w
      rw [literal, decodedLiteral, String.toList_intercalate, String.toList_intercalate]
      simpa only [List.map_map, Function.comp_def] using joined
    · rw [decodedLiteral, mem_intercalate_iff (by decide)]
      rintro ⟨_, hs, held⟩
      obtain ⟨w, hw, rfl⟩ := List.mem_map.mp hs
      have member : w ∈ items := (List.mem_filter.mp hw).1
      exact percent_not_mem_itemText z o (fun s hs => h s (texts_of_mem member hs)) held
  · have free := percent_not_mem_itemText z o h
    rw [literal_text_of_not_isArray z o single, decodedLiteral_of_not_isArray z o single]
    exact ⟨Percent.reads_of_not_mem free, free⟩

/-- A literal holds a percent sign exactly if it is that of a sequence with an item that is encoded
and not left as it is. -/
theorem percent_mem_literal_iff {v : Value} (h : ∀ s ∈ texts v, '%' ∉ s.toList) :
    '%' ∈ (literal z o v).text.toList ↔
      ∃ items, v = .array items ∧ ∃ w ∈ items, w.isAbsent = false ∧ w.isNumber = false ∧
        ∃ c ∈ (itemText z o w).toList, Percent.keeps c = false := by
  rcases eq_array_or_not_isArray v with ⟨items, rfl⟩ | single
  · have held : '%' ∈ (literal z o (.array items)).text.toList ↔
        ∃ w ∈ present items, '%' ∈ (piece z o w).toList := by
      rw [literal, mem_intercalate_iff (by decide)]
      simp only [List.mem_map, exists_exists_and_eq_and]
    rw [held]
    simp only [percent_mem_piece_iff, present, List.mem_filter, Bool.not_eq_true', and_assoc,
      array.injEq, exists_eq_left']
  · rw [literal_text_of_not_isArray z o single]
    constructor
    · intro held
      exact absurd held (percent_not_mem_itemText z o h)
    · rintro ⟨items, rfl, -⟩
      simp [isArray] at single

end RsqlQuery.Value
