import Mathlib.Data.List.Forall2
import Mathlib.Tactic.SplitIfs
import RsqlQuery.Proofs.Json.Document

/-!
# Labels from partial documents

The document of labels may be any object. Its members under the keys of sections give the labels of
these, those under other keys are passed over whatever their values are, and sections without a
member keep their default label. So it matters which values stand under the keys of sections, and
neither where they stand nor what stands between them. Two values under one of these keys are one
too many.

## Main definitions

* `KeysDenote` — the members of an object beside the texts of their keys.
* `valuesUnder` — the values of the members with a given key, in order.
* `labelMembers` — the members with the keys of sections.
* `Labels.ofGet` — labels given by section.

## Main statements

* `recordFields?_object` — what the members of an object give for the fields of a record.
* `Labels.ofTree?_object` — what they give for labels.
* `Document.decode?_labels_object` — the labels of a document that is an object, in any spelling.
-/

namespace RsqlQuery

open Json

/-! ## Members of an object -/

/-- Every key of the members denotes a text; these are the members with those texts. -/
def KeysDenote (members : List (List Piece × Tree)) (keyed : List (String × Tree)) : Prop :=
  List.Forall₂ (fun m k => textOf? m.1 = some k.1.toList ∧ m.2 = k.2) members keyed

/-- The values of the members with a given key. -/
def valuesUnder (keyed : List (String × Tree)) (key : String) : List Tree :=
  (keyed.filter fun m => m.1 == key).map Prod.snd

section Members

variable {members : List (List Piece × Tree)} {keyed : List (String × Tree)}

theorem KeysDenote.keyedMembers?_eq (h : KeysDenote members keyed) :
    keyedMembers? members = some keyed := by
  unfold keyedMembers?
  induction h with
  | nil => rfl
  | cons denotes _ ih => simp [List.mapM_cons, denotes.1, denotes.2, ih]

theorem length_valuesUnder (key : String) :
    (valuesUnder keyed key).length = keyed.countP fun m => m.1 == key := by
  rw [valuesUnder, List.length_map, List.countP_eq_length_filter]

theorem lookup_eq_head?_valuesUnder (key : String) :
    keyed.lookup key = (valuesUnder keyed key).head? := by
  induction keyed with
  | nil => rfl
  | cons m keyed ih =>
    obtain ⟨name, value⟩ := m
    by_cases same : name = key
    · simp [valuesUnder, same]
    · have other : (key == name) = false := by simpa using Ne.symm same
      rw [List.lookup_cons, other, ih]
      simp [valuesUnder, same]

/-- An object gives the first value under each name, if there is no second one. -/
theorem recordFields?_object (h : KeysDenote members keyed) (names : List String) :
    recordFields? names (.object members) =
      if ∀ name ∈ names, (valuesUnder keyed name).length ≤ 1 then
        some (names.map fun name => (valuesUnder keyed name).head?)
      else none := by
  simp [recordFields?, h.keyedMembers?_eq, length_valuesUnder, lookup_eq_head?_valuesUnder]

end Members

/-! ## Labels -/

namespace Labels

/-- The labels given by section. -/
def ofGet (f : Section → String) : Labels where
  filters := f .filters
  ordering := f .ordering
  pageSize := f .pageSize
  totalCount := f .totalCount
  pageNumber := f .pageNumber

@[simp] theorem get_ofGet (f : Section → String) (s : Section) : (ofGet f).get s = f s := by
  cases s <;> rfl

end Labels

/-- The members with the keys of sections. -/
def labelMembers (keyed : List (String × Tree)) : List (String × Tree) :=
  keyed.filter fun m => (Section.all.map Section.key).contains m.1

theorem valuesUnder_labelMembers (keyed : List (String × Tree)) (s : Section) :
    valuesUnder (labelMembers keyed) s.key = valuesUnder keyed s.key := by
  have known : (fun m : String × Tree =>
      (m.1 == s.key) && (Section.all.map Section.key).contains m.1) = fun m => m.1 == s.key := by
    funext m
    by_cases same : m.1 = s.key
    · simp [same]
    · simp [same]
  rw [valuesUnder, labelMembers, List.filter_filter, known, valuesUnder]

namespace Labels

variable {members others : List (List Piece × Tree)} {keyed keyedOthers : List (String × Tree)}

/-- An object gives labels if no section has two values, and these go by the first value of each
section. -/
theorem ofTree?_object (h : KeysDenote members keyed) :
    (Document.ofTree? (.object members) : Option Labels) =
      if ∀ s ∈ Section.all, (valuesUnder keyed s.key).length ≤ 1 then
        (Section.all.map fun s => (s, (valuesUnder keyed s.key).head?)).foldlM override? {}
      else none := by
  change (recordFields? _ _).bind _ = _
  simp only [recordFields?_object h, List.forall_mem_map]
  split_ifs
  · rfl
  · rfl

/-- A section with two values is refused. -/
theorem ofTree?_object_of_repeated (h : KeysDenote members keyed) {s : Section}
    (twice : 2 ≤ (valuesUnder keyed s.key).length) :
    (Document.ofTree? (.object members) : Option Labels) = none := by
  rw [ofTree?_object h, if_neg]
  intro once
  have := once s (Section.mem_all s)
  omega

section Given

variable {values : List Tree} {given : Option String}

theorem length_le_one_of_texts (h : values.map Tree.text? = given.toList.map some) :
    values.length ≤ 1 := by
  rw [← List.length_map Tree.text?, h, List.length_map]
  cases given <;> simp

theorem head?_of_texts (h : values.map Tree.text? = given.toList.map some) :
    values.head?.map Tree.text? = given.map some := by
  rw [← List.head?_map, h, List.head?_map, Option.head?_toList]

end Given

/-- If the values of each section are one text at most, the given texts replace the default labels
of their sections. -/
theorem ofTree?_object_of_given (h : KeysDenote members keyed) (given : Section → Option String)
    (texts : ∀ s : Section, (valuesUnder keyed s.key).map Tree.text? = (given s).toList.map some) :
    Document.ofTree? (.object members) = some (ofGet fun s => (given s).getD s.defaultLabel) := by
  have once : ∀ s ∈ Section.all, (valuesUnder keyed s.key).length ≤ 1 :=
    fun s _ => length_le_one_of_texts (texts s)
  have first : ∀ s : Section,
      (valuesUnder keyed s.key).head?.map Tree.text? = (given s).map some :=
    fun s => head?_of_texts (texts s)
  have read : ∀ s ∈ Section.all, ∀ t ∈ (valuesUnder keyed s.key).head?,
      t.text? = some ((ofGet fun s => (given s).getD s.defaultLabel).get s) := by
    intro s _ t ht
    have text := first s
    rw [Option.mem_def.mp ht, Option.map_some] at text
    cases label : given s with
    | none => simp [label] at text
    | some label => simpa [label] using text
  obtain ⟨result, run, get⟩ := exists_foldlM_override? _ _ read {}
  have same : result = ofGet fun s => (given s).getD s.defaultLabel := by
    refine Labels.ext_get fun s => ?_
    have named : (valuesUnder keyed s.key).head?.isSome = (given s).isSome := by
      simpa using congrArg Option.isSome (first s)
    rw [get s, get_ofGet, get_default, named]
    cases given s <;> simp
  rw [ofTree?_object h, if_pos once, run, same]

theorem eq_of_perm_of_length_le_one {α : Type} {l m : List α} (h : l.Perm m)
    (short : l.length ≤ 1) : l = m := by
  match l with
  | [] => exact h.nil_eq
  | [x] => exact (List.singleton_perm.mp h)

/-- Of the members of an object, only the values under the keys of sections count, and only as far
as they are given. -/
theorem ofTree?_object_congr (h : KeysDenote members keyed) (k : KeysDenote others keyedOthers)
    (same : (labelMembers keyed).Perm (labelMembers keyedOthers)) :
    (Document.ofTree? (.object members) : Option Labels) = Document.ofTree? (.object others) := by
  have values : ∀ s : Section, (valuesUnder keyed s.key).Perm (valuesUnder keyedOthers s.key) := by
    intro s
    rw [← valuesUnder_labelMembers keyed, ← valuesUnder_labelMembers keyedOthers]
    exact (same.filter _).map _
  by_cases once : ∀ s ∈ Section.all, (valuesUnder keyed s.key).length ≤ 1
  · have equal : ∀ s : Section, valuesUnder keyed s.key = valuesUnder keyedOthers s.key :=
      fun s => eq_of_perm_of_length_le_one (values s) (once s (Section.mem_all s))
    simp only [ofTree?_object h, ofTree?_object k, equal]
  · obtain ⟨s, -, twice⟩ : ∃ s ∈ Section.all, ¬(valuesUnder keyed s.key).length ≤ 1 := by
      simpa using once
    have two : 2 ≤ (valuesUnder keyed s.key).length := by omega
    rw [ofTree?_object_of_repeated h two,
      ofTree?_object_of_repeated k ((values s).length_eq ▸ two)]

end Labels

/-! ## Documents -/

namespace Document

/-- However an object is spelled, the labels of its document are the default ones with those
replaced that a member names: if under the key of each section there is one text or nothing, then
these texts are taken and nothing else is changed. The order of the members and those under other
keys do not matter. A key of a section that occurs twice is refused. -/
theorem decode?_labels_object {s : String} {members : List (List Piece × Tree)}
    {keyed : List (String × Tree)} (spelled : (Tree.object members).Spelling s.toList)
    (keys : KeysDenote members keyed) :
    (∀ given : Section → Option String,
      (∀ c : Section, (valuesUnder keyed c.key).map Tree.text? = (given c).toList.map some) →
      decode? s = some (Labels.ofGet fun c => (given c).getD c.defaultLabel)) ∧
    (∀ (t : String) (others : List (List Piece × Tree)) (keyedOthers : List (String × Tree)),
      (Tree.object others).Spelling t.toList → KeysDenote others keyedOthers →
      (labelMembers keyed).Perm (labelMembers keyedOthers) →
      (decode? s : Option Labels) = decode? t) ∧
    ((∃ c : Section, 2 ≤ (valuesUnder keyed c.key).length) →
      (decode? s : Option Labels) = none) := by
  refine ⟨fun given texts => ?_, fun t others keyedOthers spelledOthers keysOthers same => ?_, ?_⟩
  · rw [decode?_of_spelling spelled, Labels.ofTree?_object_of_given keys given texts]
  · rw [decode?_of_spelling spelled, decode?_of_spelling spelledOthers,
      Labels.ofTree?_object_congr keys keysOthers same]
  · rintro ⟨c, twice⟩
    rw [decode?_of_spelling spelled, Labels.ofTree?_object_of_repeated keys twice]

/-- A member under another key in front, with an escape in its key and a label's key inside. -/
theorem decode?_labels_object_foreign :
    ∃ (members : List (List Piece × Tree)) (keyed : List (String × Tree)),
      (Tree.object members).Spelling
        "\x7b\"x\\u0079\" : \x7b\"whereKeyword\":[1e5]\x7d, \"whereKeyword\":\"$f\" \x7d".toList ∧
      KeysDenote members keyed ∧
      decode? "\x7b\"x\\u0079\" : \x7b\"whereKeyword\":[1e5]\x7d, \"whereKeyword\":\"$f\" \x7d" =
        some ({ filters := "$f" } : Labels) := by
  have space : Spacing [' '] := by simp [Spacing]
  have none : Spacing [] := by simp [Spacing]
  have label := (wellFormed_ofText "whereKeyword").spelling
  have text := (wellFormed_ofText "$f").spelling
  have inner : Tree.Spelling (.array [.number ['1', 'e', '5']]) ['[', '1', 'e', '5', ']'] :=
    @Tree.Spelling.array [] [(.number ['1', 'e', '5'], ['1', 'e', '5'])] none
      (List.forall_mem_singleton.mpr (.number (isNumber_iff.mp (by decide))))
  have foreign := @Tree.Spelling.object [] [⟨"whereKeyword".toList.map .char, _, _, _⟩] none
    (List.forall_mem_singleton.mpr label) (List.forall_mem_singleton.mpr inner)
  have y : Piece.Spelling (.char 'y') ['\\', 'u', '0', '0', '7', '9'] :=
    @Piece.Spelling.unit '0' '0' '7' '9' 0 0 7 9 (by decide) (by decide) (by decide) (by decide)
  have escaped : StringSpelling [.char 'x', .char 'y'] ['x', '\\', 'u', '0', '0', '7', '9'] :=
    .cons (.plain (by decide) (by decide) (by decide)) (.cons y .nil)
  have spelled := @Tree.Spelling.object []
    [⟨[.char 'x', .char 'y'], _, _, _⟩, ⟨"whereKeyword".toList.map .char, _, _, _⟩] none
    (List.forall_mem_cons.mpr ⟨.spaced none (.string escaped) space,
      List.forall_mem_singleton.mpr (.spaced space label none)⟩)
    (List.forall_mem_cons.mpr ⟨.spaced space foreign none,
      List.forall_mem_singleton.mpr (.spaced none text space)⟩)
  have keys : KeysDenote
      [([.char 'x', .char 'y'], .object [("whereKeyword".toList.map .char,
        .array [.number ['1', 'e', '5']])]), ("whereKeyword".toList.map .char, Tree.ofText "$f")]
      [("xy", .object [("whereKeyword".toList.map .char, .array [.number ['1', 'e', '5']])]),
        ("whereKeyword", Tree.ofText "$f")] :=
    .cons ⟨rfl, rfl⟩ (.cons ⟨textOf?_map_char _, rfl⟩ .nil)
  refine ⟨_, _, spelled, keys, ?_⟩
  refine ((decode?_labels_object spelled keys).1
    (fun c => if c = .filters then some "$f" else Option.none) fun c => ?_).trans rfl
  cases c <;> rfl

end Document

end RsqlQuery
