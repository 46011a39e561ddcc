import Mathlib.Data.List.Nodup
import RsqlQuery.Json.Document
import RsqlQuery.Proofs.Json.Tree

/-!
# Documents are read back

An element is read back from its document if the tree that it is stored as can be spelled and is
read as that element. For a record the second depends on the keys: those that it is written with
have to be those that are looked up, for a field under another key would be passed over and take its
default. A document that is read and written once is in its final form.

## Main definitions

* `LawfulDocument` — the types whose trees can be spelled and read back.
* `Document.rewrite?` — the document that a text is written back to.

## Main statements

* `recordFields?_recordOf` — a record gives the fields that it was made of.
* `Labels.exists_foldlM_override?` — labels take the texts that are given for them.
* `Document.decode?_of_spelling` — an element is read from any spelling of its document.
* `Document.decode?_encode` — every element of a lawful type is read back from its document.
* `Document.rewrite?_rewrite?` — writing back a document twice is doing so once.
* `Document.decode?_encode_configuration` — the types that have documents are lawful.
-/

namespace RsqlQuery

open Json

/-! ## Records -/

theorem valid_of_mem_map_char (s : String) : ∀ p ∈ s.toList.map Piece.char, p.Valid :=
  List.forall_mem_map.mpr fun _ _ => trivial

theorem wellFormed_ofText (s : String) : (Tree.ofText s).WellFormed :=
  .string (valid_of_mem_map_char s)

theorem wellFormed_recordOf {members : List (String × Tree)}
    (h : ∀ m ∈ members, m.2.WellFormed) : (recordOf members).WellFormed :=
  .object (List.forall_mem_map.mpr fun m _ => valid_of_mem_map_char m.1)
    (List.forall_mem_map.mpr h)

theorem keyedMembers?_recordOf (members : List (String × Tree)) :
    keyedMembers? (members.map fun m => (m.1.toList.map .char, m.2)) = some members := by
  have back : (fun m => (textOf? m.1).map fun key => (String.ofList key, m.2)) ∘
      (fun m : String × Tree => (m.1.toList.map Piece.char, m.2)) = pure := by
    funext m
    simp [textOf?_map_char]
  rw [keyedMembers?, List.mapM_map, back]
  simpa using List.mapM_pure (m := Option) (f := id) (l := members)

theorem lookup_of_mem {members : List (String × Tree)} (keys : (members.map Prod.fst).Nodup)
    {m : String × Tree} (h : m ∈ members) : members.lookup m.1 = some m.2 := by
  obtain ⟨before, after, rfl⟩ := List.append_of_mem h
  rw [List.map_append, List.map_cons, List.nodup_append] at keys
  obtain ⟨-, -, different⟩ := keys
  refine List.lookup_eq_some_iff.mpr ⟨before, after, rfl, fun p hp => bne_iff_ne.mpr ?_⟩
  exact (different p.1 (List.mem_map_of_mem hp) m.1 List.mem_cons_self).symm

/-- A record gives the fields that it was made of, if no two of them have the same key. -/
theorem recordFields?_recordOf {names : List String} {members : List (String × Tree)}
    (keys : members.map Prod.fst = names) (distinct : names.Nodup) :
    recordFields? names (recordOf members) = some (members.map fun m => some m.2) := by
  subst keys
  have once : ∀ name, (members.countP fun m => m.1 == name) ≤ 1 := by
    intro name
    have count := List.nodup_iff_count_le_one.mp distinct name
    rwa [List.count, List.countP_map] at count
  have found : (members.map Prod.fst).map (fun name => members.lookup name) =
      members.map fun m => some m.2 := by
    rw [List.map_map]
    exact List.map_congr_left fun m hm => lookup_of_mem distinct hm
  simp [recordFields?, recordOf, keyedMembers?_recordOf, once, found, -List.map_map]

/-! ## Types that are read back -/

/-- Documents whose trees can be spelled and are read as the element that they store. -/
class LawfulDocument (α : Type) [Document α] : Prop where
  wellFormed_toTree : ∀ a : α, (Document.toTree a).WellFormed
  ofTree?_toTree : ∀ a : α, Document.ofTree? (Document.toTree a) = some a

open LawfulDocument

instance : LawfulDocument RenderOptions where
  wellFormed_toTree o := wellFormed_recordOf (by simpa using .bool _)
  ofTree?_toTree o := by
    have fields : recordFields? ["includeTimestamp"] (Document.toTree o) =
      some [some (.bool o.includeTimestamp)] := recordFields?_recordOf rfl (by decide)
    simp [Document.ofTree?, fields, Tree.bool?]

instance : LawfulDocument Direction where
  wellFormed_toTree d := wellFormed_ofText d.word
  ofTree?_toTree d := by cases d <;> rfl

instance : LawfulDocument SortKey where
  wellFormed_toTree k := wellFormed_recordOf (by
    simpa using ⟨wellFormed_ofText k.field, wellFormed_toTree k.direction⟩)
  ofTree?_toTree k := by
    have fields : recordFields? ["field", "direction"] (Document.toTree k) =
      some [some (.ofText k.field), some (Document.toTree k.direction)] :=
        recordFields?_recordOf rfl (by decide)
    change (recordFields? _ _).bind _ = _
    rw [fields]
    change ((Tree.ofText k.field).text?.bind fun name =>
      (Document.ofTree? (Document.toTree k.direction)).bind fun direction =>
        some ({ field := name, direction } : SortKey)) = some k
    rw [Tree.text?_ofText, ofTree?_toTree]
    rfl

/-- Labels take the texts that are given for them, and keep the others. -/
theorem Labels.exists_foldlM_override? (l : Labels) {sections : List Section}
    (fields : Section → Option Tree)
    (texts : ∀ s ∈ sections, ∀ t ∈ fields s, t.text? = some (l.get s)) (m : Labels) :
    ∃ given, (sections.map fun s => (s, fields s)).foldlM override? m = some given ∧
      ∀ s, given.get s = if s ∈ sections ∧ (fields s).isSome then l.get s else m.get s := by
  induction sections generalizing m with
  | nil => exact ⟨m, rfl, by simp⟩
  | cons s sections ih =>
    have later := ih fun t ht => texts t (List.mem_cons_of_mem s ht)
    cases field : fields s with
    | none =>
      obtain ⟨given, run, get⟩ := later m
      refine ⟨given, ?_, fun t => ?_⟩
      · simpa [override?, field] using run
      · rw [get t]
        by_cases same : t = s
        · simp [same, field]
        · simp [same]
    | some tree =>
      have text := texts s List.mem_cons_self tree field
      obtain ⟨given, run, get⟩ := later (m.set s (l.get s))
      refine ⟨given, ?_, fun t => ?_⟩
      · simpa [override?, field, text] using run
      · rw [get t, get_set]
        by_cases same : t = s
        · simp [same, field]
        · simp [same]

instance : LawfulDocument Labels where
  wellFormed_toTree l := wellFormed_recordOf (List.forall_mem_map.mpr fun s _ =>
    wellFormed_ofText (l.get s))
  ofTree?_toTree l := by
    have fields : recordFields? (Section.all.map Section.key) (Document.toTree l) =
        some (Section.all.map fun s => some (.ofText (l.get s))) :=
      recordFields?_recordOf rfl (by decide)
    have texts : ∀ s ∈ Section.all, ∀ t ∈ some (Tree.ofText (l.get s)),
        t.text? = some (l.get s) := by simp
    obtain ⟨given, run, get⟩ := l.exists_foldlM_override? _ texts {}
    have same : given = l := Labels.ext_get (by simpa using get)
    change (recordFields? _ _).bind _ = _
    rw [fields]
    exact run.trans (congrArg some same)

/-! ## Reading and writing -/

namespace Document

variable {α : Type} [Document α]

/-- An element is read from the value of its document, however that is spelled. -/
theorem decode?_of_spelling {s : String} {t : Tree} (h : t.Spelling s.toList) :
    (decode? s : Option α) = ofTree? t := by
  rw [decode?, h.parse?_eq]
  rfl

/-- The document that a text is written back to, if it stores an element. -/
def rewrite? (α : Type) [Document α] (s : String) : Option String :=
  (decode? s : Option α).map encode

variable [LawfulDocument α]

theorem decode?_encode (a : α) : decode? (encode a) = some a := by
  rw [decode?, encode, Tree.parse?_write (wellFormed_toTree a)]
  exact ofTree?_toTree a

/-- What was written back once is written back to itself. -/
theorem rewrite?_rewrite? (s : String) :
    (rewrite? α s).bind (rewrite? α) = rewrite? α s := by
  cases read : (decode? s : Option α) with
  | none => simp [rewrite?, read]
  | some a => simp [rewrite?, read, decode?_encode a]

/-- Labels, sort keys, options and directions are read back from their documents, whatever
characters their texts have, and every document that is accepted is in its final form once it was
written back. -/
theorem decode?_encode_configuration :
    (∀ l : Labels, decode? (encode l) = some l) ∧ (∀ k : SortKey, decode? (encode k) = some k) ∧
    (∀ o : RenderOptions, decode? (encode o) = some o) ∧
    (∀ d : Direction, decode? (encode d) = some d) ∧
    ∀ s, (rewrite? Labels s).bind (rewrite? Labels) = rewrite? Labels s ∧
      (rewrite? SortKey s).bind (rewrite? SortKey) = rewrite? SortKey s ∧
      (rewrite? RenderOptions s).bind (rewrite? RenderOptions) = rewrite? RenderOptions s ∧
      (rewrite? Direction s).bind (rewrite? Direction) = rewrite? Direction s :=
  ⟨decode?_encode, decode?_encode, decode?_encode, decode?_encode, fun s =>
    ⟨rewrite?_rewrite? s, rewrite?_rewrite? s, rewrite?_rewrite? s, rewrite?_rewrite? s⟩⟩

/-- An array of fields is written back as an object, and an escape only where one is needed. -/
example : rewrite? SortKey "[\"a\\u0022\", \x7b\"desc\": null\x7d]" =
    some "\x7b\"field\":\"a\\\"\",\"direction\":\"desc\"\x7d" := by
  decide +kernel

end Document

end RsqlQuery
