import Mathlib.Data.List.Nodup
import Mathlib.Tactic.SplitIfs
import RsqlQuery.Query.Basic

/-!
# The fault that is reported

Several labels can be at fault at once, and one label in two ways. The section that is reported is
the first, in the order of writing, whose label is blank or was taken by an earlier section, and a
label that is both is reported as blank. A query reports the fault of its labels whatever its page
is, then a page size of zero, then a page number of zero.

## Main definitions

* `Section.position` — the place of a section in the order of writing.
* `Labels.Offends`, `Labels.IsFirstOffender` — sections with labels at fault, and the first of them.
* `Labels.Reported`, `Query.Reported` — the rules by which faults are reported.

## Main statements

* `Labels.fault?_eq_none_iff` — labels are without fault if none is blank and no two are the same.
* `Labels.fault?_eq_some_iff` — the fault of labels is that of the first section that offends.
* `Query.reported_iff` — labels and queries report by the rules, and nothing else.
-/

namespace RsqlQuery

/-- The place of a section in the order of writing. -/
def Section.position (s : Section) : Nat := Section.all.idxOf s

theorem Section.position_injective : Function.Injective position := by
  intro s t
  cases s <;> cases t <;> decide

/-- The sections before one in the order of writing are those that stand in front of it. -/
theorem Section.position_lt_iff {before after : List Section} {s t : Section}
    (split : Section.all = before ++ s :: after) : t.position < s.position ↔ t ∈ before := by
  have new : s ∉ before := by
    have once : (before ++ s :: after).Nodup := split ▸ (by decide : Section.all.Nodup)
    grind
  have place : s.position = before.length := by
    rw [position, split, List.idxOf_append_of_notMem new, List.idxOf_cons_self, Nat.add_zero]
  rw [place, position, split]
  by_cases ht : t ∈ before
  · simp [List.idxOf_append_of_mem ht, List.idxOf_lt_length_of_mem ht, ht]
  · simp [List.idxOf_append_of_notMem ht, ht]

namespace Labels

/-! ## Labels without fault -/

/-- From some section on there is no fault exactly if no label left is blank or among those before,
and no two of them are the same. -/
theorem faultFrom?_eq_none_iff (l : Labels) (earlier : List String) (sections : List Section) :
    l.faultFrom? earlier sections = none ↔
      (∀ s ∈ sections, Text.isBlank (l.get s) = false ∧ l.get s ∉ earlier) ∧
      (sections.map l.get).Nodup := by
  induction sections generalizing earlier with
  | nil => simp [faultFrom?]
  | cons s rest ih =>
    rw [faultFrom?, List.forall_mem_cons, List.map_cons, List.nodup_cons]
    cases blank : Text.isBlank (l.get s) with
    | true => simp
    | false =>
      by_cases seen : l.get s ∈ earlier
      · simp [seen]
      · rw [if_neg Bool.false_ne_true, if_neg seen, ih]
        -- A label left over is new if it is not among those before and differs from this one.
        have new : (∀ t ∈ rest, Text.isBlank (l.get t) = false ∧ l.get t ∉ earlier ++ [l.get s]) ↔
            (∀ t ∈ rest, Text.isBlank (l.get t) = false ∧ l.get t ∉ earlier) ∧
              l.get s ∉ rest.map l.get := by
          simp only [List.mem_append, List.mem_singleton, not_or, List.mem_map, not_exists, not_and]
          grind
        simp only [new, seen, not_false_eq_true, and_self, true_and, and_assoc]

/-- Labels are without fault exactly if none is blank and no two are the same. -/
theorem fault?_eq_none_iff (l : Labels) :
    l.fault? = none ↔ (∀ s, Text.isBlank (l.get s) = false) ∧ l.toList.Nodup := by
  simp [fault?, faultFrom?_eq_none_iff, toList]

/-! ## The first offender -/

/-- The label of a section is blank or that of an earlier section. -/
def Offends (l : Labels) (s : Section) : Prop :=
  Text.isBlank (l.get s) = true ∨ ∃ t : Section, t.position < s.position ∧ l.get t = l.get s

/-- The first section, in the order of writing, whose label is at fault. -/
structure IsFirstOffender (l : Labels) (s : Section) : Prop where
  offends : l.Offends s
  first : ∀ t : Section, t.position < s.position → ¬l.Offends t

/-- What is wrong with the label of a section that offends. -/
def complaint (l : Labels) (s : Section) : Fault :=
  if Text.isBlank (l.get s) then .blankLabel s else .repeatedLabel (l.get s)

/-- How a fault of labels is reported. -/
inductive Reported (l : Labels) : Report → Prop
  | blank {s : Section} : l.IsFirstOffender s → Text.isBlank (l.get s) = true →
      Reported l ⟨.keyword, "Keyword for the " ++ s.name ++ " section cannot be empty"⟩
  | repeated {s : Section} : l.IsFirstOffender s → Text.isBlank (l.get s) = false →
      Reported l ⟨.keyword, "Keyword " ++ l.get s ++ " is used by more than one section"⟩

theorem IsFirstOffender.unique {l : Labels} {s t : Section} (hs : l.IsFirstOffender s)
    (ht : l.IsFirstOffender t) : s = t := by
  obtain before | same | after := Nat.lt_trichotomy s.position t.position
  · exact absurd hs.offends (ht.first s before)
  · exact Section.position_injective same
  · exact absurd ht.offends (hs.first t after)

theorem offends_iff {l : Labels} {before after : List Section} {s : Section}
    (split : Section.all = before ++ s :: after) :
    l.Offends s ↔ Text.isBlank (l.get s) = true ∨ l.get s ∈ before.map l.get := by
  simp only [Offends, Section.position_lt_iff split, List.mem_map]

/-- The walk over the sections stops at the first that offends, if none before it did. -/
theorem exists_isFirstOffender {l : Labels} (before : List Section) {rest : List Section}
    {fault : Fault} (split : Section.all = before ++ rest) (clean : ∀ t ∈ before, ¬l.Offends t)
    (h : l.faultFrom? (before.map l.get) rest = some fault) :
    ∃ s, l.IsFirstOffender s ∧ fault = l.complaint s := by
  induction rest generalizing before with
  | nil => simp [faultFrom?] at h
  | cons s rest ih =>
    have first : ∀ t : Section, t.position < s.position → ¬l.Offends t :=
      fun t ht => clean t ((Section.position_lt_iff split).mp ht)
    rw [faultFrom?] at h
    cases blank : Text.isBlank (l.get s) with
    | true =>
      refine ⟨s, ⟨(offends_iff split).mpr (.inl blank), first⟩, ?_⟩
      simpa [complaint, blank, eq_comm] using h
    | false =>
      by_cases seen : l.get s ∈ before.map l.get
      · refine ⟨s, ⟨(offends_iff split).mpr (.inr seen), first⟩, ?_⟩
        simpa [complaint, blank, seen, eq_comm] using h
      · have sound : ¬l.Offends s := by simp [offends_iff split, blank, seen]
        rw [if_neg (by simp [blank]), if_neg seen] at h
        refine ih (before ++ [s]) (by simp [split]) ?_ (by simpa using h)
        grind

theorem fault?_eq_none_iff_injective {l : Labels} :
    l.fault? = none ↔ (∀ s, Text.isBlank (l.get s) = false) ∧ Function.Injective l.get := by
  rw [fault?_eq_none_iff, toList, List.nodup_map_iff_inj_on (by decide)]
  simp [Function.Injective]

theorem forall_not_offends_iff {l : Labels} : (∀ s, ¬l.Offends s) ↔ l.fault? = none := by
  constructor
  · intro sound
    cases h : l.fault? with
    | none => rfl
    | some fault =>
      obtain ⟨s, hs, -⟩ := exists_isFirstOffender [] rfl (by simp) h
      exact absurd hs.offends (sound s)
  · intro sound s
    obtain ⟨visible, injective⟩ := fault?_eq_none_iff_injective.mp sound
    rintro (blank | ⟨t, before, same⟩)
    · simp [visible s] at blank
    · rw [injective same] at before
      exact Nat.lt_irrefl _ before

/-- The fault of labels is that of the first section that offends. -/
theorem fault?_eq_some_iff {l : Labels} {fault : Fault} :
    l.fault? = some fault ↔ ∃ s, l.IsFirstOffender s ∧ fault = l.complaint s := by
  constructor
  · exact exists_isFirstOffender [] rfl (by simp)
  · rintro ⟨s, hs, rfl⟩
    cases h : l.fault? with
    | none => exact absurd hs.offends (forall_not_offends_iff.mpr h s)
    | some fault =>
      obtain ⟨t, ht, rfl⟩ := exists_isFirstOffender [] rfl (by simp) h
      rw [ht.unique hs]

theorem report_complaint_of_blank {l : Labels} {s : Section}
    (blank : Text.isBlank (l.get s) = true) : (l.complaint s).report =
      ⟨.keyword, "Keyword for the " ++ s.name ++ " section cannot be empty"⟩ := by
  rw [complaint, if_pos blank]
  rfl

theorem report_complaint_of_not_blank {l : Labels} {s : Section}
    (visible : Text.isBlank (l.get s) = false) : (l.complaint s).report =
      ⟨.keyword, "Keyword " ++ l.get s ++ " is used by more than one section"⟩ := by
  rw [complaint, if_neg (by simp [visible])]
  rfl

/-- Labels are reported by the rules, and by nothing else. -/
theorem map_report_fault?_iff {l : Labels} {r : Report} :
    l.fault?.map Fault.report = some r ↔ l.Reported r := by
  rw [Option.map_eq_some_iff]
  constructor
  · rintro ⟨fault, h, rfl⟩
    obtain ⟨s, first, rfl⟩ := fault?_eq_some_iff.mp h
    cases blank : Text.isBlank (l.get s) with
    | true => exact report_complaint_of_blank blank ▸ .blank first blank
    | false => exact report_complaint_of_not_blank blank ▸ .repeated first blank
  · rintro (⟨first, blank⟩ | ⟨first, visible⟩)
    · exact ⟨_, fault?_eq_some_iff.mpr ⟨_, first, rfl⟩, report_complaint_of_blank blank⟩
    · exact ⟨_, fault?_eq_some_iff.mpr ⟨_, first, rfl⟩, report_complaint_of_not_blank visible⟩

end Labels

namespace Query

/-- How a fault of a query is reported. -/
inductive Reported (q : Query) : Report → Prop
  | labels {r : Report} : q.labels.Reported r → Reported q r
  | pageSize : (∀ s, ¬q.labels.Offends s) → q.pageSize = some 0 →
      Reported q ⟨.pagination, "Page size must be a positive number"⟩
  | pageNumber : (∀ s, ¬q.labels.Offends s) → q.pageSize ≠ some 0 → q.pageNumber = some 0 →
      Reported q ⟨.pagination, "Page number must be a positive number"⟩

theorem pageFault?_eq_none_iff {q : Query} :
    q.pageFault? = none ↔ q.pageSize ≠ some 0 ∧ q.pageNumber ≠ some 0 := by
  unfold pageFault?
  split_ifs <;> simp_all

theorem fault?_eq_none_iff {q : Query} :
    q.fault? = none ↔ q.labels.fault? = none ∧ q.pageSize ≠ some 0 ∧ q.pageNumber ≠ some 0 := by
  rw [fault?, ← pageFault?_eq_none_iff]
  cases q.labels.fault? <;> simp

theorem reported_iff_of_fault {q : Query} {fault : Fault} (h : q.labels.fault? = some fault)
    {r : Report} : q.Reported r ↔ q.labels.Reported r := by
  refine ⟨?_, .labels⟩
  -- The rules for pages ask for labels without fault.
  rintro (reported | ⟨sound, -⟩ | ⟨sound, -, -⟩)
  · exact reported
  · simp [Labels.forall_not_offends_iff.mp sound] at h
  · simp [Labels.forall_not_offends_iff.mp sound] at h

theorem reported_iff_of_sound {q : Query} (h : q.labels.fault? = none) {r : Report} :
    q.Reported r ↔ q.pageFault?.map Fault.report = some r := by
  have sound := Labels.forall_not_offends_iff.mpr h
  unfold pageFault?
  constructor
  · rintro (reported | ⟨-, zero⟩ | ⟨-, positive, zero⟩)
    · rw [← Labels.map_report_fault?_iff, h] at reported
      cases reported
    · rw [if_pos zero]
      rfl
    · rw [if_neg positive, if_pos zero]
      rfl
  · intro found
    split_ifs at found with size number
    · exact Option.some.inj found ▸ .pageSize sound size
    · exact Option.some.inj found ▸ .pageNumber sound size number
    · cases found

theorem map_report_fault?_iff {q : Query} {r : Report} :
    q.fault?.map Fault.report = some r ↔ q.Reported r := by
  rw [fault?]
  cases h : q.labels.fault? with
  | some fault => rw [reported_iff_of_fault h, ← Labels.map_report_fault?_iff, h]; rfl
  | none => rw [reported_iff_of_sound h]; rfl

/-- A blank label is reported before a later one that is taken, and two blank labels as blank. -/
example : ({ ordering := " ", pageSize := "$where", totalCount := " " } : Labels).fault? =
    some (.blankLabel .ordering) := by decide

end Query

end RsqlQuery
