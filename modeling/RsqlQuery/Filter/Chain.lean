import RsqlQuery.Filter.Comparison

/-!
# Chains of filters

A filter is a comparison or a chain of filters, whose links carry the connectives that join them to
what stands before. Links that render nothing are passed over together with their connective. What
is left of a chain stands alone if it is a single part; several parts are joined, and such a join is
put between parentheses where it becomes a part of another. A grouped chain puts its join between
parentheses itself.

## Main definitions

* `Connective`, `Link`, `Chain`, `Filter` — the data; `FilterChain` is a chain of filters.
* `Chain.add`, `Chain.group` — how chains are made; the first link has no connective.
* `Filter.hasContent` — whether a comparison occurs in a filter.
* `Filter.fragment`, `Chain.render` — the text of a filter.
-/

namespace RsqlQuery

open Text Time

/-- The word that joins a link to the one before it. -/
inductive Connective where
  | and
  | or
deriving DecidableEq, Repr, Inhabited

namespace Connective

def word : Connective → String
  | and => "and"
  | or => "or"

/-- The word as it is written between two parts: with spaces, percent-encoded. -/
def encoded (c : Connective) : String := percentEncode (" " ++ c.word ++ " ")

end Connective

/-- An item with the connective that joins it to what stands before. -/
structure Link (α : Type) where
  connective : Option Connective
  item : α

/-- Items joined by connectives. A grouped chain encloses its join in parentheses. -/
structure Chain (α : Type) where
  links : List (Link α) := []
  grouped : Bool := false

namespace Chain

variable {α : Type}

def empty : Chain α := {}

/-- Appends an item; the connective is kept unless the item is the first. -/
def add (c : Chain α) (connective : Connective) (item : α) : Chain α :=
  { c with links := c.links ++ [⟨if c.links.isEmpty then none else some connective, item⟩] }

def and (c : Chain α) (item : α) : Chain α := c.add .and item

def or (c : Chain α) (item : α) : Chain α := c.add .or item

def size (c : Chain α) : Nat := c.links.length

def isEmpty (c : Chain α) : Bool := c.links.isEmpty

@[simp] theorem links_empty : (empty : Chain α).links = [] := rfl

@[simp] theorem grouped_add (c : Chain α) (k : Connective) (x : α) :
    (c.add k x).grouped = c.grouped := rfl

@[simp] theorem size_add (c : Chain α) (k : Connective) (x : α) :
    (c.add k x).size = c.size + 1 := by simp [size, add]

end Chain

inductive Filter where
  | comparison (c : Comparison)
  | chain (c : Chain Filter)

abbrev FilterChain := Chain Filter

instance : Coe Comparison Filter := ⟨.comparison⟩

instance : Coe FilterChain Filter := ⟨.chain⟩

namespace Filter

mutual

/-- Equality of comparisons, or of chains link by link. -/
def beq : Filter → Filter → Bool
  | comparison a, comparison b => a == b
  | chain ⟨as, g⟩, chain ⟨bs, h⟩ => beqLinks as bs && g == h
  | _, _ => false

def beqLinks : List (Link Filter) → List (Link Filter) → Bool
  | [], [] => true
  | ⟨j, a⟩ :: as, ⟨k, b⟩ :: bs => decide (j = k) && beq a b && beqLinks as bs
  | _, _ => false

end

instance : BEq Filter := ⟨beq⟩

instance : BEq FilterChain := ⟨fun a b => beq (.chain a) (.chain b)⟩

mutual

/-- Whether a comparison occurs in a filter. -/
def hasContent : Filter → Bool
  | comparison _ => true
  | chain ⟨links, _⟩ => anyContent links

/-- Whether a comparison occurs behind some link. -/
def anyContent : List (Link Filter) → Bool
  | [] => false
  | ⟨_, f⟩ :: rest => f.hasContent || anyContent rest

end

theorem anyContent_eq (links : List (Link Filter)) :
    anyContent links = links.any fun l => l.item.hasContent := by
  induction links with
  | nil => rfl
  | cons l rest ih => simp [anyContent, ih]

theorem hasContent_chain (c : FilterChain) :
    hasContent (.chain c) = c.links.any fun l => l.item.hasContent := by
  rw [← anyContent_eq]
  rfl

end Filter

/-- The text of a filter, and whether it is a join of several parts without parentheses. -/
structure Fragment where
  text : String := ""
  compound : Bool := false
deriving DecidableEq, Repr, Inhabited

def parenthesized (s : String) : String := "(" ++ s ++ ")"

namespace Fragment

/-- Whether the fragment renders anything. -/
def isVisible (f : Fragment) : Bool := !f.text.isEmpty

/-- The fragment as a part of a join. -/
def asPart (f : Fragment) : String := if f.compound then parenthesized f.text else f.text

/-- The parts that render anything, each with its connective. -/
def visible (parts : List (Link Fragment)) : List (Link Fragment) :=
  parts.filter fun p => p.item.isVisible

/-- The parts of a join behind the first, each after its connective. -/
def joinRest (parts : List (Link Fragment)) : String :=
  String.join (parts.map fun p => (p.connective.getD .and).encoded ++ p.item.asPart)

/-- One part stands alone; several are joined, between parentheses if the chain is grouped. -/
def join (grouped : Bool) : List (Link Fragment) → Fragment
  | [] => {}
  | [p] => p.item
  | p :: rest =>
    let text := p.item.asPart ++ joinRest rest
    if grouped then { text := parenthesized text } else { text, compound := true }

/-- The fragment of a chain from those of its links. -/
def assemble (grouped : Bool) (parts : List (Link Fragment)) : Fragment :=
  join grouped (visible parts)

theorem isVisible_iff {f : Fragment} : f.isVisible = true ↔ f.text ≠ "" := by
  simp [isVisible]

@[simp] theorem visible_append (ps qs : List (Link Fragment)) :
    visible (ps ++ qs) = visible ps ++ visible qs := List.filter_append ..

@[simp] theorem visible_visible (ps : List (Link Fragment)) :
    visible (visible ps) = visible ps := by simp [visible]

end Fragment

namespace Filter

mutual

def fragment (z : TimeZone) : Filter → Fragment
  | comparison c => { text := c.render z }
  | chain ⟨links, grouped⟩ => Fragment.assemble grouped (fragments z links)

def fragments (z : TimeZone) : List (Link Filter) → List (Link Fragment)
  | [] => []
  | ⟨c, f⟩ :: rest => ⟨c, f.fragment z⟩ :: fragments z rest

end

theorem fragments_eq (z : TimeZone) (links : List (Link Filter)) :
    fragments z links = links.map fun l => ⟨l.connective, l.item.fragment z⟩ := by
  induction links with
  | nil => rfl
  | cons l rest ih => simp [fragments, ih]

theorem fragment_chain (z : TimeZone) (c : FilterChain) :
    fragment z (.chain c) =
      Fragment.assemble c.grouped (c.links.map fun l => ⟨l.connective, l.item.fragment z⟩) := by
  rw [← fragments_eq]
  rfl

/-- Proof by induction on the nesting of chains. -/
theorem chain_induction {P : Filter → Prop} (comparison : ∀ c, P (.comparison c))
    (chain : ∀ links grouped, (∀ l ∈ links, P l.item) → P (.chain ⟨links, grouped⟩)) : ∀ f, P f
  | .comparison c => comparison c
  | .chain ⟨links, grouped⟩ =>
    chain links grouped fun l _ => chain_induction comparison chain l.item
decreasing_by
  have := List.sizeOf_lt_of_mem ‹l ∈ links›
  have : sizeOf l.item < sizeOf l := by
    cases l
    simp only [Link.mk.sizeOf_spec]
    omega
  simp only [Filter.chain.sizeOf_spec, Chain.mk.sizeOf_spec]
  omega

end Filter

namespace Chain

def ofFilter (f : Filter) : FilterChain := Chain.empty.and f

/-- Two chains joined into one part that encloses itself in parentheses. -/
def group (left : FilterChain) (c : Connective) (right : FilterChain) : FilterChain where
  links := [⟨none, .chain left⟩, ⟨some c, .chain right⟩]
  grouped := true

def hasContent (c : FilterChain) : Bool := (Filter.chain c).hasContent

def render (z : TimeZone) (c : FilterChain) : String := ((Filter.chain c).fragment z).text

end Chain

def Comparison.joined (c : Comparison) (connective : Connective) (f : Filter) : FilterChain :=
  (Chain.ofFilter c).add connective f

end RsqlQuery
