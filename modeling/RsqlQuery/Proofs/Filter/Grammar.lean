import RsqlQuery.Filter.Chain

/-!
# The grammar of rendered filters

Rendered filters are read by the grammar

    list = part (('%20and%20' | '%20or%20') part)*        part = fragment | '(' list ')'

where a fragment is a text that is not empty and holds neither parentheses nor an encoded space.
The syntax trees of the grammar are lists of linked parts, and a text is derived by the trees that
are written as it. There is no more than one: the first character tells a fragment from a list in
parentheses, a fragment ends where a parenthesis or an encoded space begins, and the letter behind
the space tells the connectives apart.

## Main definitions

* `Part` — the syntax trees, with `Part.chars` and `Part.linkChars` for what they are written as.
* `Part.Valid` — the trees of the grammar; `Derives` — a list of parts that is written as a text.
* `Part.Proper` — no parentheses around a single part.
* `Part.isWrapped`, `Part.unwrap` — the parentheses around a whole list.

## Main statements

* `Derives.unique` — a text has at most one syntax tree.
-/

namespace RsqlQuery

def encodedSpace : List Char := ['%', '2', '0']

/-- How a connective stands between two parts. -/
def Connective.spaced : Connective → List Char
  | and => encodedSpace ++ ['a', 'n', 'd'] ++ encodedSpace
  | or => encodedSpace ++ ['o', 'r'] ++ encodedSpace

/-- A part of a rendered filter: the text of a comparison, or a list between parentheses. -/
inductive Part where
  | fragment (text : List Char)
  | group (links : List (Link Part))

/-- Texts that stand for a comparison. -/
def IsFragment (s : List Char) : Prop :=
  s ≠ [] ∧ '(' ∉ s ∧ ')' ∉ s ∧ ¬encodedSpace <:+: s

instance (s : List Char) : Decidable (IsFragment s) :=
  inferInstanceAs (Decidable (s ≠ [] ∧ '(' ∉ s ∧ ')' ∉ s ∧ ¬encodedSpace <:+: s))

namespace Part

mutual

def chars : Part → List Char
  | fragment text => text
  | group links => '(' :: linkChars links ++ [')']

def linkChars : List (Link Part) → List Char
  | [] => []
  | ⟨k, p⟩ :: rest => k.elim [] Connective.spaced ++ p.chars ++ linkChars rest

end

/-- The parts of the grammar: a list begins with a part on its own, and goes on with parts behind
connectives. -/
inductive Valid : Part → Prop
  | fragment {s : List Char} : IsFragment s → Valid (.fragment s)
  | group {first : Part} {rest : List (Link Part)} :
      Valid first → (∀ l ∈ rest, l.connective.isSome = true) → (∀ l ∈ rest, Valid l.item) →
      Valid (.group (⟨none, first⟩ :: rest))

/-- Whether a list is a single one between parentheses. -/
def isWrapped : List (Link Part) → Bool
  | [⟨none, .group _⟩] => true
  | _ => false

/-- A list without the parentheses around the whole of it. -/
def unwrap : List (Link Part) → List (Link Part)
  | [⟨none, .group links⟩] => links
  | links => links

/-- Every list between parentheses has at least two parts. -/
inductive Proper : Part → Prop
  | fragment (s : List Char) : Proper (.fragment s)
  | group {links : List (Link Part)} :
      2 ≤ links.length → (∀ l ∈ links, Proper l.item) → Proper (.group links)

theorem isWrapped_cons_cons (l m : Link Part) (rest : List (Link Part)) :
    isWrapped (l :: m :: rest) = false := by
  rw [isWrapped]
  simp

theorem unwrap_cons_cons (l m : Link Part) (rest : List (Link Part)) :
    unwrap (l :: m :: rest) = l :: m :: rest := by
  rw [unwrap]
  simp

/-! ## Fragments are read in one way -/

/-- The texts that can stand behind a part. -/
def Stops (r : List Char) : Prop := r = [] ∨ (∃ t, r = ')' :: t) ∨ ∃ t, r = encodedSpace ++ t

theorem Stops.head {c : Char} {r : List Char} (h : Stops (c :: r)) :
    c = ')' ∨ c = '%' ∧ ∃ t, r = '2' :: '0' :: t := by
  obtain h | ⟨t, h⟩ | ⟨t, h⟩ := h
  · exact absurd h (List.cons_ne_nil c r)
  · exact .inl (List.cons.inj h).1
  · exact .inr ⟨(List.cons.inj h).1, t, (List.cons.inj h).2⟩

/-- No fragment goes on from where it could stop. An encoded space cannot begin in the fragment and
end behind it, for nothing behind it begins with either of the digits. -/
theorem eq_nil_of_stops {s a r : List Char} (ht : IsFragment (s ++ a)) (here : Stops (a ++ r))
    (behind : Stops r) : a = [] := by
  obtain ⟨-, -, closing, space⟩ := ht
  cases a with
  | nil => rfl
  | cons c a =>
    exfalso
    rw [List.cons_append] at here
    obtain rfl | ⟨rfl, t, ha⟩ := here.head
    · simp at closing
    · obtain ⟨rfl, rfl⟩ | ⟨a, rfl, hb⟩ := List.append_eq_cons_iff.mp ha
      · obtain h | ⟨h, -⟩ := behind.head <;> simp at h
      · obtain ⟨rfl, rfl⟩ | ⟨a, rfl, -⟩ := List.append_eq_cons_iff.mp hb.symm
        · obtain h | ⟨h, -⟩ := behind.head <;> simp at h
        · exact space ⟨s, a, by simp [encodedSpace]⟩

/-- A fragment reaches to where it has to stop. -/
theorem fragment_unique {s t r r' : List Char} (hs : IsFragment s) (ht : IsFragment t)
    (hr : Stops r) (hr' : Stops r') (h : s ++ r = t ++ r') : s = t ∧ r = r' := by
  obtain ⟨a, rfl, rfl⟩ | ⟨a, rfl, rfl⟩ := List.append_eq_append_iff.mp h
  · obtain rfl := eq_nil_of_stops ht hr hr'
    simp
  · obtain rfl := eq_nil_of_stops hs hr' hr
    simp

/-! ## Lists are read in one way -/

/-- The two connectives part at the letter behind their space. -/
theorem spaced_unique {j k : Connective} {r r' : List Char}
    (h : j.spaced ++ r = k.spaced ++ r') : j = k ∧ r = r' := by
  cases j <;> cases k <;> simp_all [Connective.spaced, encodedSpace]

theorem stops_linkChars {rest : List (Link Part)} (hk : ∀ l ∈ rest, l.connective.isSome = true)
    (r : List Char) : Stops (linkChars rest ++ ')' :: r) := by
  match rest with
  | [] => exact .inr (.inl ⟨r, rfl⟩)
  | ⟨k, p⟩ :: rest =>
    obtain ⟨k, rfl⟩ := Option.isSome_iff_exists.mp (hk ⟨k, p⟩ List.mem_cons_self)
    refine .inr (.inr ?_)
    cases k
    · exact ⟨_, rfl⟩
    · exact ⟨_, rfl⟩

/-- A part is told from all others by what it is written as, whatever may follow it. -/
def Readable (p : Part) : Prop :=
  ∀ q r r', q.Valid → Stops r → Stops r' → p.chars ++ r = q.chars ++ r' → p = q ∧ r = r'

theorem linkChars_cons_some (k : Connective) (p : Part) (rest : List (Link Part)) :
    linkChars (⟨some k, p⟩ :: rest) = k.spaced ++ (p.chars ++ linkChars rest) := by
  rw [linkChars, Option.elim_some, List.append_assoc]

/-- What follows the first part of a list ends at the closing parenthesis, where no connective
stands. -/
theorem linkChars_unique {rest rest' : List (Link Part)}
    (hk : ∀ l ∈ rest, l.connective.isSome = true) (hk' : ∀ l ∈ rest', l.connective.isSome = true)
    (readable : ∀ l ∈ rest, l.item.Readable) (valid : ∀ l ∈ rest', l.item.Valid)
    {r r' : List Char} (h : linkChars rest ++ ')' :: r = linkChars rest' ++ ')' :: r') :
    rest = rest' ∧ r = r' := by
  have closing : ∀ (k : Connective) (t u : List Char), ')' :: t ≠ k.spaced ++ u := by
    intro k t u
    cases k <;> simp [Connective.spaced, encodedSpace]
  induction rest generalizing rest' with
  | nil =>
    match rest' with
    | [] => simpa [linkChars] using h
    | ⟨k, q⟩ :: rest' =>
      obtain ⟨k, rfl⟩ := Option.isSome_iff_exists.mp (hk' ⟨k, q⟩ List.mem_cons_self)
      rw [linkChars_cons_some, List.append_assoc] at h
      exact absurd h (closing k _ _)
  | cons l rest ih =>
    obtain ⟨j, p⟩ := l
    obtain ⟨j, rfl⟩ := Option.isSome_iff_exists.mp (hk ⟨j, p⟩ List.mem_cons_self)
    match rest' with
    | [] =>
      rw [linkChars_cons_some, List.append_assoc] at h
      exact absurd h.symm (closing j _ _)
    | ⟨k, q⟩ :: rest' =>
      obtain ⟨k, rfl⟩ := Option.isSome_iff_exists.mp (hk' ⟨k, q⟩ List.mem_cons_self)
      have tail : ∀ m ∈ rest, m.connective.isSome = true :=
        fun m hm => hk m (List.mem_cons_of_mem _ hm)
      have tail' : ∀ m ∈ rest', m.connective.isSome = true :=
        fun m hm => hk' m (List.mem_cons_of_mem _ hm)
      simp only [linkChars_cons_some, List.append_assoc] at h
      obtain ⟨rfl, parts⟩ := spaced_unique h
      have valid_q := valid ⟨some j, q⟩ List.mem_cons_self
      obtain ⟨rfl, behind⟩ := readable ⟨some j, p⟩ List.mem_cons_self q _ _ valid_q
        (stops_linkChars tail r) (stops_linkChars tail' r') parts
      obtain ⟨rfl, rfl⟩ := ih tail tail' (fun m hm => readable m (List.mem_cons_of_mem _ hm))
        (fun m hm => valid m (List.mem_cons_of_mem _ hm)) behind
      exact ⟨rfl, rfl⟩

/-- No fragment begins as a list does. -/
theorem fragment_ne_group {s : List Char} (hs : IsFragment s) (links : List (Link Part))
    (r r' : List Char) : s ++ r ≠ (Part.group links).chars ++ r' := by
  intro h
  obtain ⟨nonempty, opening, -, -⟩ := hs
  match s with
  | [] => exact nonempty rfl
  | c :: s =>
    rw [chars, List.cons_append, List.cons_append] at h
    obtain ⟨rfl, -⟩ := List.cons.inj h
    simp at opening

theorem Valid.readable {p : Part} (h : p.Valid) : p.Readable := by
  induction h with
  | @fragment s hs =>
    intro q r r' hq hr hr' same
    cases hq with
    | fragment ht =>
      obtain ⟨rfl, rfl⟩ := fragment_unique hs ht hr hr' same
      exact ⟨rfl, rfl⟩
    | group => exact absurd same (fragment_ne_group hs _ _ _)
  | @group first rest _ hk _ hf hr =>
    intro q r r' hq _ _ same
    cases hq with
    | fragment ht => exact absurd same.symm (fragment_ne_group ht _ _ _)
    | @group first' rest' hf' hk' hr' =>
      simp only [chars, linkChars, Option.elim_none, List.nil_append, List.cons_append,
        List.append_assoc, List.cons.injEq, true_and] at same
      obtain ⟨rfl, behind⟩ := hf first' _ _ hf' (stops_linkChars hk r) (stops_linkChars hk' r') same
      obtain ⟨rfl, rfl⟩ := linkChars_unique hk hk' hr hr' behind
      exact ⟨rfl, rfl⟩

end Part

/-- A list of parts is written as a text, by the grammar. -/
def Derives (links : List (Link Part)) (text : List Char) : Prop :=
  (Part.group links).Valid ∧ Part.linkChars links = text

theorem Derives.unique {ps qs : List (Link Part)} {text : List Char} (hp : Derives ps text)
    (hq : Derives qs text) : ps = qs := by
  have same := hp.1.readable (.group qs) [] [] hq.1 (.inl rfl) (.inl rfl)
    (by simp [Part.chars, hp.2, hq.2])
  exact Part.group.inj same.1

end RsqlQuery
