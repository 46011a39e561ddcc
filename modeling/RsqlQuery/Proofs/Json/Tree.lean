import RsqlQuery.Proofs.Json.Token

/-!
# Reading spellings

However a value is spelled, it is read back from its text. The text is scanned as the tokens that
spell the value, because a number in it is always followed by white space, punctuation or the end.
The tokens are read as the value, whatever the arrays and objects that are open around it: the
reader is left with the value put into the innermost of these.

## Main definitions

* `Tokenized` — a text is scanned as some tokens, unless what follows goes on with a number.
* `Tree.Reads` — tokens take the reader from one state to another.

## Main statements

* `Tree.Spelling.tokenized` — a spelling of a value is scanned as the tokens of the value.
* `Tree.WellFormed.reads` — they are read as that value.
* `Tree.Spelling.parse?_eq` — so a spelling of a value is read as it.
* `Tree.parse?_write` — the compact text of a value is read as it.
-/

namespace RsqlQuery.Json

/-! ## Scanning -/

/-- The text is scanned as these tokens, unless what follows goes on with a number. -/
def Tokenized (s : List Char) (tokens : List Token) : Prop :=
  ∀ rest, Stops rest → scanFrom? .between (s ++ rest) = (scanFrom? .between rest).map (tokens ++ ·)

section Parts

variable {s t : List Char} {tokens more : List Token}

/-- Texts with an end of their own are scanned whatever follows them. -/
theorem Scans.tokenized (h : Scans .between s .between tokens) : Tokenized s tokens :=
  fun rest _ => h rest

/-- A text with an end of its own stands in front of any other. -/
theorem Scans.tokenized_append (h : Scans .between s .between tokens) (k : Tokenized t more) :
    Tokenized (s ++ t) (tokens ++ more) := by
  intro rest stops
  rw [List.append_assoc, h, k rest stops, Option.map_map]
  simp [Function.comp_def]

/-- Behind any other text stands one that does not go on with a number. -/
theorem Tokenized.append (h : Tokenized s tokens) (k : Tokenized t more)
    (stops : ∀ rest, Stops rest → Stops (t ++ rest)) : Tokenized (s ++ t) (tokens ++ more) := by
  intro rest hrest
  rw [List.append_assoc, h _ (stops rest hrest), k rest hrest, Option.map_map]
  simp [Function.comp_def]

theorem tokenized_number (h : NumberSpelling s) : Tokenized s [.number s] :=
  fun _ stops => scanFrom?_number h stops

theorem stops_cons {c : Char} (h : isNumberChar c = false) (rest : List Char) :
    Stops (c :: rest) := by
  intro d hd
  rwa [← Option.some.inj hd]

/-! ### White space -/

theorem Spacing.scans (h : Spacing s) : Scans .between s .between [] := by
  induction s with
  | nil => exact scans_nil .between
  | cons c s ih =>
    have space : scanStep? .between c = some (.between, []) := by
      obtain rfl | rfl | rfl | rfl := h c List.mem_cons_self <;> rfl
    exact .cons space (ih fun d hd => h d (List.mem_cons_of_mem c hd))

theorem Spacing.stops (h : Spacing s) {rest : List Char} (stops : Stops rest) :
    Stops (s ++ rest) := by
  cases s with
  | nil => exact stops
  | cons c s =>
    refine stops_cons ?_ (s ++ rest)
    obtain rfl | rfl | rfl | rfl := h c List.mem_cons_self <;> rfl

theorem Tokenized.spaced {before after : List Char} (h : Tokenized s tokens)
    (front : Spacing before) (back : Spacing after) :
    Tokenized (before ++ s ++ after) tokens := by
  have inner := h.append back.scans.tokenized fun _ stops => back.stops stops
  rw [List.append_nil] at inner
  rw [List.append_assoc]
  exact front.scans.tokenized_append inner

end Parts

/-! ### Parts between commas -/

section Items

variable {α : Type} {text : α → List Char} {tokens : α → List Token} {parts : List α}
  {close : Token}

/-- Behind the first part, every part stands after its separator. -/
theorem intercalate_cons_flatMap {β : Type} (sep : β) (first : List β) (rest : List (List β)) :
    [sep].intercalate (first :: rest) = first ++ rest.flatMap (sep :: ·) := by
  induction rest generalizing first with
  | nil => simp
  | cons next rest ih => rw [List.intercalate_cons_cons, ih next, List.flatMap_cons]; simp

theorem scans_close (closing : close = .closeArray ∨ close = .closeObject) :
    Scans .between close.text .between [close] := by
  obtain rfl | rfl := closing <;> exact scans_of_step rfl

theorem stops_items (closing : close = .closeArray ∨ close = .closeObject) (rest : List Char) :
    Stops ((parts.map text).flatMap (',' :: ·) ++ close.text ++ rest) := by
  cases parts with
  | nil => obtain rfl | rfl := closing <;> exact stops_cons rfl rest
  | cons next parts => exact stops_cons rfl _

/-- Behind the first part, every part is scanned with the comma before it. -/
theorem tokenized_items (h : ∀ p ∈ parts, Tokenized (text p) (tokens p))
    (closing : close = .closeArray ∨ close = .closeObject) :
    Tokenized ((parts.map text).flatMap (',' :: ·) ++ close.text)
      ((parts.map tokens).flatMap (.comma :: ·) ++ [close]) := by
  induction parts with
  | nil => exact (scans_close closing).tokenized
  | cons next parts ih =>
    have others := ih fun p hp => h p (List.mem_cons_of_mem next hp)
    have comma : Scans .between [','] .between [.comma] := scans_of_step rfl
    simpa using comma.tokenized_append ((h next List.mem_cons_self).append others fun rest _ =>
      stops_items closing rest)

/-- Parts with commas between them, in front of a closing bracket. -/
theorem tokenized_intercalate (h : ∀ p ∈ parts, Tokenized (text p) (tokens p))
    (closing : close = .closeArray ∨ close = .closeObject) :
    Tokenized ([','].intercalate (parts.map text) ++ close.text)
      ([Token.comma].intercalate (parts.map tokens) ++ [close]) := by
  cases parts with
  | nil => exact tokenized_items h closing
  | cons first parts =>
    have others := tokenized_items (fun p hp => h p (List.mem_cons_of_mem first hp)) closing
    rw [List.map_cons, List.map_cons, intercalate_cons_flatMap, intercalate_cons_flatMap,
      List.append_assoc, List.append_assoc]
    exact (h first List.mem_cons_self).append others fun rest _ => stops_items closing rest

end Items

namespace Tree

/-- A spelling of a value is scanned as the tokens of the value. -/
theorem Spelling.tokenized {t : Tree} {s : List Char} (h : t.Spelling s) :
    Tokenized s t.tokens := by
  induction h with
  | null => exact scans_null.tokenized
  | bool b => exact (scans_bool b).tokenized
  | number spelled => exact tokenized_number spelled
  | string spelled => exact (scans_string spelled).tokenized
  | @array space items spacing _ ih =>
    have opening : Scans .between ['['] .between [.openArray] := scans_of_step rfl
    have inside := tokenized_intercalate ih (.inl rfl)
    have whole := (opening.append spacing.scans).tokenized_append inside
    rw [tokens, itemTokens_eq]
    simpa [Token.text, Function.comp_def] using whole
  | @object space members spacing _ _ keys ih =>
    have colon : Scans .between [':'] .between [.colon] := scans_of_step rfl
    have member : ∀ m ∈ members, Tokenized m.text (memberPart m.member) := fun m hm =>
      (keys m hm).append (colon.tokenized_append (ih m hm)) fun rest _ => stops_cons rfl _
    have opening : Scans .between ['{'] .between [.openObject] := scans_of_step rfl
    have inside := tokenized_intercalate member (.inr rfl)
    have whole := (opening.append spacing.scans).tokenized_append inside
    rw [tokens, memberTokens_eq]
    simpa [Token.text, Function.comp_def] using whole
  | spaced front _ back ih => exact ih.spaced front back

/-! ## Reading -/

/-- From a state, tokens take the reader to another state. -/
def Reads (start : ReadState) (tokens : List Token) (finish : ReadState) : Prop :=
  tokens.foldlM readStep? start = some finish

theorem Reads.append {a b c : ReadState} {tokens more : List Token} (h : Reads a tokens b)
    (k : Reads b more c) : Reads a (tokens ++ more) c := by
  rw [Reads, List.foldlM_append, h]
  exact k

theorem reads_of_step {start finish : ReadState} {token : Token}
    (h : readStep? start token = some finish) : Reads start [token] finish := by
  rw [Reads, List.foldlM_cons, h]
  rfl

theorem Reads.cons {a b c : ReadState} {token : Token} {tokens : List Token}
    (h : readStep? a token = some b) (k : Reads b tokens c) : Reads a (token :: tokens) c :=
  (reads_of_step h).append k

/-- Items that are read one by one are all read, the last one on top. -/
theorem reads_items {α : Type} (part : α → List Token) (state : List α → ReadState)
    {items : List α} (step : ∀ x ∈ items, ∀ done, Reads (state done) (part x) (state (x :: done)))
    (done : List α) : Reads (state done) (items.flatMap part) (state (items.reverse ++ done)) := by
  induction items generalizing done with
  | nil => rfl
  | cons x items ih =>
    have others := ih (fun y hy => step y (List.mem_cons_of_mem x hy)) (x :: done)
    simpa using (step x List.mem_cons_self done).append others

/-- Where an array starts, its first item is read as any value in an array. -/
theorem Reads.arrayStart {t : Tree} {stack : List Frame} {finish : ReadState}
    (h : Reads (.value (.array [] :: stack)) t.tokens finish) :
    Reads (.arrayStart stack) t.tokens finish := by
  cases t <;> exact h

/-- The tokens of a value are read as that value, whatever is open around it. -/
theorem WellFormed.reads {t : Tree} (h : t.WellFormed) (stack : List Frame) :
    Reads (.value stack) t.tokens (deliver t stack) := by
  induction h generalizing stack with
  | null => rfl
  | bool b => rfl
  | number _ => rfl
  | string _ => rfl
  | @array items _ ih =>
    rw [tokens, itemTokens_eq]
    cases items with
    | nil => rfl
    | cons first items =>
      have one : Reads (.arrayStart stack) first.tokens (.arrayNext [first] stack) :=
        (ih first List.mem_cons_self (.array [] :: stack)).arrayStart
      have others := reads_items (fun t => .comma :: t.tokens) (.arrayNext · stack)
        (fun t ht done => .cons rfl (ih t (List.mem_cons_of_mem first ht) (.array done :: stack)))
        [first]
      have closing : readStep? (.arrayNext (items.reverse ++ [first]) stack) .closeArray =
          some (deliver (.array (first :: items)) stack) := by simp [readStep?]
      rw [List.map_cons, intercalate_cons_flatMap, List.flatMap_map]
      exact .cons rfl ((one.append others).append (reads_of_step closing))
  | @object members _ _ ih =>
    rw [tokens, memberTokens_eq]
    cases members with
    | nil => rfl
    | cons first members =>
      have one : Reads (.objectStart stack) (memberPart first) (.objectNext [first] stack) :=
        .cons rfl (.cons rfl (ih first List.mem_cons_self (.object [] first.1 :: stack)))
      have others := reads_items (fun m => .comma :: memberPart m) (.objectNext · stack)
        (fun m hm done => .cons rfl (.cons rfl (.cons rfl
          (ih m (List.mem_cons_of_mem first hm) (.object done m.1 :: stack))))) [first]
      have closing : readStep? (.objectNext (members.reverse ++ [first]) stack) .closeObject =
          some (deliver (.object (first :: members)) stack) := by simp [readStep?]
      rw [List.map_cons, intercalate_cons_flatMap, List.flatMap_map]
      exact .cons rfl ((one.append others).append (reads_of_step closing))

/-- However a value is spelled, it is read from its text. -/
theorem Spelling.parse?_eq {t : Tree} {s : String} (h : t.Spelling s.toList) :
    parse? s = some t := by
  have scanned : scan? s.toList = some t.tokens := by
    simpa [scan?, scanFrom?, scanEnd?] using h.tokenized [] (by simp [Stops])
  have read : ofTokens? t.tokens = some t := by
    rw [ofTokens?, h.wellFormed.reads []]
    rfl
  rw [parse?, scanned]
  exact read

/-- The compact text of a value is read as it. -/
theorem parse?_write {t : Tree} (h : t.WellFormed) : parse? t.write = some t := by
  apply Spelling.parse?_eq
  rw [write, String.toList_ofList]
  exact h.spelling

end Tree

end RsqlQuery.Json
