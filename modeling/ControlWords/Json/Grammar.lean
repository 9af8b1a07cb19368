/-
**Building a JSON value from its tokens.**

A pushdown machine reads one token at a time. Its stack holds the arrays and objects that are still
open, so the depth of nesting is bounded by nothing but the number of tokens. Token sequences and
values match one to one:

* `ofTokens?_tokens`: the tokens of a value are read as that value;
* `ofTokens?_eq_some_iff`: no other token sequence is.

For the second the machine is given a memory: `Reading.written` is the token sequence that leads to
a reading, and every step appends its token to it.
-/

import ControlWords.Json.Basic

namespace ControlWords.Json

/-- An array or object that is still open, with its completed parts, the latest first. -/
inductive Frame where
  | array (before : List Json)
  /-- An open object and the key whose value is being read. -/
  | object (before : List (Text × Json)) (key : Text)

/-- What the tokens read so far leave to be read. -/
inductive Reading where
  /-- A value is due. -/
  | valueDue (stack : List Frame)
  /-- An array has just been opened. -/
  | firstItem (stack : List Frame)
  /-- An object has just been opened. -/
  | firstKey (stack : List Frame)
  /-- A further key is due in an object. -/
  | keyDue (before : List (Text × Json)) (stack : List Frame)
  /-- A key has just been read. -/
  | colonDue (before : List (Text × Json)) (key : Text) (stack : List Frame)
  /-- A value has just been completed. -/
  | completed (value : Json) (stack : List Frame)

namespace Reading

/-- Reads the first token of a value. -/
def beginValue (stack : List Frame) : Token → Option Reading
  | .scalar value => some (.completed (.scalar value) stack)
  | .openArray => some (.firstItem stack)
  | .openObject => some (.firstKey stack)
  | _ => none

/-- Reads the token after a value within an array or object. -/
def endValue (value : Json) (stack : List Frame) : Frame → Token → Option Reading
  | .array before, .comma => some (.valueDue (.array (value :: before) :: stack))
  | .array before, .closeArray => some (.completed (.array (value :: before).reverse) stack)
  | .object before key, .comma => some (.keyDue ((key, value) :: before) stack)
  | .object before key, .closeObject =>
    some (.completed (.object ((key, value) :: before).reverse) stack)
  | _, _ => none

/-- Reads one token, if it may stand here. -/
def step : Reading → Token → Option Reading
  | .valueDue stack, token => beginValue stack token
  | .firstItem stack, token =>
    if token = .closeArray then
      some (.completed (.array []) stack)
    else
      beginValue (.array [] :: stack) token
  | .firstKey stack, .closeObject => some (.completed (.object []) stack)
  | .firstKey stack, .scalar (.text key) => some (.colonDue [] key stack)
  | .keyDue before stack, .scalar (.text key) => some (.colonDue before key stack)
  | .colonDue before key stack, .colon => some (.valueDue (.object before key :: stack))
  | .completed value (frame :: stack), token => endValue value stack frame token
  | _, _ => none

/-- The value that has been read, when nothing is left open. -/
def finish : Reading → Option Json
  | .completed value [] => some value
  | _ => none

end Reading

/-- The value of a token sequence, if it is the token sequence of one. -/
def ofTokens? (tokens : List Token) : Option Json := do
  let reading ← tokens.foldlM Reading.step (.valueDue [])
  reading.finish

/-! ### The tokens of a value are accepted -/

/-- The first token of a value closes no array. -/
theorem step_firstItem (stack : List Frame) (json : Json) (rest : List Token) :
    (json.tokens ++ rest).foldlM Reading.step (.firstItem stack) =
      (json.tokens ++ rest).foldlM Reading.step (.valueDue (.array [] :: stack)) := by
  match json with
  | .scalar value => simp [tokens, Reading.step]
  | .array [] => simp [tokens, Reading.step]
  | .array (item :: items) => simp [tokens, Reading.step]
  | .object [] => simp [tokens, Reading.step]
  | .object ((key, value) :: members) => simp [tokens, Reading.step]

mutual

/-- Where a value is due, its tokens complete it. -/
theorem foldlM_tokens : (json : Json) → (stack : List Frame) → (rest : List Token) →
    (json.tokens ++ rest).foldlM Reading.step (.valueDue stack) =
      rest.foldlM Reading.step (.completed json stack)
  | .scalar value, stack, rest => by
    simp [tokens, Reading.step, Reading.beginValue]
  | .array [], stack, rest => by
    simp [tokens, Reading.step, Reading.beginValue]
  | .array (item :: items), stack, rest => by
    have first := step_firstItem stack item (itemTokens items ++ rest)
    have read := foldlM_tokens item (.array [] :: stack) (itemTokens items ++ rest)
    have others := foldlM_itemTokens items item [] stack rest
    simp [-List.foldlM_append, tokens, Reading.step, Reading.beginValue, first, read, others]
  | .object [], stack, rest => by
    simp [tokens, Reading.step, Reading.beginValue]
  | .object ((key, value) :: members), stack, rest => by
    have read := foldlM_tokens value (.object [] key :: stack) (memberTokens members ++ rest)
    have others := foldlM_memberTokens members value [] key stack rest
    simp [-List.foldlM_append, tokens, Reading.step, Reading.beginValue, read, others]

/-- After an item of an array, the tokens of the other items complete the array. -/
theorem foldlM_itemTokens : (items : List Json) → (item : Json) → (before : List Json) →
    (stack : List Frame) → (rest : List Token) →
    (itemTokens items ++ rest).foldlM Reading.step (.completed item (.array before :: stack)) =
      rest.foldlM Reading.step (.completed (.array (before.reverse ++ item :: items)) stack)
  | [], item, before, stack, rest => by
    simp [itemTokens, Reading.step, Reading.endValue]
  | next :: items, item, before, stack, rest => by
    have read := foldlM_tokens next (.array (item :: before) :: stack) (itemTokens items ++ rest)
    have others := foldlM_itemTokens items next (item :: before) stack rest
    simp [-List.foldlM_append, itemTokens, Reading.step, Reading.endValue, read, others]

/-- After a member of an object, the tokens of the other members complete the object. -/
theorem foldlM_memberTokens : (members : List (Text × Json)) → (value : Json) →
    (before : List (Text × Json)) → (key : Text) → (stack : List Frame) → (rest : List Token) →
    (memberTokens members ++ rest).foldlM Reading.step
        (.completed value (.object before key :: stack)) =
      rest.foldlM Reading.step
        (.completed (.object (before.reverse ++ (key, value) :: members)) stack)
  | [], value, before, key, stack, rest => by
    simp [memberTokens, Reading.step, Reading.endValue]
  | (next, found) :: members, value, before, key, stack, rest => by
    have read := foldlM_tokens found (.object ((key, value) :: before) next :: stack)
      (memberTokens members ++ rest)
    have others := foldlM_memberTokens members found ((key, value) :: before) next stack rest
    simp [-List.foldlM_append, memberTokens, Reading.step, Reading.endValue, read, others]

end

/-- The tokens of a value are read as that value. -/
theorem ofTokens?_tokens (json : Json) : ofTokens? json.tokens = some json := by
  have read := foldlM_tokens json [] []
  rw [List.append_nil] at read
  simp [ofTokens?, read, Reading.finish]

/-! ### No other token sequence is accepted -/

/-- The tokens of completed items, each with the comma after it; the latest item comes first. -/
def itemsWritten (before : List Json) : List Token :=
  before.reverse.flatMap fun item => item.tokens ++ [.comma]

/-- The tokens of completed members, each with the comma after it; the latest comes first. -/
def membersWritten (before : List (Text × Json)) : List Token :=
  before.reverse.flatMap fun (key, value) =>
    .scalar (.text key) :: .colon :: (value.tokens ++ [.comma])

/-- The tokens from the opening of an array or object to the value that is being read. -/
def Frame.written : Frame → List Token
  | .array before => .openArray :: itemsWritten before
  | .object before key =>
    .openObject :: (membersWritten before ++ [.scalar (.text key), .colon])

/-- The tokens of everything that is open. -/
def stackWritten (stack : List Frame) : List Token :=
  stack.reverse.flatMap Frame.written

/-- The tokens that lead to a reading. -/
def Reading.written : Reading → List Token
  | .valueDue stack => stackWritten stack
  | .firstItem stack => stackWritten stack ++ [.openArray]
  | .firstKey stack => stackWritten stack ++ [.openObject]
  | .keyDue before stack => stackWritten stack ++ .openObject :: membersWritten before
  | .colonDue before key stack =>
    stackWritten stack ++ .openObject :: (membersWritten before ++ [.scalar (.text key)])
  | .completed value stack => stackWritten stack ++ value.tokens

@[simp] theorem stackWritten_cons (frame : Frame) (stack : List Frame) :
    stackWritten (frame :: stack) = stackWritten stack ++ frame.written := by
  simp [stackWritten]

@[simp] theorem itemsWritten_cons (item : Json) (before : List Json) :
    itemsWritten (item :: before) = itemsWritten before ++ (item.tokens ++ [.comma]) := by
  simp [itemsWritten]

@[simp] theorem membersWritten_cons (key : Text) (value : Json) (before : List (Text × Json)) :
    membersWritten ((key, value) :: before) =
      membersWritten before ++ .scalar (.text key) :: .colon :: (value.tokens ++ [.comma]) := by
  simp [membersWritten]

/-- The commas of an array may be counted to the items before them. -/
theorem tokens_append_itemTokens (first : Json) (items : List Json) (last : Json) :
    first.tokens ++ itemTokens (items ++ [last]) =
      (first :: items).flatMap (fun item => item.tokens ++ [.comma]) ++
        (last.tokens ++ [.closeArray]) := by
  induction items generalizing first with
  | nil => simp [itemTokens]
  | cons item items ih => simp [itemTokens, ih]

/-- The commas of an object may be counted to the members before them. -/
theorem tokens_append_memberTokens (first : Json) (members : List (Text × Json)) (key : Text)
    (last : Json) :
    first.tokens ++ memberTokens (members ++ [(key, last)]) =
      first.tokens ++ .comma :: (members.flatMap (fun (key, value) =>
        .scalar (.text key) :: .colon :: (value.tokens ++ [.comma])) ++
          .scalar (.text key) :: .colon :: (last.tokens ++ [.closeObject])) := by
  induction members generalizing first with
  | nil => simp [memberTokens]
  | cons member members ih => simp [memberTokens, ih]

/-- The tokens of an array whose last item has just been completed. -/
theorem tokens_array_reverse (last : Json) (before : List Json) :
    (Json.array (last :: before).reverse).tokens =
      .openArray :: (itemsWritten before ++ (last.tokens ++ [.closeArray])) := by
  rw [List.reverse_cons, itemsWritten]
  cases before.reverse with
  | nil => simp [tokens, itemTokens]
  | cons item items =>
    have moved := tokens_append_itemTokens item items last
    simp [tokens, moved]

/-- The tokens of an object whose last member has just been completed. -/
theorem tokens_object_reverse (key : Text) (last : Json) (before : List (Text × Json)) :
    (Json.object ((key, last) :: before).reverse).tokens =
      .openObject :: (membersWritten before ++
        .scalar (.text key) :: .colon :: (last.tokens ++ [.closeObject])) := by
  rw [List.reverse_cons, membersWritten]
  cases before.reverse with
  | nil => simp [tokens, memberTokens]
  | cons member members =>
    obtain ⟨first, value⟩ := member
    have moved := tokens_append_memberTokens value members key last
    simp [tokens, moved]

/-- Reading the first token of a value appends it to what is written. -/
theorem written_of_beginValue {stack : List Frame} {token : Token} {next : Reading}
    (stepped : Reading.beginValue stack token = some next) :
    next.written = stackWritten stack ++ [token] := by
  cases token <;> simp [Reading.beginValue] at stepped <;> subst stepped <;>
    simp [Reading.written, tokens]

/-- Reading the token after a value appends it to what is written. -/
theorem written_of_endValue {value : Json} {stack : List Frame} {frame : Frame} {token : Token}
    {next : Reading} (stepped : Reading.endValue value stack frame token = some next) :
    next.written = stackWritten stack ++ (frame.written ++ (value.tokens ++ [token])) := by
  have array := tokens_array_reverse value
  have object := tokens_object_reverse
  cases frame <;> cases token <;> simp [Reading.endValue] at stepped <;> subst stepped <;>
    simp_all [Reading.written, Frame.written]

/-- Every step appends its token to what is written. -/
theorem written_of_step {reading next : Reading} {token : Token}
    (stepped : reading.step token = some next) : next.written = reading.written ++ [token] := by
  unfold Reading.step at stepped
  split at stepped
  · exact written_of_beginValue stepped
  · split at stepped
    · rename_i closed
      subst closed
      simp only [Option.some.injEq] at stepped
      subst stepped
      simp [Reading.written, tokens]
    · rw [written_of_beginValue stepped]
      simp [Reading.written, Frame.written, itemsWritten]
  · simp only [Option.some.injEq] at stepped
    subst stepped
    simp [Reading.written, tokens]
  · simp only [Option.some.injEq] at stepped
    subst stepped
    simp [Reading.written, membersWritten]
  · simp only [Option.some.injEq] at stepped
    subst stepped
    simp [Reading.written]
  · simp only [Option.some.injEq] at stepped
    subst stepped
    simp [Reading.written, Frame.written]
  · rw [written_of_endValue stepped]
    simp [Reading.written]
  · simp at stepped

/-- A run appends all its tokens to what is written. -/
theorem written_of_foldlM {reading last : Reading} {tokens : List Token}
    (run : tokens.foldlM Reading.step reading = some last) :
    last.written = reading.written ++ tokens := by
  induction tokens generalizing reading with
  | nil => simp_all
  | cons token tokens ih =>
    simp only [List.foldlM_cons, Option.bind_eq_bind, Option.bind_eq_some_iff] at run
    obtain ⟨next, stepped, rest⟩ := run
    rw [ih rest, written_of_step stepped, List.append_assoc, List.singleton_append]

/-- A token sequence is read as a value exactly when it is the token sequence of that value. -/
theorem ofTokens?_eq_some_iff {sequence : List Token} {json : Json} :
    ofTokens? sequence = some json ↔ sequence = json.tokens := by
  constructor
  · intro read
    simp only [ofTokens?, Option.bind_eq_bind, Option.bind_eq_some_iff] at read
    obtain ⟨last, run, finished⟩ := read
    have written := written_of_foldlM run
    unfold Reading.finish at finished
    split at finished
    · simp only [Option.some.injEq] at finished
      subst finished
      simpa [Reading.written, stackWritten] using written.symm
    · simp at finished
  · intro same
    rw [same, ofTokens?_tokens]

end ControlWords.Json
