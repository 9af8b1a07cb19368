/-
**Which texts hold a value.**

A text is a *layout* of a value when it consists of the spellings of the value's tokens, in order,
with blanks before, between and after them. These are exactly the texts that hold the value:

* `layout_of_tokens?`: the tokens that are read from a text are laid out in it;
* `tokens?_of_layout`: tokens that are laid out are read as these tokens, if they belong to a value;
* `parse?_eq_some_iff`: a text holds a value exactly when it is a layout of the value;
* `read?_eq_some_iff`: reading a type is finding a value that is laid out and decoding it, so that
  neither blanks nor the choice of escapes matter.
-/

import ControlWords.Json.Codec
import ControlWords.Json.Grammar
import ControlWords.Proofs.Json.Lexemes

namespace ControlWords.Json

/-- Characters that are the spellings of tokens in order, with blanks around them. -/
inductive Layout : List Token → List Char → Prop
  | nil : Layout [] []
  | blank {character : Char} {tokens : List Token} {characters : List Char}
      (isBlank : isBlank character = true) (rest : Layout tokens characters) :
      Layout tokens (character :: characters)
  | token {token : Token} {spelling : List Char} {tokens : List Token} {characters : List Char}
      (spelled : token.SpelledAs spelling) (rest : Layout tokens characters) :
      Layout (token :: tokens) (spelling ++ characters)

/-- A text that consists of the tokens of a value and of blanks. -/
def LaidOut (json : Json) (text : String) : Prop :=
  Layout json.tokens text.toList

/-! ### Tokens that are read are laid out -/

theorem layout_of_tokens? {characters : List Char} {tokens : List Token}
    (read : tokens? characters = some tokens) : Layout tokens characters := by
  fun_induction tokens? characters generalizing tokens with
  | case1 =>
    cases read
    exact .nil
  | case2 character rest isBlank ih => exact .blank isBlank (ih read)
  | case3 character rest visible scanned => cases read
  | case4 character rest visible token after scanned ih =>
    simp only [Option.map_eq_map, Option.map_eq_some_iff] at read
    obtain ⟨others, read, rfl⟩ := read
    obtain ⟨spelling, spelled, parts⟩ := spelledAs_of_scanToken scanned
    rw [parts]
    exact .token spelled (ih read)

/-! ### Tokens that are laid out are read -/

/-- A scalar is a value or a key. -/
theorem step_scalar {reading next : Reading} {value : Scalar}
    (stepped : reading.step (.scalar value) = some next) :
    (∃ stack, next = .completed (.scalar value) stack) ∨
      ∃ before key stack, next = .colonDue before key stack := by
  cases reading with
  | valueDue stack => exact .inl ⟨stack, (Option.some.inj stepped).symm⟩
  | firstItem stack => exact .inl ⟨.array [] :: stack, (Option.some.inj stepped).symm⟩
  | firstKey stack =>
    cases value with
    | text key => exact .inr ⟨[], key, stack, (Option.some.inj stepped).symm⟩
    | _ => cases stepped
  | keyDue before stack =>
    cases value with
    | text key => exact .inr ⟨before, key, stack, (Option.some.inj stepped).symm⟩
    | _ => cases stepped
  | colonDue before key stack => cases stepped
  | completed found stack =>
    match stack with
    | [] => cases stepped
    | .array _ :: _ => cases stepped
    | .object _ _ :: _ => cases stepped

/-- Two scalars do not follow one another in a value. -/
theorem step_scalar_scalar {reading next : Reading} {first second : Scalar}
    (stepped : reading.step (.scalar first) = some next) : next.step (.scalar second) = none := by
  rcases step_scalar stepped with ⟨stack, rfl⟩ | ⟨before, key, stack, rfl⟩
  · match stack with
    | [] => rfl
    | .array _ :: _ => rfl
    | .object _ _ :: _ => rfl
  · rfl

theorem endsNumber_of_isBlank {character : Char} (isBlank : isBlank character = true)
    (rest : List Char) : EndsNumber (character :: rest) := by
  simp only [Json.isBlank, Bool.or_eq_true, decide_eq_true_eq] at isBlank
  rcases isBlank with ((rfl | rfl) | rfl) | rfl <;>
    exact ⟨rfl, by decide, by decide, by decide⟩

theorem endsNumber_of_mark? {character : Char} {token : Token}
    (marks : mark? character = some token) (rest : List Char) :
    EndsNumber (character :: rest) := by
  unfold mark? at marks
  split at marks <;> first | exact ⟨rfl, by decide, by decide, by decide⟩ | cases marks

/-- No number goes on in a layout that does not begin with a scalar. -/
theorem endsNumber_of_layout {tokens : List Token} {characters : List Char}
    (layout : Layout tokens characters) (noScalar : ∀ value, tokens.head? ≠ some (.scalar value)) :
    EndsNumber characters := by
  cases layout with
  | nil => trivial
  | blank isBlank rest => exact endsNumber_of_isBlank isBlank _
  | token spelled rest =>
    cases spelled with
    | mark marks => exact endsNumber_of_mark? marks _
    | name | text | number => exact absurd rfl (noScalar _)

/-- The tokens of a text begin with the token at its front. -/
theorem tokens?_cons {character : Char} {rest after : List Char} {token : Token}
    (visible : isBlank character = false)
    (scanned : scanToken character rest = some (token, after)) :
    tokens? (character :: rest) = (token :: ·) <$> tokens? after := by
  rw [tokens?.eq_def]
  simp only [visible, Bool.false_eq_true, if_false]
  split
  · rename_i refused
    rw [scanned] at refused
    cases refused
  · rename_i found
    rw [scanned] at found
    cases found
    rfl

/-- **Tokens that are laid out are read**, if a value may go on with them. Then a scalar is followed
by a blank, by a mark or by nothing, so a number ends with its spelling. -/
theorem tokens?_of_layout {tokens : List Token} {characters : List Char}
    (layout : Layout tokens characters) {reading : Reading}
    (run : (tokens.foldlM Reading.step reading).isSome) : tokens? characters = some tokens := by
  induction layout generalizing reading with
  | nil => rw [tokens?]
  | blank isBlank _ ih =>
    rw [tokens?.eq_def]
    simp only [isBlank, if_true]
    exact ih run
  | @token token spelling tokens characters spelled rest ih =>
    rw [List.foldlM_cons, Option.bind_eq_bind, Option.isSome_bind, Option.any_eq_true] at run
    obtain ⟨next, stepped, run⟩ := run
    have ends : ∀ value, token = .scalar value → EndsNumber characters := by
      rintro value rfl
      refine endsNumber_of_layout rest fun other first => ?_
      obtain ⟨others, rfl⟩ := List.head?_eq_some_iff.mp first
      rw [List.foldlM_cons, step_scalar_scalar stepped] at run
      cases run
    obtain ⟨first, others, rfl, visible, scanned⟩ := scanToken_of_spelledAs spelled ends
    rw [List.cons_append, tokens?_cons visible scanned, ih run]
    rfl

/-! ### Values -/

/-- **A text holds a value exactly when it is a layout of the value.** -/
theorem parse?_eq_some_iff {text : String} {json : Json} :
    parse? text = some json ↔ LaidOut json text := by
  constructor
  · intro parsed
    simp only [parse?, Option.bind_eq_bind, Option.bind_eq_some_iff] at parsed
    obtain ⟨tokens, read, built⟩ := parsed
    rw [ofTokens?_eq_some_iff.mp built] at read
    exact layout_of_tokens? read
  · intro layout
    have run : (json.tokens.foldlM Reading.step (.valueDue [])).isSome := by
      have read := foldlM_tokens json [] []
      rw [List.append_nil] at read
      rw [read]
      rfl
    rw [parse?, tokens?_of_layout layout run]
    exact ofTokens?_tokens json

/-- **A type is read from the layouts of the values that it is decoded from.** -/
theorem read?_eq_some_iff {α : Type} [JsonCodec α] {text : String} {value : α} :
    read? text = some value ↔ ∃ json, LaidOut json text ∧ JsonCodec.decode? json = some value := by
  simp only [read?, Option.bind_eq_bind, Option.bind_eq_some_iff, parse?_eq_some_iff]

theorem read?_of_laidOut {α : Type} [JsonCodec α] {text : String} {json : Json}
    (layout : LaidOut json text) : (read? text : Option α) = JsonCodec.decode? json := by
  rw [read?, parse?_eq_some_iff.mpr layout]
  rfl

end ControlWords.Json
