/-
**How tokens are spelled.**

The spellings of a token are given by a grammar, apart from the functions that scan for them:
`Token.SpelledAs` says which characters spell a token, and `Text.SpelledAs` which characters between
quotes spell a string. A scanner finds the token whose spelling stands at the front of a text, and
leaves what follows it:

* `spelledAs_of_scanText` and `scanText_of_spelledAs`: a string is read up to the quote that closes
  it;
* `spelledAs_of_scanToken` and `scanToken_of_spelledAs`: a token of any kind is read as far as its
  spelling goes, provided that no number could go on behind it;
* `spelledAs_natural_iff`: a natural number is spelled by its decimal numeral only.
-/

import ControlWords.Proofs.Json.Numerals

namespace ControlWords.Json

/-! ### Strings -/

/-- Between quotes, characters that stand for themselves and escapes spell the units of a text. -/
inductive Text.SpelledAs : Text → List Char → Prop
  | nil : Text.SpelledAs [] []
  | plain {character : Char} {text : Text} {body : List Char} (noQuote : character ≠ '"')
      (noEscape : character ≠ '\\') (printable : ¬ character < ' ')
      (rest : Text.SpelledAs text body) :
      Text.SpelledAs (Text.ofChar character ++ text) (character :: body)
  | escaped {mark : Char} {unit : UInt16} {text : Text} {body : List Char}
      (named : escapedUnit? mark = some unit) (rest : Text.SpelledAs text body) :
      Text.SpelledAs (unit :: text) ('\\' :: mark :: body)
  | coded {first second third fourth : Char} {unit : UInt16} {text : Text} {body : List Char}
      (named : hexUnit? first second third fourth = some unit) (rest : Text.SpelledAs text body) :
      Text.SpelledAs (unit :: text) ('\\' :: 'u' :: first :: second :: third :: fourth :: body)

theorem spelledAs_of_scanText {characters rest : List Char} {text : Text}
    (scanned : scanText characters = some (text, rest)) :
    ∃ body, Text.SpelledAs text body ∧ characters = body ++ '"' :: rest := by
  fun_induction scanText characters generalizing text rest
  all_goals
    simp only [Option.bind_eq_bind, Option.bind_eq_some_iff, Option.map_eq_map,
      Option.map_eq_some_iff, prepend, Option.some.injEq, Prod.mk.injEq, Prod.exists,
      reduceCtorEq] at scanned
  case case2 =>
    obtain ⟨rfl, rfl⟩ := scanned
    exact ⟨[], .nil, rfl⟩
  case case4 ih =>
    obtain ⟨unit, named, tail, after, read, rfl, rfl⟩ := scanned
    obtain ⟨body, spelled, rfl⟩ := ih read
    exact ⟨_, .coded named spelled, rfl⟩
  case case6 ih =>
    obtain ⟨unit, named, tail, after, read, rfl, rfl⟩ := scanned
    obtain ⟨body, spelled, rfl⟩ := ih read
    exact ⟨_, .escaped named spelled, rfl⟩
  case case8 noQuote noEscape printable ih =>
    obtain ⟨tail, after, read, rfl, rfl⟩ := scanned
    obtain ⟨body, spelled, rfl⟩ := ih read
    exact ⟨_, .plain noQuote noEscape printable spelled, rfl⟩

/-- **A string is read up to the quote that closes it**, whatever follows. -/
theorem scanText_of_spelledAs {text : Text} {body : List Char} (spelled : Text.SpelledAs text body)
    (rest : List Char) : scanText (body ++ '"' :: rest) = some (text, rest) := by
  induction spelled with
  | nil =>
    rw [List.nil_append, scanText.eq_def]
    rfl
  | plain noQuote noEscape printable _ ih =>
    rw [List.cons_append, scanText.eq_def]
    simp only [if_neg noQuote, if_neg noEscape, if_neg printable, ih]
    rfl
  | @escaped mark unit text body named _ ih =>
    have other : mark ≠ 'u' := by
      rintro rfl
      cases named
    rw [List.cons_append, List.cons_append, scanText.eq_def]
    simp only [if_neg (show '\\' ≠ '"' by decide), if_true, if_neg other, named, ih]
    rfl
  | coded named _ ih =>
    rw [List.cons_append, List.cons_append, scanText.eq_def]
    simp only [List.cons_append, if_neg (show '\\' ≠ '"' by decide), if_true, named, ih]
    rfl

/-! ### Tokens -/

/-- The characters that spell a token. -/
inductive Token.SpelledAs : Token → List Char → Prop
  | mark {character : Char} {token : Token} (marks : mark? character = some token) :
      Token.SpelledAs token [character]
  | name {character : Char} {letters : List Char} {value : Scalar}
      (named : name? character = some (value, letters)) :
      Token.SpelledAs (.scalar value) (character :: letters)
  | text {text : Text} {body : List Char} (units : Text.SpelledAs text body) :
      Token.SpelledAs (.scalar (.text text)) ('"' :: (body ++ ['"']))
  | number {minus whole fraction exponent : List Char}
      (parts : IsNumber minus whole fraction exponent) :
      Token.SpelledAs (.scalar (numberValue minus whole fraction exponent))
        (minus ++ whole ++ fraction ++ exponent)

theorem scanLetters_eq_some_iff {letters characters rest : List Char} :
    scanLetters letters characters = some rest ↔ characters = letters ++ rest := by
  unfold scanLetters
  split
  · rename_i found
    obtain ⟨after, rfl⟩ := List.isPrefixOf_iff_prefix.mp found
    rw [List.drop_left, Option.some.injEq, List.append_cancel_left_eq]
  · rename_i absent
    constructor
    · exact nofun
    · rintro rfl
      exact absurd (List.isPrefixOf_iff_prefix.mpr (List.prefix_append _ _)) absent

/-- **The token at the front of a text is spelled there.** -/
theorem spelledAs_of_scanToken {character : Char} {characters rest : List Char} {token : Token}
    (scanned : scanToken character characters = some (token, rest)) :
    ∃ spelling, token.SpelledAs spelling ∧ character :: characters = spelling ++ rest := by
  unfold scanToken at scanned
  split at scanned
  · rename_i marks
    cases scanned
    exact ⟨[character], .mark marks, rfl⟩
  · simp only [Option.bind_eq_bind, Option.bind_eq_some_iff] at scanned
    obtain ⟨⟨value, after⟩, read, equal⟩ := scanned
    cases equal
    unfold scanScalar at read
    split at read
    · rename_i value letters named
      simp only [Option.map_eq_map, Option.map_eq_some_iff] at read
      obtain ⟨after, found, equal⟩ := read
      cases equal
      refine ⟨character :: letters, .name named, ?_⟩
      rw [scanLetters_eq_some_iff.mp found, List.cons_append]
    · split at read
      · rename_i quote
        subst quote
        simp only [Option.bind_eq_bind, Option.bind_eq_some_iff] at read
        obtain ⟨⟨units, after⟩, found, equal⟩ := read
        cases equal
        obtain ⟨body, spelled, rfl⟩ := spelledAs_of_scanText found
        exact ⟨_, .text spelled, by simp⟩
      · obtain ⟨minus, whole, fraction, exponent, parts, rfl, spelled⟩ :=
          isNumber_of_scanNumber read
        exact ⟨_, .number parts, spelled⟩

/-- A minus or a digit is no blank, no mark, and begins no name or string. -/
theorem scanToken_of_starts {character : Char}
    (starts : character = '-' ∨ character.isDigit = true) (rest : List Char) :
    isBlank character = false ∧ scanToken character rest =
      (scanNumber (character :: rest)).bind fun (value, after) => some (.scalar value, after) := by
  have other : ∀ mark : Char, mark.isDigit = false → mark ≠ '-' → character ≠ mark := by
    intro mark noDigit noMinus
    rcases starts with rfl | digit
    · exact noMinus.symm
    · exact ne_of_isDigit digit noDigit
  have noMark : mark? character = none := by
    unfold mark?
    split <;> first | rfl | exact absurd rfl (other _ rfl (by decide))
  have noName : name? character = none := by
    unfold name?
    split <;> first | rfl | exact absurd rfl (other _ rfl (by decide))
  constructor
  · simp [isBlank, other ' ' rfl (by decide), other '\t' rfl (by decide),
      other '\n' rfl (by decide), other '\r' rfl (by decide)]
  · rw [scanToken, noMark]
    simp only [scanScalar, noName, if_neg (other '"' rfl (by decide))]
    rfl

/-- **A spelling at the front of a text is read as its token**, if no number could go on there. -/
theorem scanToken_of_spelledAs {token : Token} {spelling rest : List Char}
    (spelled : token.SpelledAs spelling)
    (ends : ∀ value, token = .scalar value → EndsNumber rest) :
    ∃ first others, spelling = first :: others ∧ isBlank first = false ∧
      scanToken first (others ++ rest) = some (token, rest) := by
  cases spelled with
  | @mark character token marks =>
    refine ⟨character, [], rfl, ?_, ?_⟩
    · unfold mark? at marks
      split at marks <;> first | rfl | cases marks
    · rw [List.nil_append, scanToken, marks]
  | @name character letters value named =>
    refine ⟨character, letters, rfl, ?_, ?_⟩
    · unfold name? at named
      split at named <;> first | rfl | cases named
    · have noMark : mark? character = none := by
        unfold name? at named
        split at named <;> first | rfl | cases named
      have read : scanLetters letters (letters ++ rest) = some rest :=
        scanLetters_eq_some_iff.mpr rfl
      rw [scanToken, noMark]
      simp only [scanScalar, named, read]
      rfl
  | @text text body units =>
    refine ⟨'"', body ++ ['"'], rfl, rfl, ?_⟩
    have read := scanText_of_spelledAs units rest
    rw [List.append_assoc, List.singleton_append]
    show (scanText (body ++ '"' :: rest)).bind _ >>= _ = _
    rw [read]
    rfl
  | number parts =>
    obtain ⟨first, others, equal, starts⟩ := parts.exists_eq_cons
    obtain ⟨visible, scanned⟩ := scanToken_of_starts starts (others ++ rest)
    refine ⟨first, others, equal, visible, ?_⟩
    rw [scanned, ← List.cons_append, ← equal, scanNumber_of_isNumber parts (ends _ rfl),
      Option.bind_some]

/-- **The spelling of a natural number is its decimal numeral.** -/
theorem spelledAs_natural_iff {value : Nat} {spelling : List Char} :
    (Token.scalar (.natural value)).SpelledAs spelling ↔ spelling = Nat.toDigits 10 value := by
  constructor
  · intro spelled
    generalize same : Token.scalar (.natural value) = token at spelled
    cases spelled with
    | mark marks =>
      subst same
      unfold mark? at marks
      split at marks <;> cases marks
    | name named =>
      cases same
      unfold name? at named
      split at named <;> cases named
    | text _ => cases same
    | number parts =>
      obtain ⟨rfl, rfl, rfl, rfl⟩ := isNumber_natural_iff.mp ⟨parts, (Token.scalar.inj same).symm⟩
      simp
  · rintro rfl
    obtain ⟨parts, denoted⟩ := isNumber_natural_iff.mpr ⟨rfl, rfl, rfl, rfl⟩
    have spelled := Token.SpelledAs.number parts
    rw [denoted] at spelled
    simpa using spelled

end ControlWords.Json
