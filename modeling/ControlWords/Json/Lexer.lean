/-
**The tokens of JSON text.**

Blanks between tokens are space, tab, line feed and carriage return. Names, numbers and strings
follow the JSON standard strictly: digits are ASCII, a number has no leading zeros and no sign but a
minus, a string holds no raw character below the space, and an escape names a code unit either by
one of eight letters or marks or by four hexadecimal digits. Two scalars that touch are two tokens,
which no value admits side by side.

* `scanText` reads a string after its opening quote, `scanNumber` a number;
* `nextToken?` reads one token and leaves fewer characters;
* `tokens?` reads them all.
-/

import ControlWords.Json.Basic

namespace ControlWords.Json

/-- Whether a character may stand between tokens. -/
def isBlank (character : Char) : Bool :=
  character = ' ' || character = '\t' || character = '\n' || character = '\r'

/-! ### Strings -/

/-- The unit that a letter or mark names after a backslash. -/
def escapedUnit? : Char → Option UInt16
  | '"' => some 0x22
  | '\\' => some 0x5C
  | '/' => some 0x2F
  | 'b' => some 0x08
  | 'f' => some 0x0C
  | 'n' => some 0x0A
  | 'r' => some 0x0D
  | 't' => some 0x09
  | _ => none

/-- The value of a hexadecimal digit of either case. -/
def hexValue? (character : Char) : Option Nat :=
  if '0' ≤ character ∧ character ≤ '9' then
    some (character.toNat - '0'.toNat)
  else if 'a' ≤ character ∧ character ≤ 'f' then
    some (character.toNat - 'a'.toNat + 10)
  else if 'A' ≤ character ∧ character ≤ 'F' then
    some (character.toNat - 'A'.toNat + 10)
  else
    none

/-- The unit that four hexadecimal digits name. -/
def hexUnit? (first second third fourth : Char) : Option UInt16 := do
  let high ← hexValue? first
  let upper ← hexValue? second
  let lower ← hexValue? third
  let low ← hexValue? fourth
  return UInt16.ofNat (high * 0x1000 + upper * 0x100 + lower * 0x10 + low)

/-- Puts units before the text that was read. -/
def prepend (units : Text) : Text × List Char → Text × List Char
  | (text, rest) => (units ++ text, rest)

/-- Reads a string from behind its opening quote, and what follows its closing quote. -/
def scanText : List Char → Option (Text × List Char)
  | [] => none
  | character :: rest =>
    if character = '"' then
      some ([], rest)
    else if character = '\\' then
      match rest with
      | [] => none
      | escape :: rest =>
        if escape = 'u' then
          match rest with
          | first :: second :: third :: fourth :: rest => do
            let unit ← hexUnit? first second third fourth
            prepend [unit] <$> scanText rest
          | _ => none
        else do
          let unit ← escapedUnit? escape
          prepend [unit] <$> scanText rest
    else if character < ' ' then
      none
    else
      prepend (Text.ofChar character) <$> scanText rest

/-! ### Numbers -/

/-- The number that a list of decimal digits denotes. -/
def decimalValue (digits : List Char) : Nat :=
  digits.foldl (fun total digit => 10 * total + (digit.toNat - '0'.toNat)) 0

/-- Reads at least one decimal digit, as many as there are. -/
def scanDigits (characters : List Char) : Option (List Char × List Char) :=
  match characters.takeWhile Char.isDigit with
  | [] => none
  | digits => some (digits, characters.dropWhile Char.isDigit)

/-- Reads the part of a number before its point: a lone zero, or digits that begin otherwise. -/
def scanWhole : List Char → Option (List Char × List Char)
  | '0' :: rest => some (['0'], rest)
  | characters => scanDigits characters

/-- Reads the minus of a number, if there is one. -/
def scanMinus : List Char → List Char × List Char
  | '-' :: rest => (['-'], rest)
  | characters => ([], characters)

/-- Reads the point of a number and the digits behind it, if there is a point. -/
def scanFraction : List Char → Option (List Char × List Char)
  | '.' :: rest => do
    let (digits, rest) ← scanDigits rest
    return ('.' :: digits, rest)
  | characters => some ([], characters)

/-- Reads the sign of an exponent, if there is one. -/
def scanSign : List Char → List Char × List Char
  | '+' :: rest => (['+'], rest)
  | '-' :: rest => (['-'], rest)
  | characters => ([], characters)

/-- Reads the exponent of a number, if there is one. -/
def scanExponent : List Char → Option (List Char × List Char)
  | [] => some ([], [])
  | character :: rest =>
    if character = 'e' ∨ character = 'E' then do
      let (sign, rest) := scanSign rest
      let (digits, rest) ← scanDigits rest
      return (character :: (sign ++ digits), rest)
    else
      some ([], character :: rest)

/-- Reads a number, which is a natural when it is spelled with digits only: `1.0`, `1e0` and `-0`
keep their spelling, so no integer is read from them. -/
def scanNumber (characters : List Char) : Option (Scalar × List Char) := do
  let (minus, rest) := scanMinus characters
  let (whole, rest) ← scanWhole rest
  let (fraction, rest) ← scanFraction rest
  let (exponent, rest) ← scanExponent rest
  if minus = [] ∧ fraction = [] ∧ exponent = [] then
    return (.natural (decimalValue whole), rest)
  else
    return (.number (minus ++ whole ++ fraction ++ exponent), rest)

/-! ### Tokens -/

/-- The token that a character is by itself. -/
def mark? : Char → Option Token
  | '[' => some .openArray
  | ']' => some .closeArray
  | '{' => some .openObject
  | '}' => some .closeObject
  | ':' => some .colon
  | ',' => some .comma
  | _ => none

/-- The value whose name begins with a character, and the letters that follow in its name. -/
def name? : Char → Option (Scalar × List Char)
  | 'n' => some (.null, ['u', 'l', 'l'])
  | 't' => some (.bool true, ['r', 'u', 'e'])
  | 'f' => some (.bool false, ['a', 'l', 's', 'e'])
  | _ => none

/-- Reads the given letters and gives what follows them. -/
def scanLetters (letters characters : List Char) : Option (List Char) :=
  if letters.isPrefixOf characters then some (characters.drop letters.length) else none

/-- Reads a scalar whose first character is given. -/
def scanScalar (character : Char) (rest : List Char) : Option (Scalar × List Char) :=
  match name? character with
  | some (value, letters) => (value, ·) <$> scanLetters letters rest
  | none =>
    if character = '"' then do
      let (units, rest) ← scanText rest
      return (.text units, rest)
    else
      scanNumber (character :: rest)

/-- Reads a token whose first character, which is not a blank, is given. -/
def scanToken (character : Char) (rest : List Char) : Option (Token × List Char) :=
  match mark? character with
  | some token => some (token, rest)
  | none => do
    let (value, rest) ← scanScalar character rest
    return (.scalar value, rest)

/-! ### A token leaves fewer characters

A sign, a fraction and an exponent may be missing; everything else takes a character at least.
-/

/-- A string ends after its opening quote. -/
theorem length_of_scanText {characters rest : List Char} {text : Text}
    (scanned : scanText characters = some (text, rest)) : rest.length < characters.length := by
  fun_induction scanText characters generalizing text rest
  all_goals
    simp_all [prepend, Option.bind_eq_some_iff]
  case case4 ih =>
    obtain ⟨unit, named, tail, read, equal⟩ := scanned
    have shorter := ih read
    omega
  case case6 ih =>
    obtain ⟨unit, named, tail, read, equal⟩ := scanned
    have shorter := ih read
    omega
  case case8 ih =>
    obtain ⟨tail, read, equal⟩ := scanned
    have shorter := ih read
    omega

/-- A run of digits is what the digits at the front are, and there is one. -/
theorem scanDigits_eq_some_iff {characters digits rest : List Char} :
    scanDigits characters = some (digits, rest) ↔
      digits ≠ [] ∧ characters.takeWhile Char.isDigit = digits ∧
        characters.dropWhile Char.isDigit = rest := by
  unfold scanDigits
  split
  · rename_i empty
    rw [empty]
    exact ⟨nofun, fun ⟨nonempty, same, _⟩ => absurd same.symm nonempty⟩
  · rename_i nonempty
    constructor
    · intro same
      cases same
      exact ⟨nonempty, rfl, rfl⟩
    · rintro ⟨_, rfl, rfl⟩
      rfl

theorem length_of_scanDigits {characters digits rest : List Char}
    (scanned : scanDigits characters = some (digits, rest)) :
    rest.length < characters.length := by
  obtain ⟨nonempty, taken, dropped⟩ := scanDigits_eq_some_iff.mp scanned
  have parts : digits ++ rest = characters := by
    rw [← taken, ← dropped, List.takeWhile_append_dropWhile]
  have positive := List.length_pos_iff.mpr nonempty
  rw [← parts, List.length_append]
  omega

theorem length_of_scanWhole {characters whole rest : List Char}
    (scanned : scanWhole characters = some (whole, rest)) :
    rest.length < characters.length := by
  unfold scanWhole at scanned
  split at scanned
  · simp_all
  · exact length_of_scanDigits scanned

theorem length_scanMinus_le (characters : List Char) :
    (scanMinus characters).2.length ≤ characters.length := by
  unfold scanMinus
  split <;> simp

theorem length_scanSign_le (characters : List Char) :
    (scanSign characters).2.length ≤ characters.length := by
  unfold scanSign
  split <;> simp

theorem length_of_scanFraction {characters fraction rest : List Char}
    (scanned : scanFraction characters = some (fraction, rest)) :
    rest.length ≤ characters.length := by
  unfold scanFraction at scanned
  split at scanned
  · simp only [Option.bind_eq_bind, Option.bind_eq_some_iff] at scanned
    obtain ⟨⟨digits, after⟩, read, equal⟩ := scanned
    have shorter := length_of_scanDigits read
    simp_all
    omega
  · simp_all

theorem length_of_scanExponent {characters exponent rest : List Char}
    (scanned : scanExponent characters = some (exponent, rest)) :
    rest.length ≤ characters.length := by
  unfold scanExponent at scanned
  split at scanned
  · simp_all
  · split at scanned
    · rename_i first tail _
      simp only [Option.bind_eq_bind, Option.bind_eq_some_iff] at scanned
      obtain ⟨⟨digits, after⟩, read, equal⟩ := scanned
      have shorter := length_of_scanDigits read
      have signed := length_scanSign_le tail
      simp_all
      omega
    · simp_all

theorem length_of_scanNumber {characters rest : List Char} {value : Scalar}
    (scanned : scanNumber characters = some (value, rest)) :
    rest.length < characters.length := by
  simp only [scanNumber, Option.bind_eq_bind, Option.bind_eq_some_iff] at scanned
  obtain ⟨⟨whole, first⟩, readWhole, ⟨fraction, second⟩, readFraction, ⟨exponent, third⟩,
    readExponent, result⟩ := scanned
  have minus := length_scanMinus_le characters
  have shorter : first.length < (scanMinus characters).2.length := length_of_scanWhole readWhole
  have fractional : second.length ≤ first.length := length_of_scanFraction readFraction
  have exponential : third.length ≤ second.length := length_of_scanExponent readExponent
  have same : third = rest := by
    split at result <;> simp_all
  subst same
  omega

theorem length_of_scanLetters {letters characters rest : List Char}
    (scanned : scanLetters letters characters = some rest) :
    rest.length ≤ characters.length := by
  unfold scanLetters at scanned
  split at scanned
  · simp only [Option.some.injEq] at scanned
    rw [← scanned, List.length_drop]
    omega
  · simp at scanned

theorem length_of_scanScalar {character : Char} {characters rest : List Char} {value : Scalar}
    (scanned : scanScalar character characters = some (value, rest)) :
    rest.length < characters.length + 1 := by
  unfold scanScalar at scanned
  split at scanned
  · simp only [Option.map_eq_map, Option.map_eq_some_iff] at scanned
    obtain ⟨after, read, equal⟩ := scanned
    have shorter := length_of_scanLetters read
    cases equal
    omega
  · split at scanned
    · simp only [Option.bind_eq_bind, Option.bind_eq_some_iff] at scanned
      obtain ⟨⟨units, after⟩, read, equal⟩ := scanned
      have shorter : after.length < characters.length := length_of_scanText read
      cases equal
      exact Nat.lt_succ_of_lt shorter
    · exact length_of_scanNumber scanned

/-- A token holds its first character. -/
theorem length_of_scanToken {character : Char} {characters rest : List Char} {token : Token}
    (scanned : scanToken character characters = some (token, rest)) :
    rest.length < characters.length + 1 := by
  unfold scanToken at scanned
  split at scanned
  · cases scanned
    exact Nat.lt_succ_self _
  · simp only [Option.bind_eq_bind, Option.bind_eq_some_iff] at scanned
    obtain ⟨⟨value, after⟩, read, equal⟩ := scanned
    have shorter := length_of_scanScalar read
    cases equal
    exact shorter

/-! ### All tokens -/

/-- The tokens of a list of characters, if it holds nothing but tokens and blanks. -/
def tokens? : List Char → Option (List Token)
  | [] => some []
  | character :: rest =>
    if isBlank character then
      tokens? rest
    else
      match _ : scanToken character rest with
      | none => none
      | some (token, after) => (token :: ·) <$> tokens? after
termination_by characters => characters.length
decreasing_by
  · simp
  · exact length_of_scanToken (by assumption)

end ControlWords.Json
