import Hyperscript.Proofs.Number.Shapes
import Hyperscript.Proofs.Text.Literals
import Hyperscript.Proofs.Text.Tokens
import Hyperscript.Script.Operator

/-! The lexical grammar of expressions. Each lexeme is the longest that the text starts with:
a name, a numeral, a string literal or a punctuator. A point behind digits belongs to the
numeral, and no numeral is followed at once by a name or a digit. Comments, templates, patterns,
optional chains and numerals other than decimal ones are not part of it; a slash divides. -/
namespace Hyperscript.Text

/-- A string literal stands for its code units. -/
inductive Lexeme where
  | name (text : String)
  | numeral (text : List Char)
  | string (units : List Nat)
  | punctuator (text : String)
deriving DecidableEq

/-- The punctuators that start with a character, the longest first. -/
def punctuatorsFrom : Char → List String
  | '.' => ["...", "."]
  | '=' => ["===", "==", "=>", "="]
  | '!' => ["!==", "!=", "!"]
  | '<' => ["<<=", "<<", "<=", "<"]
  | '>' => [">>>=", ">>>", ">>=", ">>", ">=", ">"]
  | '&' => ["&&=", "&&", "&=", "&"]
  | '|' => ["||=", "||", "|=", "|"]
  | '?' => ["??=", "??", "?"]
  | '*' => ["**=", "**", "*=", "*"]
  | '+' => ["++", "+=", "+"]
  | '-' => ["--", "-=", "-"]
  | '/' => ["/=", "/"]
  | '%' => ["%=", "%"]
  | '^' => ["^=", "^"]
  | c =>
    if ['(', ')', '[', ']', '\x7b', '\x7d', ';', ',', ':', '~'].contains c then [String.singleton c]
    else []

def punctuatorAt? : List Char → Option (Lexeme × List Char)
  | [] => none
  | c :: rest =>
    ((punctuatorsFrom c).find? (·.toList.isPrefixOf (c :: rest))).map fun text =>
      (.punctuator text, (c :: rest).drop text.toList.length)

/-- A point, with the digits behind it. -/
def fractionAt : List Char → List Char × List Char
  | '.' :: rest => ('.' :: rest.takeWhile (·.isDigit), rest.dropWhile (·.isDigit))
  | rest => ([], rest)

def signAt : List Char → List Char × List Char
  | '+' :: rest => (['+'], rest)
  | '-' :: rest => (['-'], rest)
  | rest => ([], rest)

/-- An exponent has at least one digit. -/
def exponentAt : List Char → List Char × List Char
  | [] => ([], [])
  | c :: rest =>
    let (sign, behind) := signAt rest
    let digits := behind.takeWhile (·.isDigit)
    if (c = 'e' ∨ c = 'E') ∧ digits ≠ [] then
      (c :: (sign ++ digits), behind.dropWhile (·.isDigit))
    else ([], c :: rest)

/-- A zero is not followed by other digits of a whole number. -/
def numeralAt? (input : List Char) : Option (Lexeme × List Char) :=
  let whole := input.takeWhile (·.isDigit)
  let fraction := fractionAt (input.dropWhile (·.isDigit))
  let exponent := exponentAt fraction.2
  if whole.head? = some '0' ∧ whole ≠ ['0'] ∨ startsWord exponent.2 = true then none
  else some (.numeral (whole ++ (fraction.1 ++ exponent.1)), exponent.2)

/-- A digit, or a point and a digit. -/
def startsNumeral : List Char → Bool
  | '.' :: rest => rest.head?.any (·.isDigit)
  | input => input.head?.any (·.isDigit)

/-- The first lexeme of a text, and what follows it. -/
def next? : List Char → Option (Lexeme × List Char)
  | [] => none
  | c :: rest =>
    if isIdentifierStart c then
      some (.name (String.ofList (c :: rest.takeWhile isIdentifierRest)),
        rest.dropWhile isIdentifierRest)
    else if startsNumeral (c :: rest) then numeralAt? (c :: rest)
    else if isQuote c then
      (literalAt? (c :: rest)).map fun read => (.string read.1, read.2)
    else if c = '/' ∧ (rest.head? = some '/' ∨ rest.head? = some '*') then none
    else punctuatorAt? (c :: rest)

/-- A text, and the lexemes that it is made of. -/
inductive Lexes : List Char → List Lexeme → Prop where
  | done : Lexes [] []
  | blank {c : Char} {rest : List Char} {lexemes : List Lexeme} :
      c.isWhitespace = true → Lexes rest lexemes → Lexes (c :: rest) lexemes
  | next {input rest : List Char} {lexeme : Lexeme} {lexemes : List Lexeme} :
      next? input = some (lexeme, rest) → Lexes rest lexemes → Lexes input (lexeme :: lexemes)

section Lexes

variable {input rest : List Char} {lexeme : Lexeme} {lexemes more : List Lexeme}

/-- No lexeme starts with a blank. -/
theorem next?_blank {c : Char} (blank : c.isWhitespace = true) : next? (c :: rest) = none := by
  obtain rfl | rfl | rfl | rfl : c = ' ' ∨ c = '\t' ∨ c = '\r' ∨ c = '\n' := by
    simpa [Char.isWhitespace, or_assoc] using blank
  all_goals rfl

theorem lexes_blank_iff {c : Char} (blank : c.isWhitespace = true) :
    Lexes (c :: rest) lexemes ↔ Lexes rest lexemes := by
  constructor
  · intro lexes
    cases lexes with
    | blank _ inside => exact inside
    | next found => rw [next?_blank blank] at found; cases found
  · exact .blank blank

theorem lexes_space_iff : Lexes (" ".toList ++ rest) lexemes ↔ Lexes rest lexemes :=
  lexes_blank_iff (by decide)

/-- The first lexeme of a text is the one that it starts with. -/
theorem lexes_iff_of_next? (found : next? input = some (lexeme, rest)) :
    Lexes input lexemes ↔ ∃ more, lexemes = lexeme :: more ∧ Lexes rest more := by
  constructor
  · intro lexes
    cases lexes with
    | done => cases found
    | blank blank => rw [next?_blank blank] at found; cases found
    | next other inside =>
      obtain ⟨rfl, rfl⟩ := Prod.mk.inj (Option.some.inj (found.symm.trans other))
      exact ⟨_, rfl, inside⟩
  · rintro ⟨more, rfl, inside⟩
    exact .next found inside

theorem lexes_cons_iff (found : next? input = some (lexeme, rest)) :
    Lexes input (lexeme :: more) ↔ Lexes rest more := by
  rw [lexes_iff_of_next? found]
  constructor
  · rintro ⟨_, same, inside⟩
    cases same
    exact inside
  · exact fun inside => ⟨_, rfl, inside⟩

theorem Lexes.exists_next? (lexes : Lexes input (lexeme :: more))
    (solid : input.head?.any (·.isWhitespace) = false) :
    ∃ rest, next? input = some (lexeme, rest) := by
  cases lexes with
  | blank blank => exact absurd solid (by simp [blank])
  | next found => exact ⟨_, found⟩

/-- A text has one sequence of lexemes at most. -/
theorem Lexes.unique {others : List Lexeme} (first : Lexes input lexemes)
    (second : Lexes input others) : lexemes = others := by
  induction first generalizing others with
  | done =>
    cases second with
    | done => rfl
    | next found => cases found
  | blank blank _ ih => exact ih ((lexes_blank_iff blank).mp second)
  | next found _ ih =>
    obtain ⟨more, rfl, inside⟩ := (lexes_iff_of_next? found).mp second
    rw [ih inside]

end Lexes

section Next

variable {rest : List Char}

theorem takeWhile_run {p : Char → Bool} {text : List Char} (all : ∀ c ∈ text, p c = true)
    (stops : rest.head?.any p = false) : (text ++ rest).takeWhile p = text := by
  rw [List.takeWhile_append_of_pos all]
  cases rest with
  | nil => simp
  | cons c others => rw [List.takeWhile_cons_of_neg (by simpa using stops), List.append_nil]

theorem dropWhile_run {p : Char → Bool} {text : List Char} (all : ∀ c ∈ text, p c = true)
    (stops : rest.head?.any p = false) : (text ++ rest).dropWhile p = rest := by
  rw [List.dropWhile_append_of_pos all]
  cases rest with
  | nil => simp
  | cons c others => rw [List.dropWhile_cons_of_neg (by simpa using stops)]

/-- A name goes on to where its word ends. -/
theorem next?_name {name : String} (shape : hasIdentifierShape name.toList = true)
    (ends : startsWord rest = false) :
    next? (name.toList ++ rest) = some (.name name, rest) := by
  cases characters : name.toList with
  | nil =>
    rw [characters] at shape
    cases shape
  | cons first others =>
    rw [characters, hasIdentifierShape, Bool.and_eq_true, List.all_eq_true] at shape
    rw [List.cons_append, next?, if_pos shape.1, takeWhile_run shape.2 ends,
      dropWhile_run shape.2 ends, ← characters, String.ofList_toList]

theorem next?_quoted (text : String) :
    next? ((quoted text).toList ++ rest) = some (.string (utf16 text), rest) := by
  have read := literalAt?_quoted text rest
  have characters : ∃ inside, (quoted text).toList = '"' :: inside := by simp [quoted]
  obtain ⟨inside, characters⟩ := characters
  rw [characters, List.cons_append] at read ⊢
  have quote : isIdentifierStart '"' = false ∧ isQuote '"' = true := by decide
  have numeral : startsNumeral ('"' :: (inside ++ rest)) = false := rfl
  simp [next?, quote, numeral, read]

theorem not_isDigit_of_not_startsWord (ends : startsWord rest = false) :
    rest.head?.any (·.isDigit) = false := by
  cases rest with
  | nil => rfl
  | cons c others =>
    simp only [startsWord, List.head?_cons, Option.any_some, isIdentifierRest, Char.isAlphanum,
      Bool.or_eq_false_iff] at ends ⊢
    exact ends.1.1.2

/-- Where no word starts, there is no exponent. -/
theorem exponentAt_of_not_startsWord (ends : startsWord rest = false) :
    exponentAt rest = ([], rest) := by
  cases rest with
  | nil => rfl
  | cons c others =>
    have other : ¬ (c = 'e' ∨ c = 'E') := by
      rintro (rfl | rfl)
      · exact absurd ends (by simp [startsWord]; decide)
      · exact absurd ends (by simp [startsWord]; decide)
    simp only [exponentAt, other, false_and, if_false]

theorem exponentAt_append {sign : Char} {digits : List Char} (signed : sign ∈ ['+', '-'])
    (nonempty : digits ≠ []) (isDigit : ∀ c ∈ digits, c.isDigit = true)
    (ends : startsWord rest = false) :
    exponentAt ('e' :: sign :: digits ++ rest) = ('e' :: sign :: digits, rest) := by
  have stops := not_isDigit_of_not_startsWord ends
  have read : signAt (sign :: digits ++ rest) = ([sign], digits ++ rest) := by
    obtain rfl | rfl : sign = '+' ∨ sign = '-' := by simpa using signed
    · rfl
    · rfl
  rw [List.cons_append, exponentAt, read]
  simp only [takeWhile_run isDigit stops, dropWhile_run isDigit stops]
  simp [nonempty]

theorem kinds_of_isDigit {c : Char} (digit : c.isDigit = true) :
    isIdentifierStart c = false ∧ c.isWhitespace = false := by
  have range : 48 ≤ c.toNat ∧ c.toNat ≤ 57 := by
    simpa [Char.isDigit, UInt32.le_iff_toNat_le] using digit
  have all : ∀ n ≤ 57, 48 ≤ n →
      isIdentifierStart (Char.ofNat n) = false ∧ (Char.ofNat n).isWhitespace = false := by
    decide
  have found := all c.toNat range.2 range.1
  rwa [Char.ofNat_toNat] at found

theorem fractionAt_of_ne (other : rest.head? ≠ some '.') : fractionAt rest = ([], rest) := by
  unfold fractionAt
  split
  next => exact absurd rfl other
  next => rfl

/-- A text that starts with digits is read as a numeral. -/
theorem next?_digits {whole behind : List Char} (nonempty : whole ≠ [])
    (isDigit : ∀ c ∈ whole, c.isDigit = true) (stops : behind.head?.any (·.isDigit) = false) :
    next? (whole ++ behind) =
      if whole.head? = some '0' ∧ whole ≠ ['0'] ∨
          startsWord (exponentAt (fractionAt behind).2).2 = true then none
      else some
        (.numeral (whole ++ ((fractionAt behind).1 ++ (exponentAt (fractionAt behind).2).1)),
          (exponentAt (fractionAt behind).2).2) := by
  obtain ⟨first, others, rfl⟩ := List.exists_cons_of_ne_nil nonempty
  have digit : first.isDigit = true := isDigit first List.mem_cons_self
  have other := (kinds_of_isDigit digit).1
  have numeral : startsNumeral (first :: (others ++ behind)) = true := by
    unfold startsNumeral
    split
    next same =>
      cases same
      exact absurd digit (by decide)
    next => simpa using digit
  rw [List.cons_append, next?, if_neg (by simp [other]), if_pos numeral, ← List.cons_append,
    numeralAt?, takeWhile_run isDigit stops, dropWhile_run isDigit stops]

/-- A decimal is read to its end, if what follows is not part of the same lexeme: no word, and no
point behind digits alone. -/
theorem next?_numeral {text whole fraction exponent : List Char}
    (decimal : Number.IsDecimal text whole fraction exponent) (ends : startsWord rest = false)
    (apart : fraction ++ exponent = [] → rest.head? ≠ some '.') :
    next? (text ++ rest) = some (.numeral text, rest) := by
  have leading : ¬ (whole.head? = some '0' ∧ whole ≠ ['0']) := fun ⟨zero, more⟩ =>
    more (decimal.leading zero)
  have exponentRead : exponentAt (exponent ++ rest) = (exponent, rest) := by
    rcases decimal.exponent with rfl | ⟨sign, digits, rfl, signed, nonempty, isDigit⟩
    · exact exponentAt_of_not_startsWord ends
    · exact exponentAt_append signed nonempty isDigit ends
  have behind : (exponent ++ rest).head?.any (·.isDigit) = false := by
    rcases decimal.exponent with rfl | ⟨sign, digits, rfl, -⟩
    · exact not_isDigit_of_not_startsWord ends
    · rfl
  have fractionRead : fractionAt (fraction ++ (exponent ++ rest)) = (fraction, exponent ++ rest) ∧
      (fraction ++ (exponent ++ rest)).head?.any (·.isDigit) = false := by
    rcases decimal.fraction with rfl | ⟨digits, rfl, isDigit⟩
    · refine ⟨fractionAt_of_ne ?_, behind⟩
      rcases decimal.exponent with rfl | ⟨sign, digits, rfl, -⟩
      · exact apart rfl
      · simp
    · refine ⟨?_, rfl⟩
      rw [List.cons_append, fractionAt, takeWhile_run isDigit behind, dropWhile_run isDigit behind]
  obtain ⟨fractionRead, stops⟩ := fractionRead
  rw [decimal.text, List.append_assoc, List.append_assoc,
    next?_digits decimal.nonempty decimal.digits stops]
  simp only [fractionRead, exponentRead, leading, ends, false_or, Bool.false_eq_true, if_false]

/-- Digits do not end in front of a point. -/
theorem not_lexes_point {whole : List Char} {more : List Lexeme} (nonempty : whole ≠ [])
    (isDigit : ∀ c ∈ whole, c.isDigit = true) :
    ¬ Lexes (whole ++ '.' :: rest) (.numeral whole :: more) := by
  intro lexes
  have solid : (whole ++ '.' :: rest).head?.any (·.isWhitespace) = false := by
    obtain ⟨first, others, rfl⟩ := List.exists_cons_of_ne_nil nonempty
    exact (kinds_of_isDigit (isDigit first List.mem_cons_self)).2
  obtain ⟨behind, found⟩ := lexes.exists_next? solid
  rw [next?_digits nonempty isDigit (by rfl)] at found
  split at found
  next => cases found
  next =>
    have same := Lexeme.numeral.inj (Prod.mk.inj (Option.some.inj found)).1
    have longer := congrArg List.length same
    simp [fractionAt] at longer

/-- An operand starts with a word, a quote or a bracket. -/
def startsOperand (text : List Char) : Bool :=
  text.head?.any fun c => isIdentifierRest c || c == '"' || c == '('

/-- A sign in front of an operand is a lexeme of its own. -/
theorem next?_sign (sign : String) (known : sign ∈ ["!", "-", "+", "."])
    (operand : startsOperand rest = true)
    (point : sign = "." → rest.head?.any (·.isDigit) = false) :
    next? (sign.toList ++ rest) = some (.punctuator sign, rest) := by
  cases rest with
  | nil => cases operand
  | cons d others =>
    simp only [startsOperand, List.head?_cons, Option.any_some] at operand point
    have apart : ¬ '=' = d ∧ ¬ '-' = d ∧ ¬ '+' = d ∧ ¬ '.' = d := by
      refine ⟨?_, ?_, ?_, ?_⟩
      all_goals
        rintro rfl
        exact absurd operand (by decide)
    simp only [List.mem_cons, List.not_mem_nil, or_false] at known
    have found : punctuatorAt? (sign.toList ++ d :: others) =
        some (.punctuator sign, d :: others) := by
      rcases known with rfl | rfl | rfl | rfl <;>
        simp [punctuatorAt?, punctuatorsFrom, apart, List.isPrefixOf]
    rw [← found]
    rcases known with rfl | rfl | rfl | rfl
    · rfl
    · rfl
    · rfl
    · have numeral : startsNumeral ('.' :: d :: others) = false := point rfl
      change next? ('.' :: d :: others) = punctuatorAt? ('.' :: d :: others)
      rw [next?, if_neg (by decide), numeral, if_neg (by decide), if_neg (by decide),
        if_neg (by simp)]

/-- Marks that begin no other punctuator. -/
theorem next?_mark (mark : String) (known : mark ∈ ["(", ")", "[", "]", ";"]) :
    next? (mark.toList ++ rest) = some (.punctuator mark, rest) := by
  simp only [List.mem_cons, List.not_mem_nil, or_false] at known
  rcases known with rfl | rfl | rfl | rfl | rfl <;> rfl

/-- The symbol of an operator in front of a blank. -/
theorem next?_symbol {operator : Operator} {symbol : String}
    (known : operator.symbol? = some symbol) :
    next? (symbol.toList ++ (" ".toList ++ rest)) =
      some (.punctuator symbol, " ".toList ++ rest) := by
  cases operator with
  | concat => cases known
  | _ =>
    cases known
    rfl

end Next
end Hyperscript.Text
