import Hyperscript.Text.Quoted
import Mathlib.Tactic.Common

/-! String literals as scripts read them. A literal denotes 16-bit code units: those of the
characters that stand for themselves, and those that escapes give. Reading what was quoted
gives the units of the text and stops at the closing quote, whatever follows. -/
namespace Hyperscript.Text

/-- The code units of a code point: itself below `2 ^ 16`, else two surrogates. -/
def unitsOf (point : Nat) : List Nat :=
  if point < 0x10000 then [point]
  else [0xD800 + (point - 0x10000) / 0x400, 0xDC00 + (point - 0x10000) % 0x400]

def utf16 (text : String) : List Nat := text.toList.flatMap fun c => unitsOf c.toNat

/-- No character is half of a pair of surrogates. -/
theorem toNat_not_surrogate (c : Char) :
    c.toNat < 0xD800 ∨ 0xDFFF < c.toNat ∧ c.toNat < 0x110000 :=
  c.valid

/-- The units of a text show where its first character ends. -/
theorem unitsOf_append_inj {c d : Char} {rest rest' : List Nat}
    (same : unitsOf c.toNat ++ rest = unitsOf d.toNat ++ rest') : c = d ∧ rest = rest' := by
  have outsideC := toNat_not_surrogate c
  have outsideD := toNat_not_surrogate d
  unfold unitsOf at same
  split_ifs at same with shortC shortD shortD
  · obtain ⟨first, behind⟩ := List.cons.inj same
    exact ⟨Char.toNat_inj.mp first, behind⟩
  · have first : c.toNat = 0xD800 + (d.toNat - 0x10000) / 0x400 := (List.cons.inj same).1
    omega
  · have first : 0xD800 + (c.toNat - 0x10000) / 0x400 = d.toNat := (List.cons.inj same).1
    omega
  · obtain ⟨first, others⟩ := List.cons.inj same
    obtain ⟨second, behind⟩ := List.cons.inj others
    exact ⟨Char.toNat_inj.mp (by omega), behind⟩

theorem utf16_injective : Function.Injective utf16 := by
  intro first second same
  have lists : ∀ xs ys : List Char, (xs.flatMap fun c => unitsOf c.toNat) =
      (ys.flatMap fun c => unitsOf c.toNat) → xs = ys := by
    have nonempty (point : Nat) : unitsOf point ≠ [] := by
      unfold unitsOf
      split <;> simp
    intro xs
    induction xs with
    | nil =>
      intro ys same
      cases ys with
      | nil => rfl
      | cons d others => simp [nonempty] at same
    | cons c rest ih =>
      intro ys same
      cases ys with
      | nil => simp [nonempty] at same
      | cons d others =>
        obtain ⟨rfl, behind⟩ := unitsOf_append_inj same
        rw [ih others behind]
  exact String.toList_inj.mp (lists _ _ same)

/-- Where a reader is in a literal: at a character that may stand for itself, behind a
backslash, behind `\u`, in digits of which so many are to come, between braces, behind a
carriage return that was escaped, or behind `\0`. -/
inductive LiteralMode where
  | plain
  | escape
  | unicode
  | digits (left value : Nat)
  | braced (value : Option Nat)
  | carriage
  | zero

/-- What a character does in a literal. -/
inductive LiteralStep where
  | refused
  | closed
  | read (units : List Nat) (mode : LiteralMode)

namespace LiteralMode

/-- A literal does not go on behind a line break that is not escaped. -/
def readPlain (quote c : Char) : LiteralStep :=
  if c = quote then .closed
  else if c = '\\' then .read [] .escape
  else if c = '\n' ∨ c = '\r' then .refused
  else .read (unitsOf c.toNat) .plain

/-- A character behind a backslash. Most stand for themselves there; a line break stands for
nothing, and octal escapes are refused. -/
def readEscape (c : Char) : LiteralStep :=
  match c with
  | 'n' => .read [10] .plain
  | 'r' => .read [13] .plain
  | 't' => .read [9] .plain
  | 'b' => .read [8] .plain
  | 'f' => .read [12] .plain
  | 'v' => .read [11] .plain
  | '0' => .read [0] .zero
  | 'x' => .read [] (.digits 2 0)
  | 'u' => .read [] .unicode
  | '\r' => .read [] .carriage
  | '\n' | '\u2028' | '\u2029' => .read [] .plain
  | c => if c.isDigit then .refused else .read (unitsOf c.toNat) .plain

def readDigit (left value : Nat) (c : Char) : LiteralStep :=
  match hexValue? c with
  | none => .refused
  | some digit =>
    if left ≤ 1 then .read [value * 16 + digit] .plain
    else .read [] (.digits (left - 1) (value * 16 + digit))

/-- A code point in braces has at least one digit and is no larger than the largest. -/
def readBraced (value : Option Nat) (c : Char) : LiteralStep :=
  match value, c with
  | some point, '\x7d' => .read (unitsOf point) .plain
  | _, c =>
    match hexValue? c with
    | none => .refused
    | some digit =>
      let point := value.getD 0 * 16 + digit
      if point ≤ 0x10FFFF then .read [] (.braced (some point)) else .refused

def next (quote : Char) : LiteralMode → Char → LiteralStep
  | .plain, c => readPlain quote c
  | .escape, c => readEscape c
  | .unicode, c => if c = '\x7b' then .read [] (.braced none) else readDigit 4 0 c
  | .digits left value, c => readDigit left value c
  | .braced value, c => readBraced value c
  | .carriage, c => if c = '\n' then .read [] .plain else readPlain quote c
  | .zero, c => if c.isDigit then .refused else readPlain quote c

end LiteralMode

/-- Units in front of those that were read. -/
def unitsBefore (units : List Nat) (read : List Nat × List Char) : List Nat × List Char :=
  (units ++ read.1, read.2)

@[simp] theorem unitsBefore_nil : unitsBefore [] = id := rfl

theorem unitsBefore_comp (first second : List Nat) :
    unitsBefore first ∘ unitsBefore second = unitsBefore (first ++ second) := by
  funext read
  simp [unitsBefore]

/-- The units of a literal from some place in it on, and what follows its closing quote. -/
def readLiteral (quote : Char) : LiteralMode → List Char → Option (List Nat × List Char)
  | _, [] => none
  | mode, c :: rest =>
    match mode.next quote c with
    | .refused => none
    | .closed => some ([], rest)
    | .read units mode => (readLiteral quote mode rest).map (unitsBefore units)

def isQuote (c : Char) : Bool := c == '"' || c == '\''

/-- The literal that a text starts with. -/
def literalAt? : List Char → Option (List Nat × List Char)
  | [] => none
  | c :: rest => if isQuote c then readLiteral c .plain rest else none

theorem hexValue?_hexDigit (n : Nat) : hexValue? (hexDigit (n % 16)) = some (n % 16) := by
  have all : ∀ n < 16, hexValue? (hexDigit n) = some n := by decide
  exact all _ (Nat.mod_lt n (by decide))

theorem hexDigit_ne_brace (n : Nat) : hexDigit (n % 16) ≠ '\x7b' := by
  have all : ∀ n < 16, hexDigit n ≠ '\x7b' := by decide
  exact all _ (Nat.mod_lt n (by decide))

theorem readLiteral_read {quote c : Char} {mode later : LiteralMode} {units : List Nat}
    (step : mode.next quote c = .read units later) (rest : List Char) :
    readLiteral quote mode (c :: rest) =
      (readLiteral quote later rest).map (unitsBefore units) := by
  rw [readLiteral, step]

/-- A character behind a backslash that gives units of its own. -/
theorem readLiteral_escaped {quote c : Char} (other : quote ≠ '\\') {units : List Nat}
    (step : LiteralMode.escape.next quote c = .read units .plain) (rest : List Char) :
    readLiteral quote .plain ('\\' :: c :: rest) =
      (readLiteral quote .plain rest).map (unitsBefore units) := by
  have enter : LiteralMode.plain.next quote '\\' = .read [] .escape := by
    simp [LiteralMode.next, LiteralMode.readPlain, other.symm]
  rw [readLiteral_read enter, readLiteral_read step, Option.map_map, unitsBefore_comp,
    List.nil_append]

/-- Four digits behind `\u` give one unit. -/
theorem readLiteral_hexQuad {quote : Char} (other : quote ≠ '\\') {n : Nat} (small : n < 0x10000)
    (rest : List Char) :
    readLiteral quote .plain ('\\' :: 'u' :: hexQuad n ++ rest) =
      (readLiteral quote .plain rest).map (unitsBefore [n]) := by
  have value : (((n / 4096 % 16) * 16 + n / 256 % 16) * 16 + n / 16 % 16) * 16 + n % 16 = n := by
    omega
  have enter : LiteralMode.plain.next quote '\\' = .read [] .escape := by
    simp [LiteralMode.next, LiteralMode.readPlain, other.symm]
  have digits : LiteralMode.escape.next quote 'u' = .read [] .unicode := rfl
  rw [List.cons_append, readLiteral_read enter, List.cons_append, readLiteral_read digits]
  simp [hexQuad, readLiteral, LiteralMode.next, LiteralMode.readDigit, hexValue?_hexDigit,
    hexDigit_ne_brace, value]

/-- What stands for a character is read as its units. -/
theorem readLiteral_escapeChar {quote : Char} (known : isQuote quote = true) (c : Char)
    (rest : List Char) :
    readLiteral quote .plain (escapeChar quote c ++ rest) =
      (readLiteral quote .plain rest).map (unitsBefore (unitsOf c.toNat)) := by
  have quotes : quote = '"' ∨ quote = '\'' := by simpa [isQuote] using known
  have other : quote ≠ '\\' := by
    rintro rfl
    exact absurd known (by decide)
  unfold escapeChar
  split_ifs with feed carriage tab backslash same unprintable
  · subst feed
    exact readLiteral_escaped other rfl rest
  · subst carriage
    exact readLiteral_escaped other rfl rest
  · subst tab
    exact readLiteral_escaped other rfl rest
  · subst backslash
    exact readLiteral_escaped other rfl rest
  · subst same
    refine readLiteral_escaped other ?_ rest
    obtain rfl | rfl := quotes <;> rfl
  · have small : c.toNat < 0x10000 := by
      simp only [isUnprintable, Bool.or_eq_true, decide_eq_true_eq, beq_iff_eq] at unprintable
      omega
    rw [readLiteral_hexQuad other small, unitsOf, if_pos small]
  · refine readLiteral_read ?_ rest
    simp [LiteralMode.next, LiteralMode.readPlain, same, backslash, feed, carriage]

/-- A quoted text is read to its closing quote and no further. -/
theorem readLiteral_escape {quote : Char} (known : isQuote quote = true) (text : List Char)
    (rest : List Char) :
    readLiteral quote .plain (text.flatMap (escapeChar quote) ++ quote :: rest) =
      some (text.flatMap fun c => unitsOf c.toNat, rest) := by
  induction text with
  | nil => simp [readLiteral, LiteralMode.next, LiteralMode.readPlain]
  | cons c others ih =>
    rw [List.flatMap_cons, List.append_assoc, readLiteral_escapeChar known, ih]
    rfl

theorem literalAt?_escape {quote : Char} (known : isQuote quote = true) (text : String)
    (rest : List Char) :
    literalAt? (quote :: (escape quote text).toList ++ quote :: rest) =
      some (utf16 text, rest) := by
  simp only [List.cons_append, literalAt?, known, if_true, escape, String.toList_ofList, utf16]
  exact readLiteral_escape known text.toList rest

/-- No line break, no control character. -/
def isPrintable (c : Char) : Bool :=
  0x20 ≤ c.toNat && c.toNat != 0x7F && c.toNat != 0x2028 && c.toNat != 0x2029

theorem isPrintable_quote {quote : Char} (known : isQuote quote = true) :
    isPrintable quote = true := by
  obtain rfl | rfl : quote = '"' ∨ quote = '\'' := by simpa [isQuote] using known
  · rfl
  · rfl

theorem isPrintable_escapeChar {quote : Char} (known : isQuote quote = true) (c : Char) :
    ∀ shown ∈ escapeChar quote c, isPrintable shown = true := by
  have digit (n : Nat) : isPrintable (hexDigit (n % 16)) = true := by
    have all : ∀ n < 16, isPrintable (hexDigit n) = true := by decide
    exact all _ (Nat.mod_lt n (by decide))
  unfold escapeChar
  split_ifs with feed carriage tab backslash same unprintable
  · exact List.all_eq_true.mp (by decide)
  · exact List.all_eq_true.mp (by decide)
  · exact List.all_eq_true.mp (by decide)
  · exact List.all_eq_true.mp (by decide)
  · refine List.forall_mem_cons.mpr ⟨by decide, List.forall_mem_singleton.mpr ?_⟩
    rw [same]
    exact isPrintable_quote known
  · refine List.forall_mem_cons.mpr ⟨by decide, List.forall_mem_cons.mpr ⟨by decide, ?_⟩⟩
    simp [hexQuad, digit]
  · simp only [isUnprintable, Bool.or_eq_true, decide_eq_true_eq, beq_iff_eq, not_or] at unprintable
    simp only [List.forall_mem_singleton, isPrintable, Bool.and_eq_true, decide_eq_true_eq,
      bne_iff_ne]
    omega

theorem isPrintable_escape {quote : Char} (known : isQuote quote = true) (text : String) :
    ∀ c ∈ (escape quote text).toList, isPrintable c = true := by
  rw [escape, String.toList_ofList, List.forall_mem_flatMap]
  exact fun c _ => isPrintable_escapeChar known c

theorem literalAt?_quoted (text : String) (rest : List Char) :
    literalAt? ((quoted text).toList ++ rest) = some (utf16 text, rest) := by
  have whole := literalAt?_escape (by rfl : isQuote '"' = true) text rest
  simpa [quoted] using whole

/-- Different texts have different literals. -/
theorem quoted_injective : Function.Injective quoted := by
  intro first second same
  have read := literalAt?_quoted first []
  rw [same, literalAt?_quoted second []] at read
  exact (utf16_injective (Prod.mk.inj (Option.some.inj read)).1).symm

/-- A literal that has been opened, and its units so far. -/
structure OpenLiteral where
  quote : Char
  mode : LiteralMode := .plain
  units : List Nat := []

/-- The literals of code in order, if all of them are closed. The code is taken to have no
comments, patterns and templates. -/
def literals : Option OpenLiteral → List Char → Option (List (List Nat))
  | none, [] => some []
  | some _, [] => none
  | none, c :: rest => literals (if isQuote c then some { quote := c } else none) rest
  | some opened, c :: rest =>
    match opened.mode.next opened.quote c with
    | .refused => none
    | .closed => (literals none rest).map (opened.units :: ·)
    | .read units mode => literals (some { opened with mode, units := opened.units ++ units }) rest

/-- Code is read literal by literal. -/
theorem literals_some (opened : OpenLiteral) (text : List Char) :
    literals (some opened) text =
      (readLiteral opened.quote opened.mode text).bind fun read =>
        (literals none read.2).map ((opened.units ++ read.1) :: ·) := by
  induction text generalizing opened with
  | nil => rfl
  | cons c rest ih =>
    rw [literals, readLiteral]
    cases opened.mode.next opened.quote c with
    | refused => rfl
    | closed => simp
    | read units mode => simp [ih, Option.bind_map, Function.comp_def, unitsBefore]

/-- How code is read: its literals are those of the texts, and none of them is left open. All
of its characters can be printed, but for the line feeds between its lines. -/
structure Quotes (code : String) (texts : List String) : Prop where
  printable : ∀ c ∈ code.toList, c = '\n' ∨ isPrintable c = true
  read : ∀ rest,
    literals none (code.toList ++ rest) = (literals none rest).map (texts.map utf16 ++ ·)

namespace Quotes

theorem literals_eq {code : String} {texts : List String} (quotes : Quotes code texts) :
    literals none code.toList = some (texts.map utf16) := by
  have whole := quotes.read []
  simpa [literals] using whole

theorem append {first second : String} {firsts seconds : List String}
    (before : Quotes first firsts) (after : Quotes second seconds) :
    Quotes (first ++ second) (firsts ++ seconds) where
  printable := by
    rw [String.toList_append]
    exact List.forall_mem_append.mpr ⟨before.printable, after.printable⟩
  read rest := by
    rw [String.toList_append, List.append_assoc, before.read, after.read, Option.map_map,
      List.map_append]
    simp only [Function.comp_def, List.append_assoc]

end Quotes

/-- A character that may stand outside of literals. -/
def isCodeChar (c : Char) : Bool := !isQuote c && (c == '\n' || isPrintable c)

theorem quotes_unquoted {code : String} (plain : ∀ c ∈ code.toList, isCodeChar c = true) :
    Quotes code [] := by
  have each : ∀ c ∈ code.toList, isQuote c = false ∧ (c = '\n' ∨ isPrintable c = true) := by
    intro c member
    simpa [isCodeChar] using plain c member
  refine ⟨fun c member => (each c member).2, fun rest => ?_⟩
  have skipped : ∀ text : List Char, (∀ c ∈ text, isQuote c = false) →
      literals none (text ++ rest) = literals none rest := by
    intro text unquoted
    induction text with
    | nil => rfl
    | cons c others ih =>
      obtain ⟨first, inOthers⟩ := List.forall_mem_cons.mp unquoted
      rw [List.cons_append, literals, first]
      exact ih inOthers
  rw [skipped code.toList fun c member => (each c member).1]
  simp

theorem isPrintable_quoted (text : String) : ∀ c ∈ (quoted text).toList, isPrintable c = true := by
  have quote : isPrintable '"' = true := rfl
  have inside := isPrintable_escape (by rfl : isQuote '"' = true) text
  simp only [quoted, String.toList_append, List.forall_mem_append]
  exact ⟨⟨List.forall_mem_singleton.mpr quote, inside⟩, List.forall_mem_singleton.mpr quote⟩

theorem quotes_quoted (text : String) : Quotes (quoted text) [text] where
  printable c member := .inr (isPrintable_quoted text c member)
  read rest := by
    have inner := readLiteral_escape (by rfl : isQuote '"' = true) text.toList rest
    have characters : (quoted text).toList ++ rest =
        '"' :: (text.toList.flatMap (escapeChar '"') ++ '"' :: rest) := by
      simp [quoted, escape]
    have opens : isQuote '"' = true := rfl
    rw [characters, literals, if_pos opens, literals_some, inner]
    rfl

end Hyperscript.Text
