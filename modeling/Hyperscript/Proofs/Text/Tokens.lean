import Hyperscript.Text.Identifier
import Hyperscript.Text.Quoted
import Mathlib.Tactic.Common

/-! Code as tokens. A word is a longest run of identifier characters, a string literal is
one token whatever it holds, and every other character that is no blank is a mark. A text
that leaves no literal open can be read piece by piece, as long as no piece ends in the
middle of a word. -/
namespace Hyperscript.Text

inductive Token where
  | word (text : String)
  | literal
  | mark (character : Char)
deriving DecidableEq

/-- Where a reader is: in code, in a string literal, or behind a backslash in one. -/
inductive Mode where
  | code
  | quoted
  | escaped
deriving DecidableEq

def Mode.next : Mode → Char → Mode
  | .code, c => if c = '"' then .quoted else .code
  | .quoted, c => if c = '\\' then .escaped else if c = '"' then .code else .quoted
  | .escaped, _ => .quoted

def modeAfter (mode : Mode) (text : List Char) : Mode := text.foldl Mode.next mode

theorem modeAfter_append (mode : Mode) (first second : List Char) :
    modeAfter mode (first ++ second) = modeAfter (modeAfter mode first) second :=
  List.foldl_append

def startsWord (text : List Char) : Bool := text.head?.any isIdentifierRest

def endsWord (text : List Char) : Bool := text.getLast?.any isIdentifierRest

/-- One more character of the word that comes first. -/
def extendWord (c : Char) : List Token → List Token
  | .word text :: rest => .word (String.ofList (c :: text.toList)) :: rest
  | tokens => tokens

/-- The tokens from a character on, given those behind it and whether a word starts there. -/
def readChar (mode : Mode) (c : Char) (goesOn : Bool) (later : List Token) : List Token :=
  match mode with
  | .code =>
    if isIdentifierRest c then
      if goesOn then extendWord c later else .word (String.ofList [c]) :: later
    else if c = '"' then .literal :: later
    else if c.isWhitespace then later
    else .mark c :: later
  | .quoted | .escaped => later

def scan : Mode → List Char → List Token
  | _, [] => []
  | mode, c :: rest => readChar mode c (startsWord rest) (scan (mode.next c) rest)

def tokens (text : String) : List Token := scan .code text.toList

theorem next_of_isIdentifierRest {c : Char} (inWord : isIdentifierRest c = true) :
    Mode.code.next c = .code := by
  have other : c ≠ '"' := by
    rintro rfl
    exact absurd inWord (by decide)
  simp [Mode.next, other]

/-- Where a word starts, a word comes first. -/
theorem scan_of_startsWord {text : List Char} (starts : startsWord text = true) :
    ∃ first later, scan .code text = .word first :: later := by
  induction text with
  | nil => cases starts
  | cons c rest ih =>
    have inWord : isIdentifierRest c = true := by simpa [startsWord] using starts
    simp only [scan, next_of_isIdentifierRest inWord, readChar, inWord, if_true]
    split
    next more =>
      obtain ⟨first, later, found⟩ := ih more
      exact ⟨_, _, by rw [found, extendWord]⟩
    next => exact ⟨_, _, rfl⟩

theorem readChar_append {mode : Mode} {c : Char} {goesOn : Bool} {later : List Token}
    (more : mode = .code → isIdentifierRest c = true → goesOn = true →
      ∃ first others, later = .word first :: others) (behind : List Token) :
    readChar mode c goesOn (later ++ behind) = readChar mode c goesOn later ++ behind := by
  cases mode with
  | code =>
    simp only [readChar]
    split
    next inWord =>
      split
      next goes =>
        obtain ⟨first, others, rfl⟩ := more rfl inWord goes
        rfl
      next => rfl
    next =>
      split
      · rfl
      · split <;> rfl
  | quoted | escaped => rfl

/-- A text is read piece by piece where no word crosses the border. -/
theorem scan_append (mode : Mode) (first second : List Char)
    (apart : endsWord first = false ∨ startsWord second = false) :
    scan mode (first ++ second) = scan mode first ++ scan (modeAfter mode first) second := by
  induction first generalizing mode with
  | nil => rfl
  | cons c rest ih =>
    cases rest with
    | nil =>
      have flag : isIdentifierRest c = true → startsWord second = false := by
        intro inWord
        refine apart.resolve_left ?_
        simp [endsWord, inWord]
      have same : readChar mode c (startsWord second) = readChar mode c false := by
        funext later
        cases mode with
        | code =>
          simp only [readChar]
          split
          next inWord => rw [flag inWord]
          next => rfl
        | quoted | escaped => rfl
      simp only [List.cons_append, List.nil_append, scan, same]
      exact @readChar_append mode c false [] (by simp) _
    | cons d others =>
      have inside := ih (mode.next c) (by simpa [endsWord] using apart)
      rw [List.cons_append, scan, inside, scan]
      have flag : startsWord (d :: others ++ second) = startsWord (d :: others) := rfl
      rw [flag]
      refine readChar_append ?_ _
      rintro rfl inWord starts
      rw [next_of_isIdentifierRest inWord]
      exact scan_of_startsWord starts

/-- The text stands on one line, leaves no literal open and has these tokens. -/
structure Spells (text : String) (tokens : List Token) : Prop where
  unbroken : ∀ c ∈ text.toList, c ≠ '\n' ∧ c ≠ '\r'
  closed : modeAfter .code text.toList = .code
  read : scan .code text.toList = tokens

instance (text : String) (tokens : List Token) : Decidable (Spells text tokens) :=
  have : Decidable (∀ c ∈ text.toList, c ≠ '\n' ∧ c ≠ '\r') := List.decidableBAll _ _
  decidable_of_iff ((∀ c ∈ text.toList, c ≠ '\n' ∧ c ≠ '\r') ∧
      modeAfter .code text.toList = .code ∧ scan .code text.toList = tokens)
    ⟨fun ⟨unbroken, closed, read⟩ => ⟨unbroken, closed, read⟩,
      fun spells => ⟨spells.unbroken, spells.closed, spells.read⟩⟩

namespace Spells

variable {first second : String} {firsts seconds : List Token}

theorem append (before : Spells first firsts) (after : Spells second seconds)
    (apart : endsWord first.toList = false ∨ startsWord second.toList = false) :
    Spells (first ++ second) (firsts ++ seconds) where
  unbroken := by
    rw [String.toList_append, List.forall_mem_append]
    exact ⟨before.unbroken, after.unbroken⟩
  closed := by rw [String.toList_append, modeAfter_append, before.closed, after.closed]
  read := by
    rw [String.toList_append, scan_append _ _ _ apart, before.closed, before.read, after.read]

/-- A piece behind one that does not end in a word. -/
theorem thenAny (before : Spells first firsts) (after : Spells second seconds)
    (ends : endsWord first.toList = false) : Spells (first ++ second) (firsts ++ seconds) :=
  before.append after (.inl ends)

/-- A piece that does not start with a word, behind any other. -/
theorem thenMark (before : Spells first firsts) (after : Spells second seconds)
    (starts : startsWord second.toList = false) : Spells (first ++ second) (firsts ++ seconds) :=
  before.append after (.inr starts)

end Spells

theorem modeAfter_code {text : List Char} (plain : '"' ∉ text) : modeAfter .code text = .code := by
  induction text with
  | nil => rfl
  | cons c rest ih =>
    have step : Mode.code.next c = .code := by
      simp [Mode.next, (List.ne_of_not_mem_cons plain).symm]
    exact (congrArg (modeAfter · rest) step).trans (ih (List.not_mem_of_not_mem_cons plain))

/-- A text without quotes is code all over. -/
theorem spells_unquoted {text : String} (unbroken : ∀ c ∈ text.toList, c ≠ '\n' ∧ c ≠ '\r')
    (plain : '"' ∉ text.toList) : Spells text (tokens text) :=
  ⟨unbroken, modeAfter_code plain, rfl⟩

theorem scan_word {text : List Char} (nonempty : text ≠ [])
    (all : text.all isIdentifierRest = true) :
    scan .code text = [.word (String.ofList text)] := by
  induction text with
  | nil => exact absurd rfl nonempty
  | cons c rest ih =>
    obtain ⟨inWord, others⟩ := List.forall_mem_cons.mp (List.all_eq_true.mp all)
    cases rest with
    | nil => simp [scan, readChar, inWord, startsWord]
    | cons d more =>
      have starts : startsWord (d :: more) = true := by
        simpa [startsWord] using others d List.mem_cons_self
      rw [scan, next_of_isIdentifierRest inWord, ih (by simp) (List.all_eq_true.mpr others)]
      simp [readChar, inWord, starts, extendWord]

theorem spells_word {text : String} (nonempty : text ≠ "")
    (all : text.toList.all isIdentifierRest = true) : Spells text [.word text] := by
  have inWord := List.all_eq_true.mp all
  have absent (c : Char) (outside : isIdentifierRest c = false) : c ∉ text.toList := by
    intro member
    simp [inWord c member] at outside
  refine ⟨?_, modeAfter_code (absent '"' (by decide)), ?_⟩
  · intro c member
    constructor
    · rintro rfl
      exact absent _ (by decide) member
    · rintro rfl
      exact absent _ (by decide) member
  · rw [scan_word (by simpa using nonempty) all, String.ofList_toList]

theorem isIdentifierRest_of_isIdentifier {name : String} (valid : isIdentifier name = true) :
    name ≠ "" ∧ name.toList.all isIdentifierRest = true ∧ name ∉ reservedWords := by
  obtain ⟨shape, unreserved⟩ := (Bool.and_eq_true _ _).mp valid
  refine ⟨?_, ?_, by simpa using unreserved⟩
  · rintro rfl
    exact absurd shape (by decide)
  · cases text : name.toList with
    | nil => rfl
    | cons first rest =>
      rw [text] at shape
      obtain ⟨starts, others⟩ := (Bool.and_eq_true _ _).mp shape
      have inWord : isIdentifierRest first = true := by
        simp only [isIdentifierStart, isIdentifierRest, Char.isAlphanum, Bool.or_eq_true]
          at starts ⊢
        tauto
      simp only [List.all_cons, inWord, others, Bool.and_self]

theorem spells_identifier {name : String} (valid : isIdentifier name = true) :
    Spells name [.word name] :=
  have ⟨nonempty, all, _⟩ := isIdentifierRest_of_isIdentifier valid
  spells_word nonempty all

/-- What a piece of a literal does: it adds no token, and the literal stays open. -/
structure Inner (piece : List Char) : Prop where
  unbroken : ∀ c ∈ piece, c ≠ '\n' ∧ c ≠ '\r'
  stays : modeAfter .quoted piece = .quoted
  silent : ∀ rest, scan .quoted (piece ++ rest) = scan .quoted rest

theorem Inner.append {first second : List Char} (before : Inner first) (after : Inner second) :
    Inner (first ++ second) where
  unbroken := List.forall_mem_append.mpr ⟨before.unbroken, after.unbroken⟩
  stays := by rw [modeAfter_append, before.stays, after.stays]
  silent rest := by rw [List.append_assoc, before.silent, after.silent]

theorem Inner.flatMap {piece : Char → List Char} (each : ∀ c, Inner (piece c)) (text : List Char) :
    Inner (text.flatMap piece) := by
  induction text with
  | nil => exact ⟨by simp, rfl, fun _ => rfl⟩
  | cons c rest ih => exact (each c).append ih

/-- A character that stands for itself. -/
theorem inner_plain {c : Char} (plain : c ∉ ['"', '\\', '\n', '\r']) : Inner [c] := by
  simp only [List.mem_cons, List.not_mem_nil, or_false, not_or] at plain
  obtain ⟨quote, backslash, feed, carriage⟩ := plain
  have step : Mode.quoted.next c = .quoted := by simp [Mode.next, quote, backslash]
  refine ⟨by simp [feed, carriage], ?_, fun rest => ?_⟩
  · exact step
  · rw [List.singleton_append, scan, step]
    rfl

/-- A character behind a backslash. -/
theorem inner_escaped {c : Char} (printed : c ≠ '\n' ∧ c ≠ '\r') : Inner ['\\', c] :=
  ⟨by simp [printed], rfl, fun _ => rfl⟩

theorem inner_hexDigit {n : Nat} (small : n < 16) : Inner [hexDigit n] := by
  have plain : ∀ n < 16, hexDigit n ∉ ['"', '\\', '\n', '\r'] := by decide
  exact inner_plain (plain n small)

theorem inner_escapeChar (c : Char) : Inner (escapeChar '"' c) := by
  have digit (n : Nat) : Inner [hexDigit (n % 16)] := inner_hexDigit (Nat.mod_lt n (by decide))
  unfold escapeChar
  split_ifs with feed carriage tab backslash quote unprintable
  · exact inner_escaped (by decide)
  · exact inner_escaped (by decide)
  · exact inner_escaped (by decide)
  · exact inner_escaped (by decide)
  · exact inner_escaped ⟨feed, carriage⟩
  · exact (@inner_escaped 'u' (by decide)).append
      ((digit _).append ((digit _).append ((digit _).append (digit _))))
  · exact inner_plain (by simp [feed, carriage, backslash, quote])

/-- A quoted string is one token. -/
theorem spells_quoted (text : String) : Spells (quoted text) [.literal] := by
  have inner := Inner.flatMap inner_escapeChar text.toList
  have characters : (quoted text).toList =
      '"' :: (text.toList.flatMap (escapeChar '"') ++ ['"']) := by
    simp [quoted, escape]
  constructor
  · rw [characters]
    refine List.forall_mem_cons.mpr ⟨by decide, List.forall_mem_append.mpr ⟨inner.unbroken, ?_⟩⟩
    exact List.forall_mem_singleton.mpr (by decide)
  · rw [characters]
    change modeAfter .quoted (_ ++ ['"']) = .code
    rw [modeAfter_append, inner.stays]
    rfl
  · rw [characters]
    change .literal :: scan .quoted (_ ++ ['"']) = _
    rw [inner.silent]
    rfl

/-- The characters that a token shows. -/
def Token.characters : Token → List Char
  | .word text => text.toList
  | .literal => []
  | .mark c => [c]

/-- Tokens show characters of the text only. -/
theorem characters_subset {mode : Mode} {text : List Char} :
    ∀ token ∈ scan mode text, token.characters ⊆ text := by
  induction text generalizing mode with
  | nil => simp [scan]
  | cons c rest ih =>
    have later := fun token member =>
      List.subset_cons_of_subset c (@ih (mode.next c) token member)
    rw [scan]
    generalize scan (mode.next c) rest = found at later ⊢
    have extended : ∀ token ∈ extendWord c found, token.characters ⊆ c :: rest := by
      unfold extendWord
      split
      next text others =>
        obtain ⟨inWord, inOthers⟩ := List.forall_mem_cons.mp later
        refine List.forall_mem_cons.mpr ⟨?_, inOthers⟩
        simpa [Token.characters] using inWord
      next => exact later
    unfold readChar
    split
    · split_ifs
      · exact extended
      · exact List.forall_mem_cons.mpr ⟨by simp [Token.characters], later⟩
      · exact List.forall_mem_cons.mpr ⟨by simp [Token.characters], later⟩
      · exact later
      · exact List.forall_mem_cons.mpr ⟨by simp [Token.characters], later⟩
    · exact later
    · exact later

/-- Reserved words that stand for no value. -/
def Token.isKeyword : Token → Bool
  | .word text => reservedWords.contains text && !(["null", "true", "false"].contains text)
  | _ => false

theorem isKeyword_of_isIdentifier {name : String} (valid : isIdentifier name = true) :
    Token.isKeyword (.word name) = false := by
  obtain ⟨_, _, unreserved⟩ := isIdentifierRest_of_isIdentifier valid
  simp [Token.isKeyword, unreserved]

/-- The bracket that a closing bracket belongs to. -/
def opening? : Char → Option Char
  | ')' => some '('
  | ']' => some '['
  | '\x7d' => some '\x7b'
  | _ => none

/-- The brackets that are open behind a token, innermost first. -/
def openAfter (opened : List Char) : Token → Option (List Char)
  | .mark c =>
    if ['(', '[', '\x7b'].contains c then some (c :: opened)
    else
      match opening? c with
      | some partner => if opened.head? = some partner then some opened.tail else none
      | none => some opened
  | _ => some opened

/-- Every bracket has its partner, whatever is open around. -/
def Balanced (tokens : List Token) : Prop :=
  ∀ opened, tokens.foldlM openAfter opened = some opened

def Token.isBracket : Token → Bool
  | .mark c => ['(', '[', '\x7b', ')', ']', '\x7d'].contains c
  | _ => false

/-- A token that is no bracket leaves the brackets as they are. -/
theorem openAfter_of_plain {token : Token} (plain : token.isBracket = false) (opened : List Char) :
    openAfter opened token = some opened := by
  cases token with
  | mark c =>
    simp only [Token.isBracket, List.contains_eq_mem, List.mem_cons, List.not_mem_nil, or_false,
      decide_eq_false_iff_not, not_or] at plain
    have unpaired : opening? c = none := by
      unfold opening?
      split <;> simp_all
    simp [openAfter, plain, unpaired]
  | _ => rfl

namespace Balanced

theorem nil : Balanced [] := fun _ => rfl

theorem append {first second : List Token} (before : Balanced first) (after : Balanced second) :
    Balanced (first ++ second) := by
  intro opened
  simp only [List.foldlM_append, before opened, Option.bind_eq_bind, Option.bind_some, after opened]

theorem cons {token : Token} {rest : List Token} (plain : token.isBracket = false)
    (after : Balanced rest) : Balanced (token :: rest) := by
  intro opened
  simp only [List.foldlM_cons, openAfter_of_plain plain, Option.bind_eq_bind, Option.bind_some,
    after opened]

theorem of_plain {tokens : List Token} (plain : ∀ token ∈ tokens, token.isBracket = false) :
    Balanced tokens := by
  induction tokens with
  | nil => exact nil
  | cons token rest ih =>
    obtain ⟨first, others⟩ := List.forall_mem_cons.mp plain
    exact cons first (ih others)

/-- Balanced tokens between a pair of brackets. -/
theorem enclosed (left right : Char) {inner : List Token}
    (pair : (left, right) ∈ [('(', ')'), ('[', ']'), ('\x7b', '\x7d')]) (inside : Balanced inner) :
    Balanced (.mark left :: inner ++ [.mark right]) := by
  intro opened
  have enter : openAfter opened (.mark left) = some (left :: opened) := by
    simp only [List.mem_cons, Prod.mk.injEq, List.not_mem_nil, or_false] at pair
    obtain ⟨rfl, rfl⟩ | ⟨rfl, rfl⟩ | ⟨rfl, rfl⟩ := pair <;> rfl
  have exit : openAfter (left :: opened) (.mark right) = some opened := by
    simp only [List.mem_cons, Prod.mk.injEq, List.not_mem_nil, or_false] at pair
    obtain ⟨rfl, rfl⟩ | ⟨rfl, rfl⟩ | ⟨rfl, rfl⟩ := pair <;> simp [openAfter, opening?]
  simp only [List.cons_append, List.foldlM_cons, List.foldlM_append, enter, exit, inside _,
    List.foldlM_nil, Option.pure_def, Option.bind_eq_bind, Option.bind_some]

theorem parenthesized {inner : List Token} (inside : Balanced inner) :
    Balanced (.mark '(' :: inner ++ [.mark ')']) :=
  enclosed '(' ')' (by decide) inside

end Balanced

/-- A text on one line whose tokens are neither keywords nor brackets. -/
structure IsPlain (text : String) : Prop where
  spells : Spells text (tokens text)
  tokens : ∀ token ∈ tokens text, token.isKeyword = false ∧ token.isBracket = false

instance (text : String) : Decidable (IsPlain text) :=
  decidable_of_iff (Spells text (Text.tokens text) ∧
      ∀ token ∈ Text.tokens text, token.isKeyword = false ∧ token.isBracket = false)
    ⟨fun ⟨spells, tokens⟩ => ⟨spells, tokens⟩, fun plain => ⟨plain.spells, plain.tokens⟩⟩

end Hyperscript.Text
