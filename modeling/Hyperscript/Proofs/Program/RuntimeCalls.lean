import Hyperscript.Proofs.Program.ControlFlow

/-! Calls of the runtime in generated code. The tokens say which functions a code calls, string
literals apart. A call begins with the name of the runtime, so what scripts say can begin one,
but no part of the code that follows goes on with it: of its own, the function of a handler
calls the runtime only to set up the context. -/
namespace Hyperscript

namespace Text

/-- The function of the runtime that is called at the head of the tokens. -/
def called? : List Token → Option String
  | .word "_rt" :: .mark '.' :: .word name :: .mark '(' :: _ => some name
  | _ => none

/-- All functions of the runtime that are called, in the order of the calls. -/
def calledIn : List Token → List String
  | [] => []
  | token :: rest => (called? (token :: rest)).toList ++ calledIn rest

/-- The functions of the runtime that a code calls outside its string literals. -/
def runtimeCalls (code : String) : List String := calledIn (tokens code)

/-- Tokens that end a call if what stands in front of them begins one. -/
def endsCall : List Token → Bool
  | .mark '(' :: _ => true
  | .word _ :: .mark '(' :: _ => true
  | .mark '.' :: .word _ :: .mark '(' :: _ => true
  | _ => false

theorem called?_eq_some_iff {tokens : List Token} {name : String} :
    called? tokens = some name ↔
      ∃ rest, tokens = .word "_rt" :: .mark '.' :: .word name :: .mark '(' :: rest := by
  unfold called?
  split
  next other rest => simp
  next others =>
    refine ⟨nofun, ?_⟩
    rintro ⟨rest, rfl⟩
    exact absurd rfl (others name rest)

theorem called?_eq_none {tokens : List Token}
    (other : ∀ name rest, tokens ≠ .word "_rt" :: .mark '.' :: .word name :: .mark '(' :: rest) :
    called? tokens = none := by
  refine Option.eq_none_iff_forall_ne_some.mpr fun name found => ?_
  obtain ⟨rest, same⟩ := called?_eq_some_iff.mp found
  exact other name rest same

theorem called?_append {first second : List Token} (nonempty : first ≠ [])
    (apart : endsCall second = false) : called? (first ++ second) = called? first := by
  refine Option.ext fun name => ?_
  simp only [called?_eq_some_iff]
  constructor
  · rintro ⟨rest, found⟩
    -- A call has four tokens: it lies in the first part, or the second one ends it.
    rcases first with _ | ⟨a, _ | ⟨b, _ | ⟨c, _ | ⟨d, more⟩⟩⟩⟩
    · exact absurd rfl nonempty
    · simp_all [endsCall]
    · simp_all [endsCall]
    · simp_all [endsCall]
    · simp_all
  · rintro ⟨rest, rfl⟩
    exact ⟨rest ++ second, rfl⟩

theorem calledIn_append {first second : List Token} (apart : endsCall second = false) :
    calledIn (first ++ second) = calledIn first ++ calledIn second := by
  induction first with
  | nil => rfl
  | cons token rest ih =>
    have here := called?_append (List.cons_ne_nil token rest) apart
    rw [List.cons_append] at here
    rw [List.cons_append, calledIn, calledIn, ih, here, List.append_assoc]

/-- A call has a bracket. -/
theorem calledIn_eq_nil {tokens : List Token} (absent : .mark '(' ∉ tokens) :
    calledIn tokens = [] := by
  induction tokens with
  | nil => rfl
  | cons token rest ih =>
    have none : called? (token :: rest) = none :=
      called?_eq_none fun name more same => absent (by simp [same])
    rw [calledIn, none, ih (List.not_mem_of_not_mem_cons absent)]
    rfl

/-- Tokens that call these functions, whatever follows. -/
def Invokes (tokens : List Token) (names : List String) : Prop :=
  ∀ rest, calledIn (tokens ++ rest) = names ++ calledIn rest

namespace Invokes

variable {first second : List Token} {names others : List String}

theorem nil : Invokes [] [] := fun _ => rfl

theorem append (before : Invokes first names) (after : Invokes second others) :
    Invokes (first ++ second) (names ++ others) := by
  intro rest
  rw [List.append_assoc, before, after, List.append_assoc]

theorem flatMap {α : Type} {parts : List α} {tokens : α → List Token} {called : α → List String}
    (each : ∀ part ∈ parts, Invokes (tokens part) (called part)) :
    Invokes (parts.flatMap tokens) (parts.flatMap called) := by
  induction parts with
  | nil => exact nil
  | cons part rest ih =>
    obtain ⟨here, later⟩ := List.forall_mem_cons.mp each
    exact here.append (ih later)

/-- Parts that call nothing. -/
theorem silent {α : Type} {parts : List α} {tokens : α → List Token}
    (each : ∀ part ∈ parts, Invokes (tokens part) []) : Invokes (parts.flatMap tokens) [] := by
  have whole := flatMap each
  rwa [List.flatMap_eq_nil_iff.mpr fun _ _ => rfl] at whole

theorem calledIn_eq (invokes : Invokes first names) : calledIn first = names := by
  simpa [calledIn] using invokes []

/-- A call begins with the name of the runtime. -/
theorem of_not_mem (absent : .word "_rt" ∉ first) : Invokes first [] := by
  intro rest
  induction first with
  | nil => rfl
  | cons token more ih =>
    have none : called? (token :: (more ++ rest)) = none :=
      called?_eq_none fun name others same => absent (by simp [(List.cons.inj same).1])
    rw [List.cons_append, calledIn, none, ih (List.not_mem_of_not_mem_cons absent)]
    rfl

/-- A name that no dot follows. -/
theorem word (name : String) {token : Token} (other : token ≠ .mark '.')
    (after : Invokes (token :: second) names) : Invokes (.word name :: token :: second) names := by
  intro rest
  have none : called? (.word name :: token :: (second ++ rest)) = none :=
    called?_eq_none fun _ _ same => other (List.cons.inj (List.cons.inj same).2).1
  have later := after rest
  rw [List.cons_append] at later
  rw [List.cons_append, List.cons_append, calledIn, none, later]
  rfl

/-- Any tokens, before such as do not end a call. -/
theorem before (called : calledIn first = names) (after : Invokes second others)
    (apart : ∀ rest, endsCall (second ++ rest) = false) :
    Invokes (first ++ second) (names ++ others) := by
  intro rest
  rw [List.append_assoc, calledIn_append (apart rest), called, after, List.append_assoc]

end Invokes

/-- The text has the characters that the name of the runtime is made of. -/
def mayName (text : String) : Bool := "_rt".toList.all text.toList.contains

theorem not_mem_tokens {text : String} (other : mayName text = false) :
    .word "_rt" ∉ tokens text := by
  intro member
  have shown : "_rt".toList ⊆ text.toList := characters_subset _ member
  have named : mayName text = true :=
    List.all_eq_true.mpr fun c inside => List.contains_iff_mem.mpr (shown inside)
  exact absurd named (by simp [other])

theorem mayName_of_not_mem {text : String} (absent : '_' ∉ text.toList) :
    mayName text = false := by
  simp [mayName, absent]

end Text

open Text

theorem Number.underscore_not_mem_text (x : Float) : '_' ∉ (Number.text x).toList := by
  rcases isNumeral_text x with word | numeral
  · have words : ∀ word ∈ ["NaN", "Infinity", "-Infinity"], '_' ∉ word.toList := by decide
    exact words _ word
  · intro member
    exact absurd (numeral _ member) (by decide)

namespace Program

namespace Expr

theorem not_mem_literal (value : Literal) :
    .word "_rt" ∉ Text.tokens (Expression.literal value) := by
  cases value with
  | null => decide
  | bool value => cases value <;> decide
  | number value =>
    have digits := Number.underscore_not_mem_text value
    refine not_mem_tokens (mayName_of_not_mem ?_)
    simp only [Expression.literal]
    split
    · simpa [String.toList_append] using digits
    · exact digits
  | string value =>
    rw [Expression.literal, Text.tokens, (spells_quoted value).read]
    decide

/-- Symbols stand between operands: they end no call and begin none. -/
theorem symbol_apart {symbol : String} {operator : Operator}
    (known : operator.symbol? = some symbol) :
    (∀ rest, endsCall (Text.tokens symbol ++ rest) = false) ∧
      .word "_rt" ∉ Text.tokens symbol := by
  cases operator with
  | concat => cases known
  | _ =>
    cases known
    exact ⟨fun _ => rfl, by decide⟩

theorem calledIn_tokens {expr : Expr} (spelled : expr.IsSpelled) : calledIn expr.tokens = [] := by
  have leftBracket : Invokes [.mark '('] [] := .of_not_mem (by decide)
  have rightBracket : Invokes [.mark ')'] [] := .of_not_mem (by decide)
  induction expr with
  | literal value => exact (Invokes.of_not_mem (not_mem_literal value)).calledIn_eq
  | variableRef name => exact calledIn_eq_nil (by simp [tokens])
  | elements selector key =>
    cases key with
    | none => exact (Invokes.of_not_mem (by simp [tokens])).calledIn_eq
    | some key => exact calledIn_eq_nil (by simp [tokens])
  | dot object property ih =>
    rw [tokens, calledIn_append rfl, ih spelled.1]
    exact calledIn_eq_nil (by simp)
  | subscript object property ih =>
    rw [tokens, calledIn_append rfl, ih spelled]
    rfl
  | concat left right first second =>
    have start : Invokes [.mark '(', .word "String", .mark '('] [] := .of_not_mem (by decide)
    have middle : Invokes [.mark ')', .mark '+', .word "String", .mark '('] [] :=
      .of_not_mem (by decide)
    have inLeft := Invokes.before (first spelled.1) middle fun _ => rfl
    have brackets := rightBracket.append rightBracket
    have inRight := Invokes.before (second spelled.2) brackets fun _ => rfl
    simpa [tokens] using (start.append (inLeft.append inRight)).calledIn_eq
  | binary symbol left right first second =>
    obtain ⟨⟨operator, known⟩, leftSpelled, rightSpelled⟩ := spelled
    obtain ⟨apart, absent⟩ := symbol_apart known
    have inLeft := Invokes.before (first leftSpelled) (.of_not_mem absent) apart
    have inRight := Invokes.before (second rightSpelled) rightBracket fun _ => rfl
    simpa [tokens] using (leftBracket.append (inLeft.append inRight)).calledIn_eq
  | unary symbol operand ih =>
    have signs : ∀ symbol ∈ ["!", "-", "+"], .word "_rt" ∉ Text.tokens symbol := by decide
    have sign : Invokes (Text.tokens symbol) [] := .of_not_mem (signs symbol spelled.1)
    have inside := Invokes.before (ih spelled.2) rightBracket fun _ => rfl
    simpa [tokens] using (leftBracket.append (sign.append inside)).calledIn_eq

end Expr

namespace Row

/-- An expression between texts that the emitter writes. -/
theorem invokes_around {row : Row} (before after : List Piece) {expr : Expr}
    (pieces : row.pieces = before ++ .expr expr :: after) (spelled : expr.IsSpelled)
    (first : Invokes (before.flatMap Piece.tokens) [])
    (last : Invokes (after.flatMap Piece.tokens) [])
    (apart : ∀ rest, endsCall (after.flatMap Piece.tokens ++ rest) = false) :
    Invokes row.tokens [] := by
  rw [tokens, pieces, List.flatMap_append, List.flatMap_cons]
  exact first.append (.before (expr.calledIn_tokens spelled) last apart)

theorem invokes_fixed {texts : List String} (others : ∀ text ∈ texts, mayName text = false) :
    Invokes ((texts.map Piece.fixed).flatMap Piece.tokens) [] := by
  refine .silent (List.forall_mem_map.mpr fun text member => ?_)
  exact .of_not_mem (not_mem_tokens (others text member))

/-- The head of a block, or a statement with one expression. -/
theorem invokes_one {row : Row} (before after : List String) {expr : Expr}
    (pieces : row.pieces = before.map .fixed ++ .expr expr :: after.map .fixed)
    (spelled : expr.IsSpelled)
    (others : ∀ text ∈ before ++ after, mayName text = false)
    (apart : ∀ rest, endsCall ((after.map Piece.fixed).flatMap Piece.tokens ++ rest) = false) :
    Invokes row.tokens [] := by
  obtain ⟨first, last⟩ := List.forall_mem_append.mp others
  exact invokes_around _ _ pieces spelled (invokes_fixed first) (invokes_fixed last) apart

theorem invokes_block {header body : List Row} (inHeader : ∀ row ∈ header, Invokes row.tokens [])
    (inBody : ∀ row ∈ body, Invokes row.tokens []) :
    ∀ row ∈ block header body, Invokes row.tokens [] := by
  refine List.forall_mem_append.mpr ⟨List.forall_mem_append.mpr ⟨inHeader, ?_⟩, ?_⟩
  · exact List.forall_mem_map.mpr inBody
  · exact List.forall_mem_singleton.mpr (.of_not_mem (by decide))

end Row

namespace Stmt

/-- The variables of selectors have identifiers, and none of them is that of the runtime. -/
abbrev KeysApart (node : Node) : Prop :=
  node.Selectors fun _ key => ∀ name ∈ key, isIdentifier name = true ∧ name ≠ "_rt"

theorem KeysApart.namesKeys {node : Node} (apart : KeysApart node) : Expr.NamesKeys node :=
  fun selector key member name inKey => (apart selector key member name inKey).1

theorem invokes_separated {values : List Expr} (spelled : ∀ value ∈ values, value.IsSpelled) :
    Invokes ((separated values).flatMap Piece.tokens ++ Text.tokens ");") [] := by
  have closing : Invokes (Text.tokens ");") [] := .of_not_mem (by decide)
  have comma : Invokes (Text.tokens ", ") [] := .of_not_mem (by decide)
  fun_induction separated values with
  | case1 => exact closing
  | case2 value =>
    have only := value.calledIn_tokens (spelled value List.mem_cons_self)
    simpa [Piece.tokens] using Invokes.before only closing fun _ => rfl
  | case3 value next rest ih =>
    obtain ⟨first, others⟩ := List.forall_mem_cons.mp spelled
    have here := Invokes.before (value.calledIn_tokens first) comma fun _ => rfl
    simpa [Piece.tokens] using here.append (ih others)

theorem invokes_eachHeader (itemName : String) {collection : Expr}
    (spelled : collection.IsSpelled) :
    ∀ row ∈ eachHeader itemName collection, Invokes row.tokens [] := by
  have brace : Invokes ([Piece.fixed ") \x7b"].flatMap Piece.tokens) [] :=
    .of_not_mem (by decide)
  unfold eachHeader
  dsimp only
  split
  · -- The item may have the name of the runtime, but a keyword follows.
    have opening : Invokes (Text.tokens "for (const ") [] := .of_not_mem (not_mem_tokens rfl)
    have item : Invokes (.word (withoutColons itemName) :: Text.tokens " of ") [] :=
      .word _ nofun (.of_not_mem (by decide))
    refine List.forall_mem_singleton.mpr (Row.invokes_around
      [.fixed "for (const ", .name (withoutColons itemName), .fixed " of "] [.fixed ") \x7b"] rfl
      spelled ?_ brace fun _ => rfl)
    simpa [Piece.tokens] using opening.append item
  · refine List.forall_mem_cons.mpr ⟨?_, List.forall_mem_singleton.mpr ?_⟩
    · exact Row.invokes_around [.fixed "for (const _item of "] [.fixed ") \x7b"] rfl spelled
        (.of_not_mem (by decide)) brace fun _ => rfl
    · have place : Invokes (([Names.contextVar, ".locals["].map Piece.fixed).flatMap
          Piece.tokens) [] := Row.invokes_fixed (by decide)
      have value : Invokes (.literal :: Text.tokens "] = _item;") [] :=
        .of_not_mem (by simp [not_mem_tokens (show mayName "] = _item;" = false from rfl)])
      simpa [Row.tokens, Piece.tokens] using place.append value

/-- The call that changes the classes of an element, and the texts around it. -/
theorem invokes_classCall {method : String} (known : method ∈ ["add", "remove", "toggle"])
    (className : String) (before after : List String)
    (others : ∀ text ∈ before ++ after, mayName text = false) :
    Invokes ((before.map Piece.fixed ++ Piece.name method :: .fixed "(" :: .quote className ::
      after.map .fixed).flatMap Piece.tokens) [] := by
  obtain ⟨first, last⟩ := List.forall_mem_append.mp others
  have methods : ∀ method ∈ ["add", "remove", "toggle"], "_rt" ≠ method := by decide
  have name : Invokes [.word method] [] := .of_not_mem (by simp [methods method known])
  have bracket : Invokes (Text.tokens "(") [] := .of_not_mem (by decide)
  have quote : Invokes [.literal] [] := .of_not_mem (by decide)
  rw [List.flatMap_append, List.flatMap_cons, List.flatMap_cons, List.flatMap_cons]
  exact (Row.invokes_fixed first).append
    (name.append (bracket.append (quote.append (Row.invokes_fixed last))))

theorem CommandCode.invokes {name : String} {args : List Node} {target : Option Node}
    {statement : Stmt} (code : CommandCode name args target statement)
    (spelled : statement.IsSpelled) (apart : ∀ node ∈ target, KeysApart node) :
    ∀ row ∈ statement.rows, Invokes row.tokens [] := by
  cases code with
  | halt | exit => exact List.forall_mem_singleton.mpr fun _ => rfl
  | leave => exact List.forall_mem_singleton.mpr (.of_not_mem (by decide))
  | leaveWith =>
    exact List.forall_mem_singleton.mpr
      (Row.invokes_one ["return "] [";"] rfl spelled (by decide) fun _ => rfl)
  | throwValue =>
    exact List.forall_mem_singleton.mpr
      (Row.invokes_one ["throw "] [";"] rfl spelled (by decide) fun _ => rfl)
  | wait =>
    exact List.forall_mem_singleton.mpr
      (Row.invokes_one ["await new Promise((resolve) => setTimeout(resolve, "] ["));"] rfl spelled
        (by decide) fun _ => rfl)
  | setIndex =>
    exact List.forall_mem_singleton.mpr
      (Row.invokes_one [Names.indexVar, " = "] [";"] rfl spelled (by decide) fun _ => rfl)
  | @setLocal place =>
    have place : Invokes (([.expr (Expr.localVariable place), .fixed " = "] :
        List Piece).flatMap Piece.tokens) [] := by
      refine .of_not_mem ?_
      change Token.word "_rt" ∉ [.word Names.contextVar, .mark '.', .word "locals", .mark '[',
        .literal, .mark ']', .mark '=']
      decide
    exact List.forall_mem_singleton.mpr (Row.invokes_around _ [.fixed ";"] rfl spelled place
      (.of_not_mem (by decide)) fun _ => rfl)
  | log =>
    have opening : Invokes (Text.tokens "console.log(") [] := .of_not_mem (not_mem_tokens rfl)
    refine List.forall_mem_singleton.mpr ?_
    simpa [Row.tokens, Piece.tokens] using opening.append (invokes_separated spelled)
  | changeOwnClass known | changeClass known =>
    have call (className : String) :=
      invokes_classCall known className [".", "classList."] [")", ";"] (by decide)
    exact List.forall_mem_singleton.mpr
      (Row.invokes_around [] _ rfl spelled.1 .nil (call _) fun _ => rfl)
  | @changeClasses _ _ selector cacheKey _ known =>
    have elements : .word "_rt" ∉ (Expr.elements selector cacheKey).tokens := by
      cases cacheKey with
      | none => simp [Expr.tokens]
      | some key =>
        have other := (apart _ rfl selector (some key) List.mem_cons_self key rfl).2
        simpa [Expr.tokens] using other.symm
    have call (className : String) := invokes_classCall known className
      [".forEach((el) => el.", "classList."] [")", ");"] (by decide)
    exact List.forall_mem_singleton.mpr (.append (.of_not_mem elements) (call _))

/-- No statement of a script calls the runtime, whatever its expressions name. -/
theorem invokes_ofNode? (node : Node) (apart : KeysApart node) {statement : Stmt}
    (code : ofNode? node = some statement) : ∀ row ∈ statement.rows, Invokes row.tokens [] := by
  induction node using Node.childInduction generalizing statement with
  | parent node ih =>
    have spelled := isSpelled_ofNode? node apart.namesKeys code
    have block (nodes : List Node) (inside : ∀ child ∈ nodes, child ∈ node.children) :
        ∀ row ∈ rowsAll (ofNodes nodes), Invokes row.tokens [] :=
      forall_rowsAll fun child member _ code =>
        ih child (inside child member) (apart.child (inside child member)) code
    cases node with
    | command name args target =>
      refine (commandCode_ofCommand? code).invokes spelled fun child member => ?_
      exact apart.child (by simp [Node.children, Option.mem_toList.mpr member])
    | ifElse condition thenBranch elseBranch =>
      have inThen := block thenBranch (by simp +contextual [Node.children])
      have head {expr : Expr} (spelled : expr.IsSpelled) :
          Invokes (Row.tokens { pieces := [.fixed "if (", .expr expr, .fixed ") \x7b"] }) [] :=
        Row.invokes_one ["if ("] [") \x7b"] rfl spelled (by decide) fun _ => rfl
      cases elseBranch with
      | none =>
        obtain ⟨expr, -, code⟩ := Option.bind_eq_some_iff.mp code
        cases code
        exact Row.invokes_block (List.forall_mem_singleton.mpr (head spelled.1)) inThen
      | some elseBranch =>
        have inElse := block elseBranch (by simp +contextual [Node.children])
        obtain ⟨expr, -, code⟩ := Option.bind_eq_some_iff.mp code
        cases code
        refine List.forall_mem_append.mpr ⟨List.forall_mem_cons.mpr ⟨head spelled.1, ?_⟩, ?_⟩
        · exact List.forall_mem_map.mpr inThen
        · exact Row.invokes_block (List.forall_mem_singleton.mpr (.of_not_mem (by decide))) inElse
    | repeatTimes count body =>
      have inBody := block body (by simp +contextual [Node.children])
      cases count with
      | none =>
        cases code
        exact Row.invokes_block (List.forall_mem_singleton.mpr
          (@Row.invokes_fixed ["while (true) \x7b"] (by decide))) inBody
      | some count =>
        obtain ⟨expr, -, code⟩ := Option.bind_eq_some_iff.mp code
        cases code
        refine Row.invokes_block (List.forall_mem_singleton.mpr ?_) inBody
        exact Row.invokes_one ["for (let ", Names.indexVar, " = 0; ", Names.indexVar, " < "]
          ["; ", Names.indexVar, "++) \x7b"] rfl spelled.1 (by decide) fun _ => rfl
    | forEach itemName collection body =>
      have inBody := block body (by simp +contextual [Node.children])
      obtain ⟨expr, -, code⟩ := Option.bind_eq_some_iff.mp code
      cases code
      exact Row.invokes_block (invokes_eachHeader itemName spelled.1) inBody
    | whileLoop condition body =>
      have inBody := block body (by simp +contextual [Node.children])
      obtain ⟨expr, -, code⟩ := Option.bind_eq_some_iff.mp code
      cases code
      refine Row.invokes_block (List.forall_mem_singleton.mpr ?_) inBody
      exact Row.invokes_one ["while ("] [") \x7b"] rfl spelled.1 (by decide) fun _ => rfl
    | sequence commands unrolled =>
      cases code
      exact block commands (by simp [Node.children])
    | _ => cases code

end Stmt

namespace Function

variable {function : Function}

theorem invokes_openingRow (function : Function) : Invokes function.openingRow.tokens [] := by
  have called : Invokes (.word (Names.functionName function.handlerId) :: .mark '(' ::
      [.word Names.eventParam, .mark ')', .mark '\x7b']) [] :=
    .word _ nofun (.of_not_mem (by decide))
  unfold openingRow
  split
  · have start : Invokes [.word "async", .word "function"] [] := .of_not_mem (by decide)
    exact start.append called
  · have start : Invokes [.word "function"] [] := .of_not_mem (by decide)
    exact start.append called

/-- The one row that calls the runtime. -/
theorem invokes_setupRow : Invokes setupRow.tokens [Names.createContext] := by
  have place : Invokes ((["const ", Names.contextVar, " = "].map Piece.fixed).flatMap
      Piece.tokens) [] := Row.invokes_fixed (by decide)
  have call : Invokes [.word "_rt", .mark '.', .word "createContext", .mark '(']
      [Names.createContext] := fun _ => rfl
  have args : Invokes (([Names.eventParam, ", this);"].map Piece.fixed).flatMap Piece.tokens) [] :=
    Row.invokes_fixed (by decide)
  have runtime : Text.tokens "_rt." = [.word "_rt", .mark '.'] := by decide
  have name : Text.tokens Names.createContext = [.word "createContext"] :=
    (spells_identifier (by decide)).read
  have bracket : Text.tokens "(" = [.mark '('] := by decide
  simpa [setupRow, Row.tokens, Piece.tokens, runtime, name, bracket] using
    place.append (call.append args)

theorem invokes_declarationRow (declaration : String × String) :
    Invokes (declarationRow declaration).tokens [] := by
  have opening : Invokes [.word "const"] [] := .of_not_mem (by decide)
  have query : Invokes [.word "document", .mark '.', .word "querySelectorAll", .mark '(', .literal,
      .mark ')', .mark ';'] [] := .of_not_mem (by decide)
  have equals : Invokes [.mark '='] [] := .of_not_mem (by decide)
  exact opening.append (.word declaration.1 nofun (equals.append query))

theorem invokes_catchClause : Invokes catchClause [] := fun _ => rfl

/-- What a function does after its declarations calls nothing of the runtime. -/
theorem invokes_guardedRows (body : ∀ row ∈ Stmt.rowsAll function.body, Invokes row.tokens []) :
    Invokes (function.guardedRows.flatMap Row.tokens) [] := by
  have called : ∀ row ∈ callRows function.modifiers, Invokes row.tokens [] :=
    forall_mem_callRows (@Row.invokes_fixed [Names.eventParam, ".preventDefault();"] (by decide))
      (@Row.invokes_fixed [Names.eventParam, ".stopPropagation();"] (by decide)) _
  have inside : Invokes (function.bodyRows.flatMap Row.tokens) [] :=
    .silent (List.forall_mem_append.mpr ⟨called, body⟩)
  cases guards : function.facts.canThrow with
  | false =>
    rw [guardedRows, guards]
    exact inside
  | true =>
    have enter : Invokes [.word "try", .mark '\x7b'] [] := .of_not_mem (by decide)
    rw [tokens_guardedRows guards]
    exact enter.append (inside.append invokes_catchClause)

/-- The function of a handler calls the runtime once, for the context. -/
theorem runtimeCalls_render (spelled : function.IsSpelled)
    (body : ∀ row ∈ Stmt.rowsAll function.body, Invokes row.tokens []) :
    runtimeCalls function.render = [Names.createContext] := by
  have declared : Invokes ((function.declarations.map declarationRow).flatMap Row.tokens) [] :=
    .silent (List.forall_mem_map.mpr fun declaration _ => invokes_declarationRow declaration)
  have entry : Invokes (function.entryRows.flatMap Row.tokens) [Names.createContext] :=
    function.invokes_openingRow.append (invokes_setupRow.append declared)
  have brace : Invokes [.mark '\x7d'] [] := .of_not_mem (by decide)
  rw [runtimeCalls, tokens_render spelled, tokens_rows]
  exact (entry.append ((invokes_guardedRows body).append brace)).calledIn_eq

end Function
end Program

namespace Caching

open Program

/-- The keys that facts assign are never the name of the runtime. -/
theorem IsAssigned.keysApart {facts : Facts} {script : Node} (assigned : IsAssigned facts script) :
    Stmt.KeysApart script := by
  intro selector found member key inFound
  have entry := mem_of_lookup (assigned selector found member key inFound)
  have named : key = cacheKey selector := (isSound_keysFor facts).named _ entry
  refine ⟨assigned.namesKeys selector found member key inFound, ?_⟩
  rw [named]
  exact cacheKey_ne (by decide) selector

end Caching
end Hyperscript
