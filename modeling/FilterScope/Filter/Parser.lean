import FilterScope.Filter.Lexeme

/-!
# Reading a filter

`parse` reads a whole text as a filter, or says where reading stopped and why.

The grammar has three levels: an `or`-chain of `and`-chains of terms, where a term is a comparison
or an `or`-chain in parentheses. One pair of functions reads chains at both levels: `chain` reads
a first operand and `operands` the ones after it.

**What can fail.** A chain fails only where its first operand does. When a later operand cannot be
read, the chain ends before the separator in front of it, and whoever reads on from there decides
whether that is a fault. A group whose inside fails is no group; the text is then read as a
comparison, which fails at the opening parenthesis, because no selector starts with one. So the
place that a fault reports is always the start of the first thing that no rule accepts.

**Termination.** Every operand is at least one character long, so each recursive call is on a
shorter text or, on the same text, at a lower level of the grammar.
-/

namespace FilterScope.Filter

open Text

/-! ## Faults -/

/-- Why a text is not a filter. -/
inductive Cause where
  /-- no selector where a comparison should start -/
  | invalidSelector
  /-- no operator after a selector -/
  | invalidOperator
  /-- neither an argument nor a list of arguments after an operator -/
  | invalidArgument
  /-- several arguments for an operator that takes one -/
  | invalidSingleArgument
  /-- a filter, and then something else -/
  | unexpectedInput
  deriving DecidableEq, Repr

/-- The words for a cause. -/
def Cause.message : Cause → String
  | .invalidSelector => "invalid selector"
  | .invalidOperator => "invalid comparison operator"
  | .invalidArgument => "invalid argument"
  | .invalidSingleArgument => "invalid single argument"
  | .unexpectedInput => "unexpected input"

/-- A reader's failure: why, and the text that was left where it gave up. -/
structure Failure where
  /-- why reading failed -/
  cause : Cause
  /-- the text from the place of the failure on -/
  rest : List Char
  deriving DecidableEq, Repr

/-- The failure of a whole text, placed by the number of bytes before it. -/
structure SyntaxFault where
  /-- the number of bytes in front of the fault -/
  offset : Nat
  /-- why the text is not a filter -/
  cause : Cause
  deriving DecidableEq, Repr

/-- The words for a fault. -/
def SyntaxFault.message (fault : SyntaxFault) : String :=
  s!"Invalid filter syntax at offset {fault.offset}: {fault.cause.message}"

/-! ## Arguments -/

/-- Reads the arguments of a list after its first one, each with a comma before it. Stops before
a comma that no argument follows. -/
def moreArguments (cs : List Char) : Reading (List String) (cs.length + 1) :=
  match mark? ',' cs with
  | none => .nothing [] cs
  | some comma =>
    match argument? comma.rest with
    | none => .nothing [] cs
    | some first =>
      let more := moreArguments first.rest
      (comma.andThen (first.andThen (more.map (first.value :: ·))).weaken).weaken
termination_by cs.length
decreasing_by exact Nat.lt_trans first.bound comma.bound

/-- Reads arguments in parentheses, separated by commas. -/
def argumentList? (cs : List Char) : Option (Reading (List String) cs.length) :=
  match (char? '(' cs).map (·.thenLayout) with
  | none => none
  | some opening =>
    match argument? opening.rest with
    | none => none
    | some first =>
      let more := (moreArguments first.rest).thenLayout
      (char? ')' more.rest).map fun closing =>
        opening.andThen (first.andThen (more.andThen
          (closing.map fun _ => first.value :: more.value).weaken)).weaken

/-- Reads what an operator compares with: a list in parentheses, or a single argument. -/
def arguments? (cs : List Char) : Option (Reading (List String) cs.length) :=
  argumentList? cs <|> (argument? cs).map (·.map fun a => [a])

/-! ## Comparisons -/

/-- Reads a comparison: a selector, an operator with any layout around it, and its arguments. -/
def comparison (cs : List Char) : Except Failure (Reading Expr cs.length) :=
  match (word? cs).map (·.thenLayout) with
  | none => .error ⟨.invalidSelector, cs⟩
  | some selector =>
    match (operator? selector.rest).map (·.thenLayout) with
    | none => .error ⟨.invalidOperator, selector.rest⟩
    | some operator =>
      match arguments? operator.rest with
      | none => .error ⟨.invalidArgument, operator.rest⟩
      | some arguments =>
        if !operator.value.takesMany && arguments.value.length != 1 then
          .error ⟨.invalidSingleArgument, arguments.rest⟩
        else
          let read : Expr := .comparison ⟨⟨selector.value⟩, operator.value, arguments.value⟩
          .ok (selector.andThen (operator.andThen (arguments.map fun _ => read).weaken).weaken)

/-! ## Chains and terms -/

mutual

/-- Reads operands joined by a connective, of which there is at least one. -/
def chain (connective : Connective) (cs : List Char) : Except Failure (Reading Expr cs.length) :=
  match operand connective cs with
  | .error failure => .error failure
  | .ok first =>
    let more := operands connective first.rest
    .ok (first.andThen (more.map fun rest => .join connective first.value rest))
termination_by (cs.length, match connective with | .or => 5 | .and => 3)
decreasing_by
  · exact Prod.Lex.right _ (by cases connective <;> simp)
  · exact Prod.Lex.left _ _ first.bound

/-- Reads the operands of a chain after its first one. Stops before a separator that no operand
follows. -/
def operands (connective : Connective) (cs : List Char) : Reading (List Expr) (cs.length + 1) :=
  match separator? connective cs with
  | none => .nothing [] cs
  | some separator =>
    match operand connective separator.rest with
    | .error _ => .nothing [] cs
    | .ok first =>
      let more := operands connective first.rest
      (separator.andThen (first.andThen (more.map (first.value :: ·))).weaken).weaken
termination_by (cs.length, 0)
decreasing_by
  · exact Prod.Lex.left _ _ separator.bound
  · exact Prod.Lex.left _ _ (Nat.lt_trans first.bound separator.bound)

/-- Reads what a connective joins: `or` joins `and`-chains, and `and` joins terms. -/
def operand (connective : Connective) (cs : List Char) : Except Failure (Reading Expr cs.length) :=
  match connective with
  | .or => chain .and cs
  | .and => term cs
termination_by (cs.length, match connective with | .or => 4 | .and => 2)

/-- Reads a group, or else a comparison. -/
def term (cs : List Char) : Except Failure (Reading Expr cs.length) :=
  match group? cs with
  | some group => .ok group
  | none => comparison cs
termination_by (cs.length, 1)

/-- Reads a chain in parentheses. -/
def group? (cs : List Char) : Option (Reading Expr cs.length) :=
  match (char? '(' cs).map (·.thenLayout) with
  | none => none
  | some opening =>
    match chain .or opening.rest with
    | .error _ => none
    | .ok inside =>
      let inside := inside.thenLayout
      (char? ')' inside.rest).map fun closing =>
        opening.andThen (inside.andThen (closing.map fun _ => inside.value).weaken).weaken
termination_by (cs.length, 0)
decreasing_by exact Prod.Lex.left _ _ opening.bound

end

/-! ## Whole filters -/

/-- Reads a whole text as a filter. Layout around it is allowed, and nothing else is. -/
def parse (text : String) : Except SyntaxFault Expr :=
  let cs := text.toList
  let placed (rest : List Char) : Nat := byteLength cs - byteLength rest
  match chain .or (dropLayout cs) with
  | .error failure => .error ⟨placed failure.rest, failure.cause⟩
  | .ok filter =>
    match dropLayout filter.rest with
    | [] => .ok filter.value
    | rest => .error ⟨placed rest, .unexpectedInput⟩

end FilterScope.Filter
