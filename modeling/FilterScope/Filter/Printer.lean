import FilterScope.Filter.Lexeme

/-!
# The canonical text of a filter

Every expression that a filter can stand for has a canonical text: no layout, the canonical symbol
of each operator, the mark of each connective, every argument in double quotes, and parentheses
around every operand that is a chain itself.

Which expressions those are is said by `Expr.WellFormed`: a chain has at least two operands, a
selector is a bare word, and an operator has as many arguments as it takes. An argument may be any
text at all, because quoting can write any text.
-/

namespace FilterScope.Filter

open Text

/-! ## Well-formed expressions -/

/-- A comparison that can be written. -/
structure Comparison.WellFormed (comparison : Comparison) : Prop where
  /-- the selector is not empty -/
  selector_ne : comparison.selector.text.toList ≠ []
  /-- the selector is made of unreserved characters -/
  selector_unreserved : ∀ c ∈ comparison.selector.text.toList, isUnreserved c = true
  /-- there is something to compare with -/
  arguments_ne : comparison.arguments ≠ []
  /-- only some operators take more than one argument -/
  arguments_length : comparison.operator.takesMany = true ∨ comparison.arguments.length = 1

/-- An expression that can be written. -/
inductive Expr.WellFormed : Expr → Prop where
  /-- a comparison that can be written -/
  | comparison {comparison : Comparison} (h : comparison.WellFormed) :
      WellFormed (.comparison comparison)
  /-- a chain of at least two operands -/
  | logical {connective : Connective} {operands : List Expr} (hlength : 2 ≤ operands.length)
      (hoperands : ∀ operand ∈ operands, WellFormed operand) :
      WellFormed (.logical connective operands)

/-! ## Comparisons -/

/-- The content of a quoted argument: a backslash before every quote and every backslash. -/
def escaped (quote : Char) : List Char → List Char
  | [] => []
  | c :: cs =>
    if c = quote ∨ c = '\\' then '\\' :: c :: escaped quote cs else c :: escaped quote cs

/-- An argument in double quotes. -/
def quotedArgument (argument : String) : List Char :=
  '"' :: escaped '"' argument.toList ++ ['"']

/-- Arguments as they are written: one as it is, several as a list in parentheses. -/
def argumentsText : List String → List Char
  | [argument] => quotedArgument argument
  | arguments => '(' :: [','].intercalate (arguments.map quotedArgument) ++ [')']

/-- The canonical text of a comparison. -/
def Comparison.chars (comparison : Comparison) : List Char :=
  comparison.selector.text.toList ++ comparison.operator.symbol.toList ++
    argumentsText comparison.arguments

/-! ## Expressions -/

namespace Expr

mutual

/-- The canonical text of an expression. -/
def chars : Expr → List Char
  | .comparison c => c.chars
  | .logical connective operands => joined connective.mark operands

/-- The canonical text of an expression that stands among the operands of another. -/
def grouped : Expr → List Char
  | .comparison c => c.chars
  | .logical connective operands => '(' :: joined connective.mark operands ++ [')']

/-- The canonical texts of operands with a mark between them. -/
def joined (mark : Char) : List Expr → List Char
  | [] => []
  | [operand] => grouped operand
  | operand :: operands => grouped operand ++ mark :: joined mark operands

end

/-- The canonical text of an expression. -/
def text (expr : Expr) : String :=
  String.ofList expr.chars

end Expr

end FilterScope.Filter
