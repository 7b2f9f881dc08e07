import FilterScope.Text.Pieces

/-!
# Filters

A filter compares fields with values, as in `age=ge=18;address.city==Ghent`. Its parts:

* a `Selector` names a field; dots divide it into segments, of which the first names a field of
  the type that is filtered and the second a field of a nested object;
* a `Comparison` is a selector, an `Operator` and the arguments it is compared with;
* an `Expr` is a comparison, or a list of expressions joined by one `Connective`.

The segments of a selector are not stored: they are a function of its text, so a selector whose
segments disagree with its text cannot be written down.
-/

namespace FilterScope.Filter

/-! ## Operators -/

/-- The ways of comparing a field with values. -/
inductive Operator where
  | equal
  | notEqual
  | greater
  | atLeast
  | less
  | atMost
  | among
  | outside
  deriving DecidableEq, Repr

namespace Operator

/-- All operators, in the order in which their symbols are tried. -/
def all : List Operator :=
  [.equal, .notEqual, .greater, .atLeast, .less, .atMost, .among, .outside]

/-- The canonical way of writing an operator. -/
def symbol : Operator → String
  | .equal => "=="
  | .notEqual => "!="
  | .greater => "=gt="
  | .atLeast => "=ge="
  | .less => "=lt="
  | .atMost => "=le="
  | .among => "=in="
  | .outside => "=out="

/-- Whether an operator takes a list of arguments; the others take exactly one. -/
def takesMany : Operator → Bool
  | .among | .outside => true
  | _ => false

end Operator

/-! ## Selectors and comparisons -/

/-- The left side of a comparison, such as `firstname` or `address.postalCode`. -/
structure Selector where
  /-- the selector as it is written -/
  text : String
  deriving DecidableEq, Repr

/-- The parts of a selector between its dots. Empty parts are kept, and there is always one. -/
def Selector.segments (s : Selector) : List String :=
  (Text.cutAt '.' s.text.toList).map String.ofList

/-- A field compared with values. -/
structure Comparison where
  /-- which field is compared -/
  selector : Selector
  /-- how it is compared -/
  operator : Operator
  /-- what it is compared with -/
  arguments : List String
  deriving DecidableEq, Repr

/-! ## Expressions -/

/-- How the parts of an expression are joined; `and` binds tighter than `or`. -/
inductive Connective where
  | and
  | or
  deriving DecidableEq, Repr

/-- A comparison, or expressions joined by a connective. -/
inductive Expr where
  | comparison (c : Comparison)
  | logical (connective : Connective) (operands : List Expr)

namespace Expr

/-- Joins operands by a connective; a single operand stands for itself. -/
def join (connective : Connective) (first : Expr) (more : List Expr) : Expr :=
  if more.isEmpty then first else .logical connective (first :: more)

/-- The comparisons of an expression from left to right. -/
def comparisons : Expr → List Comparison
  | .comparison c => [c]
  | .logical _ operands => operands.flatMap comparisons

end Expr

end FilterScope.Filter
