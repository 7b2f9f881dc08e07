import FilterScope.Filter.Lexeme

/-!
# The grammar of filters

What it means for a text to be a filter, said without a parser: each rule relates a text to what
it stands for. The rules say nothing about the order in which alternatives are tried, how far a
run of characters is read, or where to go back to when something does not fit.

* `IsValue`, `IsArguments` and `IsComparison` are the rules for a comparison and its parts.
* `IsOperand`, `IsChain` and `IsMore` are the rules for what a connective joins. An operand of
  `or` is an `and`-chain, and an operand of `and` is a comparison or an `or`-chain in parentheses;
  so `and` binds tighter than `or`.
* `IsFilter` is the rule for a whole text.
-/

namespace FilterScope.Filter

open Text

/-! ## Comparisons and their parts -/

/-- A text of layout only, possibly empty. -/
def IsLayout (text : List Char) : Prop :=
  ∀ c ∈ text, isLayout c = true

/-- A bare word: unreserved characters, at least one. -/
def IsWord (text : List Char) : Prop :=
  text ≠ [] ∧ ∀ c ∈ text, isUnreserved c = true

/-- The content of a quoted argument, and what it stands for. A backslash makes any character after
it stand for itself; without one, the closing quote and the backslash cannot occur. -/
inductive IsQuoted (quote : Char) : List Char → List Char → Prop where
  /-- nothing -/
  | nil : IsQuoted quote [] []
  /-- a character as it is -/
  | plain {c : Char} {text value : List Char} (hquote : c ≠ quote) (hescape : c ≠ '\\')
      (hmore : IsQuoted quote text value) : IsQuoted quote (c :: text) (c :: value)
  /-- a character behind a backslash -/
  | escaped {c : Char} {text value : List Char} (hmore : IsQuoted quote text value) :
      IsQuoted quote ('\\' :: c :: text) (c :: value)

/-- One argument: a bare word, or a text between two quotes of the same kind. -/
inductive IsValue : List Char → String → Prop where
  /-- a bare word stands for itself -/
  | word {text : List Char} (hword : IsWord text) : IsValue text (String.ofList text)
  /-- a quoted text stands for its content -/
  | quoted {quote : Char} {text value : List Char} (hquote : quote = '"' ∨ quote = '\'')
      (htext : IsQuoted quote text value) :
      IsValue (quote :: text ++ [quote]) (String.ofList value)

/-- Arguments of a list after its first one, each with a comma before it. -/
inductive IsMoreValues : List Char → List String → Prop where
  /-- none -/
  | nil : IsMoreValues [] []
  /-- one, and more -/
  | cons {before after text more : List Char} {value : String} {values : List String}
      (hbefore : IsLayout before) (hafter : IsLayout after) (hvalue : IsValue text value)
      (hmore : IsMoreValues more values) :
      IsMoreValues (before ++ ',' :: after ++ text ++ more) (value :: values)

/-- What an operator compares with: one argument, or a list of them in parentheses. -/
inductive IsArguments : List Char → List String → Prop where
  /-- one argument -/
  | single {text : List Char} {value : String} (hvalue : IsValue text value) :
      IsArguments text [value]
  /-- a list -/
  | list {before text more after : List Char} {value : String} {values : List String}
      (hbefore : IsLayout before) (hvalue : IsValue text value) (hmore : IsMoreValues more values)
      (hafter : IsLayout after) :
      IsArguments ('(' :: before ++ text ++ more ++ after ++ [')']) (value :: values)

/-- A comparison. An operator that does not take many arguments takes exactly one. -/
inductive IsComparison : List Char → Comparison → Prop where
  /-- a selector, a spelling of an operator with any layout around it, and arguments -/
  | intro {selector before after arguments : List Char} {spelling : Spelling}
      {values : List String} (hselector : IsWord selector) (hbefore : IsLayout before)
      (hspelling : spelling ∈ Spelling.all) (hafter : IsLayout after)
      (harguments : IsArguments arguments values)
      (hcount : spelling.operator.takesMany = true ∨ values.length = 1) :
      IsComparison (selector ++ before ++ spelling.text ++ after ++ arguments)
        ⟨⟨String.ofList selector⟩, spelling.operator, values⟩

/-! ## Chains -/

/-- What stands between two operands of a connective. -/
inductive IsSeparator (connective : Connective) : List Char → Prop where
  /-- its mark, with any layout around it -/
  | mark {before after : List Char} (hbefore : IsLayout before) (hafter : IsLayout after) :
      IsSeparator connective (before ++ connective.mark :: after)
  /-- its keyword in letters of either case, with layout on both sides -/
  | keyword {before word after : List Char} (hbefore : IsLayout before) (hne : before ≠ [])
      (hword : word.map Char.toLower = connective.keyword) (hafter : IsLayout after)
      (hne' : after ≠ []) : IsSeparator connective (before ++ word ++ after)

mutual

/-- What a connective joins. -/
inductive IsOperand : Connective → List Char → Expr → Prop where
  /-- a chain of the connective that binds tighter -/
  | chain {text : List Char} {expr : Expr} (hchain : IsChain .and text expr) :
      IsOperand .or text expr
  /-- a comparison -/
  | comparison {text : List Char} {comparison : Comparison}
      (hcomparison : IsComparison text comparison) : IsOperand .and text (.comparison comparison)
  /-- a group -/
  | group {before text after : List Char} {expr : Expr} (hbefore : IsLayout before)
      (hchain : IsChain .or text expr) (hafter : IsLayout after) :
      IsOperand .and ('(' :: before ++ text ++ after ++ [')']) expr

/-- Operands joined by a connective; a single operand stands for itself. -/
inductive IsChain : Connective → List Char → Expr → Prop where
  /-- a first operand, and more -/
  | intro {connective : Connective} {text more : List Char} {first : Expr} {exprs : List Expr}
      (hfirst : IsOperand connective text first) (hmore : IsMore connective more exprs) :
      IsChain connective (text ++ more) (.join connective first exprs)

/-- Operands of a chain after its first one, each with a separator before it. -/
inductive IsMore : Connective → List Char → List Expr → Prop where
  /-- none -/
  | nil {connective : Connective} : IsMore connective [] []
  /-- one, and more -/
  | cons {connective : Connective} {separator text more : List Char} {first : Expr}
      {exprs : List Expr} (hseparator : IsSeparator connective separator)
      (hfirst : IsOperand connective text first) (hmore : IsMore connective more exprs) :
      IsMore connective (separator ++ text ++ more) (first :: exprs)

end

/-! ## Filters -/

/-- A whole text: an `or`-chain with any layout around it. -/
inductive IsFilter : List Char → Expr → Prop where
  /-- a chain and the layout around it -/
  | intro {before text after : List Char} {expr : Expr} (hbefore : IsLayout before)
      (hchain : IsChain .or text expr) (hafter : IsLayout after) :
      IsFilter (before ++ text ++ after) expr

end FilterScope.Filter
