import CSharpDraft.Fragment.Grammar.Rule

/-!
# Types, attributes and parameters

The patterns of the parts of a declaration that hold no statements. A type takes a question mark or a star behind it as
its own; where an operand may follow a type, `operandMark` leaves the question mark of a conditional alone.
-/

set_option autoImplicit false

namespace CSharpDraft.Fragment.Grammar

open Pattern Rule

/-! ## Names -/

def typeName : Pattern Rule := nameExcept typeWords

def genericName : Pattern Rule := both typeName (optional (rule .typeArguments))

/-- Names with dots, or a double colon, between them. -/
def qualifiedName : Pattern Rule := sepBy (symbolOf ["::".toList, ['.']]) genericName

/-- The types in angle brackets, or as many commas as there are types less one. -/
def typeArguments : Pattern Rule :=
  row [symbol "<", either (sepBy (symbol ",") (rule .type)) (many (symbol ",")), symbol ">"]

/-! ## Types -/

/-- A tuple of at least two types, each with a name or without. -/
def tupleType : Pattern Rule :=
  let element := both (rule .type) (optional anyName)
  inParens (row [element, symbol ",", sepBy (symbol ",") element])

def functionPointer : Pattern Rule :=
  row [word "delegate", symbol "*", many anyName, symbol "<",
    sepBy (symbol ",") (both (many (wordOf parameterWords)) (rule .type)), symbol ">"]

def plainType : Pattern Rule :=
  oneOf [wordOf predefinedTypes, row [word "ref", optional (word "readonly"), rule .type], functionPointer, tupleType,
    row [word "scoped", rule .type, ahead anyName], qualifiedName]

def rank : Pattern Rule := inBrackets (many (symbol ","))

def type : Pattern Rule := both plainType (many (oneOf [symbol "?", symbol "*", rank]))

/-- Whether an operand may start with the token. -/
def startsOperand (t : Token) : Bool :=
  match t.kind with
  | .symbol => [['('], ['['], ['{'], ['!'], ['~'], ['+'], ['-'], ['&'], ['*'], ['^'], "++".toList, "--".toList,
      "..".toList].contains t.text
  | .interpolated part => part == .whole || part == .opening
  | .word => !(infixWords ++ clauseWords).contains t.text
  | .conditional => false
  | _ => true

/-- What stands behind a type behind an operator: a question mark belongs to it only where no operand follows. -/
def operandMark : Pattern Rule := either rank (both (symbol "?") (nextIsNot startsOperand))

def operandType : Pattern Rule := both plainType (many operandMark)

def markedOperandType : Pattern Rule := row [plainType, operandMark, many operandMark]

/-! ## Attributes and parameters -/

/-- Attributes in square brackets, with an optional target in front. -/
def attributes : Pattern Rule :=
  let single := both qualifiedName (optional (inParens (listOf (rule .argument))))
  node .other (inBrackets (row [optional (both anyName (symbol ":")), sepBy (symbol ",") single,
    optional (symbol ",")]))

def initializer : Pattern Rule := optional (both (symbol "=") (rule (.expression true)))

/-- A parameter; its type may be left out. -/
def parameter : Pattern Rule :=
  row [many (rule .attributes), many (wordOf parameterWords), either (both (rule .type) anyName) anyName, initializer]

def parameters : Pattern Rule := node .other (inParens (listOf parameter))

/-- The type parameters of a declaration in angle brackets. -/
def typeParameters : Pattern Rule :=
  row [symbol "<", sepBy (symbol ",") (row [many (rule .attributes), optional (wordOf (wordsOf "in out")), anyName]),
    symbol ">"]

def constraintClause : Pattern Rule :=
  let constraint := oneOf [both (word "class") (optional (symbol "?")), word "struct", word "notnull", word "unmanaged",
    word "default", row [word "new", symbol "(", symbol ")"], rule .type]
  row [word "where", anyName, symbol ":", sepBy (symbol ",") constraint]

end CSharpDraft.Fragment.Grammar
