import CSharpDraft.Fragment.Grammar.Type

/-!
# Expressions

Operators need no precedence here, because the layout of a block never looks into an expression: an expression is a row
of operands with operators between them.

Some forms can only be told apart by what follows them. `parensThenArrow` finds the parenthesis that closes the
parameters of a lambda, `closesTypeArguments` looks behind the type arguments of a name, and a cast is a type in
parentheses with an operand behind it.
-/

set_option autoImplicit false

namespace CSharpDraft.Fragment.Grammar

open Pattern Rule

/-! ## Conditions on what follows -/

/-- The tokens behind the bracket that closes `depth` open brackets. -/
def afterBrackets : Nat → List Token → List Token
  | _, [] => []
  | depth, t :: ts =>
    if t.kind != .symbol then afterBrackets depth ts
    else if [['('], ['['], ['{']].contains t.text then afterBrackets (depth + 1) ts
    else if [[')'], [']'], ['}']].contains t.text then
      if depth ≤ 1 then ts else afterBrackets (depth - 1) ts
    else afterBrackets depth ts

/-- Whether the tokens start with parentheses that have a token of the given kind behind them. -/
def parensThen (accepts : Token → Bool) : List Token → Bool
  | t :: ts => t.isSymbol ['('] && (skipTrivia (afterBrackets 1 ts)).head?.any accepts
  | [] => false

/-- Whether the tokens start with parentheses that have an arrow behind them. -/
def parensThenArrow (ts : List Token) : Bool := parensThen (·.isSymbol ['=', '>']) ts

/-- Whether the angle brackets in front of the token hold type arguments. -/
def closesTypeArguments (ts : List Token) : Bool :=
  match ts.head? with
  | none => true
  | some t =>
    t.kind == .interpolated .middle || t.kind == .interpolated .closing ||
      (t.kind == .symbol && ([['('], [')'], [']'], ['}'], [':'], [';'], [','], ['.'], ['?'], ['|'], ['^'], ['&'], ['['],
        ['!'], ['>'], "==".toList, "!=".toList, "&&".toList, "||".toList, "??".toList, "=>".toList,
        "->".toList].contains t.text)) ||
      t.isOneOf (wordsOf "is as switch with and or")

/-! ## Lambdas -/

/-- Whether a semicolon stands in the brackets that start the tokens, and not in further brackets. -/
def holdsSemicolon : Nat → List Token → Bool
  | _, [] => false
  | depth, t :: ts =>
    if t.kind != .symbol then holdsSemicolon depth ts
    else if [['('], ['['], ['{']].contains t.text then holdsSemicolon (depth + 1) ts
    else if [[')'], [']'], ['}']].contains t.text then !(depth ≤ 1) && holdsSemicolon (depth - 1) ts
    else (t.text == [';'] && depth == 1) || holdsSemicolon depth ts

/-- The body behind an arrow: a block, or an expression. Elements in braces have no semicolon among them. -/
def arrowBody : Pattern Rule :=
  let isBlock : List Token → Bool
    | t :: ts => t.isSymbol ['{'] && holdsSemicolon 1 ts
    | [] => false
  both (symbol "=>") (either (rule .block) (both (when (fun ts => !isBlock ts)) (rule (.expression true))))

def lambda : Pattern Rule :=
  let inputs := oneOf [both (nameExcept operandWords) (nextIs (·.isSymbol ['=', '>'])),
    both (when parensThenArrow) (rule .parameters), row [rule .type, when parensThenArrow, rule .parameters]]
  row [many (rule .attributes), many (wordOf (wordsOf "static async")), inputs, arrowBody]

def anonymousMethod : Pattern Rule :=
  row [many (wordOf (wordsOf "static async")), word "delegate", optional (rule .parameters), rule .block]

/-! ## Creation of objects -/

/-- Elements in braces. -/
def elements : Pattern Rule :=
  inBraces (optional (both (sepBy (symbol ",") (rule (.expression true))) (optional (symbol ","))))

def arguments : Pattern Rule := inParens (listOf (rule .argument))

def sizes : Pattern Rule :=
  let size := optional (rule (.expression true))
  inBrackets (both size (many (both (symbol ",") size)))

/-- A new object or array. Only the first form, with a named type and no sizes, may stand as a statement. -/
def creation (effect : Bool) : Pattern Rule :=
  both (word "new") (oneOf [
    row [rank, rule .elements, rule (.suffixes effect false false)],
    row [arguments, optional (rule .elements), rule (.suffixes effect false false)],
    row [rule .elements, rule (.suffixes effect false false)],
    row [plainType, many (symbol "*"), sizes, many sizes, optional (rule .elements),
      rule (.suffixes effect false false)],
    row [plainType, optional (both (symbol "?") (nextIsNot startsOperand)), optional arguments,
      optional (rule .elements), rule (.suffixes effect false true)]])

/-! ## Operands -/

def unarySymbols : List Text :=
  ["++".toList, "--".toList, ['+'], ['-'], ['!'], ['~'], ['&'], ['^'], ['*']]

def interpolatedString : Pattern Rule :=
  let hole := both (rule (.expression true)) (optional (both (symbol ",") (rule (.expression true))))
  either (kindOf [.interpolated .whole])
    (row [kindOf [.interpolated .opening], hole, many (both (kindOf [.interpolated .middle]) hole),
      kindOf [.interpolated .closing]])

def keywordCall : Pattern Rule :=
  oneOf [
    both (word "default") (optional (inParens (rule .type))),
    both (wordOf (wordsOf "typeof sizeof")) (inParens (rule .type)),
    both (wordOf (wordsOf "checked unchecked")) (inParens (rule (.expression true))),
    both (wordOf (wordsOf "__makeref __reftype")) (inParens (rule (.expression true))),
    both (word "__refvalue") (inParens (row [rule (.expression true), symbol ",", rule .type]))]

def stackArray : Pattern Rule :=
  row [word "stackalloc", optional plainType, many (symbol "*"), sizes, optional (rule .elements)]

/-- Operands that can be neither assigned to nor stand as a statement. -/
def fixedOperand : Pattern Rule :=
  oneOf [kindOf [.number, .string, .character], wordOf (wordsOf "true false null base"), interpolatedString,
    keywordCall, stackArray, anonymousMethod, both (wordOf predefinedTypes) (nextIs (·.isSymbol ['.'])),
    rule .elements]

/-- A name as an operand, with its type arguments. -/
def nameOperand : Pattern Rule :=
  row [nameExcept operandWords, optional (both (symbol "::") anyName),
    optional (both (rule .typeArguments) (when closesTypeArguments))]

def declaredArgument : Pattern Rule :=
  row [rule .type, nameExcept infixWords, nextIs (fun t => t.isSymbol [','] || t.isSymbol [')'])]

/-- What an argument with a name or a reference mark holds. -/
def argumentValue : Pattern Rule :=
  row [optional (wordOf (wordsOf "ref out in")), either declaredArgument (rule (.expression true))]

/-- An argument that is no plain expression: a value with a name, a reference or a new variable. -/
def markedArgument : Pattern Rule :=
  oneOf [row [anyName, symbol ":", argumentValue], row [ahead (wordOf (wordsOf "ref out in")), argumentValue],
    declaredArgument]

def argument : Pattern Rule := either markedArgument (rule (.expression true))

/-- A parenthesis: one expression in parentheses may stand as a statement, a tuple may not. -/
def parenthesis (effect : Bool) : Pattern Rule :=
  let more := row [symbol ",", sepBy (symbol ",") (rule .argument), symbol ")", rule (.suffixes effect true false)]
  both (symbol "(") (either
    (both (rule (.expression true)) (either (both (symbol ")") (rule (.suffixes effect true true))) more))
    (both markedArgument more))

def collection (effect : Bool) : Pattern Rule :=
  row [inBrackets (both (listOf (rule .argument)) (optional (symbol ","))), rule (.suffixes effect true false)]

/-- A cast, whose operand must follow; behind a keyword type an operator in front of the operand is one too. -/
def cast : Pattern Rule :=
  let keywordType := both (wordOf predefinedTypes) (many (oneOf [symbol "?", symbol "*", rank]))
  let follows (t : Token) : Bool :=
    startsOperand t && (t.kind != .symbol || [['('], ['!'], ['~']].contains t.text)
  either (row [inParens keywordType, nextIs startsOperand, rule (.operand false)])
    (row [inParens (rule .type), nextIs follows, rule (.operand false)])

/-- An operand; with `effect`, one that may stand as a statement. -/
def operand (effect : Bool) : Pattern Rule :=
  let always := [
    both (symbolOf unarySymbols) (rule (.operand false)),
    both (word "await") (rule (.operand false)),
    creation effect,
    both (word "this") (rule (.suffixes effect true false)),
    both nameOperand (rule (.suffixes effect true false)),
    parenthesis effect,
    collection effect,
    both fixedOperand (rule (.suffixes effect false false))]
  let values := [
    cast,
    both (word "throw") (rule (.expression true)),
    both (word "ref") (rule (.expression true)),
    both (symbol "..") (optional (rule (.operand false)))]
  oneOf (if effect then always else values ++ always)

/-- The operators of assignments. The shifts are written with several tokens. -/
def assignment : Pattern Rule :=
  let tight := both (nextIs Token.isTight)
  let shift := both (symbol ">") (either (tight (symbol ">=")) (row [tight (symbol ">"), tight (symbol ">=")]))
  either (symbolOf [['='], "+=".toList, "-=".toList, "*=".toList, "/=".toList, "%=".toList, "&=".toList, "|=".toList,
    "^=".toList, "<<=".toList, "??=".toList]) shift

def suffixes (effect assignable complete : Bool) : Pattern Rule :=
  let member := both anyName (optional (both (rule .typeArguments) (when closesTypeArguments)))
  let indices := inBrackets (listOf (rule .argument))
  oneOf ([
    row [symbolOf [['.'], "->".toList], member, rule (.suffixes effect true false)],
    both arguments (rule (.suffixes effect false true)),
    both indices (rule (.suffixes effect true false)),
    both (symbolOf ["++".toList, "--".toList, ['!']]) (rule (.suffixes effect false true)),
    row [symbol "?", either (both (symbol ".") member) (both (nextIs Token.isTight) indices),
      rule (.suffixes effect false false)]] ++
    (if assignable then [both assignment (rule (.expression true))] else []) ++
    (if effect && !complete then [] else [nothing]))

/-! ## Operators between operands -/

def binary : Pattern Rule :=
  let tight := both (nextIs Token.isTight)
  let shift := both (symbol ">") (tight (both (symbol ">") (optional (tight (symbol ">")))))
  either shift (symbolOf [['+'], ['-'], ['*'], ['/'], ['%'], ['&'], ['|'], ['^'], "&&".toList, "||".toList,
    "??".toList, "<<".toList, "==".toList, "!=".toList, ['<'], ['>'], "<=".toList, ">=".toList])

def switchArm : Pattern Rule :=
  row [rule .shape, optional (both (word "when") (rule (.expression false))), symbol "=>", rule (.expression true)]

/-- An operator with what stands behind it. -/
def continuation (arrow : Bool) : Pattern Rule :=
  oneOf [
    both binary (rule (.operand false)),
    row [symbol "?", rule (.expression arrow), symbol ":", rule (.expression arrow)],
    both (word "is") (rule .shape),
    both (word "as") operandType,
    both (symbol "..") (optional (rule (.operand false))),
    both (word "switch") (inBraces (optional (both (sepBy (symbol ",") switchArm) (optional (symbol ","))))),
    both (word "with") (rule .elements)]

/-! ## Queries -/

/-- The variable of a query clause with its source. -/
def querySource : Pattern Rule :=
  row [either (both anyName (ahead (word "in"))) (both (rule .type) anyName), word "in", rule (.expression true)]

/-- The clauses of a query behind its first. -/
def query : Pattern Rule :=
  let ordering := both (rule (.expression true)) (optional (wordOf (wordsOf "ascending descending")))
  let clause := oneOf [
    both (word "from") querySource,
    row [word "let", anyName, symbol "=", rule (.expression true)],
    both (word "where") (rule (.expression true)),
    row [word "join", querySource, word "on", rule (.expression true), word "equals", rule (.expression true),
      optional (both (word "into") anyName)],
    both (word "orderby") (sepBy (symbol ",") ordering)]
  let result := either (both (word "select") (rule (.expression true)))
    (row [word "group", rule (.expression true), word "by", rule (.expression true)])
  row [many clause, result, optional (row [word "into", anyName, rule .query])]

/-! ## Patterns -/

/-- What a pattern binds: a name, or names in parentheses. -/
def binding : Pattern Rule :=
  either (nameExcept clauseWords) (inParens (sepBy (symbol ",") (rule .binding)))

def simpleShape : Pattern Rule :=
  let name := optional (nameExcept clauseWords)
  let path := both (sepBy (symbol ".") anyName) (symbol ":")
  let part := both (optional path) (rule .shape)
  let fields := inBraces (optional (both (sepBy (symbol ",") part) (optional (symbol ","))))
  let positions := inParens (listOf part)
  oneOf [
    both (symbolOf [['<'], ['>'], "<=".toList, ">=".toList]) (rule (.operand false)),
    both (word "var") (rule .binding),
    both fields name,
    both (inBrackets (both (listOf (rule .shape)) (optional (symbol ",")))) name,
    row [positions, optional fields, name],
    both (symbol "..") (optional (rule .shape)),
    both operandType (oneOf [row [positions, optional fields, name], both fields name, nameExcept clauseWords]),
    markedOperandType,
    rule (.operand false),
    operandType]

def shape : Pattern Rule :=
  let negated := both (many (word "not")) simpleShape
  sepBy (wordOf (wordsOf "and or")) negated

/-! ## Expressions -/

/-- An expression; `arrow` tells whether it may be a lambda. -/
def expression (arrow : Bool) : Pattern Rule :=
  let flat := both (rule (.operand false)) (many (continuation arrow))
  node .other (oneOf ((if arrow then [lambda] else []) ++ [row [word "from", querySource, rule .query], flat]))

end CSharpDraft.Fragment.Grammar
