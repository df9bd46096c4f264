import CSharpDraft.Fragment.Grammar.Expression

/-!
# Statements

A statement that starts with a keyword is the statement of that keyword or none at all, so `plainStart` keeps the
keywords away from declarations and expressions. An `else` behind an `if` statement belongs to it, and so do the
clauses behind a `try`.
-/

set_option autoImplicit false

namespace CSharpDraft.Fragment.Grammar

open Pattern Rule

/-! ## Parts of statements -/

/-- A value: an expression that may be a lambda. -/
def value : Pattern Rule := rule (.expression true)

def block : Pattern Rule := node .block (inBraces (many (rule .statement)))

/-- Names in parentheses that take a tuple apart. -/
def tupleNames : Pattern Rule := inParens (sepBy (symbol ",") (either anyName (rule .tupleNames)))

/-- The type and the variables of a declaration. -/
def variableList : Pattern Rule :=
  let single := row [either (nameExcept infixWords) (rule .tupleNames),
    optional (inBrackets (listOf (rule .argument))), optional (both (symbol "=") value)]
  node .other (both (rule .type) (sepBy (symbol ",") single))

/-- What the body of a function may be. -/
def functionBody : Pattern Rule :=
  oneOf [rule .block, row [symbol "=>", value, symbol ";"], symbol ";"]

/-- The pattern where the next token is the word, and nothing elsewhere. -/
def ifWord (w : String) (p : Pattern Rule) : Pattern Rule :=
  let spelled := w.toList
  either (both (nextIs (·.isWord spelled)) p) (nextIsNot (·.isWord spelled))

/-! ## Conditional parts of the source -/

def directive (name : String) : Pattern Rule :=
  let spelled := name.toList
  token (fun t => t.kind == .conditional && (t.text.filter (fun c => c.isAlpha)) == spelled)

def condition : Pattern Rule :=
  let single := both (many (symbol "!")) (either (inParens (rule .condition))
    (kindOf [.word, .escapedWord, .number, .string, .character]))
  sepBy (symbolOf ["&&".toList, "||".toList, "==".toList, "!=".toList]) single

/-- Whether a line feed stands in front of the next token, comments aside. -/
def startsLine : Pattern Rule := ahead (token (fun t => t.gap.contains '\n'))

/-- A conditional part of the source, with `content` between its directives. -/
def conditional (content branch : Pattern Rule) : Pattern Rule :=
  node .conditional (row [directive "if", rule .condition, startsLine, many content, optional branch,
    directive "endif"])

/-- The other branches of a conditional part. -/
def branch (content next : Pattern Rule) : Pattern Rule :=
  node .other (either (both (directive "else") (many content))
    (row [directive "elif", rule .condition, startsLine, many content, optional next]))

/-! ## Statements with a keyword -/

def switchBody : Pattern Rule :=
  let label := either
    (row [word "case", rule .shape, optional (both (word "when") value), symbol ":"])
    (row [word "case", value, symbol ":"])
  let start := either label (both (word "default") (symbol ":"))
  let isLabel : List Token → Bool
    | t :: u :: _ => t.isWord "case".toList || (t.isWord "default".toList && u.isSymbol [':'])
    | _ => false
  let inner := both (when (fun ts => !isLabel ts)) (rule .statement)
  node .other (inBraces (many (both start (many inner))))

/-- The first part of a `for` statement's header and the conditions behind it. -/
def forHeader : Pattern Rule :=
  let starts := optional (either (both (rule .variableList) (nextIs (·.isSymbol [';']))) (sepBy (symbol ",") value))
  inParens (row [starts, symbol ";", optional value, symbol ";", listOf value])

def foreachHeader : Pattern Rule :=
  let isIn (t : Token) : Bool := t.isWord "in".toList
  let each := either (row [rule .type, either anyName (rule .tupleNames), nextIs isIn]) value
  inParens (row [each, word "in", value])

def tryStatement : Pattern Rule :=
  let caught := inParens (both (rule .type) (optional anyName))
  let filter := both (word "when") (inParens value)
  let catchClause := node .clause (row [word "catch", many (either caught filter), rule .block])
  let finallyClause := node .clause (both (word "finally") (rule .block))
  row [word "try", rule .block, many catchClause, nextIsNot (·.isWord "catch".toList),
    ifWord "finally" finallyClause]

/-- The statements that start with a keyword, or with a brace or a semicolon. -/
def keywordStatements : List (Pattern Rule) :=
  let inner := rule .statement
  let stop := symbol ";"
  [
    row [word "if", inParens value, inner, ifWord "else" (both (word "else") inner)],
    row [word "while", inParens value, inner],
    row [word "do", inner, word "while", inParens value, stop],
    row [word "for", forHeader, inner],
    row [optional (word "await"), word "foreach", foreachHeader, inner],
    row [word "switch", inParens (sepBy (symbol ",") (rule .argument)), switchBody],
    tryStatement,
    row [word "lock", inParens value, inner],
    row [word "fixed", inParens (rule .variableList), inner],
    row [optional (word "await"), word "using",
      inParens (either (both (rule .variableList) (nextIs (·.isSymbol [')']))) value), inner],
    both (wordOf (wordsOf "checked unchecked unsafe")) (rule .block),
    row [word "return", optional value, stop],
    row [word "throw", optional value, stop],
    both (wordOf (wordsOf "break continue")) stop,
    row [word "goto", oneOf [both (word "case") value, word "default", anyName], stop],
    row [word "yield", either (both (word "return") value) (word "break"), stop],
    stop]

/-! ## Declarations and expressions -/

/-- The condition that no keyword of a statement follows. -/
def plainStart : Pattern Rule := nextIsNot (·.isOneOf statementWords)

def modifiers : Pattern Rule := many (wordOf modifierWords)

def localFunction : Pattern Rule :=
  row [many (rule .attributes), modifiers, plainStart, rule .type, nameExcept infixWords,
    nextIs (fun t => t.isSymbol ['('] || t.isSymbol ['<']), optional typeParameters, rule .parameters,
    many constraintClause, rule .functionBody]

def localVariables : Pattern Rule :=
  row [optional (both (optional (word "await")) (word "using")), modifiers, plainStart, rule .variableList, symbol ";"]

def effect : Pattern Rule :=
  row [plainStart, node .other (rule (.operand true)), symbol ";"]

def labeled : Pattern Rule := row [plainStart, nameExcept operandWords, symbol ":", rule .statement]

def statement : Pattern Rule :=
  oneOf [rule .block,
    conditional (rule .statement) (rule .statementBranch),
    node .statement (oneOf (keywordStatements ++ [labeled, localFunction, localVariables, effect]))]

end CSharpDraft.Fragment.Grammar
