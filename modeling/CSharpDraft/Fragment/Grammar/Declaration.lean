import CSharpDraft.Fragment.Grammar.Statement

/-!
# Declarations

The declarations of a file: namespaces, types and their members. A semicolon may follow the closing brace of a type or a
namespace, but none stands alone among the members of a type.
-/

set_option autoImplicit false

namespace CSharpDraft.Fragment.Grammar

open Pattern Rule

/-! ## Members -/

/-- The accessors of a property, an indexer or an event. -/
def accessors : Pattern Rule :=
  let single := row [many (rule .attributes), modifiers, wordOf (wordsOf "get set init add remove"), rule .functionBody]
  inBraces (many single)

/-- What stands behind the name of a property. -/
def propertyBody : Pattern Rule :=
  either (both accessors (optional (row [symbol "=", value, symbol ";"]))) (row [symbol "=>", value, symbol ";"])

/-- The name of a member, with the interface that it implements in front. -/
def memberName : Pattern Rule := sepBy (symbol ".") (both anyName (optional (rule .typeArguments)))

def definableOperator : Pattern Rule :=
  either (wordOf (wordsOf "true false")) (both (token (fun t => t.kind == .symbol && !t.isSymbol ['(']))
    (many (token (fun t => t.isSymbol ['>'] && t.gap.isEmpty))))

/-- A member of a type, behind its attributes and modifiers. -/
def memberBody : Pattern Rule :=
  let chained := optional (row [symbol ":", wordOf (wordsOf "base this"), arguments])
  oneOf [
    row [word "event", rule .type, either (both memberName accessors) (both (sepBy (symbol ",")
      (both anyName (optional (both (symbol "=") value)))) (symbol ";"))],
    row [wordOf (wordsOf "implicit explicit"), word "operator", rule .type, rule .parameters, rule .functionBody],
    row [symbol "~", anyName, symbol "(", symbol ")", rule .functionBody],
    row [anyName, nextIs (·.isSymbol ['(']), rule .parameters, chained, rule .functionBody],
    row [rule .type, word "operator", definableOperator, rule .parameters, rule .functionBody],
    row [rule .type, word "this", inBrackets (listOf parameter), propertyBody],
    row [rule .type, memberName, optional typeParameters, rule .parameters, many constraintClause,
      rule .functionBody],
    row [rule .type, memberName, propertyBody],
    both (rule .variableList) (symbol ";")]

def member : Pattern Rule :=
  oneOf [conditional (rule .member) (rule .memberBranch), rule .declaration,
    node .other (row [many (rule .attributes), modifiers, memberBody])]

/-! ## Types -/

def baseTypes : Pattern Rule :=
  optional (both (symbol ":") (sepBy (symbol ",") (both (rule .type) (optional arguments))))

/-- The members of a type in braces, with an optional semicolon. -/
def typeBody : Pattern Rule := both (inBraces (many (rule .member))) (optional (symbol ";"))

/-- A class, a structure, an interface or a record. -/
def classLike : Pattern Rule :=
  let head := either (both (word "record") (optional (wordOf (wordsOf "class struct"))))
    (wordOf (wordsOf "class struct interface"))
  row [head, anyName, optional typeParameters, optional (rule .parameters), baseTypes, many constraintClause,
    either typeBody (symbol ";")]

def enumeration : Pattern Rule :=
  let single := row [many (rule .attributes), anyName, optional (both (symbol "=") value)]
  row [word "enum", anyName, optional (both (symbol ":") (rule .type)),
    inBraces (optional (both (sepBy (symbol ",") single) (optional (symbol ",")))), optional (symbol ";")]

def delegateType : Pattern Rule :=
  row [word "delegate", rule .type, anyName, optional typeParameters, rule .parameters, many constraintClause,
    symbol ";"]

def namespaceBody : Pattern Rule :=
  row [word "namespace", qualifiedName,
    either (both (inBraces (many (rule .topLevel))) (optional (symbol ";"))) (symbol ";")]

def usingDirective : Pattern Rule :=
  row [optional (word "global"), word "using", many (wordOf (wordsOf "static unsafe")),
    optional (both anyName (symbol "=")), rule .type, symbol ";"]

/-- A declaration of a type, a delegate or a namespace. -/
def declaration : Pattern Rule :=
  node .other (row [many (rule .attributes), modifiers,
    oneOf [classLike, enumeration, delegateType, namespaceBody, usingDirective]])

/-- A declaration, a directive or a statement at the top of a file. -/
def topLevel : Pattern Rule :=
  oneOf [rule .declaration, row [word "extern", word "alias", anyName, symbol ";"], rule .statement]

end CSharpDraft.Fragment.Grammar
