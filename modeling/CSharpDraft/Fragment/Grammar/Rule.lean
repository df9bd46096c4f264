import CSharpDraft.Fragment.Pattern

/-!
# The rules of the grammar by name, and its words

`Rule` names the parts of C# source that refer to each other. The words below are those that are no names at the place
where they stand; everywhere else every word is a name.
-/

set_option autoImplicit false

namespace CSharpDraft.Fragment

inductive Rule where
  /-- A type, by name or built from other types. -/
  | type
  /-- The types in angle brackets behind a generic name. -/
  | typeArguments
  /-- Attributes in square brackets. -/
  | attributes
  /-- The parameters of a function in parentheses. -/
  | parameters
  /-- An argument of a call. -/
  | argument
  /-- An expression; `arrow` tells whether it may be a lambda. -/
  | expression (arrow : Bool)
  /-- An operand; with `effect`, one that may stand as a statement. -/
  | operand (effect : Bool)
  /-- What may follow an operand: `effect` asks for a form that may stand as a statement, `assignable` and `complete`
  tell whether the operand so far may be assigned to and may stand as a statement. -/
  | suffixes (effect assignable complete : Bool)
  /-- The elements in braces behind a constructor call or in place of an array. -/
  | elements
  /-- A pattern that a value is matched with. -/
  | shape
  /-- What may be bound by a pattern: a name, or names in parentheses. -/
  | binding
  /-- The clauses of a query behind its first. -/
  | query
  /-- A block of statements. -/
  | block
  /-- A statement. -/
  | statement
  /-- Names in parentheses that take a tuple apart. -/
  | tupleNames
  /-- The type and the variables of a declaration. -/
  | variableList
  /-- What the body of a function may be. -/
  | functionBody
  /-- The condition of a directive. -/
  | condition
  /-- The other branches of a conditional part of a block. -/
  | statementBranch
  /-- The other branches of a conditional part of a type. -/
  | memberBranch
  /-- A member of a type. -/
  | member
  /-- A declaration of a type, a delegate or a namespace. -/
  | declaration
  /-- A declaration, a directive or a statement at the top of a file. -/
  | topLevel
  deriving DecidableEq, Repr

namespace Rule

/-- The words listed in a string, with blanks between them. -/
def wordsOf (s : String) : List Text := (s.toList.splitOn ' ').filter (fun w => !w.isEmpty)

/-- The types with a keyword of their own. -/
def predefinedTypes : List Text :=
  wordsOf "bool byte char decimal double float int long object sbyte short string uint ulong ushort nint nuint void"

/-- The words that start an expression, apart from those of types. -/
def expressionWords : List Text :=
  wordsOf ("new typeof sizeof default checked unchecked delegate async await base this true false null stackalloc " ++
    "throw ref static __makeref __reftype __refvalue")

def infixWords : List Text := wordsOf "is as switch with"

/-- The words that are no names where an operand starts. -/
def operandWords : List Text := expressionWords ++ predefinedTypes

/-- The words that are no names where a type is named. -/
def typeWords : List Text := operandWords ++ infixWords

/-- The words that start a statement and are no names there. -/
def statementWords : List Text :=
  wordsOf ("break continue do fixed for foreach goto if lock return switch throw try unsafe using while const " ++
    "abstract extern internal override partial private protected public readonly required sealed virtual volatile")

def modifierWords : List Text :=
  wordsOf ("abstract async const extern file fixed internal new override partial private protected public readonly " ++
    "required sealed static unsafe virtual volatile")

def parameterWords : List Text := wordsOf "ref out in params this scoped readonly"

/-- The words that join the clauses of a query or the parts of a pattern. -/
def clauseWords : List Text :=
  wordsOf "and or when select where orderby group into join let from on equals by ascending descending is as switch with"

end Rule

end CSharpDraft.Fragment
