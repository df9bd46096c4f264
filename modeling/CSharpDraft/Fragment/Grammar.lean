import CSharpDraft.Fragment.Grammar.Declaration
import CSharpDraft.Fragment.Lexer
import CSharpDraft.Fragment.Parser

/-!
# The grammar of C# files

`grammar` is the table of all rules and `parse?` reads a file with it: the whole text must be tokens, and the whole list
of tokens must be declarations and statements. `Grammar.parser` is the parser that this makes, the one that the program
runs.
-/

set_option autoImplicit false

namespace CSharpDraft.Fragment

def grammar : Rule → Pattern Rule
  | .type => Grammar.type
  | .typeArguments => Grammar.typeArguments
  | .attributes => Grammar.attributes
  | .parameters => Grammar.parameters
  | .argument => Grammar.argument
  | .expression arrow => Grammar.expression arrow
  | .operand effect => Grammar.operand effect
  | .suffixes effect assignable complete => Grammar.suffixes effect assignable complete
  | .elements => Grammar.elements
  | .shape => Grammar.shape
  | .binding => Grammar.binding
  | .query => Grammar.query
  | .block => Grammar.block
  | .statement => Grammar.statement
  | .tupleNames => Grammar.tupleNames
  | .variableList => Grammar.variableList
  | .functionBody => Grammar.functionBody
  | .condition => Grammar.condition
  | .statementBranch => Grammar.branch (.rule .statement) (.rule .statementBranch)
  | .memberBranch => Grammar.branch (.rule .member) (.rule .memberBranch)
  | .member => Grammar.member
  | .declaration => Grammar.declaration
  | .topLevel => Grammar.topLevel

/-- Whether the brackets of the tokens match, with the closing brackets that are due. -/
def bracketsMatch : List Text → List Token → Bool
  | due, [] => due.isEmpty
  | due, t :: ts =>
    if t.kind != .symbol then bracketsMatch due ts
    else if t.text == ['('] then bracketsMatch ([')'] :: due) ts
    else if t.text == ['['] then bracketsMatch ([']'] :: due) ts
    else if t.text == ['{'] then bracketsMatch (['}'] :: due) ts
    else if [[')'], [']'], ['}']].contains t.text then due.head? == some t.text && bracketsMatch due.tail ts
    else bracketsMatch due ts

/-- The most steps that a match takes from one token to the next. -/
def stepsPerToken : Nat := 400

/-- The tree of a file, if the text is one. Where the brackets do not match, no rule needs to be tried. -/
def parse? (source : Text) : Option Tree :=
  match (tokens? source).filter (bracketsMatch []) with
  | none => none
  | some ts =>
    match Pattern.run grammar (stepsPerToken * (ts.length + 1)) (.many (.rule .topLevel)) ts with
    | some (row, rest) =>
      if (Pattern.skipTrivia rest).isEmpty then some (.node .other (row ++ rest.map .leaf)) else none
    | none => none

instance Grammar.parser : Parser where
  parse? := parse?

end CSharpDraft.Fragment
