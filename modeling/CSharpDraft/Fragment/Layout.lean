import CSharpDraft.Fragment.Tree

/-!
# Layout of blocks

A block is laid out with its braces on lines of their own and one statement per line, one step to the right. A statement
that holds blocks is broken around them: the text between two blocks gets a line of its own. A statement without blocks
stays on one line, however long.

Blocks inside expressions, as in lambdas, are no blocks of the statement: only statements and the clauses of a `try`
are looked into (`Tree.holdsBlock`).
-/

set_option autoImplicit false

namespace CSharpDraft.Fragment

namespace Tree

mutual

/-- Whether a block stands directly below the tree, or below a statement or clause in it. -/
def holdsBlock : Tree → Bool
  | leaf _ => false
  | node _ children => rowHoldsBlock children

/-- Whether a row of trees has a block, or a statement or clause that holds one. -/
def rowHoldsBlock : List Tree → Bool
  | [] => false
  | c :: cs => c.isBlock || (c.isStatement && holdsBlock c) || rowHoldsBlock cs

end

/-- The line of the trees that wait for one, if there are any. -/
def pendingLine (pending : List Tree) : List Text :=
  if pending.isEmpty then [] else [Text.collapse (textOf pending)]

/-- Puts the trees that wait for a line in front of the first line. -/
def joinPending (pending : List Tree) (ls : List Text) : List Text :=
  match pending, ls with
  | [], ls => ls
  | _, [] => []
  | _, l :: ls => (Text.collapse (textOf pending) ++ [' '] ++ l) :: ls

mutual

def blockLines : Tree → List Text
  | leaf _ => []
  | node _ children => ['{'] :: partLines children ++ [['}']]

/-- The lines of the parts of a block, one step to the right. -/
def partLines : List Tree → List Text
  | [] => []
  | c :: cs => (if c.isPart then (statementLines c).map (Text.margin ++ ·) else []) ++ partLines cs

def statementLines : Tree → List Text
  | leaf t => [Text.collapse t.text]
  | node kind children =>
    if rowHoldsBlock children then brokenLines children []
    else [Text.collapse (text (node kind children))]

/-- The lines of a row of trees that is broken around its blocks, behind the trees that wait for a line. -/
def brokenLines : List Tree → List Tree → List Text
  | [], pending => pendingLine pending
  | c :: cs, pending =>
    if c.isBlock then pendingLine pending ++ blockLines c ++ brokenLines cs []
    else if c.isStatement && holdsBlock c then joinPending pending (statementLines c) ++ brokenLines cs []
    else brokenLines cs (pending ++ [c])

end

end Tree

end CSharpDraft.Fragment
