import CSharpDraft.Fragment.Token

/-!
# Trees over tokens

A tree has tokens as leaves and nodes of five kinds above them: the kinds are those that the layout of a block tells
apart.

* `Tree.tokens`: the tokens under a tree, from left to right; `Tree.text` is the source text that they cover.
* `group`: a node over a row of trees. Comments in front of the row stay outside the node, so a comment belongs to the
  lowest node with tokens on both sides of it.
* `Tree.firstBlock?`: the first block of a tree, from the top down and from left to right.
-/

set_option autoImplicit false

namespace CSharpDraft.Fragment

/-- What a node is: a block, a statement, a clause of a `try` statement, a conditional part of the source, or anything
else. -/
inductive NodeKind where
  | block
  | statement
  | clause
  | conditional
  | other
  deriving DecidableEq, Repr

inductive Tree where
  | leaf (token : Token)
  | node (kind : NodeKind) (children : List Tree)
  deriving Repr

namespace Tree

mutual

/-- The tokens under a tree, from left to right. -/
def tokens : Tree → List Token
  | leaf t => [t]
  | node _ children => tokensOf children

def tokensOf : List Tree → List Token
  | [] => []
  | c :: cs => tokens c ++ tokensOf cs

end

/-- The source text of a row of trees, without the blanks in front. -/
def textOf (cs : List Tree) : Text := spelling (tokensOf cs)

/-- The source text of a tree, without the blanks in front. -/
def text (t : Tree) : Text := spelling (tokens t)

def isBlock : Tree → Bool
  | node .block _ => true
  | _ => false

/-- Whether the tree is a statement, or a clause of one. -/
def isStatement : Tree → Bool
  | node .statement _ => true
  | node .clause _ => true
  | _ => false

/-- Whether the tree is laid out on its own inside a statement. -/
def isLaidOut (t : Tree) : Bool := t.isBlock || t.isStatement

/-- Whether the tree is a comment or a directive line. -/
def isTrivia : Tree → Bool
  | leaf t => t.isTrivia
  | _ => false

/-- Whether the tree counts among the parts of a block, unlike the braces around them. -/
def isPart : Tree → Bool
  | leaf t => t.isTrivia
  | node _ _ => true

/-- A node over a row of trees, behind the comments in front of the row. -/
def group (kind : NodeKind) (row : List Tree) : List Tree :=
  row.takeWhile isTrivia ++ [node kind (row.dropWhile isTrivia)]

mutual

/-- The first block of a tree, the tree itself before the trees below it. -/
def firstBlock? : Tree → Option Tree
  | leaf _ => none
  | node .block children => some (node .block children)
  | node _ children => firstBlockOf? children

/-- The first block of a row of trees. -/
def firstBlockOf? : List Tree → Option Tree
  | [] => none
  | c :: cs =>
    match firstBlock? c with
    | some b => some b
    | none => firstBlockOf? cs

end

end Tree

end CSharpDraft.Fragment
