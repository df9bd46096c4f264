import CSharpDraft.Text.Basic

/-!
# Tokens of C# source

A token keeps the blank text in front of it, so a list of tokens holds its source up to the blanks at the end.

* `Token`, `TokenKind`: tokens and what they are to a grammar. An interpolated string is cut at its holes, so the
  expressions in it are ordinary tokens between its parts.
* `isGapChar`: the characters of which gaps are made.
* `Token.isTrivia`: the tokens that may stand between any two others.
* `spelling`: the source text that a list of tokens covers.
-/

set_option autoImplicit false

namespace CSharpDraft.Fragment

/-- A part of an interpolated string: all of it, or what stands before, between and behind its holes. -/
inductive StringPart where
  | whole
  | opening
  | middle
  | closing
  deriving DecidableEq, Repr

/-- Whether a character may stand in the gap between two tokens. -/
def isGapChar (c : Char) : Bool :=
  let n := c.toNat
  (0x09 ≤ n && n ≤ 0x0D) || n == 0x20 || n == 0xA0 || n == 0xFEFF || n == 0x3000

/-- What a token is. Keywords are words like names: which words are reserved depends on the place. -/
inductive TokenKind where
  | word
  | escapedWord
  | number
  | character
  | string
  | interpolated (part : StringPart)
  | symbol
  | comment
  | directive
  | conditional
  deriving DecidableEq, Repr

/-- A token with the blank text in front of it. -/
structure Token where
  kind : TokenKind
  gap : Text
  text : Text
  deriving DecidableEq, Repr

/-- Comments and directive lines may stand between any two other tokens. -/
def Token.isTrivia (t : Token) : Bool := t.kind == .comment || t.kind == .directive

/-- Whether the token touches the one in front of it. -/
def Token.isTight (t : Token) : Bool := t.gap.isEmpty

def Token.isSymbol (t : Token) (s : Text) : Bool := t.kind == .symbol && t.text == s

/-- Whether the token is the word `w`, written without an escape. -/
def Token.isWord (t : Token) (w : Text) : Bool := t.kind == .word && t.text == w

/-- Whether the token is one of the words, written without an escape. -/
def Token.isOneOf (t : Token) (ws : List Text) : Bool := t.kind == .word && ws.contains t.text

/-- The source text of the tokens, without the blanks in front of the first. -/
def spelling : List Token → Text
  | [] => []
  | t :: ts => t.text ++ ts.flatMap (fun u => u.gap ++ u.text)

end CSharpDraft.Fragment
