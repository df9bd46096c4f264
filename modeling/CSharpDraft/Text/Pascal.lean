import CSharpDraft.Text.Case
import CSharpDraft.Text.Letter

/-!
# Pascal case

`pascal` turns a key such as `account-holder` or `first_name` into the name of a type or property: the first character
and each word character after a separator are put in upper case, and that separator is dropped. All else is kept.
-/

set_option autoImplicit false

namespace CSharpDraft.Text

/-- The characters that separate the words of a key. -/
def isSeparator (c : Char) : Bool := c == '_' || c == '-'

/-- Drops each separator in front of a word character and writes that character in upper case, from left to right. The
underscore is a word character too, so of two separators in a row the first may raise the second. -/
def raiseWords : Text → Text
  | s :: c :: r => if isSeparator s && isWord c then upperChar c ++ raiseWords r else s :: raiseWords (c :: r)
  | r => r

/-- A key in Pascal case; a blank key has none and gives the empty text. -/
def pascal (t : Text) : Text :=
  if isBlank t then []
  else
    match t with
    | [] => []
    | c :: r => upperChar c ++ raiseWords r

end CSharpDraft.Text
