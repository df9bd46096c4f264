import CSharpDraft.Fragment.Tree

/-!
# Parsers

Pieces of C# are laid out along the tree that a parser makes of them. `Parser` is all that the layout asks of it: the
tree of a file.
-/

set_option autoImplicit false

namespace CSharpDraft.Fragment

/-- A parser of C#. -/
class Parser where
  /-- The tree of a file, if the text is one. -/
  parse? : Text → Option Tree

end CSharpDraft.Fragment
