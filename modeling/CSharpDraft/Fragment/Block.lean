import CSharpDraft.Fragment.Layout
import CSharpDraft.Fragment.Parser
import CSharpDraft.Text.CodePoint

/-!
# Pieces of C# given as text

The bodies of accessors and the initial values of properties are given as free text.

* `formatExpression`, `formatDefault`: an expression or an initial value on one line, without the marks around it.
* `formatBlock`: the lines of a block. A parser reads the text as the body of a method; if that fails, all of it goes on
  one line between braces.
* `formatBody`: the lines of a block whose text may have halves of characters, which no parser is given.
-/

set_option autoImplicit false

namespace CSharpDraft.Fragment

/-- An expression on one line, without one semicolon at its end. -/
def formatExpression (t : Text) : Text := Text.trimRight (Text.dropTrailing ';' (Text.collapse t))

/-- An initial value on one line, without one equals sign at its start and one semicolon at its end. -/
def formatDefault (t : Text) : Text :=
  let value :=
    match Text.collapse t with
    | '=' :: r => Text.trimLeft r
    | line => line
  Text.trimRight (Text.dropTrailing ';' value)

/-- What stands before the body of a method in a file. -/
def wrapperStart : Text := "class __Fragment \x7b void __Body() ".toList

/-- What stands behind the body of a method in a file. -/
def wrapperEnd : Text := " \x7d".toList

/-- A file in which the text is the body of a method. -/
def wrapBody (body : Text) : Text := wrapperStart ++ Text.trim body ++ wrapperEnd

/-- The first block of the file around a body, if that is a file at all. -/
def bodyBlock? [Parser] (body : Text) : Option Tree := (Parser.parse? (wrapBody body)).bind Tree.firstBlock?

/-- The body on one line between braces. -/
def plainBlock (body : Text) : List Text :=
  let inner := Text.trim (Text.dropTrailing '}' (Text.dropLeading '{' (Text.trim body)))
  if inner.isEmpty then [['{'], ['}']] else [['{'], Text.margin ++ Text.collapse inner, ['}']]

def formatBlock [Parser] (body : Text) : List Text :=
  match bodyBlock? body with
  | some block => block.blockLines
  | none => plainBlock body

/-- The lines of a block, whose file is encoded before it is parsed. -/
def formatBody [Parser] (body : RawText) : Except EncodingFault (List Text) := do
  let _ ← (wrapperStart.raw ++ body.trim ++ wrapperEnd.raw).encode
  return formatBlock body.shown

end CSharpDraft.Fragment
