import CSharpDraft.Text.Literal

/-!
# Code points

A string literal may name half of a character, one of the code points U+D800 to U+DFFF that UTF-16 uses in pairs. Such a
half has no form in UTF-8: it can be read and passed on, but not be written to a file or parsed as C#.

* `RawText`: the code points of a string, the halves among them.
* `RawText.shown`: the text with a mark in the place of each half. No rule tells the mark from a half: neither is a blank,
  a letter or a separator, and neither has another case.
* `RawText.encode`: the text, or where its first halves are.
-/

set_option autoImplicit false

namespace CSharpDraft

/-- A character, or one half of one, counted from U+D800. -/
inductive CodePoint where
  | char (c : Char)
  | half (n : Fin 2048)
  deriving DecidableEq, Repr

namespace CodePoint

def ofNat (n : Nat) : CodePoint :=
  if 0xD800 ≤ n && n ≤ 0xDFFF then half (Fin.ofNat 2048 (n - 0xD800)) else char (Char.ofNat n)

def isHalf : CodePoint → Bool
  | char _ => false
  | half _ => true

def shown : CodePoint → Char
  | char c => c
  | half _ => Char.ofNat 0xFFFD

end CodePoint

abbrev RawText := List CodePoint

def Text.raw (t : Text) : RawText := t.map .char

/-- The halves that a text cannot be encoded for, and the number of code points before them. -/
structure EncodingFault where
  position : Nat
  halves : List (Fin 2048)
  deriving DecidableEq, Repr

namespace EncodingFault

def message (f : EncodingFault) : Text :=
  match f.halves with
  | [n] =>
    "'utf-8' codec can't encode character '\\u".toList ++ Text.hexDigits 4 (0xD800 + n.val) ++ "' in position ".toList ++
      (toString f.position).toList ++ ": surrogates not allowed".toList
  | halves =>
    "'utf-8' codec can't encode characters in position ".toList ++ (toString f.position).toList ++ ['-'] ++
      (toString (f.position + halves.length - 1)).toList ++ ": surrogates not allowed".toList

end EncodingFault

namespace RawText

def shown (t : RawText) : Text := t.map CodePoint.shown

def isWhole (t : RawText) : Bool := t.all (fun c => !c.isHalf)

/-- The halves at the start of a text. -/
def halves : RawText → List (Fin 2048)
  | .half n :: t => n :: halves t
  | _ => []

/-- The first halves of a text that stands behind so many code points. -/
def faultFrom? (position : Nat) : RawText → Option EncodingFault
  | [] => none
  | .char _ :: t => faultFrom? (position + 1) t
  | .half n :: t => some { position, halves := n :: halves t }

/-- What UTF-8 has a form for; otherwise it is the first halves in a row that are at fault. -/
def encode (t : RawText) : Except EncodingFault Text :=
  match faultFrom? 0 t with
  | some fault => .error fault
  | none => .ok (shown t)

/-- A text without the blanks around it. -/
def trim (t : RawText) : RawText :=
  let isBlank (c : CodePoint) : Bool := Text.isBlankChar c.shown
  ((t.dropWhile isBlank).reverse.dropWhile isBlank).reverse

end RawText

end CSharpDraft
