/-!
# Texts: blank characters, lines, one-line form

A text is the list of its characters, so every rule below is a recursion on a list.

* `isBlankChar`, `isLineBreak`: the two character classes; every line break is blank (`isBlankChar_of_isLineBreak`).
* `trim`, `isBlank`: a text without its outer blanks, and the texts that have nothing else.
* `atMost`: the order of texts by code points.
* `lines`: the lines of a text; a carriage return and the line feed after it end one line together.
* `collapse`: the trimmed non-blank lines, joined by one space each.
* `indent`: every line moved right, through a new split of the text into lines.
-/

set_option autoImplicit false

namespace CSharpDraft

/-- A text, as the list of its characters. -/
abbrev Text := List Char

namespace Text

/-! ## Character classes -/

/-- The characters that `trim` removes: the Unicode white space of category Zs, the line and paragraph separators, and
the control characters that separate. -/
def isBlankChar (c : Char) : Bool :=
  let n := c.toNat
  (0x09 ≤ n && n ≤ 0x0D) || (0x1C ≤ n && n ≤ 0x20) || n == 0x85 || n == 0xA0 || n == 0x1680 ||
    (0x2000 ≤ n && n ≤ 0x200A) || n == 0x2028 || n == 0x2029 || n == 0x202F || n == 0x205F || n == 0x3000

def isLineBreak (c : Char) : Bool :=
  let n := c.toNat
  (0x0A ≤ n && n ≤ 0x0D) || (0x1C ≤ n && n ≤ 0x1E) || n == 0x85 || n == 0x2028 || n == 0x2029

theorem isBlankChar_of_isLineBreak {c : Char} (h : isLineBreak c = true) : isBlankChar c = true := by
  simp only [isLineBreak, isBlankChar, Bool.or_eq_true, Bool.and_eq_true, decide_eq_true_eq, beq_iff_eq] at h ⊢
  omega

/-! ## Trimming -/

/-- Whether a text has blank characters only; the empty text has. -/
def isBlank (t : Text) : Bool := t.all isBlankChar

def trimLeft (t : Text) : Text := t.dropWhile isBlankChar

def trimRight (t : Text) : Text := (t.reverse.dropWhile isBlankChar).reverse

def trim (t : Text) : Text := trimRight (trimLeft t)

/-- A text without one leading `c`, if it starts with one. -/
def dropLeading (c : Char) : Text → Text
  | [] => []
  | d :: r => if d = c then r else d :: r

/-- A text without one trailing `c`, if it ends with one. -/
def dropTrailing (c : Char) (t : Text) : Text := (dropLeading c t.reverse).reverse

/-! ## Order -/

/-- Whether a text comes before another or is the same, by the code points of their characters. -/
def atMost : Text → Text → Bool
  | [], _ => true
  | _ :: _, [] => false
  | a :: s, b :: t => a.toNat < b.toNat || (a.toNat == b.toNat && atMost s t)

/-! ## Lines -/

/-- Puts a character in front of the first line, which it starts if there is none. -/
def consLine (c : Char) : List Text → List Text
  | [] => [[c]]
  | l :: ls => (c :: l) :: ls

/-- The lines of a text, without their ends. A line break at the end of the text starts no further line. -/
def lines : Text → List Text
  | [] => []
  | '\r' :: '\n' :: r => [] :: lines r
  | c :: r => if isLineBreak c then [] :: lines r else consLine c (lines r)

/-- The texts in a row, with `separator` between each two of them. -/
def join (separator : Text) (ts : List Text) : Text := separator.intercalate ts

/-- The lines in a row, a line feed between each two of them. -/
def unlines (ls : List Text) : Text := join ['\n'] ls

/-- The text on one line: its non-blank lines, trimmed, with one space between each two of them. -/
def collapse (t : Text) : Text := join [' '] (((lines t).map trim).filter (fun l => !l.isEmpty))

/-! ## Indentation -/

def margin : Text := [' ', ' ', ' ', ' ']

/-- A line one step to the right; an empty line stays empty. -/
def indentLine (l : Text) : Text := if l.isEmpty then [] else margin ++ l

/-- Moves a text one step to the right. The text is split into lines anew, so each of its line breaks becomes a line
feed; its first line is moved even when empty. -/
def indent (t : Text) : Text :=
  match lines (t ++ ['\n']) with
  | [] => margin
  | first :: rest => unlines ((margin ++ first) :: rest.map indentLine)

end Text

end CSharpDraft
