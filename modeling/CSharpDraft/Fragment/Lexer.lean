import CSharpDraft.Fragment.Token
import CSharpDraft.Text.Letter

/-!
# From source text to tokens

`tokens?` cuts a source text into tokens from left to right, each time as long as possible; it has no answer when a
string, a character or a comment is left open or when no token starts with the next character.

* `scan…`: one function per form of token; each gives what the token takes and what it leaves.
* `Hole`: the interpolated strings around the current place, innermost first. The brackets opened in a hole are
  counted, so the brace that closes the hole is known; the question marks are counted too, so the colon that starts a
  format is told from the colon of a conditional.
* `nextToken`: the next token, for a text that starts with one.
-/

set_option autoImplicit false

namespace CSharpDraft.Fragment

open CSharpDraft.Text (isNameStart isNameRest)

/-- What a token takes from a text, and what it leaves. -/
abbrev Cut := Text × Text

def Cut.prepend (t : Text) (c : Cut) : Cut := (t ++ c.1, c.2)

/-- The longest run of characters of a class. -/
def scanWhile (p : Char → Bool) (t : Text) : Cut := (t.takeWhile p, t.dropWhile p)

/-! ## Comments and directives -/

def scanComment : Text → Option Cut
  | '*' :: '/' :: r => some (['*', '/'], r)
  | c :: r => (scanComment r).map (Cut.prepend [c])
  | [] => none

/-- The directives that take the rest of their line. -/
def lineDirectives : List Text :=
  ["region".toList, "endregion".toList, "error".toList, "warning".toList, "line".toList, "pragma".toList,
    "nullable".toList, "define".toList, "undef".toList]

/-- The directives around conditional parts of the source. -/
def conditionalDirectives : List Text := ["if".toList, "elif".toList, "else".toList, "endif".toList]

/-- A directive, from behind its number sign. A directive that takes its line must have a line feed behind it. -/
def scanDirective (t : Text) : Option (TokenKind × Cut) :=
  let (blanks, r) := scanWhile (fun c => c == ' ' || c == '\t') t
  let (word, rest) := scanWhile (fun c => c.isAlpha) r
  if conditionalDirectives.contains word then some (.conditional, Cut.prepend blanks (word, rest))
  else if lineDirectives.contains word then
    let (line, after) := scanWhile (fun c => c != '\n') t
    if after.isEmpty then none
    else
      let kept := Text.trimRight line
      some (.directive, kept, t.drop kept.length)
  else none

/-! ## Numbers -/

def scanDigits (p : Char → Bool) : Text → Cut := scanWhile (fun c => p c || c == '_')

def isAmong (cs : Text) (c : Char) : Bool := cs.contains c

def isHexDigit (c : Char) : Bool := c.isDigit || isAmong "abcdefABCDEF".toList c

def scanExponent : Text → Cut
  | e :: s :: d :: r =>
    if isAmong ['e', 'E'] e && isAmong ['+', '-'] s && d.isDigit then
      Cut.prepend [e, s] (scanDigits Char.isDigit (d :: r))
    else if isAmong ['e', 'E'] e && s.isDigit then Cut.prepend [e] (scanDigits Char.isDigit (s :: d :: r))
    else ([], e :: s :: d :: r)
  | [e, d] => if isAmong ['e', 'E'] e && d.isDigit then ([e, d], []) else ([], [e, d])
  | t => ([], t)

/-- An optional fraction, which needs a digit behind its point. -/
def scanFraction : Text → Cut
  | '.' :: d :: r => if d.isDigit then Cut.prepend ['.'] (scanDigits Char.isDigit (d :: r)) else ([], '.' :: d :: r)
  | t => ([], t)

/-- At most `n` letters of a number's suffix. -/
def scanSuffix (n : Nat) (letters : Text) (t : Text) : Cut :=
  let taken := (t.take n).takeWhile (isAmong letters)
  (taken, t.drop taken.length)

def scanNumber (t : Text) : Cut :=
  match t with
  | '0' :: x :: r =>
    if isAmong ['x', 'X'] x then
      let (digits, rest) := scanDigits isHexDigit r
      Cut.prepend (['0', x] ++ digits) (scanSuffix 2 "uUlL".toList rest)
    else if isAmong ['b', 'B'] x then
      let (digits, rest) := scanDigits (isAmong ['0', '1']) r
      Cut.prepend (['0', x] ++ digits) (scanSuffix 2 "uUlL".toList rest)
    else scanDecimal t
  | _ => scanDecimal t
where
  /-- A decimal integer or a real number. -/
  scanDecimal (t : Text) : Cut :=
    let (whole, r) := scanDigits Char.isDigit t
    let (fraction, r) := scanFraction r
    let (exponent, r) := scanExponent r
    let taken := whole ++ fraction ++ exponent
    let (mark, r) := scanSuffix 1 "fFdDmM".toList r
    if fraction.isEmpty && exponent.isEmpty && mark.isEmpty then
      Cut.prepend taken (scanSuffix 2 "uUlL".toList r)
    else Cut.prepend taken (mark, r)

/-! ## Characters and strings -/

/-- Hexadecimal digits, between `least` and `most` of them. -/
def scanHex (least most : Nat) (t : Text) : Option Cut :=
  let digits := (t.take most).takeWhile isHexDigit
  if least ≤ digits.length then some (digits, t.drop digits.length) else none

def scanEscape : Text → Option Cut
  | 'x' :: r => (scanHex 2 4 r).map (Cut.prepend ['x'])
  | 'u' :: r => (scanHex 4 4 r).map (Cut.prepend ['u'])
  | 'U' :: r => (scanHex 8 8 r).map (Cut.prepend ['U'])
  | c :: r => if isAmong "abefnrtv'\"\\?0".toList c then some ([c], r) else none
  | [] => none

/-- A character literal, from behind its first quote. -/
def scanCharacter : Text → Option Cut
  | '\\' :: r =>
    match scanEscape r with
    | some (taken, '\'' :: rest) => some (['\\'] ++ taken ++ ['\''], rest)
    | _ => none
  | '\'' :: _ => none
  | c :: '\'' :: r => some ([c, '\''], r)
  | _ => none

/-- A string on one line, from behind its first quote; a backslash guards the character after it. -/
def scanString : Text → Option Cut
  | '"' :: r => some (['"'], r)
  | '\n' :: _ => none
  | '\\' :: c :: r => (scanString r).map (Cut.prepend ['\\', c])
  | c :: r => (scanString r).map (Cut.prepend [c])
  | [] => none

/-- A verbatim string, from behind its first quote; a doubled quote stands for one. -/
def scanVerbatim : Text → Option Cut
  | '"' :: '"' :: r => (scanVerbatim r).map (Cut.prepend ['"', '"'])
  | '"' :: r => some (['"'], r)
  | c :: r => (scanVerbatim r).map (Cut.prepend [c])
  | [] => none

/-- A raw string up to `quotes` quotes in a row, of which `seen` have just been seen. -/
def scanRaw (quotes : Nat) (seen : Nat) : Text → Option Cut
  | '"' :: r => if seen + 1 == quotes then some (['"'], r) else (scanRaw quotes (seen + 1) r).map (Cut.prepend ['"'])
  | c :: r => (scanRaw quotes 0 r).map (Cut.prepend [c])
  | [] => none

/-- The mark of a string of bytes, which may follow a string. -/
def scanBytesMark : Text → Cut
  | c :: '8' :: r => if isAmong ['u', 'U'] c then ([c, '8'], r) else ([], c :: '8' :: r)
  | t => ([], t)

/-- A cut that takes the mark of a string of bytes in addition. -/
def Cut.withBytesMark (c : Cut) : Cut := Cut.prepend c.1 (scanBytesMark c.2)

/-! ## Interpolated strings -/

/-- How an interpolated string is quoted. A raw one has several quotes, and as many braces around a hole as it has
dollar signs. -/
inductive Quote where
  | regular
  | verbatim
  | raw (quotes braces : Nat)
  deriving DecidableEq, Repr

/-- How a stretch of an interpolated string ends: at a hole or with the string. -/
inductive StretchEnd where
  | hole
  | close
  deriving DecidableEq, Repr

/-- A stretch of an interpolated string: what it takes, how it ends, and what it leaves. -/
abbrev Stretch := Text × StretchEnd × Text

/-- A stretch that takes `t` in addition, in front. -/
def Stretch.prepend (t : Text) (s : Stretch) : Stretch := (t ++ s.1, s.2)

def stretchRegular : Text → Option Stretch
  | '"' :: r => some (['"'], .close, r)
  | '{' :: '{' :: r => (stretchRegular r).map (Stretch.prepend ['{', '{'])
  | '{' :: r => some (['{'], .hole, r)
  | '\n' :: _ => none
  | '\\' :: c :: r => (stretchRegular r).map (Stretch.prepend ['\\', c])
  | c :: r => (stretchRegular r).map (Stretch.prepend [c])
  | [] => none

def stretchVerbatim : Text → Option Stretch
  | '"' :: '"' :: r => (stretchVerbatim r).map (Stretch.prepend ['"', '"'])
  | '"' :: r => some (['"'], .close, r)
  | '{' :: '{' :: r => (stretchVerbatim r).map (Stretch.prepend ['{', '{'])
  | '{' :: r => some (['{'], .hole, r)
  | c :: r => (stretchVerbatim r).map (Stretch.prepend [c])
  | [] => none

/-- A stretch of a raw interpolated string, after `seenQuotes` quotes or `seenBraces` braces in a row. -/
def stretchRaw (quotes braces seenQuotes seenBraces : Nat) : Text → Option Stretch
  | '"' :: r =>
    if seenQuotes + 1 == quotes then some (['"'], .close, r)
    else (stretchRaw quotes braces (seenQuotes + 1) 0 r).map (Stretch.prepend ['"'])
  | '{' :: r =>
    if seenBraces + 1 == braces then some (['{'], .hole, r)
    else (stretchRaw quotes braces 0 (seenBraces + 1) r).map (Stretch.prepend ['{'])
  | c :: r => (stretchRaw quotes braces 0 0 r).map (Stretch.prepend [c])
  | [] => none

def stretch : Quote → Text → Option Stretch
  | .regular, t => stretchRegular t
  | .verbatim, t => stretchVerbatim t
  | .raw quotes braces, t => stretchRaw quotes braces 0 0 t

def Quote.closing : Quote → Text
  | .raw _ braces => List.replicate braces '}'
  | _ => ['}']

/-- A hole of an interpolated string around the current place: the brackets and the question marks that wait for their
partner in it. -/
structure Hole where
  quote : Quote
  depth : Nat
  questions : Nat
  deriving DecidableEq, Repr

/-- The next token, from its kind, its cut and the holes around the place behind it. -/
abbrev Step := TokenKind × Cut × List Hole

/-- An interpolated string from behind its first quotes `opening`. -/
def openString (quote : Quote) (opening : Text) (holes : List Hole) (t : Text) : Option Step :=
  match stretch quote t with
  | some (taken, .close, rest) => some (.interpolated .whole, (opening ++ taken, rest), holes)
  | some (taken, .hole, rest) => some (.interpolated .opening, (opening ++ taken, rest), ⟨quote, 0, 0⟩ :: holes)
  | none => none

/-- The stretch behind a hole, whose end `closing` has just been seen. -/
def resumeString (quote : Quote) (closing : Text) (holes : List Hole) (t : Text) : Option Step :=
  match stretch quote t with
  | some (taken, .close, rest) => some (.interpolated .closing, (closing ++ taken, rest), holes)
  | some (taken, .hole, rest) => some (.interpolated .middle, (closing ++ taken, rest), ⟨quote, 0, 0⟩ :: holes)
  | none => none

/-- The end of a hole, with the format in front of it if there is one. -/
def closeHole (hole : Hole) (holes : List Hole) (t : Text) : Option Step :=
  let (format, rest) :=
    match t with
    | ':' :: r => Cut.prepend [':'] (scanWhile (fun c => c != '}' && c != '"' && c != '\n') r)
    | _ => ([], t)
  let closing := hole.quote.closing
  if closing.isPrefixOf rest then resumeString hole.quote (format ++ closing) holes (rest.drop closing.length) else none

/-- Whether the hole ends here: at its closing brace, or at the colon in front of a format. -/
def Hole.endsAt (hole : Hole) (t : Text) : Bool :=
  hole.depth == 0 &&
    match t with
    | '}' :: _ => true
    | ':' :: ':' :: _ => false
    | ':' :: _ => hole.questions == 0
    | _ => false

/-- The hole behind a symbol, with the rest of the text. -/
def Hole.after (hole : Hole) (symbol rest : Text) : Hole :=
  if [['('], ['['], ['{']].contains symbol then { hole with depth := hole.depth + 1 }
  else if [[')'], [']'], ['}']].contains symbol then { hole with depth := hole.depth - 1 }
  else if hole.depth != 0 then hole
  else if symbol == ['?'] && !(['.'].isPrefixOf rest || ['['].isPrefixOf rest) then
    { hole with questions := hole.questions + 1 }
  else if symbol == [':'] then { hole with questions := hole.questions - 1 }
  else hole

/-! ## Symbols -/

/-- The symbols, longer ones first. A `>` closes type arguments, so the shift operators are left to the grammar. -/
def symbols : List Text :=
  ["??=".toList, "<<=".toList, "=>".toList, "==".toList, "!=".toList, "<=".toList, ">=".toList, "&&".toList,
    "||".toList, "??".toList, "++".toList, "--".toList, "+=".toList, "-=".toList, "*=".toList, "/=".toList,
    "%=".toList, "&=".toList, "|=".toList, "^=".toList, "<<".toList, "->".toList, "::".toList, "..".toList] ++
    "\x7b\x7d()[];,.:?+-*/%&|^!~=<>".toList.map (fun c => [c])

/-- The symbol at the start of a text. -/
def scanSymbol (holes : List Hole) (t : Text) : Option Step :=
  match symbols.find? (fun s => s.isPrefixOf t) with
  | none => none
  | some s =>
    let rest := t.drop s.length
    let holes :=
      match holes with
      | [] => []
      | hole :: outer => hole.after s rest :: outer
    some (.symbol, (s, rest), holes)

/-! ## Words and strings by their first characters -/

def scanName (t : Text) : Option Cut :=
  match t with
  | c :: _ => if isNameStart c then some (scanWhile isNameRest t) else none
  | [] => none

def scanQuoted (t : Text) : Option Cut :=
  let quotes := t.takeWhile (· == '"')
  if 3 ≤ quotes.length then
    (scanRaw quotes.length 0 (t.drop quotes.length)).map (fun c => (Cut.prepend quotes c).withBytesMark)
  else (scanString (t.drop 1)).map (fun c => (Cut.prepend ['"'] c).withBytesMark)

def scanInterpolated (holes : List Hole) (t : Text) : Option Step :=
  let (dollars, r) := scanWhile (· == '$') t
  match r with
  | '@' :: '"' :: r => openString .verbatim (dollars ++ ['@', '"']) holes r
  | '"' :: '"' :: '"' :: _ =>
    let (quotes, r) := scanWhile (· == '"') r
    openString (.raw quotes.length dollars.length) (dollars ++ quotes) holes r
  | '"' :: r => openString .regular (dollars ++ ['"']) holes r
  | _ => none

/-- The next token of a text that starts with one. -/
def nextToken (holes : List Hole) (t : Text) : Option Step :=
  let plain (kind : TokenKind) (c : Option Cut) : Option Step := c.map (fun c => (kind, c, holes))
  match t with
  | '/' :: '/' :: r =>
    plain .comment (some (Cut.prepend ['/', '/'] (scanWhile (fun c => c != '\n' && c != '\r') r)))
  | '/' :: '*' :: r => plain .comment ((scanComment r).map (Cut.prepend ['/', '*']))
  | '#' :: r => (scanDirective r).map (fun (kind, c) => (kind, Cut.prepend ['#'] c, holes))
  | '\'' :: r => plain .character ((scanCharacter r).map (Cut.prepend ['\'']))
  | '"' :: _ => plain .string (scanQuoted t)
  | '@' :: '"' :: r => plain .string ((scanVerbatim r).map (fun c => (Cut.prepend ['@', '"'] c).withBytesMark))
  | '@' :: '$' :: '"' :: r => openString .verbatim ['@', '$', '"'] holes r
  | '$' :: _ => scanInterpolated holes t
  | '@' :: r => plain .escapedWord ((scanName r).map (Cut.prepend ['@']))
  | c :: d :: _ =>
    if c.isDigit || (c == '.' && d.isDigit) then plain .number (some (scanNumber t))
    else if isNameStart c then plain .word (scanName t)
    else scanInside t
  | c :: _ =>
    if c.isDigit then plain .number (some (scanNumber t))
    else if isNameStart c then plain .word (scanName t)
    else scanInside t
  | [] => none
where
  /-- A symbol, or the end of the innermost hole. -/
  scanInside (t : Text) : Option Step :=
    match holes with
    | hole :: outer => if hole.endsAt t then closeHole hole outer t else scanSymbol holes t
    | [] => scanSymbol holes t

/-- The tokens of a text, at most `fuel` of them. -/
def tokensFrom : Nat → List Hole → Text → Option (List Token)
  | 0, _, _ => none
  | fuel + 1, holes, t =>
    let (gap, rest) := scanWhile isGapChar t
    if rest.isEmpty then (if holes.isEmpty then some [] else none)
    else
      match nextToken holes rest with
      | none => none
      | some (kind, (taken, left), holes) => (tokensFrom fuel holes left).map (⟨kind, gap, taken⟩ :: ·)

/-- The tokens of a source text; each takes at least one character. -/
def tokens? (t : Text) : Option (List Token) := tokensFrom (t.length + 1) [] t

end CSharpDraft.Fragment
