import CSharpDraft.Json.Value

/-!
# Reading JSON

`JsonValue.readRaw?` reads a text that is one JSON value with white space around it. Beyond the standard, `NaN`, `Infinity`
and `-Infinity` are real numbers.

A number with a fraction or an exponent is a real number, any other is an integer of any size. Two escapes in a row that
are the halves of one character stand for that character; a half without its partner is kept as it is, and keys that
differ in such a half are different keys. `JsonValue.read?` is the value as it can be shown.
-/

set_option autoImplicit false

namespace CSharpDraft.JsonValue

/-! ## White space, literals, digits -/

def isSpace (c : Char) : Bool := c == ' ' || c == '\t' || c == '\n' || c == '\r'

/-- A text without the white space at its start. -/
def skipSpace (t : Text) : Text := t.dropWhile isSpace

/-- What is left of a text behind a word that it must start with. -/
def after? (word : String) (t : Text) : Option Text :=
  let w := word.toList
  if w.isPrefixOf t then some (t.drop w.length) else none

def hexDigit? (c : Char) : Option Nat :=
  if c.isDigit then some (c.toNat - '0'.toNat)
  else if 'a' ≤ c && c ≤ 'f' then some (c.toNat - 'a'.toNat + 10)
  else if 'A' ≤ c && c ≤ 'F' then some (c.toNat - 'A'.toNat + 10)
  else none

def digitsValue (ds : Text) : Nat := ds.foldl (fun n d => 10 * n + (d.toNat - '0'.toNat)) 0

/-! ## Strings -/

def readUnit : Text → Option (Nat × Text)
  | a :: b :: c :: d :: r =>
    match hexDigit? a, hexDigit? b, hexDigit? c, hexDigit? d with
    | some a, some b, some c, some d => some (((a * 16 + b) * 16 + c) * 16 + d, r)
    | _, _, _, _ => none
  | _ => none

/-- The code point of a code unit, with the second half behind it where it is a first half. -/
def readCharacter (t : Text) : Option (CodePoint × Text) :=
  match readUnit t with
  | none => none
  | some (first, rest) =>
    if 0xD800 ≤ first && first ≤ 0xDBFF then
      match rest with
      | '\\' :: 'u' :: r =>
        match readUnit r with
        | some (second, r) =>
          if 0xDC00 ≤ second && second ≤ 0xDFFF then
            some (.ofNat (0x10000 + (first - 0xD800) * 0x400 + (second - 0xDC00)), r)
          else some (.ofNat first, rest)
        | none => none
      | _ => some (.ofNat first, rest)
    else some (.ofNat first, rest)

def shortEscape? : Char → Option Char
  | '"' => some '"'
  | '\\' => some '\\'
  | '/' => some '/'
  | 'b' => some '\x08'
  | 'f' => some '\x0c'
  | 'n' => some '\n'
  | 'r' => some '\r'
  | 't' => some '\t'
  | _ => none

/-- The code points of a string up to its closing quote, at most `fuel` of them. -/
def readChars : Nat → Text → Option (RawText × Text)
  | 0, _ => none
  | fuel + 1, t =>
    match t with
    | [] => none
    | '"' :: r => some ([], r)
    | '\\' :: 'u' :: r =>
      match readCharacter r with
      | some (c, r) => (readChars fuel r).map (fun (cs, r) => (c :: cs, r))
      | none => none
    | '\\' :: e :: r =>
      match shortEscape? e with
      | some c => (readChars fuel r).map (fun (cs, r) => (.char c :: cs, r))
      | none => none
    | c :: r =>
      if c.toNat < 0x20 || c == '\\' then none else (readChars fuel r).map (fun (cs, r) => (.char c :: cs, r))

def readString (t : Text) : Option (RawText × Text) := readChars (t.length + 1) t

/-! ## Numbers -/

/-- The digits of an integer: a zero alone, or digits that start with another. -/
def readInteger : Text → Option (Text × Text)
  | '0' :: r => some (['0'], r)
  | t =>
    let digits := t.takeWhile Char.isDigit
    if digits.isEmpty then none else some (digits, t.drop digits.length)

def readFraction : Text → Text × Text
  | '.' :: r =>
    let digits := r.takeWhile Char.isDigit
    if digits.isEmpty then ([], '.' :: r) else ('.' :: digits, r.drop digits.length)
  | t => ([], t)

def readExponent : Text → Text × Text
  | [] => ([], [])
  | e :: r =>
    if e == 'e' || e == 'E' then
      let (sign, s) :=
        match r with
        | '+' :: s => (['+'], s)
        | '-' :: s => (['-'], s)
        | s => ([], s)
      let digits := s.takeWhile Char.isDigit
      if digits.isEmpty then ([], e :: r) else (e :: sign ++ digits, s.drop digits.length)
    else ([], e :: r)

def readMagnitude (negative : Bool) (t : Text) : Option (JsonValue RawText × Text) :=
  match readInteger t with
  | none => none
  | some (whole, r) =>
    let (fraction, r) := readFraction r
    let (exponent, r) := readExponent r
    if fraction.isEmpty && exponent.isEmpty then
      let v : Int := digitsValue whole
      some (int (if negative then -v else v), r)
    else some (real ((if negative then ['-'] else []) ++ whole ++ fraction ++ exponent), r)

/-- A number, or one of the words that stand for numbers. -/
def readNumber (t : Text) : Option (JsonValue RawText × Text) :=
  match t with
  | '-' :: r =>
    match after? "Infinity" r with
    | some r => some (real "-Infinity".toList, r)
    | none => readMagnitude true r
  | _ => readMagnitude false t

/-! ## Values -/

def readWord (t : Text) : Option (JsonValue RawText × Text) :=
  let words := [("null", null), ("true", bool true), ("false", bool false), ("NaN", real "NaN".toList),
    ("Infinity", real "Infinity".toList)]
  words.findSome? (fun (word, value) => (after? word t).map (fun r => (value, r)))

mutual

/-- A value at the start of a text; `fuel` bounds the nesting. -/
def readValue : Nat → Text → Option (JsonValue RawText × Text)
  | 0, _ => none
  | fuel + 1, t =>
    match t with
    | '"' :: r => (readString r).map (fun (s, r) => (string s, r))
    | '[' :: r =>
      match skipSpace r with
      | ']' :: r => some (array [], r)
      | r => (readItems fuel r).map (fun (items, r) => (array items, r))
    | '{' :: r =>
      match skipSpace r with
      | '}' :: r => some (object [], r)
      | r => (readEntries fuel [] r).map (fun (entries, r) => (object entries, r))
    | t =>
      match readWord t with
      | some result => some result
      | none => readNumber t

/-- The items of an array, from its first item on. -/
def readItems : Nat → Text → Option (List (JsonValue RawText) × Text)
  | 0, _ => none
  | fuel + 1, t =>
    match readValue fuel t with
    | none => none
    | some (v, r) =>
      match skipSpace r with
      | ',' :: r => (readItems fuel (skipSpace r)).map (fun (vs, r) => (v :: vs, r))
      | ']' :: r => some ([v], r)
      | _ => none

/-- The entries of an object, from its next key on, after the entries read so far. -/
def readEntries : Nat → List (RawText × JsonValue RawText) → Text → Option (List (RawText × JsonValue RawText) × Text)
  | 0, _, _ => none
  | fuel + 1, seen, t =>
    match t with
    | '"' :: r =>
      match readString r with
      | none => none
      | some (key, r) =>
        match skipSpace r with
        | ':' :: r =>
          match readValue fuel (skipSpace r) with
          | none => none
          | some (v, r) =>
            match skipSpace r with
            | ',' :: r => readEntries fuel (put key v seen) (skipSpace r)
            | '}' :: r => some (put key v seen, r)
            | _ => none
        | _ => none
    | _ => none

end

/-- The value that a text is, with white space around it. -/
def readRaw? (t : Text) : Option (JsonValue RawText) :=
  match readValue (t.length + 1) (skipSpace t) with
  | some (v, r) => if (skipSpace r).isEmpty then some v else none
  | none => none

def read? (t : Text) : Option JsonValue := (readRaw? t).map shown

end CSharpDraft.JsonValue
