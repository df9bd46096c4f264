import CSharpDraft.Json.Reader
import CSharpDraft.Text.Literal

/-!
# JSON values as texts

`JsonValue.written` is the text of a value where a text is wanted: that of a string is the string, and any other value is
written as a literal. Real numbers are doubles, which are written with as few digits as tell them from all others.

* `Double`, `Double.nearest?`: doubles, and the one that is nearest to a number.
* `Double.digits`: the shortest digits of a double, and where the point is among them.
* `JsonValue.literal`, `JsonValue.written`: values as literals and as texts.
-/

set_option autoImplicit false

namespace CSharpDraft

/-! ## Doubles -/

/-- The number `significand * 2 ^ exponent`, with at most 53 bits. -/
structure Double where
  significand : Nat
  exponent : Int
  deriving DecidableEq, Repr

namespace Double

def value (d : Double) : Rat := d.significand * (2 : Rat) ^ d.exponent

/-- The highest power of two that is at most the number. -/
def binaryPlace (x : Rat) : Int :=
  let place : Int := x.num.natAbs.log2 - x.den.log2
  if (2 : Rat) ^ place ≤ x then place else place - 1

/-- The integer that is nearest to a number, and the even one if there are two. -/
def round (x : Rat) : Nat :=
  let low := x.floor.toNat
  let rest := x - low
  if rest < 1 / 2 || (rest == 1 / 2 && low % 2 == 0) then low else low + 1

/-- The double that is nearest to a positive number, unless the number is too large. -/
def nearest? (x : Rat) : Option Double :=
  let exponent := if binaryPlace x < -1022 then -1074 else binaryPlace x - 52
  let significand := round (x / (2 : Rat) ^ exponent)
  let d : Double :=
    if significand = 0x20000000000000 then ⟨0x10000000000000, exponent + 1⟩ else ⟨significand, exponent⟩
  if 971 < d.exponent then none else some d

/-- The highest power of ten that is at most the number. -/
def decimalPlace (x : Rat) : Int :=
  let place := binaryPlace x * 30103 / 100000
  if x < (10 : Rat) ^ place then place - 1 else if x < (10 : Rat) ^ (place + 1) then place else place + 1

/-- So many digits that stand for the double, if there are such: of two that do, those that are nearer to it. -/
def digitsOf? (d : Double) (count : Nat) : Option (Text × Int) :=
  let place := decimalPlace d.value + 1 - count
  let scaled := d.value / (10 : Rat) ^ place
  let low := scaled.floor.toNat
  let standsFor (n : Nat) : Bool := nearest? (n * (10 : Rat) ^ place) == some d
  let digits (n : Nat) : Text × Int := ((toString n).toList, (toString n).length + place)
  if standsFor (round scaled) then some (digits (round scaled))
  else if standsFor low then some (digits low)
  else if standsFor (low + 1) then some (digits (low + 1))
  else none

/-- The shortest digits that stand for the double, behind a point, and the power of ten that they are to be taken by. Any
double is told by 17 digits. -/
def digits (d : Double) : Text × Int :=
  let (ds, place) := ((List.range 17).findSome? (fun n => digitsOf? d (n + 1))).getD ([], 0)
  ((ds.reverse.dropWhile (· == '0')).reverse, place)

/-- A double in decimal notation, or in exponents where that would take many zeros. -/
def text (d : Double) : Text :=
  let (ds, place) := d.digits
  let zeros (n : Int) : Text := List.replicate n.toNat '0'
  if place ≤ -4 || 16 < place then
    let exponent := (toString (place - 1).natAbs).toList
    ds.take 1 ++ (if ds.length = 1 then [] else '.' :: ds.drop 1) ++ ['e', if place < 1 then '-' else '+'] ++
      (if exponent.length < 2 then '0' :: exponent else exponent)
  else if place ≤ 0 then "0.".toList ++ zeros (-place) ++ ds
  else if ds.length ≤ place.toNat then ds ++ zeros (place - ds.length) ++ ".0".toList
  else ds.take place.toNat ++ ['.'] ++ ds.drop place.toNat

/-- The text of the double that is nearest to a number with these digits, without a sign. A number of more than 310 places
is larger than all doubles, and one below the place -330 rounds to zero. -/
def textOfDigits (t : Text) : Text :=
  let whole := t.takeWhile Char.isDigit
  let fraction := ((t.drop whole.length).dropWhile (· == '.')).takeWhile Char.isDigit
  let exponent : Int :=
    match t.dropWhile (fun c => c != 'e' && c != 'E') with
    | _ :: '-' :: ds => -(JsonValue.digitsValue ds : Int)
    | _ :: '+' :: ds => JsonValue.digitsValue ds
    | _ :: ds => JsonValue.digitsValue ds
    | [] => 0
  let significand := JsonValue.digitsValue (whole ++ fraction)
  let place := exponent - fraction.length
  let size := (toString significand).length + place
  if significand = 0 || size < -330 then "0.0".toList
  else if 310 < size then "inf".toList
  else
    match nearest? (significand * (10 : Rat) ^ place) with
    | none => "inf".toList
    | some d => if d.significand = 0 then "0.0".toList else d.text

end Double

namespace JsonValue

/-! ## Literals -/

/-- A real number by its digits. -/
def realText (digits : Text) : Text :=
  let magnitude (t : Text) : Text :=
    if t = "NaN".toList then "nan".toList
    else if t = "Infinity".toList then "inf".toList
    else Double.textOfDigits t
  match digits with
  | '-' :: t => '-' :: magnitude t
  | t => magnitude t

mutual

def literal : JsonValue → Text
  | null => "None".toList
  | bool b => if b then "True".toList else "False".toList
  | int v => (toString v).toList
  | real digits => realText digits
  | string t => Text.literal t
  | array items => ['['] ++ Text.join ", ".toList (itemLiterals items) ++ [']']
  | object entries => ['{'] ++ Text.join ", ".toList (entryLiterals entries) ++ ['}']

def itemLiterals : List JsonValue → List Text
  | [] => []
  | v :: vs => v.literal :: itemLiterals vs

def entryLiterals : List (Text × JsonValue) → List Text
  | [] => []
  | (key, v) :: rest => (Text.literal key ++ ": ".toList ++ v.literal) :: entryLiterals rest

end

/-- The value as a text. -/
def written : JsonValue → Text
  | string t => t
  | v => v.literal

end JsonValue

end CSharpDraft
