import CSharpDraft.Text.Literal

/-!
# Decoding bytes

`Utf8.decode` reads the bytes of a file as UTF-8, byte by byte. Bytes that are no text are refused with a complaint about
the first of them that cannot be read.
-/

set_option autoImplicit false

namespace CSharpDraft.Utf8

/-- How many bytes follow a first byte, and the range of the first of them. -/
def tail? (b : Nat) : Option (Nat × Nat × Nat) :=
  if 0xC2 ≤ b && b ≤ 0xDF then some (1, 0x80, 0xBF)
  else if b = 0xE0 then some (2, 0xA0, 0xBF)
  else if b = 0xED then some (2, 0x80, 0x9F)
  else if 0xE1 ≤ b && b ≤ 0xEF then some (2, 0x80, 0xBF)
  else if b = 0xF0 then some (3, 0x90, 0xBF)
  else if 0xF1 ≤ b && b ≤ 0xF3 then some (3, 0x80, 0xBF)
  else if b = 0xF4 then some (3, 0x80, 0x8F)
  else none

/-- Where a decoder is: between two characters, or inside of one. -/
inductive State where
  | between
  /-- Behind the first bytes of a character: how many there are with the first of all, the value so far, how many are still
  to come, and the range of the next. -/
  | inside (read first value left low high : Nat)
  deriving DecidableEq, Repr

/-- What the decoder says about bytes from a position on. -/
def complaint (position count first : Nat) (reason : String) : Text :=
  if count = 1 then
    "'utf-8' codec can't decode byte 0x".toList ++ Text.hexDigits 2 first ++ " in position ".toList ++
      (toString position).toList ++ ": ".toList ++ reason.toList
  else
    "'utf-8' codec can't decode bytes in position ".toList ++ (toString position).toList ++ ['-'] ++
      (toString (position + count - 1)).toList ++ ": ".toList ++ reason.toList

/-- Decodes the bytes from a position on. -/
def decodeFrom (position : Nat) : State → List UInt8 → Except Text Text
  | .between, [] => .ok []
  | .inside read first _ _ _ _, [] => .error (complaint (position - read) read first "unexpected end of data")
  | .between, byte :: bytes =>
    let b := byte.toNat
    if b < 0x80 then (decodeFrom (position + 1) .between bytes).map (Char.ofNat b :: ·)
    else
      match tail? b with
      | none => .error (complaint position 1 b "invalid start byte")
      | some (left, low, high) =>
        decodeFrom (position + 1) (.inside 1 b (b % 2 ^ (6 - left)) left low high) bytes
  | .inside read first value left low high, byte :: bytes =>
    let b := byte.toNat
    let value := value * 64 + b % 64
    if b < low || high < b then .error (complaint (position - read) read first "invalid continuation byte")
    else if left = 1 then (decodeFrom (position + 1) .between bytes).map (Char.ofNat value :: ·)
    else decodeFrom (position + 1) (.inside (read + 1) first value (left - 1) 0x80 0xBF) bytes

def decode (bytes : List UInt8) : Except Text Text := decodeFrom 0 .between bytes

end CSharpDraft.Utf8
