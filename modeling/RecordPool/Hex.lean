import RecordPool.Bytes

/-!
# Byte strings in hexadecimal

Every byte is written as two lower-case digits, the upper half first, with nothing
between bytes.  Reading accepts no other digits.
-/

namespace RecordPool.Hex

/-- The digit of a number below sixteen. -/
def digit (n : Nat) : Char :=
  Nat.digitChar n

/-- The number of a digit. -/
def digit? (c : Char) : Option Nat :=
  if '0' ≤ c ∧ c ≤ '9' then some (c.toNat - '0'.toNat)
  else if 'a' ≤ c ∧ c ≤ 'f' then some (c.toNat - 'a'.toNat + 10)
  else none

/-- The two digits of a byte. -/
def byteDigits (byte : UInt8) : List Char :=
  [digit (byte.toNat / 16), digit (byte.toNat % 16)]

/-- The digits of a byte string. -/
def digits (bytes : Bytes) : List Char :=
  bytes.flatMap byteDigits

/-- The text of a byte string. -/
def text (bytes : Bytes) : String :=
  String.ofList (digits bytes)

/-- The byte string of digits. -/
def ofDigits? : List Char → Option Bytes
  | [] => some []
  | [_] => none
  | high :: low :: rest => do
      let byte := UInt8.ofNat (16 * (← digit? high) + (← digit? low))
      return byte :: (← ofDigits? rest)

/-- The byte string of a text. -/
def ofText? (text : String) : Option Bytes :=
  ofDigits? text.toList

end RecordPool.Hex
