import PocketCalculator.Text.Basic

/-!
# Bytes as text

Bytes are written six bits at a time, three bytes as four characters. Equals signs fill up the last
four characters.
-/

namespace PocketCalculator

/-- The character for six bits. -/
def base64Char (n : Nat) : Char :=
  if n < 26 then Char.ofNat ('A'.toNat + n)
  else if n < 52 then Char.ofNat ('a'.toNat + (n - 26))
  else if n < 62 then Char.ofNat ('0'.toNat + (n - 52))
  else if n = 62 then '+'
  else '/'

/-- The first `count` characters for the 24 bits of a number. -/
def base64Group (count : Nat) (n : Nat) : Text :=
  (List.range count).map fun i => base64Char (n >>> (6 * (3 - i)) % 64)

/-- The text of some bytes. -/
def base64 : List UInt8 → Text
  | [] => []
  | [a] => base64Group 2 (a.toNat * 65536) ++ ['=', '=']
  | [a, b] => base64Group 3 (a.toNat * 65536 + b.toNat * 256) ++ ['=']
  | a :: b :: c :: rest =>
    base64Group 4 (a.toNat * 65536 + b.toNat * 256 + c.toNat) ++ base64 rest

end PocketCalculator
