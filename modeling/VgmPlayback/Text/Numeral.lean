/-!
# Numerals

Decimal numerals as a user types them, hexadecimal numerals with upper-case digits, and text filled up to a
number of characters.
-/

namespace VgmPlayback.Text

/-- The number that decimal digits spell. -/
def digits? (cs : List Char) : Option Nat :=
  if cs.isEmpty || !cs.all Char.isDigit then none
  else some (cs.foldl (fun n c => 10 * n + (c.toNat - '0'.toNat)) 0)

/-- The number that decimal digits spell, with an optional plus sign before them. -/
def decimal? (s : String) : Option Nat :=
  match s.toList with
  | '+' :: cs => digits? cs
  | cs => digits? cs

/-- The number that decimal digits spell, with an optional sign of either kind before them. -/
def signedDecimal? (s : String) : Option Int :=
  match s.toList with
  | '-' :: cs => (digits? cs).map fun n => -(n : Int)
  | _ => (decimal? s).map fun n => (n : Int)

/-- The shortest hexadecimal numeral of `n`, with the digits `0`-`9` and `A`-`F`. -/
def hex (n : Nat) : String :=
  String.ofList ((Nat.toDigits 16 n).map Char.toUpper)

/-- The hexadecimal numeral of `n` with zeros in front up to `width` digits. -/
def hexPadded (width n : Nat) : String :=
  let digits := (Nat.toDigits 16 n).map Char.toUpper
  String.ofList (List.replicate (width - digits.length) '0' ++ digits)

/-- `s` followed by blanks up to `width` characters. -/
def padRight (width : Nat) (s : String) : String :=
  s ++ String.ofList (List.replicate (width - s.length) ' ')

end VgmPlayback.Text
