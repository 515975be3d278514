import StoreClient.Text.Unicode

/-!
# Quoted text

A text between double quotes, in which the quote, the backslash and every character without a
printed form of its own are written as escapes. Tab, line feed, carriage return and NUL have escapes
of one letter or digit; any other character is named by its code point in hexadecimal.
-/

namespace StoreClient.Quoted

/-- How one character stands inside the quotes. -/
def escape (c : Char) : List Char :=
  match c with
  | '\x00' => ['\\', '0']
  | '\t' => ['\\', 't']
  | '\n' => ['\\', 'n']
  | '\r' => ['\\', 'r']
  | '"' => ['\\', '"']
  | '\\' => ['\\', '\\']
  | c =>
    if Unicode.isUnprinted c then
      ['\\', 'u', '\x7b'] ++ Nat.toDigits 16 c.toNat ++ ['\x7d']
    else [c]

/-- The quoted form of a text. -/
def quote (s : String) : String := String.ofList ('"' :: s.toList.flatMap escape ++ ['"'])

end StoreClient.Quoted
