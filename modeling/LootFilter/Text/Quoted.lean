import LootFilter.Text.Hidden

/-!
# Quoted text

A text in double quotes. The quote, the backslash and the usual control characters are written with
a backslash, every other hidden character by its code point, and all else as it is.
-/

namespace LootFilter.Text

def lowerHex (n : Nat) : List Char := Nat.toDigits 16 n

def escapeChar : Char → List Char
  | '\x00' => ['\\', '0']
  | '\t' => ['\\', 't']
  | '\n' => ['\\', 'n']
  | '\r' => ['\\', 'r']
  | '"' => ['\\', '"']
  | '\\' => ['\\', '\\']
  | c => if isHidden c then "\\u\x7b".toList ++ lowerHex c.toNat ++ ['\x7d'] else [c]

def quote (s : String) : String :=
  String.ofList ('"' :: s.toList.flatMap escapeChar ++ ['"'])

end LootFilter.Text
