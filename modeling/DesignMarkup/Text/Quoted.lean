import DesignMarkup.Text.Printable
import DesignMarkup.Text.Combining

/-!
Quoted texts for messages to a person: between double quotes, with everything that could not be
read there written as an escape.
-/

namespace DesignMarkup.Text

/-- The hexadecimal digits of a number, lower case, without leading zeros. -/
def hexDigits (n : Nat) : List Char :=
  Nat.toDigits 16 n

/-- One character of a quoted text.  Quotes and backslashes are escaped, and so are the
characters that are not printable or attach to the character before them. -/
def quoteChar (c : Char) : List Char :=
  match c with
  | '"' => ['\\', '"']
  | '\\' => ['\\', '\\']
  | '\n' => ['\\', 'n']
  | '\t' => ['\\', 't']
  | '\r' => ['\\', 'r']
  | '\x00' => ['\\', '0']
  | c =>
      if isPrintable c && !isCombining c then [c]
      else ['\\', 'u', '\x7b'] ++ hexDigits c.toNat ++ ['\x7d']

/-- A text between double quotes, its characters escaped where needed. -/
def quoted (s : String) : String :=
  String.ofList (['"'] ++ s.toList.flatMap quoteChar ++ ['"'])

end DesignMarkup.Text
