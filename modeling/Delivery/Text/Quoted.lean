import Delivery.Text.Printable

/-!
Quoted text: how a name is shown inside a message. The text stands between double quotes; a quote, a
backslash and the control characters that have a letter are escaped, and what cannot be printed is
given by its code point.
-/

namespace Delivery.Text

def hex (n : Nat) : String := String.ofList (Nat.toDigits 16 n)

def quotedChar (c : Char) : String :=
  match c with
  | '"' => "\\\""
  | '\\' => "\\\\"
  | '\t' => "\\t"
  | '\n' => "\\n"
  | '\r' => "\\r"
  | '\x00' => "\\0"
  | c => if isPrintable c then c.toString else "\\u\x7b" ++ hex c.toNat ++ "\x7d"

def quoted (s : String) : String :=
  "\"" ++ String.join (s.toList.map quotedChar) ++ "\""

end Delivery.Text
