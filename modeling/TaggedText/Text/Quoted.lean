/-
Quoted texts, as shown in listings and log lines.

`quoted` puts a text between double quotes. NUL, tab, carriage return and line feed, the quote and the backslash
have escapes of two characters; every other character that cannot be shown as it is becomes `\u` and its code
point in lower-case hexadecimal digits between braces. The result stays on one line.
-/
import TaggedText.Text.Printable

namespace TaggedText.Text

def quotedChar (c : Char) : Text :=
  match c with
  | '\x00' => ['\\', '0']
  | '\t' => ['\\', 't']
  | '\r' => ['\\', 'r']
  | '\n' => ['\\', 'n']
  | '"' => ['\\', '"']
  | '\\' => ['\\', '\\']
  | c => if isPlain c then [c] else ['\\', 'u', '\x7b'] ++ Nat.toDigits 16 c.toNat ++ ['\x7d']

def quoted (t : Text) : Text :=
  '"' :: t.flatMap quotedChar ++ ['"']

end TaggedText.Text
