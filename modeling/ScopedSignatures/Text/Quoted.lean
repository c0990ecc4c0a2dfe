/-!
# Quoted text

A text is quoted for a reader by putting it between double quotes and writing
quotes, backslashes and ASCII control characters as escapes. Characters above
ASCII stand for themselves.

For these this departs from the usual debug form of a text, which escapes some of
them too: those that do not show, such as U+0085, U+00A0, U+00AD and U+200B, and
those that join the character before them, such as U+0301, all by code point. Which
ones they are is for the tables of a version of Unicode to say. The two forms agree
on ASCII texts and wherever all other characters show by themselves. Only the
description of a symbol is made of quoted text; no key and no report has it.

## Main definitions

* `escape` — how one character is written between quotes
* `quote` — the quoted form of a text
-/

namespace ScopedSignatures.Quoted

/-- How a character is written between quotes. NUL, tab, carriage return, line
feed, the quote and the backslash have short escapes; the other ASCII control
characters are written by code point, in lower-case hexadecimal digits without
leading zeros. Any other character stands for itself, also where it does not show. -/
def escape (c : Char) : List Char :=
  match c with
  | '\x00' => ['\\', '0']
  | '\t' => ['\\', 't']
  | '\r' => ['\\', 'r']
  | '\n' => ['\\', 'n']
  | '"' => ['\\', '"']
  | '\\' => ['\\', '\\']
  | _ =>
    if c.toNat < 0x20 ∨ c.toNat = 0x7f then
      ['\\', 'u', '\x7b'] ++ Nat.toDigits 16 c.toNat ++ ['\x7d']
    else [c]

/-- The text between double quotes, each character as `escape` writes it. -/
def quote (text : String) : String :=
  String.ofList ('"' :: text.toList.flatMap escape ++ ['"'])

end ScopedSignatures.Quoted
