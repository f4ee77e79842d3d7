/-! # String literals

A literal stands between two equal quotes. Inside it a backslash takes the next character as it is,
except that `n`, `t` and `r` stand for the line feed, the tab and the carriage return.

`literal` writes a string between double quotes; `readLiteral` reads what follows an opening quote.
-/

namespace ExprLang.Text

/-- The character that an escape stands for. -/
def unescape : Char → Char
  | 'n' => '\n'
  | 't' => '\t'
  | 'r' => '\r'
  | c => c

/-- How a character is written in a literal. -/
def escape : Char → List Char
  | '\x22' => ['\\', '\x22']
  | '\\' => ['\\', '\\']
  | '\n' => ['\\', 'n']
  | '\t' => ['\\', 't']
  | '\r' => ['\\', 'r']
  | c => [c]

def literal (s : String) : String :=
  String.ofList ('\x22' :: s.toList.flatMap escape ++ ['\x22'])

/-- The content up to the first `quote` that no backslash takes, and the number of characters read,
the closing quote included. `none` if the text ends first. -/
def readLiteral (quote : Char) : List Char → Option (List Char × Nat)
  | [] => none
  | c :: rest =>
    if c = quote then some ([], 1)
    else if c = '\\' then
      match rest with
      | [] => none
      | e :: rest => (readLiteral quote rest).map fun (content, n) => (unescape e :: content, n + 2)
    else (readLiteral quote rest).map fun (content, n) => (c :: content, n + 1)

example : literal "a\"b" = "\"a\\\"b\"" := rfl

example : readLiteral '\x60' ['a', '\\', '\x60', '\\', 'n', '\x60', '+'] = some (['a', '\x60', '\n'], 6) := rfl

end ExprLang.Text
