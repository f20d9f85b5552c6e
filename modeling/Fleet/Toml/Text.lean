import Fleet.Text.Hex

/-!
The four kinds of quoted text in a settings file. Each reader starts behind the opening quotes and
answers the text and what follows the closing quotes.
-/
namespace Fleet.Toml.Text

/-- A character that may stand in a file: anything but the control characters, of which only the
tab is allowed. -/
def isPrintable (c : Char) : Bool := c == '\t' || (0x20 ≤ c.toNat && c.toNat ≠ 0x7f)

/-- The character with a code point, if there is one. -/
def scalar? (n : Nat) : Option Char :=
  if n < 0xd800 || (0xe000 ≤ n && n < 0x110000) then some (Char.ofNat n) else none

/-- What a basic text is in the middle of. -/
inductive Inside where
  | plain
  | escape
  /-- Behind a backslash and `u` or `U`: so many digits are missing from the number so far. -/
  | code (missing value : Nat)
  /-- Behind a backslash at the end of a line, before the line break. -/
  | lineEnd
  /-- Behind that line break: blanks and line breaks are passed over. -/
  | gap

/-- The character that a letter behind a backslash stands for. -/
def escaped? : Char → Option Char
  | 'b' => some '\x08'
  | 't' => some '\t'
  | 'n' => some '\n'
  | 'f' => some '\x0c'
  | 'r' => some '\r'
  | '"' => some '"'
  | '\\' => some '\\'
  | _ => none

/-- One step behind a backslash: the state and the text after it. -/
def escapeStep (c : Char) (read : List Char) : Option (Inside × List Char) :=
  if c == 'u' then some (.code 4 0, read)
  else if c == 'U' then some (.code 8 0, read)
  else (escaped? c).map fun e => (.plain, e :: read)

def codeStep (c : Char) (missing value : Nat) (read : List Char) :
    Option (Inside × List Char) := do
  let value := 16 * value + (← Text.hexDigit? c)
  if missing ≤ 1 then return (.plain, (← scalar? value) :: read)
  else return (.code (missing - 1) value, read)

def result (read rest : List Char) : Option (String × List Char) :=
  some (String.ofList read.reverse, rest)

/-- Reads a text on one line up to the closing double quote. -/
def basic (inside : Inside) (read : List Char) : List Char → Option (String × List Char)
  | [] => none
  | c :: rest =>
    match inside with
    | .escape => do
      let (inside, read) ← escapeStep c read
      basic inside read rest
    | .code missing value => do
      let (inside, read) ← codeStep c missing value read
      basic inside read rest
    | _ =>
      if c == '"' then result read rest
      else if c == '\\' then basic .escape read rest
      else if isPrintable c then basic .plain (c :: read) rest
      else none

/-- Reads a text without escapes up to the closing single quote. -/
def literal (read : List Char) : List Char → Option (String × List Char)
  | [] => none
  | c :: rest =>
    if c == '\'' then result read rest
    else if isPrintable c then literal (c :: read) rest
    else none

/-- Reads a text of several lines up to three double quotes. One or two more belong to the text. -/
def longBasic (inside : Inside) (read : List Char) : List Char → Option (String × List Char)
  | [] => none
  | '\r' :: '\n' :: rest =>
    match inside with
    | .plain => longBasic .plain ('\n' :: read) rest
    | .escape | .lineEnd | .gap => longBasic .gap read rest
    | .code _ _ => none
  | c :: rest =>
    match inside with
    | .escape =>
      if c == '\n' then longBasic .gap read rest
      else if c == ' ' || c == '\t' then longBasic .lineEnd read rest
      else do
        let (inside, read) ← escapeStep c read
        longBasic inside read rest
    | .code missing value => do
      let (inside, read) ← codeStep c missing value read
      longBasic inside read rest
    | .lineEnd =>
      if c == '\n' then longBasic .gap read rest
      else if c == ' ' || c == '\t' then longBasic .lineEnd read rest
      else none
    | .gap | .plain =>
      let skipped := match inside with
        | .gap => c == '\n' || c == ' ' || c == '\t'
        | _ => false
      if skipped then longBasic .gap read rest
      else if c == '\\' then longBasic .escape read rest
      else if c == '"' then
        match rest with
        | '"' :: '"' :: '"' :: '"' :: rest => result ('"' :: '"' :: read) rest
        | '"' :: '"' :: '"' :: rest => result ('"' :: read) rest
        | '"' :: '"' :: rest => result read rest
        | rest => longBasic .plain ('"' :: read) rest
      else if c == '\n' || isPrintable c then longBasic .plain (c :: read) rest
      else none

/-- Reads a text of several lines without escapes up to three single quotes. One or two more belong
to the text. -/
def longLiteral (read : List Char) : List Char → Option (String × List Char)
  | [] => none
  | '\r' :: '\n' :: rest => longLiteral ('\n' :: read) rest
  | c :: rest =>
    if c == '\'' then
      match rest with
      | '\'' :: '\'' :: '\'' :: '\'' :: rest => result ('\'' :: '\'' :: read) rest
      | '\'' :: '\'' :: '\'' :: rest => result ('\'' :: read) rest
      | '\'' :: '\'' :: rest => result read rest
      | rest => longLiteral ('\'' :: read) rest
    else if c == '\n' || isPrintable c then longLiteral (c :: read) rest
    else none

/-- A line break right behind the opening quotes does not count. -/
def skipFirstBreak : List Char → List Char
  | '\n' :: rest => rest
  | '\r' :: '\n' :: rest => rest
  | rest => rest

end Fleet.Toml.Text
