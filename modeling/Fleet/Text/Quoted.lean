import Fleet.Text.Hidden

/-!
Quoted text for messages: the text between double quotes, with everything that would not show
written as an escape.
-/
namespace Fleet.Text

/-- The digits of `n` in base sixteen, in lower case and without leading zeros. -/
def hex (n : Nat) : List Char := Nat.toDigits 16 n

def escape (c : Char) : List Char :=
  match c with
  | '"' => ['\\', '"']
  | '\\' => ['\\', '\\']
  | '\t' => ['\\', 't']
  | '\r' => ['\\', 'r']
  | '\n' => ['\\', 'n']
  | '\x00' => ['\\', '0']
  | c => if isHidden c then ['\\', 'u', '\x7b'] ++ hex c.toNat ++ ['\x7d'] else [c]

def quoted (s : String) : String :=
  String.ofList ('"' :: s.toList.flatMap escape ++ ['"'])

/-- A character that is neither hidden, a quote nor a backslash is written as it is. -/
theorem escape_of_visible {c : Char} (shows : isHidden c = false) (quote : c ≠ '"')
    (slash : c ≠ '\\') : escape c = [c] := by
  unfold escape
  split
  · exact absurd rfl quote
  · exact absurd rfl slash
  · exact absurd shows (by decide +kernel)
  · exact absurd shows (by decide +kernel)
  · exact absurd shows (by decide +kernel)
  · exact absurd shows (by decide +kernel)
  · rw [if_neg (by rw [shows]; decide)]

end Fleet.Text
