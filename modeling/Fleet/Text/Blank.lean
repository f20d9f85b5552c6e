/-!
White space as the Unicode property of that name, and the removal of it around a text. What is left
when blanks have been dropped does not start with one.
-/
namespace Fleet.Text

/-- The characters with the Unicode property White_Space. -/
def isBlank (c : Char) : Bool :=
  let n := c.toNat
  (0x09 ≤ n && n ≤ 0x0d) || n == 0x20 || n == 0x85 || n == 0xa0 || n == 0x1680 ||
  (0x2000 ≤ n && n ≤ 0x200a) || n == 0x2028 || n == 0x2029 || n == 0x202f || n == 0x205f ||
  n == 0x3000

def trimLeft (s : List Char) : List Char := s.dropWhile isBlank

def trimRight (s : List Char) : List Char := (trimLeft s.reverse).reverse

def trim (s : List Char) : List Char := trimRight (trimLeft s)

theorem isBlank_of_isWhitespace {c : Char} (h : c.isWhitespace = true) : isBlank c = true := by
  simp only [Char.isWhitespace, Bool.or_eq_true, decide_eq_true_eq] at h
  rcases h with ((h | h) | h) | h <;> subst h <;> decide

@[simp] theorem trim_nil : trim [] = [] := rfl

theorem trimLeft_eq_self {s : List Char} (h : ∀ c ∈ s.head?, isBlank c = false) :
    trimLeft s = s := by
  cases s with
  | nil => rfl
  | cons c rest => simp [trimLeft, h c (by simp)]

theorem isBlank_head_trimLeft {s : List Char} {c : Char} (h : c ∈ (trimLeft s).head?) :
    isBlank c = false := by
  induction s with
  | nil => simp [trimLeft] at h
  | cons d rest ih =>
    by_cases blank : isBlank d = true
    · exact ih (by simpa [trimLeft, blank] using h)
    · simp only [trimLeft, List.dropWhile_cons, blank] at h
      simp_all

end Fleet.Text
