/-!
# Blank characters

White space between lexemes, and the smaller set of characters that may surround a numeral.
-/

namespace RuleExpr.Text

/-- White space: the controls of layout and separation, the space, and the spaces and line separators
of other scripts. -/
def isBlank (c : Char) : Bool :=
  let n := c.toNat
  (0x09 ≤ n && n ≤ 0x0D) || (0x1C ≤ n && n ≤ 0x20) || n == 0x85 || n == 0xA0 || n == 0x1680 ||
    (0x2000 ≤ n && n ≤ 0x200A) || n == 0x2028 || n == 0x2029 || n == 0x202F || n == 0x205F ||
    n == 0x3000

theorem isBlank_of_isWhitespace {c : Char} (h : c.isWhitespace = true) : isBlank c = true := by
  simp only [Char.isWhitespace, Bool.or_eq_true, decide_eq_true_eq] at h
  rcases h with ((rfl | rfl) | rfl) | rfl <;> rfl

/-- The four information separators are blank but may not surround a numeral. -/
def isNumeralPadding (c : Char) : Bool :=
  isBlank c && !(0x1C ≤ c.toNat && c.toNat ≤ 0x1F)

theorem isBlank_of_isNumeralPadding {c : Char} (h : isNumeralPadding c = true) : isBlank c = true := by
  simp only [isNumeralPadding, Bool.and_eq_true] at h
  exact h.1

/-- The text without the characters of a class at its two ends. -/
def trimBy (drop : Char → Bool) (cs : List Char) : List Char :=
  ((cs.dropWhile drop).reverse.dropWhile drop).reverse

@[simp] theorem trimBy_nil (drop : Char → Bool) : trimBy drop [] = [] := rfl

/-- The text without the white space at its two ends. -/
def trim (cs : List Char) : List Char :=
  trimBy isBlank cs

end RuleExpr.Text
