import RuleExpr.Proofs.Numeral.Digits

/-!
# The grammar of numerals

A numeral is made of blanks, a sign and digits; a decimal numeral may have a point with further digits and an exponent
behind them. The digits are `0` to `9`. Each part has a text and a value, and so has the numeral that is made of them.
-/
namespace RuleExpr.Numeral
open Text

/-- Whether the character is one of the four information separators, which are blank. -/
def isSeparator (c : Char) : Bool := 0x1C ≤ c.toNat && c.toNat ≤ 0x1F

/-- The sign in front of digits, which may be missing. -/
inductive Sign where
  | none
  | plus
  | minus
deriving DecidableEq, Repr

namespace Sign

def text : Sign → List Char
  | none => []
  | plus => ['+']
  | minus => ['-']

def isMinus (s : Sign) : Bool := s = minus

end Sign

/-- One or more digits. -/
abbrev Digits := {ds : List Char // IsDigits ds}

def Digits.value (ds : Digits) : ℕ := Nat.ofDigitChars 10 ds.val 0

@[ext]
structure SignedDigits where
  sign : Sign
  digits : Digits

namespace SignedDigits

def text (n : SignedDigits) : List Char := n.sign.text ++ n.digits.val

def value (n : SignedDigits) : ℤ := if n.sign.isMinus then -(n.digits.value : ℤ) else n.digits.value

end SignedDigits

/-- Blanks, a sign and digits. -/
@[ext]
structure IntegerNumeral extends SignedDigits where
  blanks : List Char
  isBlank_of_mem : ∀ c ∈ blanks, isBlank c = true

def IntegerNumeral.text (n : IntegerNumeral) : List Char := n.blanks ++ n.toSignedDigits.text

/-- A power of ten behind its mark. -/
@[ext]
structure Exponent extends SignedDigits where
  mark : Char
  isMark : isExponentMark mark = true

def Exponent.text (e : Exponent) : List Char := e.mark :: e.toSignedDigits.text

/-- A point and digits, which may be missing. -/
def fractionText : Option Digits → List Char
  | none => []
  | some fs => '.' :: fs.val

def fractionValue : Option Digits → ℚ
  | none => 0
  | some fs => fs.value / 10 ^ fs.val.length

def exponentText : Option Exponent → List Char
  | none => []
  | some e => e.text

def exponentValue : Option Exponent → ℤ
  | none => 0
  | some e => e.value

/-- Blanks, a sign and digits, with or without a point and further digits, and with or without an exponent. -/
@[ext]
structure DecimalNumeral extends IntegerNumeral where
  fraction : Option Digits
  exponent : Option Exponent

namespace DecimalNumeral

def text (n : DecimalNumeral) : List Char :=
  n.toIntegerNumeral.text ++ (fractionText n.fraction ++ exponentText n.exponent)

/-- The number that the numeral denotes but for its sign. -/
def magnitude (n : DecimalNumeral) : ℚ :=
  (n.digits.value + fractionValue n.fraction) * 10 ^ exponentValue n.exponent

end DecimalNumeral

/-! ## Characters -/

theorem isSeparator_iff {c : Char} : isSeparator c = true ↔ 0x1C ≤ c.toNat ∧ c.toNat ≤ 0x1F := by
  rw [isSeparator, Bool.and_eq_true, decide_eq_true_eq, decide_eq_true_eq]

theorem isBlank_of_isSeparator {c : Char} (h : isSeparator c = true) : isBlank c = true := by
  have hrange := isSeparator_iff.1 h
  simp only [isBlank, Bool.or_eq_true, Bool.and_eq_true, decide_eq_true_eq]
  omega

/-- Blanks may surround a numeral unless they are separators. -/
theorem isNumeralPadding_of_isBlank {c : Char} (h : isBlank c = true) : isNumeralPadding c = !isSeparator c := by
  rw [isNumeralPadding, h, Bool.true_and]
  rfl

theorem isExponentMark_iff {c : Char} : isExponentMark c = true ↔ c = 'e' ∨ c = 'E' := by
  rw [isExponentMark, Bool.or_eq_true, decide_eq_true_eq, decide_eq_true_eq]

theorem not_mark_of_isAsciiDigit {c : Char} (h : isAsciiDigit c = true) : isExponentMark c = false := by
  rw [Bool.eq_false_iff]
  intro hmark
  rcases isExponentMark_iff.1 hmark with rfl | rfl <;> cases h

theorem not_sign_of_isAsciiDigit {c : Char} (h : isAsciiDigit c = true) : c ≠ '-' ∧ c ≠ '+' := by
  constructor <;> intro hsign <;> rw [hsign] at h <;> cases h

theorem splitSign_of_not_sign {c : Char} (h : c ≠ '-' ∧ c ≠ '+') (cs : List Char) :
    splitSign (c :: cs) = (false, c :: cs) := by
  apply splitSign.eq_3
  · intro rest heq
    exact h.1 (List.cons.inj heq).1
  · intro rest heq
    exact h.2 (List.cons.inj heq).1

theorem splitSignText_of_not_sign {c : Char} (h : c ≠ '-' ∧ c ≠ '+') (cs : List Char) :
    splitSignText (c :: cs) = ([], c :: cs) := by
  have hplain : ¬ (c = '-' || c = '+') = true := by
    rw [Bool.or_eq_true, decide_eq_true_eq, decide_eq_true_eq, not_or]
    exact h
  exact if_neg hplain

/-! ## Signs in front of digits -/

namespace SignedDigits
variable (n : SignedDigits) (tail : List Char)

/-- The sign of a numeral is read off, whatever stands behind its digits. -/
theorem splitSign_text : splitSign (n.text ++ tail) = (n.sign.isMinus, n.digits.val ++ tail) := by
  obtain ⟨s, ds, hds⟩ := n
  obtain ⟨c, cs, rfl⟩ := List.exists_cons_of_ne_nil hds.1
  rw [text, List.append_assoc]
  cases s with
  | plus | minus => rfl
  | none => exact splitSign_of_not_sign (not_sign_of_isAsciiDigit (hds.2 c List.mem_cons_self)) _

theorem splitSignText_text : splitSignText (n.text ++ tail) = (n.sign.text, n.digits.val ++ tail) := by
  obtain ⟨s, ds, hds⟩ := n
  obtain ⟨c, cs, rfl⟩ := List.exists_cons_of_ne_nil hds.1
  rw [text, List.append_assoc]
  cases s with
  | plus | minus => rfl
  | none => exact splitSignText_of_not_sign (not_sign_of_isAsciiDigit (hds.2 c List.mem_cons_self)) _

end SignedDigits

end RuleExpr.Numeral
