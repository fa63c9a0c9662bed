import RuleExpr.Text.Blank
import RuleExpr.Text.DecimalDigit

/-!
# Numerals

Decimal text of integers, and the numerals that are read as integers or as decimal fractions. A numeral
may be padded with blanks and may carry one sign; its digits may come from any script, and single
underscores may separate them. Integers are neither read from nor written as text of more than
`digitLimit` digits. The leading numeral of a text, which coercions read, is plainer: digits are `0` to
`9` and there are no underscores.
-/

namespace RuleExpr.Numeral

open Text

/-- The longest integer text, in digits. -/
def digitLimit : Nat := 4300

/-- The least magnitude whose text would be too long. -/
def writableBound : Nat := Nat.pow 10 digitLimit

/-- Whether the integer has a text within the limit. -/
def isWritable (n : Int) : Bool :=
  n.natAbs < writableBound

/-- Why a text is no numeral. -/
inductive Flaw where
  | malformed
  | tooManyDigits
deriving DecidableEq, Repr

def ofInt (n : Int) : List Char :=
  if n < 0 then '-' :: Nat.toDigits 10 n.natAbs else Nat.toDigits 10 n.natAbs

/-- The number that a list of digit values denotes, most significant first. -/
def ofDigits (ds : List Nat) : Nat :=
  ds.foldl (fun n d => 10 * n + d) 0

@[simp] theorem ofDigits_nil : ofDigits [] = 0 := rfl

/-- The values of one or more digits with single underscores allowed between them. -/
def digits? : List Char → Option (List Nat)
  | [] => none
  | [c] => (digitValue? c).map ([·])
  | c :: '_' :: cs => do return (← digitValue? c) :: (← digits? cs)
  | c :: cs => do return (← digitValue? c) :: (← digits? cs)

/-- Splits off one sign; the flag is true for a minus. -/
def splitSign : List Char → Bool × List Char
  | '-' :: cs => (true, cs)
  | '+' :: cs => (false, cs)
  | cs => (false, cs)

/-- Reads a padded integer numeral. -/
def toInt (cs : List Char) : Except Flaw Int :=
  let (negative, body) := splitSign (trimBy isNumeralPadding cs)
  match digits? body with
  | none => .error .malformed
  | some ds =>
    if ds.length ≤ digitLimit then .ok (if negative then -ofDigits ds else ofDigits ds)
    else .error .tooManyDigits

/-- A decimal fraction: the signed coefficient times a power of ten. -/
structure Fraction where
  negative : Bool
  coefficient : Nat
  exponent : Int
deriving DecidableEq, Repr

/-- The digit values of a part that may be empty. -/
def optionalDigits? : List Char → Option (List Nat)
  | [] => some []
  | c :: cs => digits? (c :: cs)

/-- Reads the exponent behind its mark: a signed integer without padding. -/
def exponent? (cs : List Char) : Option Int := do
  let (negative, body) := splitSign cs
  let ds ← digits? body
  return if negative then -ofDigits ds else ofDigits ds

def isExponentMark (c : Char) : Bool :=
  c = 'e' || c = 'E'

/-- Reads a padded decimal fraction: digits, a point and digits, of which one group may be missing, and an
exponent. -/
def toFraction (cs : List Char) : Option Fraction := do
  let (negative, body) := splitSign (trimBy isNumeralPadding cs)
  let mantissa := body.takeWhile (!isExponentMark ·)
  let tail := body.dropWhile (!isExponentMark ·)
  let wholeDigits ← optionalDigits? (mantissa.takeWhile (· != '.'))
  let fractionDigits ← optionalDigits? ((mantissa.dropWhile (· != '.')).drop 1)
  guard !(wholeDigits.isEmpty && fractionDigits.isEmpty)
  let exponent ← if tail.isEmpty then some 0 else exponent? (tail.drop 1)
  return ⟨negative, ofDigits (wholeDigits ++ fractionDigits), exponent - fractionDigits.length⟩

/-- Whether the character is one of the digits `0` to `9`. -/
def isAsciiDigit (c : Char) : Bool :=
  '0' ≤ c && c ≤ '9'

def splitDigits? (cs : List Char) : Option (List Char × List Char) :=
  if (cs.takeWhile isAsciiDigit).isEmpty then none
  else some (cs.takeWhile isAsciiDigit, cs.dropWhile isAsciiDigit)

theorem splitDigits?_eq_some {cs ds rest : List Char} (h : splitDigits? cs = some (ds, rest)) :
    ds ++ rest = cs ∧ ds ≠ [] := by
  unfold splitDigits? at h
  split at h
  · simp at h
  · next hne =>
    obtain ⟨rfl, rfl⟩ := Prod.mk.inj (Option.some.inj h)
    exact ⟨List.takeWhile_append_dropWhile, by simpa using hne⟩

/-- The sign characters in front of a numeral, and what follows them. -/
def splitSignText : List Char → List Char × List Char
  | c :: cs => if c = '-' || c = '+' then ([c], cs) else ([], c :: cs)
  | [] => ([], [])

/-- The longest leading text made of blanks, a sign and digits, and the rest. -/
def leadingInteger? (cs : List Char) : Option (List Char × List Char) := do
  let (sign, afterSign) := splitSignText (cs.dropWhile isBlank)
  let (ds, rest) ← splitDigits? afterSign
  return (cs.takeWhile isBlank ++ sign ++ ds, rest)

/-- A point and digits at the front of the text; nothing if they are missing. -/
def leadingFractionPart (cs : List Char) : List Char × List Char :=
  match cs with
  | '.' :: afterPoint =>
    match splitDigits? afterPoint with
    | some (ds, rest) => ('.' :: ds, rest)
    | none => ([], cs)
  | _ => ([], cs)

theorem leadingFractionPart_append (cs : List Char) :
    (leadingFractionPart cs).1 ++ (leadingFractionPart cs).2 = cs := by
  unfold leadingFractionPart
  split
  · split
    · next h => simp [(splitDigits?_eq_some h).1]
    · rfl
  · rfl

/-- An exponent at the front of the text; nothing if it is missing. -/
def leadingExponentPart (cs : List Char) : List Char × List Char :=
  match cs with
  | mark :: afterMark =>
    if isExponentMark mark then
      let (sign, afterSign) := splitSignText afterMark
      match splitDigits? afterSign with
      | some (ds, rest) => (mark :: sign ++ ds, rest)
      | none => ([], cs)
    else ([], cs)
  | [] => ([], [])

/-- The longest leading text made of blanks, a sign, digits, and optionally a point with digits and an
exponent. -/
def leadingFraction? (cs : List Char) : Option (List Char) := do
  let (whole, afterWhole) ← leadingInteger? cs
  let (fractional, afterFraction) := leadingFractionPart afterWhole
  return whole ++ fractional ++ (leadingExponentPart afterFraction).1

end RuleExpr.Numeral
