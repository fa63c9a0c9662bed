import RuleExpr.Proofs.Numeral.Grammar

/-!
# Reading numerals

A numeral of the grammar is read as the number that it denotes, unless a separator stands among its blanks or it is an
integer with too many digits. The text of an integer is a numeral, and every integer that was read can be written.
-/
namespace RuleExpr.Numeral
open Text

/-! ## What stands around a numeral -/

theorem not_padding_of_isAsciiDigit {c : Char} (h : isAsciiDigit c = true) : isNumeralPadding c = false := by
  rw [isNumeralPadding, isBlank_of_isAsciiDigit h]
  rfl

theorem Sign.not_padding {s : Sign} {c : Char} (h : c ∈ s.text) : isNumeralPadding c = false := by
  cases s with
  | none => cases h
  | plus | minus =>
      obtain rfl := List.mem_singleton.1 h
      rfl

theorem SignedDigits.not_padding {n : SignedDigits} {c : Char} (h : c ∈ n.text) : isNumeralPadding c = false := by
  rcases List.mem_append.1 h with hsign | hdigit
  · exact Sign.not_padding hsign
  · exact not_padding_of_isAsciiDigit (n.digits.property.2 c hdigit)

theorem trimBy_blanks {blanks body : List Char} (hblanks : ∀ c ∈ blanks, isBlank c = true)
    (hplain : ∀ c ∈ blanks, isSeparator c = false) (hbody : ∀ c ∈ body, isNumeralPadding c = false) :
    trimBy isNumeralPadding (blanks ++ body) = body := by
  have hrun : ∀ c ∈ blanks, isNumeralPadding c = true := by
    intro c hc
    rw [isNumeralPadding_of_isBlank (hblanks c hc), hplain c hc]
    rfl
  rw [trimBy_append hrun, trimBy_of_forall hbody]

/-- A separator among the blanks remains in front of the numeral. -/
theorem trimBy_separator {blanks : List Char} (hblanks : ∀ c ∈ blanks, isBlank c = true)
    (hseparator : ∃ c ∈ blanks, isSeparator c = true) (body : List Char) :
    ∃ c rest, trimBy isNumeralPadding (blanks ++ body) = c :: rest ∧ isSeparator c = true := by
  induction blanks with
  | nil =>
      obtain ⟨c, hc, -⟩ := hseparator
      cases hc
  | cons first blanks ih =>
      have hfirst := isNumeralPadding_of_isBlank (hblanks first List.mem_cons_self)
      cases hcase : isSeparator first with
      | true =>
          rw [hcase] at hfirst
          obtain ⟨rest, hrest⟩ := trimBy_cons_of_neg hfirst (blanks ++ body)
          exact ⟨first, rest, hrest, hcase⟩
      | false =>
          have hrun : ∀ c ∈ [first], isNumeralPadding c = true := by
            rw [List.forall_mem_singleton, hfirst, hcase]
            rfl
          have hlater : ∃ c ∈ blanks, isSeparator c = true := by
            simpa only [List.exists_mem_cons_iff, hcase, Bool.false_eq_true, false_or] using hseparator
          have htrim := trimBy_append hrun (blanks ++ body)
          rw [List.cons_append, ← List.singleton_append, htrim]
          exact ih (fun c hc => hblanks c (List.mem_cons_of_mem _ hc)) hlater

theorem digits?_eq_none {cs : List Char} (h : ∀ c ∈ cs.head?, digitValue? c = none) : digits? cs = none := by
  fun_cases digits? cs with
  | case1 => rfl
  | case2 | case3 | case4 =>
      rw [h _ rfl]
      rfl

theorem digits?_separator {c : Char} (h : isSeparator c = true) (cs : List Char) : digits? (c :: cs) = none := by
  apply digits?_eq_none
  intro d hd
  obtain rfl := Option.some.inj hd
  exact digitValue?_of_isBlank (isBlank_of_isSeparator h)

theorem splitSign_separator {c : Char} (h : isSeparator c = true) (cs : List Char) :
    splitSign (c :: cs) = (false, c :: cs) := by
  have hsign : c ≠ '-' ∧ c ≠ '+' := by
    constructor <;> intro hsign <;> rw [hsign] at h <;> cases h
  exact splitSign_of_not_sign hsign cs

/-! ## Integers -/

theorem Digits.digits?_val (ds : Digits) : digits? ds.val = some (ds.val.map (·.toNat - 48)) :=
  digits?_of_isDigits ds.property

theorem Digits.ofDigits_val (ds : Digits) : ofDigits (ds.val.map (·.toNat - 48)) = ds.value :=
  ofDigits_map_toNat ds.val

/-- An integer numeral is read as the integer that it denotes, if it does not have too many digits. -/
theorem IntegerNumeral.toInt_text (n : IntegerNumeral) (h : ∀ c ∈ n.blanks, isSeparator c = false) :
    toInt n.text = if n.digits.val.length ≤ digitLimit then .ok n.value else .error .tooManyDigits := by
  have htrim : trimBy isNumeralPadding n.text = n.toSignedDigits.text :=
    trimBy_blanks n.isBlank_of_mem h fun c hc => SignedDigits.not_padding hc
  have hsplit := n.toSignedDigits.splitSign_text []
  rw [List.append_nil, List.append_nil] at hsplit
  simp only [toInt, htrim, hsplit, n.digits.digits?_val, List.length_map, n.digits.ofDigits_val, SignedDigits.value]

theorem IntegerNumeral.toInt_text_of_separator (n : IntegerNumeral) (h : ∃ c ∈ n.blanks, isSeparator c = true) :
    toInt n.text = .error .malformed := by
  obtain ⟨c, rest, htrim, hc⟩ := trimBy_separator n.isBlank_of_mem h n.toSignedDigits.text
  simp only [toInt, IntegerNumeral.text, htrim, splitSign_separator hc, digits?_separator hc]

/-- The minus of a negative number. -/
def signText (negative : Bool) : List Char := if negative then ['-'] else []

def Sign.ofBool (negative : Bool) : Sign := if negative then .minus else .none

theorem Sign.text_ofBool (negative : Bool) : (ofBool negative).text = signText negative := by
  cases negative <;> rfl

theorem Sign.isMinus_ofBool (negative : Bool) : (ofBool negative).isMinus = negative := by
  cases negative <;> rfl

/-- A minus or nothing in front of digits, without blanks. -/
def IntegerNumeral.plain (negative : Bool) (ds : Digits) : IntegerNumeral :=
  ⟨⟨.ofBool negative, ds⟩, [], fun _ hc => absurd hc List.not_mem_nil⟩

theorem IntegerNumeral.text_plain (negative : Bool) (ds : Digits) :
    (plain negative ds).text = signText negative ++ ds.val :=
  congrArg (· ++ ds.val) (Sign.text_ofBool negative)

theorem IntegerNumeral.value_plain (negative : Bool) (ds : Digits) :
    (plain negative ds).value = if negative then -(ds.value : ℤ) else ds.value := by
  cases negative <;> rfl

theorem not_point_mem {negative : Bool} {ds : List Char} (h : ∀ c ∈ ds, isAsciiDigit c = true) :
    (signText negative ++ ds).contains '.' = false := by
  rw [List.contains_eq_mem, decide_eq_false_iff_not, List.mem_append]
  rintro (hsign | hdigit)
  · cases negative with
    | false => cases hsign
    | true => cases List.mem_singleton.1 hsign
  · cases h _ hdigit

theorem toInt_signed (negative : Bool) {ds : List Char} (h : IsDigits ds) :
    toInt (signText negative ++ ds) =
      if ds.length ≤ digitLimit then
        .ok (if negative then -(Nat.ofDigitChars 10 ds 0 : Int) else Nat.ofDigitChars 10 ds 0)
      else .error .tooManyDigits := by
  have hread := (IntegerNumeral.plain negative ⟨ds, h⟩).toInt_text fun _ hc => absurd hc List.not_mem_nil
  rw [IntegerNumeral.text_plain, IntegerNumeral.value_plain] at hread
  exact hread

theorem ofInt_eq_signText (n : Int) : ofInt n = signText (n < 0) ++ Nat.toDigits 10 n.natAbs := by
  unfold ofInt signText
  by_cases h : n < 0
  · rw [if_pos h, if_pos (by simpa using h)]
    rfl
  · rw [if_neg h, if_neg (by simpa using h)]
    rfl

theorem isWritable_iff {n : Int} : isWritable n = true ↔ n.natAbs < 10 ^ digitLimit := by
  have hbound : writableBound = 10 ^ digitLimit := by decide +kernel
  rw [isWritable, decide_eq_true_eq, hbound]

/-- The sign and the digits of an integer. -/
def SignedDigits.ofInt (n : ℤ) : SignedDigits :=
  ⟨.ofBool (n < 0), ⟨Nat.toDigits 10 n.natAbs, isDigits_toDigits n.natAbs⟩⟩

theorem SignedDigits.text_ofInt (n : ℤ) : (ofInt n).text = Numeral.ofInt n := by
  rw [ofInt_eq_signText, ← Sign.text_ofBool]
  rfl

theorem SignedDigits.value_ofInt (n : ℤ) : (ofInt n).value = n := by
  rw [value, ofInt, Sign.isMinus_ofBool, Digits.value, Nat.ofDigitChars_ten_toDigits]
  by_cases hnegative : n < 0
  · rw [if_pos (by simpa using hnegative)]
    omega
  · rw [if_neg (by simpa using hnegative)]
    omega

/-- An integer can be written if it does not have too many digits. -/
theorem isWritable_iff_length {n : Int} :
    isWritable n = true ↔ (Nat.toDigits 10 n.natAbs).length ≤ digitLimit := by
  rw [Nat.length_toDigits_le_iff (by decide) (by decide), isWritable_iff]

/-- The text of an integer is read as the integer. -/
theorem toInt_ofInt {n : Int} (h : isWritable n = true) : toInt (ofInt n) = .ok n := by
  have hlength : (SignedDigits.ofInt n).digits.val.length ≤ digitLimit := isWritable_iff_length.1 h
  have hread := IntegerNumeral.toInt_text ⟨.ofInt n, [], fun _ hc => absurd hc List.not_mem_nil⟩
    fun _ hc => absurd hc List.not_mem_nil
  rwa [IntegerNumeral.text, List.nil_append, SignedDigits.text_ofInt, SignedDigits.value_ofInt, if_pos hlength] at hread

theorem digits?_lt {cs : List Char} {ds : List Nat} (h : digits? cs = some ds) : ∀ d ∈ ds, d < 10 := by
  fun_induction digits? cs generalizing ds with
  | case1 => cases h
  | case2 c =>
      obtain ⟨d, hd, rfl⟩ := Option.map_eq_some_iff.1 h
      rw [List.forall_mem_singleton]
      exact digitValue?_lt hd
  | case3 c cs ih | case4 c cs _ _ ih =>
      simp only [Option.bind_eq_bind, Option.bind_eq_some_iff, Option.pure_def, Option.some.injEq] at h
      obtain ⟨d, hd, rest, hrest, rfl⟩ := h
      rw [List.forall_mem_cons]
      exact ⟨digitValue?_lt hd, ih hrest⟩

theorem ofDigits_lt {ds : List Nat} (h : ∀ d ∈ ds, d < 10) : ofDigits ds < 10 ^ ds.length := by
  -- The number in front of the remaining digits is general, so that the fold can be followed.
  have hfold (ds : List Nat) (n : Nat) (h : ∀ d ∈ ds, d < 10) :
      ds.foldl (fun n d => 10 * n + d) n < (n + 1) * 10 ^ ds.length := by
    induction ds generalizing n with
    | nil => simp
    | cons d ds ih =>
        have hd : d < 10 := h d List.mem_cons_self
        have hrest := ih (10 * n + d) fun e he => h e (List.mem_cons_of_mem _ he)
        have hgrow : (10 * n + d + 1) * 10 ^ ds.length ≤ (10 * (n + 1)) * 10 ^ ds.length :=
          Nat.mul_le_mul_right _ (by omega)
        rw [List.foldl_cons, List.length_cons, Nat.pow_succ']
        calc ds.foldl (fun n d => 10 * n + d) (10 * n + d)
            < (10 * n + d + 1) * 10 ^ ds.length := hrest
          _ ≤ (10 * (n + 1)) * 10 ^ ds.length := hgrow
          _ = (n + 1) * (10 * 10 ^ ds.length) := by
              rw [Nat.mul_comm 10 (n + 1), Nat.mul_assoc]
  have := hfold ds 0 h
  rwa [Nat.zero_add, Nat.one_mul] at this

/-- What is read as an integer has a text. -/
theorem isWritable_of_toInt {cs : List Char} {n : Int} (h : toInt cs = .ok n) : isWritable n = true := by
  unfold toInt at h
  dsimp only at h
  split at h
  · cases h
  · next ds hds =>
      split at h
      · next hlength =>
          have hvalue : n.natAbs = ofDigits ds := by
            rw [← Except.ok.inj h]
            split <;> omega
          rw [isWritable_iff, hvalue]
          exact Nat.lt_of_lt_of_le (ofDigits_lt (digits?_lt hds)) (Nat.pow_le_pow_right (by decide) hlength)
      · cases h

/-! ## Decimal fractions -/

theorem fractionText_cases {fs : Option Digits} {c : Char} (h : c ∈ fractionText fs) :
    c = '.' ∨ isAsciiDigit c = true := by
  cases fs with
  | none => cases h
  | some fs =>
      rcases List.mem_cons.1 h with hpoint | hdigit
      · exact .inl hpoint
      · exact .inr (fs.property.2 c hdigit)

theorem fractionText_not_padding {fs : Option Digits} {c : Char} (h : c ∈ fractionText fs) :
    isNumeralPadding c = false := by
  rcases fractionText_cases h with rfl | hdigit
  · rfl
  · exact not_padding_of_isAsciiDigit hdigit

theorem exponentText_not_padding {e : Option Exponent} {c : Char} (h : c ∈ exponentText e) :
    isNumeralPadding c = false := by
  cases e with
  | none => cases h
  | some e =>
      rcases List.mem_cons.1 h with rfl | hsigned
      · rcases isExponentMark_iff.1 e.isMark with hmark | hmark <;> rw [hmark] <;> rfl
      · exact SignedDigits.not_padding hsigned

/-- The text behind the whole digits starts with a mark, unless it is empty. -/
theorem isExponentMark_of_head? {e : Option Exponent} : ∀ c ∈ (exponentText e).head?, isExponentMark c = true := by
  cases e with
  | none =>
      intro c hc
      cases hc
  | some e =>
      intro c hc
      obtain rfl := Option.some.inj hc
      exact e.isMark

theorem head?_fractionText {fs : Option Digits} : ∀ c ∈ (fractionText fs).head?, c = '.' := by
  cases fs with
  | none =>
      intro c hc
      cases hc
  | some fs =>
      intro c hc
      exact (Option.some.inj hc).symm

theorem optionalDigits?_of_isDigits {ds : List Char} (h : IsDigits ds) :
    optionalDigits? ds = some (ds.map (·.toNat - 48)) := by
  obtain ⟨c, cs, rfl⟩ := List.exists_cons_of_ne_nil h.1
  exact digits?_of_isDigits h

/-- The digit values of a point with digits, or of neither. -/
theorem optionalDigits?_fractionText (fs : Option Digits) : optionalDigits? ((fractionText fs).drop 1) =
    some (((fractionText fs).drop 1).map (·.toNat - 48)) := by
  cases fs with
  | none => rfl
  | some fs => exact optionalDigits?_of_isDigits fs.property

/-- Reading goes on with the exponent, which is zero if it is missing. -/
theorem exponent?_exponentText {α : Type} (e : Option Exponent) (f : ℤ → Option α) :
    (if (exponentText e).isEmpty = true then f 0 else (exponent? ((exponentText e).drop 1)).bind f) =
      f (exponentValue e) := by
  cases e with
  | none => rfl
  | some e =>
      have hsplit := e.toSignedDigits.splitSign_text []
      rw [List.append_nil, List.append_nil] at hsplit
      have hread : exponent? e.toSignedDigits.text = some e.value := by
        rw [exponent?, hsplit]
        simp only [e.digits.digits?_val, Option.bind_eq_bind, Option.bind_some, e.digits.ofDigits_val,
          SignedDigits.value, Option.pure_def]
      exact congrArg (Option.bind · f) hread

namespace DecimalNumeral

/-- The decimal fraction that a numeral denotes: its digits without the point, shifted by those behind it. -/
def toFraction (n : DecimalNumeral) : Fraction where
  negative := n.sign.isMinus
  coefficient := Nat.ofDigitChars 10 (n.digits.val ++ (fractionText n.fraction).drop 1) 0
  exponent := exponentValue n.exponent - ((fractionText n.fraction).drop 1).length

theorem trimBy_text (n : DecimalNumeral) (h : ∀ c ∈ n.blanks, isSeparator c = false) :
    trimBy isNumeralPadding n.text =
      n.toSignedDigits.text ++ (fractionText n.fraction ++ exponentText n.exponent) := by
  rw [text, IntegerNumeral.text, List.append_assoc]
  apply trimBy_blanks n.isBlank_of_mem h
  intro c hc
  rcases List.mem_append.1 hc with hsigned | hc
  · exact SignedDigits.not_padding hsigned
  · rcases List.mem_append.1 hc with hfraction | hexponent
    · exact fractionText_not_padding hfraction
    · exact exponentText_not_padding hexponent

/-- The first mark of an exponent stands behind all digits of the fraction. -/
theorem split_at_mark (n : DecimalNumeral) :
    let body := n.digits.val ++ (fractionText n.fraction ++ exponentText n.exponent)
    body.takeWhile (!isExponentMark ·) = n.digits.val ++ fractionText n.fraction ∧
      body.dropWhile (!isExponentMark ·) = exponentText n.exponent := by
  intro body
  have hunmarked : ∀ c ∈ n.digits.val ++ fractionText n.fraction, (!isExponentMark c) = true := by
    intro c hc
    have hdigit {c : Char} (hc : isAsciiDigit c = true) : (!isExponentMark c) = true := by
      rw [not_mark_of_isAsciiDigit hc]
      rfl
    rcases List.mem_append.1 hc with hwhole | hfraction
    · exact hdigit (n.digits.property.2 c hwhole)
    · rcases fractionText_cases hfraction with rfl | hpart
      · rfl
      · exact hdigit hpart
  have hmarked : ∀ c ∈ (exponentText n.exponent).head?, (!isExponentMark c) = false := by
    intro c hc
    rw [isExponentMark_of_head? c hc]
    rfl
  have hassoc : body = n.digits.val ++ fractionText n.fraction ++ exponentText n.exponent :=
    (List.append_assoc _ _ _).symm
  rw [hassoc]
  exact ⟨takeWhile_run hunmarked hmarked, dropWhile_run hunmarked hmarked⟩

theorem split_at_point (n : DecimalNumeral) :
    (n.digits.val ++ fractionText n.fraction).takeWhile (· != '.') = n.digits.val ∧
      (n.digits.val ++ fractionText n.fraction).dropWhile (· != '.') = fractionText n.fraction := by
  have hpointless : ∀ c ∈ n.digits.val, (c != '.') = true := by
    intro c hc
    have hdigit := n.digits.property.2 c hc
    rw [bne_iff_ne]
    rintro rfl
    cases hdigit
  have hpoint : ∀ c ∈ (fractionText n.fraction).head?, (c != '.') = false := by
    intro c hc
    rw [head?_fractionText c hc]
    rfl
  exact ⟨takeWhile_run hpointless hpoint, dropWhile_run hpointless hpoint⟩

/-- A decimal numeral is read as the decimal fraction that it denotes. -/
theorem toFraction_text (n : DecimalNumeral) (h : ∀ c ∈ n.blanks, isSeparator c = false) :
    Numeral.toFraction n.text = some n.toFraction := by
  obtain ⟨hmantissa, htail⟩ := n.split_at_mark
  obtain ⟨hwhole, hfraction⟩ := n.split_at_point
  have hsome : (n.digits.val.map (·.toNat - 48)).isEmpty = false := by
    rw [List.isEmpty_map, List.isEmpty_eq_false_iff]
    exact n.digits.property.1
  simp only [Numeral.toFraction, n.trimBy_text h, n.toSignedDigits.splitSign_text, hmantissa, htail, hwhole, hfraction,
    optionalDigits?_of_isDigits n.digits.property, optionalDigits?_fractionText, Option.bind_eq_bind, Option.bind_some,
    hsome, Bool.false_and, Bool.not_false, guard, if_true, Option.pure_def, ← List.map_append, ofDigits_map_toNat,
    List.length_map, toFraction]
  exact exponent?_exponentText n.exponent fun e =>
    some (Fraction.mk _ _ (e - ((fractionText n.fraction).drop 1).length))

theorem toFraction_text_of_separator (n : DecimalNumeral) (h : ∃ c ∈ n.blanks, isSeparator c = true) :
    Numeral.toFraction n.text = none := by
  obtain ⟨c, rest, htrim, hc⟩ := trimBy_separator n.isBlank_of_mem h
    (n.toSignedDigits.text ++ (fractionText n.fraction ++ exponentText n.exponent))
  have hmark : (!isExponentMark c) = true := by
    rw [Bool.not_eq_true', Bool.eq_false_iff]
    intro hmark
    rcases isExponentMark_iff.1 hmark with rfl | rfl <;> cases hc
  have hpoint : (c != '.') = true := by
    rw [bne_iff_ne]
    rintro rfl
    cases hc
  have hmantissa : (c :: rest).takeWhile (!isExponentMark ·) = c :: rest.takeWhile (!isExponentMark ·) :=
    List.takeWhile_cons_of_pos hmark
  have hwhole (cs : List Char) : optionalDigits? ((c :: cs).takeWhile (· != '.')) = none := by
    have hfront : (c :: cs).takeWhile (· != '.') = c :: cs.takeWhile (· != '.') := List.takeWhile_cons_of_pos hpoint
    rw [hfront]
    exact digits?_separator hc _
  simp only [Numeral.toFraction, text, IntegerNumeral.text, List.append_assoc, htrim, splitSign_separator hc,
    hmantissa, hwhole, Option.bind_eq_bind, Option.bind_none]

theorem magnitude_eq (n : DecimalNumeral) :
    n.magnitude = n.toFraction.coefficient * 10 ^ n.toFraction.exponent := by
  have hten : (10 : ℚ) ≠ 0 := by norm_num
  unfold magnitude toFraction
  cases n.fraction with
  | none =>
      simp only [fractionValue, fractionText, List.drop_nil, List.append_nil, List.length_nil, add_zero, Nat.cast_zero,
        sub_zero]
      rfl
  | some fs =>
      have hdigits : (Nat.ofDigitChars 10 (n.digits.val ++ fs.val) 0 : ℚ) =
          10 ^ fs.val.length * n.digits.value + fs.value := by
        rw [Nat.ofDigitChars_append, Nat.ofDigitChars_eq_ofDigitChars_zero]
        push_cast
        rfl
      have hpower : (10 : ℚ) ^ fs.val.length ≠ 0 := pow_ne_zero _ hten
      simp only [fractionValue, fractionText, List.drop_succ_cons, List.drop_zero]
      rw [hdigits, zpow_sub₀ hten, zpow_natCast]
      field_simp

end DecimalNumeral

/-- A minus or nothing in front of digits with a point among them. -/
def DecimalNumeral.plain (negative : Bool) (ds fs : Digits) : DecimalNumeral := ⟨.plain negative ds, some fs, none⟩

theorem DecimalNumeral.text_plain (negative : Bool) (ds fs : Digits) :
    (plain negative ds fs).text = signText negative ++ (ds.val ++ '.' :: fs.val) := by
  rw [plain, text, IntegerNumeral.text_plain, fractionText, exponentText, List.append_nil, List.append_assoc]

/-- Digits with a point among them denote the number without the point, shifted by the digits behind it. -/
theorem toFraction_signed (negative : Bool) {ds fs : List Char} (hds : IsDigits ds) (hfs : IsDigits fs) :
    toFraction (signText negative ++ (ds ++ '.' :: fs)) =
      some ⟨negative, Nat.ofDigitChars 10 (ds ++ fs) 0, -(fs.length : Int)⟩ := by
  have hread := (DecimalNumeral.plain negative ⟨ds, hds⟩ ⟨fs, hfs⟩).toFraction_text
    fun _ hc => absurd hc List.not_mem_nil
  rw [DecimalNumeral.text_plain] at hread
  simpa [DecimalNumeral.toFraction, DecimalNumeral.plain, fractionText, exponentValue, IntegerNumeral.plain,
    Sign.isMinus_ofBool] using hread

end RuleExpr.Numeral
