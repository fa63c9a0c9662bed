import RuleExpr.Builtin
import RuleExpr.Proofs.Binary64.Rational
import RuleExpr.Proofs.Numeral.Leading
import RuleExpr.Proofs.Tree.Faults

/-!
# Coercion of text

Texts become numbers by their longest leading numerals (`leading_numeral_is_coerced`). The numeral that is found is then
read by rules of its own, which differ at two points: separators are no padding, and integers have a limit of digits.
Within that limit an integer survives being written into a text and read from it, and the text of a number in a source
is coerced to the value that it has there.
-/
namespace RuleExpr.Builtin
open Numeral Text Lexeme

variable {s : String} {rest : List Char}

/-! ## Found numerals -/

theorem apply_toInteger_eq_zero (h : leadingInteger? s.toList = none) :
    apply .toInteger [.text s] = .ok (.int 0) := by
  rw [apply, integerOf, h]
  rfl

theorem apply_toFloat_eq_zero (h : leadingFraction? s.toList = none) :
    apply .toFloat [.text s] = .ok (.float (.zero false)) := by
  rw [apply, floatOf, h]
  rfl

/-- The leading integer numeral is coerced like the literal of its text. -/
theorem apply_toInteger_of_leading {cs : List Char} (h : leadingInteger? s.toList = some (cs, rest)) :
    apply .toInteger [.text s] =
      match toInt cs with
      | .ok n => .ok (.int n)
      | .error flaw => .error (.ofFlaw flaw) := by
  rw [apply, integerOf, h]
  dsimp only
  cases toInt cs <;> rfl

/-- What becomes of an integer numeral. -/
theorem apply_toInteger_of_numeral {n : IntegerNumeral} (h : leadingInteger? s.toList = some (n.text, rest)) :
    apply .toInteger [.text s] =
      if n.blanks.any isSeparator then .error .malformedNumeral
      else if n.digits.val.length ≤ digitLimit then .ok (.int n.value) else .error .tooManyDigits := by
  rw [apply_toInteger_of_leading h]
  by_cases hseparator : n.blanks.any isSeparator = true
  · rw [if_pos hseparator, n.toInt_text_of_separator (List.any_eq_true.1 hseparator)]
    rfl
  · have hplain : ∀ c ∈ n.blanks, isSeparator c = false := by simpa using hseparator
    rw [if_neg hseparator, n.toInt_text hplain]
    by_cases hlength : n.digits.val.length ≤ digitLimit
    · rw [if_pos hlength, if_pos hlength]
    · rw [if_neg hlength, if_neg hlength]
      rfl

theorem apply_toFloat_of_numeral {n : DecimalNumeral} (h : leadingFraction? s.toList = some n.text) :
    apply .toFloat [.text s] =
      if n.blanks.any isSeparator then .error .malformedNumeral
      else .ok (.float (Binary64.ofFraction n.toFraction)) := by
  rw [apply, floatOf, h]
  dsimp only
  by_cases hseparator : n.blanks.any isSeparator = true
  · rw [if_pos hseparator, Binary64.ofText?, n.toFraction_text_of_separator (List.any_eq_true.1 hseparator)]
    rfl
  · have hplain : ∀ c ∈ n.blanks, isSeparator c = false := by simpa using hseparator
    rw [if_neg hseparator, Binary64.ofText?, n.toFraction_text hplain]
    rfl

/-- Every text is coerced by its one longest leading numeral, and to zero if it has none. Coercion fails where a
separator stands among the blanks of the numeral, and for an integer with more digits than are converted. -/
theorem leading_numeral_is_coerced (s : String) :
    ((∀ n : IntegerNumeral, ¬ n.text <+: s.toList) ∧ apply .toInteger [.text s] = .ok (.int 0) ∨
      ∃ n : IntegerNumeral, (∀ m : IntegerNumeral, IsLongest IsIntegerNumeral m.text s.toList ↔ m = n) ∧
        apply .toInteger [.text s] =
          if n.blanks.any isSeparator then .error .malformedNumeral
          else if n.digits.val.length ≤ digitLimit then .ok (.int n.value) else .error .tooManyDigits) ∧
    ((∀ n : DecimalNumeral, ¬ n.text <+: s.toList) ∧ apply .toFloat [.text s] = .ok (.float (.zero false)) ∨
      ∃ n : DecimalNumeral, (∀ m : DecimalNumeral, IsLongest IsDecimalNumeral m.text s.toList ↔ m = n) ∧
        ∃ x, Binary64.Rounds n.sign.isMinus n.magnitude x ∧ apply .toFloat [.text s] =
          if n.blanks.any isSeparator then .error .malformedNumeral else .ok (.float x)) := by
  constructor
  · cases hleading : leadingInteger? s.toList with
    | none => exact .inl ⟨fun n => n.not_isPrefix hleading, apply_toInteger_eq_zero hleading⟩
    | some found =>
        obtain ⟨n, hn, -⟩ := leadingInteger?_eq_some hleading
        have hlongest := leadingInteger?_isLongest hleading
        rw [← hn] at hlongest
        have hnumeral : leadingInteger? s.toList = some (n.text, found.2) := by rw [hleading, hn]
        have hone (m : IntegerNumeral) := isLongest_iff_eq (b := m) IntegerNumeral.text_injective hlongest
        exact .inr ⟨n, hone, apply_toInteger_of_numeral hnumeral⟩
  · cases hleading : leadingFraction? s.toList with
    | none => exact .inl ⟨fun n => n.not_isPrefix hleading, apply_toFloat_eq_zero hleading⟩
    | some front =>
        obtain ⟨n, -, rfl, -⟩ := leadingFraction?_eq_some hleading
        have hrounds := Binary64.rounds_ofFraction n.toFraction
        rw [← n.magnitude_eq] at hrounds
        have hlongest := leadingFraction?_isLongest hleading
        have hone (m : DecimalNumeral) := isLongest_iff_eq (b := m) DecimalNumeral.text_injective hlongest
        exact .inr ⟨n, hone, _, hrounds, apply_toFloat_of_numeral hleading⟩

/-- A separator is blank, but the numeral behind it is not read. -/
theorem separator_is_not_read : ∃ n : IntegerNumeral, IsLongest IsIntegerNumeral n.text "\x1c7".toList ∧ n.value = 7 ∧
    apply .toInteger [.text "\x1c7"] = .error .malformedNumeral ∧
    apply .toFloat [.text "\x1c7"] = .error .malformedNumeral := by
  have hdigits : IsDigits ['7'] := ⟨List.cons_ne_nil _ _, List.forall_mem_singleton.2 rfl⟩
  have hblanks : ∀ c ∈ ['\x1c'], isBlank c = true := List.forall_mem_singleton.2 rfl
  have hleading : leadingInteger? "\x1c7".toList = some (['\x1c', '7'], []) := rfl
  exact ⟨⟨⟨.none, ⟨['7'], hdigits⟩⟩, ['\x1c'], hblanks⟩, leadingInteger?_isLongest hleading, rfl, rfl, rfl⟩

/-! ## Integers that are written and read -/

theorem apply_str_eq (vs : List Value) : apply .str vs =
    if Value.allWritable vs then .ok (.text (String.ofList (vs.flatMap Value.joined)))
    else .error .tooManyDigits := rfl

/-- An integer that can be written is joined with texts around it. -/
theorem apply_str_around {n : ℤ} (h : Numeral.isWritable n = true) (w t : String) :
    apply .str [.text w, .int n, .text t] = .ok (.text (w ++ String.ofList (ofInt n) ++ t)) := by
  have hall : Value.allWritable [.text w, .int n, .text t] = true := by
    simp only [Value.allWritable, Value.isWritable, h, Bool.and_true]
  have htext : [Value.text w, .int n, .text t].flatMap Value.joined = w.toList ++ (ofInt n ++ (t.toList ++ [])) := rfl
  rw [apply_str_eq, if_pos hall, htext, List.append_nil, String.ofList_append, String.ofList_append,
    String.ofList_toList, String.ofList_toList, String.append_assoc]

/-- An integer is read from its text among blanks and text that does not go on with a digit. -/
theorem apply_toInteger_around {n : ℤ} (h : Numeral.isWritable n = true) {w t : String}
    (hw : ∀ c ∈ w.toList, isBlank c = true ∧ ¬ (0x1C ≤ c.toNat ∧ c.toNat ≤ 0x1F))
    (ht : ∀ c ∈ t.toList.head?, ¬ ('0' ≤ c ∧ c ≤ '9')) :
    apply .toInteger [.text (w ++ String.ofList (ofInt n) ++ t)] = .ok (.int n) := by
  have hblanks : ∀ c ∈ w.toList, isBlank c = true := fun c hc => (hw c hc).1
  have hplain : ¬ w.toList.any isSeparator = true := by
    rw [List.any_eq_true]
    intro hsome
    obtain ⟨c, hc, hseparator⟩ := hsome
    exact (hw c hc).2 (isSeparator_iff.1 hseparator)
  have hends : ∀ c ∈ t.toList.head?, isAsciiDigit c = false := by
    intro c hc
    rw [Bool.eq_false_iff, Ne, isAsciiDigit, Bool.and_eq_true, decide_eq_true_eq, decide_eq_true_eq]
    exact ht c hc
  have htext : (w ++ String.ofList (ofInt n) ++ t).toList = w.toList ++ (SignedDigits.ofInt n).text ++ t.toList := by
    rw [String.toList_append, String.toList_append, String.toList_ofList, SignedDigits.text_ofInt]
  have hleading := IntegerNumeral.leadingInteger?_text ⟨.ofInt n, w.toList, hblanks⟩ t.toList
  rw [takeWhile_eq_nil hends, List.append_nil, IntegerNumeral.text, ← htext] at hleading
  have hcoerced := apply_toInteger_of_numeral hleading
  have hlength : (SignedDigits.ofInt n).digits.val.length ≤ digitLimit := isWritable_iff_length.1 h
  rw [if_neg hplain, if_pos hlength, SignedDigits.value_ofInt] at hcoerced
  exact hcoerced

/-- An integer written by `str` is read back from among blanks and text that does not go on with a digit. -/
theorem integer_survives_text (n : ℤ) :
    (digitLimit < (Nat.toDigits 10 n.natAbs).length ∧ apply .str [.int n] = .error .tooManyDigits) ∨
      ∃ s : String, apply .str [.int n] = .ok (.text s) ∧
        ∀ w t : String, (∀ c ∈ w.toList, isBlank c = true ∧ ¬ (0x1C ≤ c.toNat ∧ c.toNat ≤ 0x1F)) →
          (∀ c ∈ t.toList.head?, ¬ ('0' ≤ c ∧ c ≤ '9')) →
            apply .str [.text w, .int n, .text t] = .ok (.text (w ++ s ++ t)) ∧
              apply .toInteger [.text (w ++ s ++ t)] = .ok (.int n) := by
  have hall : Value.allWritable [.int n] = Numeral.isWritable n := by
    rw [Value.allWritable, Value.isWritable, Value.allWritable, Bool.and_true]
  by_cases hwritable : Numeral.isWritable n = true
  · have hsingle : apply .str [.int n] = .ok (.text (String.ofList (ofInt n))) := by
      rw [apply_str_eq, hall, if_pos hwritable, List.flatMap_singleton]
      rfl
    refine .inr ⟨String.ofList (ofInt n), hsingle, ?_⟩
    intro w t hw ht
    exact ⟨apply_str_around hwritable w t, apply_toInteger_around hwritable hw ht⟩
  · have hlength : digitLimit < (Nat.toDigits 10 n.natAbs).length :=
      Nat.lt_of_not_le fun h => hwritable (isWritable_iff_length.2 h)
    have hfault : apply .str [.int n] = .error .tooManyDigits := by
      rw [apply_str_eq, hall, if_neg hwritable]
    exact .inl ⟨hlength, hfault⟩

/-- A negative integer between blanks and a unit of measure. -/
theorem integer_survives_unit : ∃ s : String, apply .str [.int (-12)] = .ok (.text s) ∧
    apply .toInteger [.text ("\t\xa0" ++ s ++ "px")] = .ok (.int (-12)) := by
  rcases integer_survives_text (-12) with ⟨hlength, -⟩ | ⟨s, hs, hread⟩
  · exact absurd hlength (by decide)
  · have hblanks : ∀ c ∈ "\t\xa0".toList, isBlank c = true ∧ ¬ (0x1C ≤ c.toNat ∧ c.toNat ≤ 0x1F) :=
      List.forall_mem_cons.2 ⟨by decide, List.forall_mem_singleton.2 (by decide)⟩
    have hunit : ∀ c ∈ "px".toList.head?, ¬ ('0' ≤ c ∧ c ≤ '9') := by
      intro c hc
      obtain rfl : 'p' = c := Option.some.inj hc
      decide
    exact ⟨s, hs, (hread "\t\xa0" "px" hblanks hunit).2⟩

/-! ## Numbers of sources -/

/-- The value of a number in a source is what its text is coerced to. -/
theorem number_lexeme_is_coerced {source : Option String} {ls : List Lexeme} {l : Lexeme}
    (h : Lexeme.ofSource source = .ok ls) (hl : l ∈ ls) (hkind : l.kind = .num) :
    if '.' ∈ l.text.toList then
      ∃ x, l.leaf = .ok (.token .num (.float x)) ∧ apply .toFloat [.text l.text] = .ok (.float x)
    else
      (∃ n, l.leaf = .ok (.token .num (.int n)) ∧ apply .toInteger [.text l.text] = .ok (.int n)) ∨
        l.leaf = .error .tooManyDigits ∧ apply .toInteger [.text l.text] = .error .tooManyDigits := by
  have hshape := hasShape_of_ofSource h l hl
  have hleaf : l.leaf = (number l.text.toList).map (.token .num) := by rw [leaf, content, hkind]
  rw [hkind] at hshape
  obtain ⟨negative, body, htext, hbody⟩ := hshape.eq_signText_append
  cases hbody with
  | whole hds =>
      have hpoint : '.' ∉ l.text.toList := by
        rw [htext]
        simpa using not_point_mem hds.2
      have hleading := (IntegerNumeral.plain negative ⟨body, hds⟩).leadingInteger?_text []
      rw [List.append_nil, List.takeWhile_nil, List.append_nil, IntegerNumeral.text_plain, ← htext] at hleading
      have hcoerced := apply_toInteger_of_leading hleading
      rw [htext, toInt_signed negative hds] at hcoerced
      rw [if_neg hpoint, hleaf, htext, number_of_isDigits negative hds, hcoerced]
      by_cases hlength : body.length ≤ digitLimit
      · rw [if_pos hlength, if_pos hlength]
        exact .inl ⟨_, rfl, rfl⟩
      · rw [if_neg hlength, if_neg hlength]
        exact .inr ⟨rfl, rfl⟩
  | @fraction ds fs hds hfs =>
      have hpoint : '.' ∈ l.text.toList := by simp [htext]
      have hcontains : l.text.toList.contains '.' = true := List.contains_iff_mem.2 hpoint
      obtain ⟨n, hn, hblanks⟩ : ∃ n : DecimalNumeral, n.text = l.text.toList ∧ n.blanks = [] :=
        ⟨.plain negative ⟨ds, hds⟩ ⟨fs, hfs⟩, (DecimalNumeral.text_plain negative _ _).trans htext.symm, rfl⟩
      have hleading := n.leadingFraction?_self
      nth_rewrite 1 [hn] at hleading
      have hcoerced := apply_toFloat_of_numeral hleading
      have hread := n.toFraction_text (by simp [hblanks])
      rw [hblanks] at hcoerced
      rw [if_pos hpoint, hleaf, number, if_pos hcontains, Binary64.ofText?, ← hn, hread]
      exact ⟨_, rfl, hcoerced⟩

/-- A negative integer with leading zeros and a fraction that ends in zero. -/
theorem number_lexeme_is_coerced_with_zeros :
    (⟨.num, "-007"⟩ : Lexeme).leaf = .ok (.token .num (.int (-7))) ∧
      apply .toInteger [.text "-007"] = .ok (.int (-7)) ∧
      ∃ x, (⟨.num, "1.50"⟩ : Lexeme).leaf = .ok (.token .num (.float x)) ∧
        apply .toFloat [.text "1.50"] = .ok (.float x) := by
  have h : Lexeme.ofSource (some "(+ -007 1.50)") =
      .ok [⟨.openList, "("⟩, ⟨.var, "+"⟩, ⟨.num, "-007"⟩, ⟨.num, "1.50"⟩, ⟨.closeList, ")"⟩] :=
    eq_ok_of_toOption (by decide +kernel)
  have hinteger := number_lexeme_is_coerced h (l := ⟨.num, "-007"⟩) (by simp) rfl
  have hfraction := number_lexeme_is_coerced h (l := ⟨.num, "1.50"⟩) (by simp) rfl
  have hleaf : (⟨.num, "-007"⟩ : Lexeme).leaf = .ok (.token .num (.int (-7))) := rfl
  rw [if_neg (by decide), hleaf] at hinteger
  rw [if_pos (by decide)] at hfraction
  rcases hinteger with ⟨n, hn, hcoerced⟩ | ⟨hfault, -⟩
  · cases hn
    exact ⟨hleaf, hcoerced, hfraction⟩
  · cases hfault

end RuleExpr.Builtin
