import RuleExpr.Proofs.Lexeme.Cutting
import RuleExpr.Proofs.Numeral.Reading

/-!
# Leading numerals

The leading integer numeral of a text is the longest front that is an integer numeral, and the leading decimal numeral
the longest that is a decimal numeral. Where none is found, no front is one. Both scanners go through a numeral that
stands in front of any text, and go on behind it only where its last digits do. A text is that of one numeral at most.
-/
namespace RuleExpr.Numeral
open Text Lexeme

def IsIntegerNumeral (cs : List Char) : Prop := ∃ n : IntegerNumeral, n.text = cs

def IsDecimalNumeral (cs : List Char) : Prop := ∃ n : DecimalNumeral, n.text = cs

variable {cs front rest : List Char}

/-! ## Signs and digits -/

theorem splitSignText_eq (cs : List Char) : ∃ (s : Sign) (rest : List Char), splitSignText cs = (s.text, rest) ∧
    s.text ++ rest = cs := by
  cases cs with
  | nil => exact ⟨.none, [], rfl, rfl⟩
  | cons c cs =>
      by_cases hminus : c = '-'
      · rw [hminus]
        exact ⟨.minus, cs, rfl, rfl⟩
      · by_cases hplus : c = '+'
        · rw [hplus]
          exact ⟨.plus, cs, rfl, rfl⟩
        · exact ⟨.none, c :: cs, splitSignText_of_not_sign ⟨hminus, hplus⟩ cs, rfl⟩

theorem SignedDigits.not_blank_of_head? (n : SignedDigits) (tail : List Char) :
    ∀ c ∈ (n.text ++ tail).head?, isBlank c = false := by
  obtain ⟨s, ds, hds⟩ := n
  obtain ⟨first, cs, rfl⟩ := List.exists_cons_of_ne_nil hds.1
  intro c hc
  cases s with
  | plus | minus =>
      obtain rfl := Option.some.inj hc
      rfl
  | none =>
      obtain rfl := Option.some.inj hc
      exact isBlank_of_isAsciiDigit (hds.2 first List.mem_cons_self)

/-! ## Integers -/

/-- An integer numeral is taken off together with the digits that follow it. -/
theorem IntegerNumeral.leadingInteger?_text (n : IntegerNumeral) (tail : List Char) :
    leadingInteger? (n.text ++ tail) =
      some (n.text ++ tail.takeWhile isAsciiDigit, tail.dropWhile isAsciiDigit) := by
  have hends := n.toSignedDigits.not_blank_of_head? tail
  have hblanks := takeWhile_run n.isBlank_of_mem hends
  have hsigned := dropWhile_run n.isBlank_of_mem hends
  rw [text, List.append_assoc, leadingInteger?, hblanks, hsigned, n.toSignedDigits.splitSignText_text]
  simp only [splitDigits?_append n.digits.property, Option.bind_eq_bind, Option.bind_some, Option.pure_def,
    SignedDigits.text, List.append_assoc]

theorem leadingInteger?_eq_some (h : leadingInteger? cs = some (front, rest)) :
    ∃ n : IntegerNumeral, n.text = front ∧ n.text ++ rest = cs := by
  obtain ⟨s, afterSign, hsplit, hsigned⟩ := splitSignText_eq (cs.dropWhile isBlank)
  simp only [leadingInteger?, hsplit, Option.bind_eq_bind, Option.bind_eq_some_iff, Option.pure_def] at h
  obtain ⟨⟨ds, rest⟩, hdigits, heq⟩ := h
  obtain ⟨rfl, rfl⟩ := Prod.mk.inj (Option.some.inj heq)
  have hds := (splitDigits?_run_of_eq_some hdigits).1
  have hblanks : ∀ c ∈ cs.takeWhile isBlank, isBlank c = true := fun c hc => List.mem_takeWhile_imp hc
  refine ⟨⟨⟨s, ds, hds⟩, cs.takeWhile isBlank, hblanks⟩, (List.append_assoc _ _ _).symm, ?_⟩
  rw [IntegerNumeral.text, SignedDigits.text, List.append_assoc, List.append_assoc, (splitDigits?_eq_some hdigits).1,
    hsigned, List.takeWhile_append_dropWhile]

/-- The integer numeral that is taken off is the longest one. -/
theorem leadingInteger?_isLongest (h : leadingInteger? cs = some (front, rest)) :
    IsLongest IsIntegerNumeral front cs := by
  obtain ⟨n, rfl, rfl⟩ := leadingInteger?_eq_some h
  apply isLongest_of_length_le ⟨n, rfl⟩
  rintro other tail ⟨m, rfl⟩ heq
  rw [heq, m.leadingInteger?_text] at h
  rw [← (Prod.mk.inj (Option.some.inj h)).1, List.length_append]
  exact Nat.le_add_right _ _

theorem IntegerNumeral.not_isPrefix (n : IntegerNumeral) (h : leadingInteger? cs = none) : ¬ n.text <+: cs := by
  intro hprefix
  obtain ⟨tail, rfl⟩ := hprefix
  rw [n.leadingInteger?_text] at h
  cases h

/-! ## Decimal numerals -/

/-- What is taken off behind the whole digits. -/
def leadingTail (cs : List Char) : List Char :=
  (leadingFractionPart cs).1 ++ (leadingExponentPart (leadingFractionPart cs).2).1

theorem leadingFraction?_eq (cs : List Char) :
    leadingFraction? cs = (leadingInteger? cs).map fun (front, rest) => front ++ leadingTail rest := by
  unfold leadingFraction? leadingTail
  cases leadingInteger? cs with
  | none => rfl
  | some found => exact congrArg some (List.append_assoc _ _ _)

theorem leadingFractionPart_eq (cs : List Char) : ∃ (fs : Option Digits) (rest : List Char),
    leadingFractionPart cs = (fractionText fs, rest) ∧ fractionText fs ++ rest = cs := by
  unfold leadingFractionPart
  split
  · split
    · next hdigits =>
        have hds := (splitDigits?_run_of_eq_some hdigits).1
        exact ⟨some ⟨_, hds⟩, _, rfl, congrArg ('.' :: ·) (splitDigits?_eq_some hdigits).1⟩
    · exact ⟨none, _, rfl, rfl⟩
  · exact ⟨none, cs, rfl, rfl⟩

theorem leadingExponentPart_eq (cs : List Char) : ∃ (e : Option Exponent) (rest : List Char),
    leadingExponentPart cs = (exponentText e, rest) ∧ exponentText e ++ rest = cs := by
  cases cs with
  | nil => exact ⟨none, [], rfl, rfl⟩
  | cons mark cs =>
      obtain ⟨s, afterSign, hsplit, hsigned⟩ := splitSignText_eq cs
      unfold leadingExponentPart
      dsimp only
      rw [hsplit]
      split
      · next hmark =>
          dsimp only
          split
          · next ds rest hdigits =>
              have hds := (splitDigits?_run_of_eq_some hdigits).1
              refine ⟨some ⟨⟨s, ds, hds⟩, mark, hmark⟩, rest, rfl, ?_⟩
              rw [exponentText, Exponent.text, SignedDigits.text, List.cons_append, List.append_assoc,
                (splitDigits?_eq_some hdigits).1, hsigned]
          · exact ⟨none, _, rfl, rfl⟩
      · exact ⟨none, _, rfl, rfl⟩

/-- A point with digits is taken off together with the digits that follow it. -/
theorem leadingFractionPart_text (fs : Digits) (tail : List Char) : leadingFractionPart (fractionText fs ++ tail) =
    (fractionText fs ++ tail.takeWhile isAsciiDigit, tail.dropWhile isAsciiDigit) := by
  simp only [fractionText, List.cons_append, leadingFractionPart, splitDigits?_append fs.property]

theorem leadingFractionPart_of_mark {mark : Char} (h : isExponentMark mark = true) (cs : List Char) :
    leadingFractionPart (mark :: cs) = ([], mark :: cs) := by
  unfold leadingFractionPart
  split
  · next heq =>
      obtain ⟨rfl, -⟩ := List.cons.inj heq
      cases h
  · rfl

/-- An exponent is taken off together with the digits that follow it. -/
theorem leadingExponentPart_text (e : Exponent) (tail : List Char) : leadingExponentPart (e.text ++ tail) =
    (e.text ++ tail.takeWhile isAsciiDigit, tail.dropWhile isAsciiDigit) := by
  rw [Exponent.text, List.cons_append, leadingExponentPart, if_pos e.isMark, e.toSignedDigits.splitSignText_text]
  simp only [splitDigits?_append e.digits.property, SignedDigits.text, List.cons_append, List.append_assoc]

/-- The digits in front of a point or of a mark do not go on. -/
theorem not_digit_of_head? {fs : Option Digits} {e : Option Exponent} (h : fractionText fs ++ exponentText e ≠ [])
    (tail : List Char) :
    ∀ c ∈ (fractionText fs ++ (exponentText e ++ tail)).head?, isAsciiDigit c = false := by
  intro c hc
  cases fs with
  | some fs =>
      obtain rfl := Option.some.inj hc
      rfl
  | none =>
      cases e with
      | none => exact (h rfl).elim
      | some e =>
          obtain rfl := Option.some.inj hc
          rcases isExponentMark_iff.1 e.isMark with hmark | hmark <;> rw [hmark] <;> rfl

/-- A fraction part and an exponent are taken off whole. -/
theorem length_le_leadingTail (fs : Option Digits) (e : Option Exponent) (tail : List Char) :
    (fractionText fs ++ exponentText e).length ≤
      (leadingTail (fractionText fs ++ (exponentText e ++ tail))).length := by
  rw [leadingTail, List.length_append, List.length_append]
  cases e with
  | none =>
      have hfraction : (fractionText fs).length ≤ (leadingFractionPart (fractionText fs ++ tail)).1.length := by
        cases fs with
        | none => exact Nat.zero_le _
        | some fs =>
            rw [leadingFractionPart_text, List.length_append]
            exact Nat.le_add_right _ _
      exact hfraction.trans (Nat.le_add_right _ _)
  | some e =>
      have hpart : leadingFractionPart (fractionText fs ++ (e.text ++ tail)) = (fractionText fs, e.text ++ tail) := by
        cases fs with
        | none => exact leadingFractionPart_of_mark e.isMark _
        | some fs =>
            have hmark : fractionText none ++ exponentText (some e) ≠ [] := List.cons_ne_nil _ _
            have hends : ∀ c ∈ (e.text ++ tail).head?, isAsciiDigit c = false := not_digit_of_head? hmark tail
            rw [leadingFractionPart_text, takeWhile_eq_nil hends, dropWhile_eq_self hends, List.append_nil]
      rw [exponentText, hpart, leadingExponentPart_text, List.length_append]
      exact Nat.add_le_add_left (Nat.le_add_right _ _) _

/-- In front of any text a decimal numeral is taken off at least whole. -/
theorem DecimalNumeral.exists_leadingFraction? (n : DecimalNumeral) (tail : List Char) :
    ∃ front, leadingFraction? (n.text ++ tail) = some front ∧ n.text.length ≤ front.length := by
  let after := fractionText n.fraction ++ (exponentText n.exponent ++ tail)
  have hassoc : n.text ++ tail = n.toIntegerNumeral.text ++ after := by
    rw [text, List.append_assoc, List.append_assoc]
  have htail : (fractionText n.fraction ++ exponentText n.exponent).length ≤
      (after.takeWhile isAsciiDigit ++ leadingTail (after.dropWhile isAsciiDigit)).length := by
    by_cases hbare : fractionText n.fraction ++ exponentText n.exponent = []
    · rw [hbare]
      exact Nat.zero_le _
    · have hends := not_digit_of_head? hbare tail
      rw [takeWhile_eq_nil hends, dropWhile_eq_self hends]
      exact length_le_leadingTail n.fraction n.exponent tail
  rw [leadingFraction?_eq, hassoc, n.toIntegerNumeral.leadingInteger?_text]
  refine ⟨_, rfl, ?_⟩
  simp only [text, List.length_append] at htail ⊢
  omega

theorem leadingFraction?_eq_some (h : leadingFraction? cs = some front) :
    ∃ (n : DecimalNumeral) (rest : List Char), n.text = front ∧ n.text ++ rest = cs := by
  rw [leadingFraction?_eq] at h
  obtain ⟨⟨whole, afterWhole⟩, hwhole, rfl⟩ := Option.map_eq_some_iff.1 h
  obtain ⟨n, rfl, rfl⟩ := leadingInteger?_eq_some hwhole
  obtain ⟨fs, afterFraction, hfraction, rfl⟩ := leadingFractionPart_eq afterWhole
  obtain ⟨e, rest, hexponent, rfl⟩ := leadingExponentPart_eq afterFraction
  refine ⟨⟨n, fs, e⟩, rest, ?_, ?_⟩
  · dsimp only
    rw [leadingTail, hfraction, hexponent]
    rfl
  · rw [DecimalNumeral.text, List.append_assoc, List.append_assoc]

/-- A decimal numeral is taken off whole where it ends. -/
theorem DecimalNumeral.leadingFraction?_self (n : DecimalNumeral) : leadingFraction? n.text = some n.text := by
  obtain ⟨front, hfront, hlength⟩ := n.exists_leadingFraction? []
  rw [List.append_nil] at hfront
  obtain ⟨m, rest, rfl, hrest⟩ := leadingFraction?_eq_some hfront
  rw [hfront, List.IsPrefix.eq_of_length_le ⟨rest, hrest⟩ hlength]

/-- The decimal numeral that is taken off is the longest one. -/
theorem leadingFraction?_isLongest (h : leadingFraction? cs = some front) :
    IsLongest IsDecimalNumeral front cs := by
  obtain ⟨n, rest, rfl, rfl⟩ := leadingFraction?_eq_some h
  apply isLongest_of_length_le ⟨n, rfl⟩
  rintro other tail ⟨m, rfl⟩ heq
  obtain ⟨front, hfront, hlength⟩ := m.exists_leadingFraction? tail
  rw [heq, hfront] at h
  rwa [Option.some.inj h] at hlength

theorem DecimalNumeral.not_isPrefix (n : DecimalNumeral) (h : leadingFraction? cs = none) : ¬ n.text <+: cs := by
  intro hprefix
  obtain ⟨tail, rfl⟩ := hprefix
  obtain ⟨front, hfront, -⟩ := n.exists_leadingFraction? tail
  rw [hfront] at h
  cases h

/-! ## The one numeral of a text -/

theorem Sign.text_injective : Function.Injective Sign.text := by
  intro s t h
  cases s <;> cases t <;> first | rfl | cases h

theorem SignedDigits.append_inj {n m : SignedDigits} {after after' : List Char}
    (h : n.text ++ after = m.text ++ after') :
    n.sign = m.sign ∧ n.digits.val ++ after = m.digits.val ++ after' := by
  have hsplit := congrArg splitSignText h
  rw [n.splitSignText_text, m.splitSignText_text] at hsplit
  obtain ⟨hsign, hdigits⟩ := Prod.mk.inj hsplit
  exact ⟨Sign.text_injective hsign, hdigits⟩

theorem IntegerNumeral.append_inj {n m : IntegerNumeral} {after after' : List Char}
    (h : n.text ++ after = m.text ++ after') :
    n.blanks = m.blanks ∧ n.sign = m.sign ∧ n.digits.val ++ after = m.digits.val ++ after' := by
  have hn := n.toSignedDigits.not_blank_of_head? after
  have hm := m.toSignedDigits.not_blank_of_head? after'
  rw [text, text, List.append_assoc, List.append_assoc] at h
  have hblanks := congrArg (List.takeWhile isBlank) h
  have hsigned := congrArg (List.dropWhile isBlank) h
  rw [takeWhile_run n.isBlank_of_mem hn, takeWhile_run m.isBlank_of_mem hm] at hblanks
  rw [dropWhile_run n.isBlank_of_mem hn, dropWhile_run m.isBlank_of_mem hm] at hsigned
  exact ⟨hblanks, SignedDigits.append_inj hsigned⟩

theorem IntegerNumeral.text_injective : Function.Injective IntegerNumeral.text := by
  intro n m h
  have happend : n.text ++ [] = m.text ++ [] := by rw [h]
  obtain ⟨hblanks, hsign, hdigits⟩ := append_inj happend
  rw [List.append_nil, List.append_nil] at hdigits
  exact IntegerNumeral.ext hsign (Subtype.ext hdigits) hblanks

theorem fractionText_injective : Function.Injective fractionText := by
  intro fs fs' h
  cases fs with
  | none =>
      cases fs' with
      | none => rfl
      | some fs' => cases h
  | some fs =>
      cases fs' with
      | none => cases h
      | some fs' => exact congrArg some (Subtype.ext (List.cons.inj h).2)

theorem exponentText_injective : Function.Injective exponentText := by
  intro e e' h
  cases e with
  | none =>
      cases e' with
      | none => rfl
      | some e' => cases h
  | some e =>
      cases e' with
      | none => cases h
      | some e' =>
          obtain ⟨hmark, hsigned⟩ := List.cons.inj h
          have happend : e.toSignedDigits.text ++ [] = e'.toSignedDigits.text ++ [] := by rw [hsigned]
          obtain ⟨hsign, hdigits⟩ := SignedDigits.append_inj happend
          rw [List.append_nil, List.append_nil] at hdigits
          exact congrArg some (Exponent.ext hsign (Subtype.ext hdigits) hmark)

theorem DecimalNumeral.text_injective : Function.Injective DecimalNumeral.text := by
  intro n m h
  obtain ⟨hblanks, hsign, hbody⟩ := IntegerNumeral.append_inj h
  obtain ⟨hmantissa, htail⟩ := n.split_at_mark
  obtain ⟨hmantissa', htail'⟩ := m.split_at_mark
  rw [hbody] at hmantissa htail
  have hfront := hmantissa.symm.trans hmantissa'
  have hexponent := exponentText_injective (htail.symm.trans htail')
  obtain ⟨hwhole, hbehind⟩ := n.split_at_point
  obtain ⟨hwhole', hbehind'⟩ := m.split_at_point
  rw [hfront] at hwhole hbehind
  have hdigits := Subtype.ext (hwhole.symm.trans hwhole')
  have hfraction := fractionText_injective (hbehind.symm.trans hbehind')
  exact DecimalNumeral.ext hsign hdigits hblanks hfraction hexponent

theorem isLongest_unique {form : List Char → Prop} {front' : List Char} (h : IsLongest form front cs)
    (h' : IsLongest form front' cs) : front = front' := by
  have hlength := h'.2.2 front h.1 h.2.1
  have hlength' := h.2.2 front' h'.1 h'.2.1
  exact (List.prefix_of_prefix_length_le h.1 h'.1 hlength).eq_of_length_le hlength'

/-- There is one longest leading numeral if texts tell numerals apart. -/
theorem isLongest_iff_eq {α : Type} {text : α → List Char} {form : List Char → Prop} {a b : α}
    (hinjective : Function.Injective text) (h : IsLongest form (text a) cs) :
    IsLongest form (text b) cs ↔ b = a := by
  constructor
  · intro hb
    exact hinjective (isLongest_unique hb h)
  · intro heq
    rw [heq]
    exact h

end RuleExpr.Numeral
