import RuleExpr.Proofs.Numeral.Reading

/-!
# Grouped numerals

Integers may be written with the digits of every script, mixed at will, and with single underscores between the digits.
Exactly these numerals are read, if they do not have too many digits, and each as the integer that it denotes
(`toInt_eq_ok_iff`).
-/
namespace RuleExpr.Numeral
open Text

/-- One or more digits of any script. -/
def IsGroup (cs : List Char) : Prop := cs ≠ [] ∧ ∀ c ∈ cs, (digitValue? c).isSome = true

-- The instance for members of a list is named, since characters are finitely many and would be tried one by one.
instance : DecidablePred IsGroup := fun cs =>
  @instDecidableAnd _ _ inferInstance (List.decidableBAll (fun c => (digitValue? c).isSome = true) cs)

/-- Digits with single underscores between them: there are digits on both sides of every underscore. -/
def IsGrouped (cs : List Char) : Prop := ∀ group ∈ cs.splitOn '_', IsGroup group

instance : DecidablePred IsGrouped := fun cs => List.decidableBAll IsGroup (cs.splitOn '_')

/-- The values of the digits of a text. -/
def digitValues (cs : List Char) : List ℕ := cs.filterMap digitValue?

/-- A sign, which may be missing, and digits of any script. -/
structure GroupedNumeral where
  sign : Sign
  digits : List Char
  isGrouped : IsGrouped digits

namespace GroupedNumeral

def text (n : GroupedNumeral) : List Char := n.sign.text ++ n.digits

/-- The number of digits. Underscores do not count. -/
def size (n : GroupedNumeral) : ℕ := (digitValues n.digits).length

def magnitude (n : GroupedNumeral) : ℕ := Nat.ofDigits 10 (digitValues n.digits).reverse

def value (n : GroupedNumeral) : ℤ := if n.sign.isMinus then -(n.magnitude : ℤ) else n.magnitude

end GroupedNumeral

/-! ## Groups -/

section
variable {c d : Char} {cs g : List Char} {gs : List (List Char)}

theorem isGroup_cons : IsGroup (c :: g) ↔ (digitValue? c).isSome = true ∧ ∀ d ∈ g, (digitValue? d).isSome = true := by
  rw [IsGroup, List.forall_mem_cons]
  exact and_iff_right (List.cons_ne_nil _ _)

theorem splitOn_underscore (cs : List Char) : ('_' :: cs).splitOn '_' = [] :: cs.splitOn '_' := by
  rw [List.splitOn_cons_eq_if_modifyHead]
  rfl

theorem splitOn_cons_of_ne (hc : c ≠ '_') (hsplit : cs.splitOn '_' = g :: gs) :
    (c :: cs).splitOn '_' = (c :: g) :: gs := by
  rw [List.splitOn_cons_eq_if_modifyHead, if_neg (by simpa using hc), hsplit, List.modifyHead_cons]

/-- A character in front is a digit of the first group. -/
theorem isGrouped_cons (hsplit : cs.splitOn '_' = g :: gs) : IsGrouped (c :: cs) ↔
    (digitValue? c).isSome = true ∧ (∀ d ∈ g, (digitValue? d).isSome = true) ∧ ∀ group ∈ gs, IsGroup group := by
  by_cases hc : c = '_'
  · subst hc
    have hempty : ¬ IsGrouped ('_' :: cs) := by
      intro h
      rw [IsGrouped, splitOn_underscore] at h
      exact (h [] List.mem_cons_self).1 rfl
    exact iff_of_false hempty fun h => absurd h.1 (by decide)
  · rw [IsGrouped, splitOn_cons_of_ne hc hsplit, List.forall_mem_cons, isGroup_cons, and_assoc]

theorem not_isGrouped_nil : ¬ IsGrouped [] := by decide

theorem isGrouped_singleton : IsGrouped [c] ↔ (digitValue? c).isSome = true := by
  rw [isGrouped_cons (List.splitOn_nil '_')]
  exact and_iff_left ⟨nofun, nofun⟩

theorem isGrouped_underscore :
    IsGrouped (c :: '_' :: cs) ↔ (digitValue? c).isSome = true ∧ IsGrouped cs := by
  rw [isGrouped_cons (splitOn_underscore cs)]
  exact and_congr_right fun _ => and_iff_right nofun

theorem isGrouped_cons_cons (hd : d ≠ '_') :
    IsGrouped (c :: d :: cs) ↔ (digitValue? c).isSome = true ∧ IsGrouped (d :: cs) := by
  obtain ⟨g, gs, hsplit⟩ := List.exists_cons_of_ne_nil (List.splitOn_ne_nil '_' cs)
  have hnext := splitOn_cons_of_ne hd hsplit
  rw [isGrouped_cons hnext, IsGrouped, hnext, List.forall_mem_cons (l := gs), isGroup_cons, List.forall_mem_cons]

/-- Nothing but digits and underscores stands in grouped digits. -/
theorem IsGrouped.mem (h : IsGrouped cs) (hc : c ∈ cs) : c = '_' ∨ (digitValue? c).isSome = true := by
  have hgroup : c = '_' ∨ ∃ g ∈ cs.splitOn '_', c ∈ g := by
    clear h
    induction cs with
    | nil => cases hc
    | cons d cs ih =>
        obtain ⟨g, gs, hsplit⟩ := List.exists_cons_of_ne_nil (List.splitOn_ne_nil '_' cs)
        by_cases hd : d = '_'
        · subst hd
          rw [splitOn_underscore]
          rcases List.mem_cons.1 hc with hfirst | hrest
          · exact .inl hfirst
          · exact (ih hrest).imp_right fun ⟨g, hg, hmem⟩ => ⟨g, List.mem_cons_of_mem _ hg, hmem⟩
        · rw [splitOn_cons_of_ne hd hsplit, List.exists_mem_cons_iff]
          rw [hsplit, List.exists_mem_cons_iff] at ih
          rcases List.mem_cons.1 hc with rfl | hrest
          · exact .inr (.inl List.mem_cons_self)
          · exact (ih hrest).imp_right (.imp_left (List.mem_cons_of_mem _))
  exact hgroup.imp_right fun ⟨g, hg, hmem⟩ => (h g hg).2 c hmem

end

/-! ## Reading -/

theorem digitValues_cons {c : Char} {d : ℕ} (h : digitValue? c = some d) (cs : List Char) :
    digitValues (c :: cs) = d :: digitValues cs :=
  List.filterMap_cons_some h

/-- One digit is read in front of digits that are read. -/
theorem digits_cons_eq_some_iff {c : Char} {cs : List Char} {ds : List ℕ}
    (ih : ∀ {ds}, digits? cs = some ds ↔ IsGrouped cs ∧ digitValues cs = ds) :
    (do return (← digitValue? c) :: (← digits? cs)) = some ds ↔
      ((digitValue? c).isSome = true ∧ IsGrouped cs) ∧ digitValues (c :: cs) = ds := by
  simp only [Option.bind_eq_bind, Option.bind_eq_some_iff, Option.pure_def, Option.some.injEq, ih]
  constructor
  · rintro ⟨d, hd, -, ⟨hgrouped, rfl⟩, rfl⟩
    exact ⟨⟨Option.isSome_of_eq_some hd, hgrouped⟩, digitValues_cons hd cs⟩
  · rintro ⟨⟨hsome, hgrouped⟩, rfl⟩
    obtain ⟨d, hd⟩ := Option.isSome_iff_exists.1 hsome
    exact ⟨d, hd, _, ⟨hgrouped, rfl⟩, (digitValues_cons hd cs).symm⟩

/-- Digits are read if and only if they are grouped, and then by their values. -/
theorem digits?_eq_some_iff {cs : List Char} {ds : List ℕ} :
    digits? cs = some ds ↔ IsGrouped cs ∧ digitValues cs = ds := by
  -- The cases are those of the reader: no text, the last digit, a digit before an underscore, and one before a digit.
  fun_induction digits? cs generalizing ds with
  | case1 => exact iff_of_false (Option.some_ne_none ds).symm fun h => not_isGrouped_nil h.1
  | case2 c =>
      rw [isGrouped_singleton, Option.map_eq_some_iff, Option.isSome_iff_exists]
      constructor
      · rintro ⟨d, hd, rfl⟩
        exact ⟨⟨d, hd⟩, digitValues_cons hd []⟩
      · rintro ⟨⟨d, hd⟩, rfl⟩
        exact ⟨d, hd, (digitValues_cons hd []).symm⟩
  | case3 c cs ih =>
      have hunderscore : digitValues (c :: '_' :: cs) = digitValues (c :: cs) := by
        rw [digitValues, digitValues, List.filterMap_cons, List.filterMap_cons]
        rfl
      rw [isGrouped_underscore, hunderscore, digits_cons_eq_some_iff ih]
  | case4 c cs hne hplain ih =>
      obtain ⟨d, cs, rfl⟩ := List.exists_cons_of_ne_nil hne
      have hd : d ≠ '_' := by
        rintro rfl
        exact hplain cs rfl
      rw [isGrouped_cons_cons hd, digits_cons_eq_some_iff ih]

theorem ofDigits_eq (ds : List ℕ) : ofDigits ds = Nat.ofDigits 10 ds.reverse := by
  rw [Nat.ofDigits_eq_foldr, List.foldr_reverse, ofDigits]
  congr 1
  funext n d
  exact Nat.add_comm _ _

theorem exists_sign (cs : List Char) :
    ∃ s : Sign, cs = s.text ++ (splitSign cs).2 ∧ s.isMinus = (splitSign cs).1 := by
  fun_cases splitSign cs with
  | case1 => exact ⟨.minus, rfl, rfl⟩
  | case2 => exact ⟨.plus, rfl, rfl⟩
  | case3 => exact ⟨.none, rfl, rfl⟩

namespace GroupedNumeral
variable (n : GroupedNumeral)

theorem splitSign_text : splitSign n.text = (n.sign.isMinus, n.digits) := by
  obtain ⟨s, ds, hgrouped⟩ := n
  cases s with
  | plus | minus => rfl
  | none =>
      obtain ⟨c, cs, rfl⟩ : ∃ c cs, ds = c :: cs := by
        apply List.exists_cons_of_ne_nil
        rintro rfl
        exact not_isGrouped_nil hgrouped
      have hsign : c ≠ '-' ∧ c ≠ '+' := by
        have hmem := hgrouped.mem List.mem_cons_self
        constructor <;> (rintro rfl; revert hmem; decide)
      exact splitSign_of_not_sign hsign cs

/-- Nothing in a numeral is blank. -/
theorem not_blank_of_mem {c : Char} (h : c ∈ n.text) : isBlank c = false := by
  rcases List.mem_append.1 h with hsign | hdigit
  · cases hs : n.sign with
    | none =>
        rw [hs] at hsign
        cases hsign
    | plus | minus =>
        rw [hs] at hsign
        obtain rfl := List.mem_singleton.1 hsign
        rfl
  · rcases n.isGrouped.mem hdigit with rfl | hsome
    · rfl
    · exact isBlank_of_digitValue? hsome

end GroupedNumeral

/-- What is read as an integer is a numeral of the integer, between padding and without too many digits. -/
theorem toInt_eq_ok_iff {cs : List Char} {i : ℤ} : toInt cs = .ok i ↔
    ∃ n : GroupedNumeral, trimBy isNumeralPadding cs = n.text ∧ n.size ≤ digitLimit ∧ n.value = i := by
  unfold toInt
  dsimp only
  constructor
  · intro h
    obtain ⟨s, htext, hminus⟩ := exists_sign (trimBy isNumeralPadding cs)
    split at h
    · cases h
    · next ds hds =>
        obtain ⟨hgrouped, rfl⟩ := digits?_eq_some_iff.1 hds
        split at h
        · next hsize =>
            refine ⟨⟨s, _, hgrouped⟩, htext, hsize, ?_⟩
            rw [GroupedNumeral.value, hminus, GroupedNumeral.magnitude, ← ofDigits_eq]
            exact Except.ok.inj h
        · cases h
  · rintro ⟨n, htext, hsize, rfl⟩
    have hdigits : digits? n.digits = some (digitValues n.digits) := digits?_eq_some_iff.2 ⟨n.isGrouped, rfl⟩
    rw [htext, n.splitSign_text, hdigits]
    dsimp only
    rw [← GroupedNumeral.size, if_pos hsize, GroupedNumeral.value, GroupedNumeral.magnitude, ofDigits_eq]

/-- The blanks around a text that is read do not matter, and nothing else may stand around the numeral. -/
theorem toInt_trim_eq_ok_iff {cs : List Char} {i : ℤ} : toInt (trim cs) = .ok i ↔
    ∃ n : GroupedNumeral, trim cs = n.text ∧ n.size ≤ digitLimit ∧ n.value = i := by
  have hends := (trimBy_eq_iff.1 (rfl : trim cs = trim cs)).2
  have hpadding {c : Char} (hc : isBlank c = false) : isNumeralPadding c = false := by
    rw [isNumeralPadding, hc, Bool.false_and]
  have htrim : trimBy isNumeralPadding (trim cs) = trim cs :=
    trimBy_eq_iff.2 ⟨⟨[], [], by simp⟩, fun c hc => hpadding (hends.1 c hc), fun c hc => hpadding (hends.2 c hc)⟩
  rw [toInt_eq_ok_iff, htrim]

/-- The text of an integer is a numeral of it. -/
theorem GroupedNumeral.exists_text_eq_ofInt {i : ℤ} (h : isWritable i = true) :
    ∃ n : GroupedNumeral, n.text = ofInt i ∧ n.size ≤ digitLimit ∧ n.value = i := by
  obtain ⟨n, htext, hsize, hvalue⟩ := toInt_eq_ok_iff.1 (toInt_ofInt h)
  have hplain : ∀ c ∈ ofInt i, isNumeralPadding c = false := by
    rw [← SignedDigits.text_ofInt]
    exact fun c hc => SignedDigits.not_padding hc
  rw [trimBy_of_forall hplain] at htext
  exact ⟨n, htext.symm, hsize, hvalue⟩

end RuleExpr.Numeral
