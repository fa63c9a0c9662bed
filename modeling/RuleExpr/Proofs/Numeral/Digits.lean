import Mathlib
import RuleExpr.Numeral

/-!
# Runs of decimal digits

A run of characters of a class is cut off where the text does not go on with the class. Runs of the digits
`0` to `9` are read as the number that they denote, and the decimal text of a number is such a run.
-/
namespace RuleExpr.Text

theorem takeWhile_eq_nil {p : Char → Bool} {cs : List Char} (h : ∀ c ∈ cs.head?, p c = false) :
    cs.takeWhile p = [] := by
  cases cs with
  | nil => rfl
  | cons c cs =>
      have hc : ¬ p c = true := by simp [h c rfl]
      exact List.takeWhile_cons_of_neg hc

theorem dropWhile_eq_self {p : Char → Bool} {cs : List Char} (h : ∀ c ∈ cs.head?, p c = false) :
    cs.dropWhile p = cs := by
  cases cs with
  | nil => rfl
  | cons c cs =>
      have hc : ¬ p c = true := by simp [h c rfl]
      exact List.dropWhile_cons_of_neg hc

/-- A run ends where the text behind it does not start with a character of the class. -/
theorem takeWhile_run {p : Char → Bool} {run rest : List Char} (hrun : ∀ c ∈ run, p c = true)
    (hrest : ∀ c ∈ rest.head?, p c = false) : (run ++ rest).takeWhile p = run := by
  rw [List.takeWhile_append_of_pos hrun, takeWhile_eq_nil hrest, List.append_nil]

theorem dropWhile_run {p : Char → Bool} {run rest : List Char} (hrun : ∀ c ∈ run, p c = true)
    (hrest : ∀ c ∈ rest.head?, p c = false) : (run ++ rest).dropWhile p = rest := by
  rw [List.dropWhile_append_of_pos hrun, dropWhile_eq_self hrest]

/-- Behind a run that was cut off, the text does not start with a character of the class. -/
theorem head?_dropWhile_eq_false {p : Char → Bool} {cs : List Char} :
    ∀ c ∈ (cs.dropWhile p).head?, p c = false := by
  intro c hc
  have hnot := List.head?_dropWhile_not p cs
  rw [Option.mem_def.1 hc] at hnot
  exact hnot

theorem trimBy_of_forall {drop : Char → Bool} {cs : List Char} (h : ∀ c ∈ cs, drop c = false) :
    trimBy drop cs = cs := by
  have keep {cs : List Char} (h : ∀ c ∈ cs, drop c = false) : cs.dropWhile drop = cs := by
    cases cs with
    | nil => rfl
    | cons c cs =>
        apply List.dropWhile_cons_of_neg
        rw [h c List.mem_cons_self]
        exact Bool.false_ne_true
  have hreverse : ∀ c ∈ cs.reverse, drop c = false := fun c hc => h c (List.mem_reverse.1 hc)
  rw [trimBy, keep h, keep hreverse, List.reverse_reverse]

theorem trimBy_append {drop : Char → Bool} {run : List Char} (hrun : ∀ c ∈ run, drop c = true) (cs : List Char) :
    trimBy drop (run ++ cs) = trimBy drop cs := by
  rw [trimBy, List.dropWhile_append_of_pos hrun, trimBy]

/-- Nothing is dropped behind the first character that does not belong to the class. -/
theorem trimBy_cons_of_neg {drop : Char → Bool} {c : Char} (hc : drop c = false) (cs : List Char) :
    ∃ rest, trimBy drop (c :: cs) = c :: rest := by
  have hkeep : ¬ drop c = true := by simp [hc]
  rw [trimBy, List.dropWhile_cons_of_neg hkeep, List.reverse_cons, List.dropWhile_append,
    List.dropWhile_cons_of_neg hkeep]
  split
  · exact ⟨[], rfl⟩
  · exact ⟨_, List.reverse_append⟩

/-- What is left stands between two runs of the class and does not start or end with a character of it. -/
theorem trimBy_eq_iff {drop : Char → Bool} {cs body : List Char} : trimBy drop cs = body ↔
    (∃ before after, cs = before ++ body ++ after ∧ (∀ c ∈ before, drop c = true) ∧ ∀ c ∈ after, drop c = true) ∧
      (∀ c ∈ body.head?, drop c = false) ∧ ∀ c ∈ body.getLast?, drop c = false := by
  constructor
  · rintro rfl
    let kept := cs.dropWhile drop
    let after := (kept.reverse.takeWhile drop).reverse
    have hkept : kept = trimBy drop cs ++ after := by
      rw [trimBy, ← List.reverse_append, List.takeWhile_append_dropWhile, List.reverse_reverse]
    refine ⟨⟨cs.takeWhile drop, after, ?_, ?_, ?_⟩, ?_, ?_⟩
    · rw [List.append_assoc, ← hkept, List.takeWhile_append_dropWhile]
    · exact fun c hc => List.mem_takeWhile_imp hc
    · exact fun c hc => List.mem_takeWhile_imp (List.mem_reverse.1 hc)
    · intro c hc
      have hfirst : ∀ d ∈ kept.head?, drop d = false := head?_dropWhile_eq_false
      apply hfirst
      rw [hkept, List.head?_append, Option.mem_def.1 hc]
      rfl
    · intro c hc
      rw [trimBy, List.getLast?_reverse] at hc
      exact head?_dropWhile_eq_false c hc
  · rintro ⟨⟨before, after, rfl, hbefore, hafter⟩, hhead, hlast⟩
    have hreverse : ∀ c ∈ after.reverse, drop c = true := fun c hc => hafter c (List.mem_reverse.1 hc)
    rw [List.append_assoc, trimBy_append hbefore]
    cases body with
    | nil => rw [List.nil_append, trimBy, List.dropWhile_eq_nil_iff.2 hafter, List.reverse_nil, List.dropWhile_nil,
        List.reverse_nil]
    | cons c body =>
        have hfirst : ∀ d ∈ (c :: body ++ after).head?, drop d = false := hhead
        rw [List.getLast?_eq_head?_reverse] at hlast
        rw [trimBy, dropWhile_eq_self hfirst, List.reverse_append, dropWhile_run hreverse hlast, List.reverse_reverse]

end RuleExpr.Text

namespace RuleExpr.Numeral
open Text

/-- One or more of the digits `0` to `9`. -/
def IsDigits (cs : List Char) : Prop := cs ≠ [] ∧ ∀ c ∈ cs, isAsciiDigit c = true

theorem isAsciiDigit_eq_isDigit (c : Char) : isAsciiDigit c = c.isDigit := by
  simp only [isAsciiDigit, Char.isDigit, Char.le_def, ge_iff_le]

theorem isAsciiDigit_iff {c : Char} : isAsciiDigit c = true ↔ 48 ≤ c.toNat ∧ c.toNat ≤ 57 := by
  simp only [isAsciiDigit, Bool.and_eq_true, decide_eq_true_eq, Char.le_def, UInt32.le_iff_toNat_le]
  rfl

theorem digitValue?_of_isAsciiDigit {c : Char} (h : isAsciiDigit c = true) :
    digitValue? c = some (c.toNat - 48) := by
  have hrange := isAsciiDigit_iff.1 h
  have first : digitZeros.find? (fun start => start ≤ c.toNat && c.toNat < start + 10) = some 0x30 := by
    rw [digitZeros, List.find?_cons_of_pos]
    simp only [Bool.and_eq_true, decide_eq_true_eq]
    omega
  rw [digitValue?, first]
  rfl

/-- No digit of any script is blank: the runs of the digits are apart from the blanks. -/
theorem digitValue?_of_isBlank {c : Char} (h : isBlank c = true) : digitValue? c = none := by
  have hruns : ∀ start ∈ digitZeros, ∀ k < 10, isBlank (Char.ofNat (start + k)) = false := by decide +kernel
  rw [digitValue?, Option.map_eq_none_iff, List.find?_eq_none]
  intro start hstart hrun
  rw [Bool.and_eq_true, decide_eq_true_eq, decide_eq_true_eq] at hrun
  have hplain := hruns start hstart (c.toNat - start) (by omega)
  rw [Nat.add_sub_cancel' hrun.1, Char.ofNat_toNat, h] at hplain
  cases hplain

theorem isBlank_of_digitValue? {c : Char} (h : (digitValue? c).isSome = true) : isBlank c = false := by
  rw [Bool.eq_false_iff]
  intro hblank
  rw [digitValue?_of_isBlank hblank] at h
  cases h

theorem isBlank_of_isAsciiDigit {c : Char} (h : isAsciiDigit c = true) : isBlank c = false :=
  isBlank_of_digitValue? (Option.isSome_of_eq_some (digitValue?_of_isAsciiDigit h))

theorem IsDigits.tail {c d : Char} {cs : List Char} (h : IsDigits (c :: d :: cs)) : IsDigits (d :: cs) :=
  ⟨List.cons_ne_nil _ _, fun e he => h.2 e (List.mem_cons_of_mem _ he)⟩

theorem IsDigits.append {ds es : List Char} (hds : IsDigits ds) (hes : ∀ c ∈ es, isAsciiDigit c = true) :
    IsDigits (ds ++ es) := by
  refine ⟨List.append_ne_nil_of_left_ne_nil hds.1 es, ?_⟩
  intro c hc
  rcases List.mem_append.1 hc with hleft | hright
  · exact hds.2 c hleft
  · exact hes c hright

theorem IsDigits.prepend {es ds : List Char} (hds : IsDigits ds) (hes : ∀ c ∈ es, isAsciiDigit c = true) :
    IsDigits (es ++ ds) := by
  refine ⟨List.append_ne_nil_of_right_ne_nil es hds.1, ?_⟩
  intro c hc
  rcases List.mem_append.1 hc with hleft | hright
  · exact hes c hleft
  · exact hds.2 c hright

theorem isAsciiDigit_of_mem_zeros (k : Nat) : ∀ c ∈ List.replicate k '0', isAsciiDigit c = true := by
  intro c hc
  rw [List.eq_of_mem_replicate hc]
  rfl

theorem isDigits_replicate_zero {k : Nat} (h : 0 < k) : IsDigits (List.replicate k '0') :=
  ⟨by simpa using Nat.ne_of_gt h, isAsciiDigit_of_mem_zeros k⟩

theorem digits?_of_isDigits {cs : List Char} (h : IsDigits cs) :
    digits? cs = some (cs.map (·.toNat - 48)) := by
  fun_induction digits? cs with
  | case1 => exact (h.1 rfl).elim
  | case2 c =>
      rw [digitValue?_of_isAsciiDigit (h.2 c (by simp))]
      rfl
  | case3 c cs _ =>
      have underscore := h.2 '_' (by simp)
      exact (Bool.false_ne_true underscore).elim
  | case4 c cs hne _ ih =>
      cases cs with
      | nil => exact (hne rfl).elim
      | cons d cs =>
          rw [digitValue?_of_isAsciiDigit (h.2 c (by simp)), ih h.tail]
          rfl

theorem ofDigits_map_toNat (cs : List Char) :
    ofDigits (cs.map (·.toNat - 48)) = Nat.ofDigitChars 10 cs 0 := by
  simp only [ofDigits, List.foldl_map, Nat.ofDigitChars_eq_foldl]
  rfl

theorem isDigits_toDigits (n : Nat) : IsDigits (Nat.toDigits 10 n) := by
  refine ⟨Nat.toDigits_ne_nil, ?_⟩
  intro c hc
  rw [isAsciiDigit_eq_isDigit]
  exact Nat.isDigit_of_mem_toDigits (by decide) (by decide) hc

theorem splitDigits?_run {ds rest : List Char} (h : IsDigits ds)
    (hrest : ∀ c ∈ rest.head?, isAsciiDigit c = false) : splitDigits? (ds ++ rest) = some (ds, rest) := by
  rw [splitDigits?, takeWhile_run h.2 hrest, dropWhile_run h.2 hrest, if_neg (by simpa using h.1)]

/-- What is split off is a run of digits that does not go on. -/
theorem splitDigits?_run_of_eq_some {cs ds rest : List Char} (h : splitDigits? cs = some (ds, rest)) :
    IsDigits ds ∧ ∀ c ∈ rest.head?, isAsciiDigit c = false := by
  have hne := (splitDigits?_eq_some h).2
  unfold splitDigits? at h
  split at h
  · cases h
  · obtain ⟨rfl, rfl⟩ := Prod.mk.inj (Option.some.inj h)
    exact ⟨⟨hne, fun c hc => List.mem_takeWhile_imp hc⟩, head?_dropWhile_eq_false⟩

end RuleExpr.Numeral
