import RuleExpr.Lexeme
import RuleExpr.Proofs.Numeral.Digits

/-!
# Shapes of lexemes

`HasShape` says what text a lexeme of each kind keeps. Each pattern cuts text of its shape whole where the text
behind it does not go on with it; a text between quotes ends at the first bare quote. The lemmas in `eq_some` say all
that a pattern cuts off, and from what.
-/
namespace RuleExpr.Lexeme
open Numeral Text

/-- Digits, with a point and further digits or without. -/
inductive IsMagnitude : List Char → Prop
  | whole {ds : List Char} : IsDigits ds → IsMagnitude ds
  | fraction {ds fs : List Char} : IsDigits ds → IsDigits fs → IsMagnitude (ds ++ '.' :: fs)

/-- A magnitude with or without a minus. -/
inductive IsNumber : List Char → Prop
  | positive {cs : List Char} : IsMagnitude cs → IsNumber cs
  | negative {cs : List Char} : IsMagnitude cs → IsNumber ('-' :: cs)

/-- Whether each backslash, paired from the left, has a character behind it. -/
def isPaired : List Char → Bool
  | [] => true
  | '\\' :: _ :: cs => isPaired cs
  | c :: cs => c ≠ '\\' && isPaired cs

/-- Whether the quote occurs other than behind an escaping backslash, pairing backslashes from the left. -/
def holdsBare (quote : Char) : List Char → Bool
  | [] => false
  | '\\' :: _ :: cs => holdsBare quote cs
  | c :: cs => c = quote || holdsBare quote cs

/-- Characters of a text between quotes that are neither the quote nor a backslash. -/
def isPlain (quote c : Char) : Bool := c ≠ quote && c ≠ '\\'

/-- Texts in which each backslash has a character behind it and the quote stands only behind a backslash. -/
inductive IsBody (quote : Char) : List Char → Prop
  | nil : IsBody quote []
  | plain {c : Char} {cs : List Char} : isPlain quote c = true → IsBody quote cs → IsBody quote (c :: cs)
  | escape {c : Char} {cs : List Char} : IsBody quote cs → IsBody quote ('\\' :: c :: cs)

/-- What the kept text of a lexeme looks like. There are no blank lexemes. -/
def HasShape (kind : Kind) (text : List Char) : Prop :=
  match kind with
  | .openList => text = ['(']
  | .closeList => text = [')']
  | .fn => text = ['f', 'n']
  | .var => text ≠ [] ∧ (∀ c ∈ text, isNameChar c = true) ∧ text ≠ ['f', 'n']
  | .num => IsNumber text
  | .date => text ≠ [] ∧ ∀ c ∈ text, isBrace c = false
  | .blank => False
  | .str => isPaired text = true

/-! ## Single patterns -/

theorem cutChar_eq_some {wanted : Char} {cs : List Char} {cut : Cut} (h : cutChar wanted cs = some cut) :
    ∃ rest, cs = wanted :: rest ∧ cut = .whole [wanted] rest := by
  unfold cutChar at h
  split at h
  · next c rest =>
      split at h
      · next hwanted =>
          subst hwanted
          exact ⟨rest, rfl, (Option.some.inj h).symm⟩
      · cases h
  · cases h

theorem cutFn_eq_some {cs : List Char} {cut : Cut} (h : cutFn cs = some cut) :
    ∃ rest, cs = 'f' :: 'n' :: rest ∧ (∀ c ∈ rest.head?, isNameChar c = false) ∧ cut = .whole ['f', 'n'] rest := by
  unfold cutFn at h
  split at h
  · next rest =>
      split at h
      · cases h
      · next hends =>
          refine ⟨rest, rfl, fun c hc => ?_, (Option.some.inj h).symm⟩
          rw [Option.mem_def.1 hc] at hends
          simpa using hends
  · cases h

theorem cutFn_run {rest : List Char} (h : ∀ c ∈ rest.head?, isNameChar c = false) :
    cutFn ('f' :: 'n' :: rest) = some (.whole ['f', 'n'] rest) := by
  cases rest with
  | nil => rfl
  | cons c cs => simp only [cutFn, List.head?_cons, Option.map_some, Option.getD_some, h c rfl]; rfl

theorem cutRun_run {holds : Char → Bool} {run rest : List Char} (hne : run ≠ [])
    (hrun : ∀ c ∈ run, holds c = true) (hrest : ∀ c ∈ rest.head?, holds c = false) :
    cutRun holds (run ++ rest) = some (.whole run rest) := by
  rw [cutRun, takeWhile_run hrun hrest, dropWhile_run hrun hrest, if_neg (by simpa using hne)]

theorem cutRun_eq_some {holds : Char → Bool} {cs : List Char} {cut : Cut} (h : cutRun holds cs = some cut) :
    cs.takeWhile holds ≠ [] ∧ cut = .whole (cs.takeWhile holds) (cs.dropWhile holds) := by
  unfold cutRun at h
  split at h
  · cases h
  · next hne => exact ⟨fun hempty => hne (List.isEmpty_iff.2 hempty), (Option.some.inj h).symm⟩

theorem cutRun_cons_eq_none {holds : Char → Bool} {c : Char} {cs : List Char} (h : holds c = false) :
    cutRun holds (c :: cs) = none := by
  rw [cutRun, List.takeWhile_cons_of_neg (by simp [h])]
  rfl

theorem isNameChar_iff {c : Char} : isNameChar c = true ↔
    (65 ≤ c.toNat ∧ c.toNat ≤ 90) ∨ (97 ≤ c.toNat ∧ c.toNat ≤ 122) ∨
      c.toNat ∈ [95, 62, 60, 43, 33, 61, 42, 47, 37, 45] := by
  have members : "_><+!=*/%-".toList = ['_', '>', '<', '+', '!', '=', '*', '/', '%', '-'] := rfl
  have upper : c.isUpper = true ↔ 65 ≤ c.toNat ∧ c.toNat ≤ 90 := by
    simp only [Char.isUpper, decide_eq_true_eq, ge_iff_le, UInt32.le_iff_toNat_le]
    rfl
  have lower : c.isLower = true ↔ 97 ≤ c.toNat ∧ c.toNat ≤ 122 := by
    simp only [Char.isLower, Bool.and_eq_true, decide_eq_true_eq, ge_iff_le, UInt32.le_iff_toNat_le]
    rfl
  simp only [isNameChar, members, Char.isAlpha, Bool.or_eq_true, upper, lower, List.contains_eq_mem,
    decide_eq_true_eq, List.mem_cons, List.not_mem_nil, or_false, or_assoc, ← Char.toNat_inj]
  rfl

theorem isNameChar_of_isAsciiDigit {c : Char} (h : isAsciiDigit c = true) : isNameChar c = false := by
  have hrange := isAsciiDigit_iff.1 h
  by_contra hname
  have hcases := isNameChar_iff.1 (by simpa using hname)
  simp only [List.mem_cons, List.not_mem_nil, or_false] at hcases
  omega

theorem startsNegative_iff {cs : List Char} :
    startsNegative cs = true ↔ ∃ c rest, cs = '-' :: c :: rest ∧ isAsciiDigit c = true := by
  unfold startsNegative
  split
  · next c rest => simp
  · next hnot =>
      simp only [Bool.false_eq_true, false_iff, not_exists, not_and]
      intro c rest heq
      exact (hnot c rest heq).elim

/-- A name starts no negative number, because no digit follows a minus in front. -/
theorem startsNegative_run {name rest : List Char} (hne : name ≠ []) (hname : ∀ c ∈ name, isNameChar c = true)
    (hrest : ∀ c ∈ rest.head?, isAsciiDigit c = false) : startsNegative (name ++ rest) = false := by
  rw [Bool.eq_false_iff, ne_eq, startsNegative_iff]
  rintro ⟨d, tail, heq, hd⟩
  match name, hne with
  | [a], _ =>
      obtain ⟨-, rfl⟩ := List.cons.inj heq
      exact Bool.false_ne_true (hrest d rfl ▸ hd)
  | a :: b :: name, _ =>
      obtain ⟨-, htail⟩ := List.cons.inj heq
      obtain ⟨rfl, -⟩ := List.cons.inj htail
      have hb := hname b (by simp)
      exact Bool.false_ne_true (isNameChar_of_isAsciiDigit hd ▸ hb)

theorem cutName_run {name rest : List Char} (hne : name ≠ []) (hname : ∀ c ∈ name, isNameChar c = true)
    (hends : ∀ c ∈ rest.head?, isNameChar c = false) (hpositive : startsNegative (name ++ rest) = false) :
    cutName (name ++ rest) = some (.whole name rest) := by
  rw [cutName, if_neg (Bool.eq_false_iff.1 hpositive)]
  exact cutRun_run hne hname hends

theorem cutMagnitude_run {cs rest : List Char} (h : IsMagnitude cs)
    (hrest : ∀ c ∈ rest.head?, isAsciiDigit c = false ∧ c ≠ '.') :
    cutMagnitude (cs ++ rest) = some (.whole cs rest) := by
  have hdigit : ∀ c ∈ rest.head?, isAsciiDigit c = false := fun c hc => (hrest c hc).1
  cases h with
  | whole hds =>
      have nothing : leadingFractionPart rest = ([], rest) := by
        unfold leadingFractionPart
        split
        · exact ((hrest '.' rfl).2 rfl).elim
        · rfl
      simp only [cutMagnitude, splitDigits?_run hds hdigit, Option.map_some, nothing, List.append_nil]
  | @fraction ds fs hds hfs =>
      have hpoint : ∀ c ∈ ('.' :: (fs ++ rest)).head?, isAsciiDigit c = false := by
        rintro c ⟨⟩
        rfl
      have part : leadingFractionPart ('.' :: (fs ++ rest)) = ('.' :: fs, rest) := by
        simp only [leadingFractionPart, splitDigits?_run hfs hdigit]
      simp only [cutMagnitude, List.append_assoc, List.cons_append, splitDigits?_run hds hpoint,
        Option.map_some, part]

theorem IsMagnitude.exists_cons {cs : List Char} (h : IsMagnitude cs) :
    ∃ c tail, cs = c :: tail ∧ isAsciiDigit c = true := by
  have first {ds : List Char} (hds : IsDigits ds) (rest : List Char) :
      ∃ c tail, ds ++ rest = c :: tail ∧ isAsciiDigit c = true := by
    obtain ⟨c, tail, rfl⟩ := List.exists_cons_of_ne_nil hds.1
    exact ⟨c, tail ++ rest, rfl, hds.2 c (by simp)⟩
  cases h with
  | whole hds => simpa only [List.append_nil] using first hds []
  | fraction hds _ => exact first hds _

theorem IsNumber.exists_cons {cs : List Char} (h : IsNumber cs) :
    ∃ c tail, cs = c :: tail ∧ (c = '-' ∨ isAsciiDigit c = true) := by
  cases h with
  | positive hm =>
      obtain ⟨c, tail, rfl, hc⟩ := hm.exists_cons
      exact ⟨c, tail, rfl, .inr hc⟩
  | negative hm => exact ⟨'-', _, rfl, .inl rfl⟩

theorem IsNumber.not_blank {cs : List Char} (h : IsNumber cs) : ∃ c tail, cs = c :: tail ∧ isBlank c = false := by
  obtain ⟨c, tail, hcs, rfl | hc⟩ := h.exists_cons
  · exact ⟨'-', tail, hcs, rfl⟩
  · exact ⟨c, tail, hcs, isBlank_of_isAsciiDigit hc⟩

theorem cutNumber_run {cs rest : List Char} (h : IsNumber cs)
    (hrest : ∀ c ∈ rest.head?, isAsciiDigit c = false ∧ c ≠ '.') :
    cutNumber (cs ++ rest) = some (.whole cs rest) := by
  cases h with
  | negative hm =>
      simp only [List.cons_append, cutNumber, cutMagnitude_run hm hrest, Option.map_some]
      rfl
  | positive hm =>
      obtain ⟨c, tail, rfl, hc⟩ := hm.exists_cons
      rw [cutNumber.eq_2]
      · exact cutMagnitude_run hm hrest
      · rintro cs heq
        obtain ⟨rfl, -⟩ := List.cons.inj heq
        exact Bool.false_ne_true hc

theorem cutDate_run {body rest : List Char} (hne : body ≠ []) (hbody : ∀ c ∈ body, isBrace c = false) :
    cutDate ("#dt\x7b".toList ++ body ++ '\x7d' :: rest) =
      some ⟨"#dt\x7b".toList ++ body ++ ['\x7d'], body, rest⟩ := by
  have hrun : ∀ c ∈ body, (!isBrace c) = true := by simpa using hbody
  have hend : ∀ c ∈ ('\x7d' :: rest).head?, (!isBrace c) = false := by
    rintro c ⟨⟩
    rfl
  have hstart : "#dt\x7b".toList = ['#', 'd', 't', '\x7b'] := rfl
  simp only [hstart, List.cons_append, List.nil_append, cutDate, takeWhile_run hrun hend,
    dropWhile_run hrun hend]
  rw [if_neg (by simpa using hne)]

theorem cutDate_eq_some {cs : List Char} {cut : Cut} (h : cutDate cs = some cut) :
    ∃ body rest, cs = "#dt\x7b".toList ++ body ++ '\x7d' :: rest ∧ body ≠ [] ∧ (∀ c ∈ body, isBrace c = false) ∧
      cut = ⟨"#dt\x7b".toList ++ body ++ ['\x7d'], body, rest⟩ := by
  unfold cutDate at h
  split at h
  · next behind =>
      dsimp only at h
      split at h
      · next rest hrest =>
          split at h
          · cases h
          · next hne =>
              have hwhole := List.takeWhile_append_dropWhile (p := (!isBrace ·)) (l := behind)
              rw [hrest] at hwhole
              refine ⟨behind.takeWhile (!isBrace ·), rest, ?_, by simpa using hne, fun c hc => ?_,
                (Option.some.inj h).symm⟩
              · rw [List.append_assoc, hwhole]
                rfl
              · simpa using List.mem_takeWhile_imp hc
      · cases h
  · cases h

/-! ## Texts between quotes -/

theorem isPlain_iff {quote c : Char} : isPlain quote c = true ↔ c ≠ quote ∧ c ≠ '\\' := by
  simp only [isPlain, Bool.and_eq_true, decide_eq_true_eq]

theorem IsBody.isPaired {quote : Char} {cs : List Char} (h : IsBody quote cs) : isPaired cs = true := by
  induction h with
  | nil => rfl
  | @plain c cs hc _ ih =>
      obtain ⟨-, hslash⟩ := isPlain_iff.1 hc
      rw [Lexeme.isPaired.eq_3 _ _ (by simp_all), ih]
      simpa using hslash
  | escape _ ih => exact ih

theorem IsBody.not_holdsBare {quote : Char} {cs : List Char} (h : IsBody quote cs) : holdsBare quote cs = false := by
  induction h with
  | nil => rfl
  | @plain c cs hc _ ih =>
      obtain ⟨hquote, hslash⟩ := isPlain_iff.1 hc
      rw [holdsBare.eq_3 _ _ _ (by simp_all), ih]
      simpa using hquote
  | escape _ ih => exact ih

theorem isBody_of_splitAtQuote? {quote : Char} {cs body rest : List Char}
    (h : splitAtQuote? quote cs = some (body, rest)) : IsBody quote body := by
  fun_induction splitAtQuote? quote cs generalizing body rest with
  | case1 => cases h
  | case2 c cs ih =>
      obtain ⟨⟨b, r⟩, hinner, heq⟩ := Option.map_eq_some_iff.1 h
      obtain ⟨rfl, rfl⟩ := Prod.mk.inj heq
      exact .escape (ih hinner)
  | case3 cs hnot =>
      obtain ⟨rfl, rfl⟩ := Prod.mk.inj (Option.some.inj h)
      exact .nil
  | case4 => cases h
  | case5 c cs hnot hquote hslash ih =>
      obtain ⟨⟨b, r⟩, hinner, heq⟩ := Option.map_eq_some_iff.1 h
      obtain ⟨rfl, rfl⟩ := Prod.mk.inj heq
      exact .plain (isPlain_iff.2 ⟨hquote, hslash⟩) (ih hinner)

theorem cutQuoted_eq_some {quote : Char} {cs : List Char} {cut : Cut} (h : cutQuoted quote cs = some cut) :
    ∃ body rest, cs = quote :: body ++ quote :: rest ∧ IsBody quote body ∧
      cut = ⟨quote :: body ++ [quote], body, rest⟩ := by
  unfold cutQuoted at h
  split at h
  · split at h
    · next hquote =>
        obtain ⟨⟨body, rest⟩, hsplit, rfl⟩ := Option.map_eq_some_iff.1 h
        refine ⟨body, rest, ?_, isBody_of_splitAtQuote? hsplit, rfl⟩
        rw [hquote, List.cons_append, splitAtQuote?_eq_some hsplit]
    · cases h
  · cases h

theorem splitAtQuote?_append {quote : Char} {cs body rest : List Char} (tail : List Char)
    (hslash : quote ≠ '\\') (h : splitAtQuote? quote cs = some (body, rest)) :
    splitAtQuote? quote (cs ++ tail) = some (body, rest ++ tail) := by
  fun_induction splitAtQuote? quote cs generalizing body rest with
  | case1 => simp at h
  | case2 c cs ih =>
      obtain ⟨⟨b, r⟩, hinner, heq⟩ := Option.map_eq_some_iff.1 h
      obtain ⟨rfl, rfl⟩ := Prod.mk.inj heq
      simp only [List.cons_append, splitAtQuote?, ih hinner, Option.map_some]
  | case3 cs hnot =>
      obtain ⟨rfl, rfl⟩ := Prod.mk.inj (Option.some.inj h)
      rw [List.cons_append, splitAtQuote?.eq_3 _ _ _ fun c cs heq => (hslash heq).elim, if_pos rfl]
  | case4 => simp at h
  | case5 c cs hnot hquote hc ih =>
      obtain ⟨⟨b, r⟩, hinner, heq⟩ := Option.map_eq_some_iff.1 h
      obtain ⟨rfl, rfl⟩ := Prod.mk.inj heq
      rw [List.cons_append, splitAtQuote?.eq_3 _ _ _ fun _ _ heq => (hc heq).elim, if_neg hquote,
        if_neg hc, ih hinner]
      rfl

/-- A paired text without a bare quote goes on to the quote behind it. -/
theorem splitAtQuote?_paired {quote : Char} {cs : List Char} (rest : List Char) (hslash : quote ≠ '\\')
    (hpaired : isPaired cs = true) (hbare : holdsBare quote cs = false) :
    splitAtQuote? quote (cs ++ quote :: rest) = some (cs, rest) := by
  fun_induction isPaired cs with
  | case1 =>
      rw [List.nil_append, splitAtQuote?.eq_3 _ _ _ (by simp_all), if_pos rfl]
  | case2 c cs ih =>
      simp only [List.cons_append, splitAtQuote?, ih hpaired hbare, Option.map_some]
  | case3 c cs hnot ih =>
      obtain ⟨hc, hcs⟩ := Bool.and_eq_true_iff.1 hpaired
      rw [holdsBare.eq_3 _ _ _ hnot, Bool.or_eq_false_iff] at hbare
      rw [List.cons_append, splitAtQuote?.eq_3 _ _ _ (by simp_all),
        if_neg (by simpa using hbare.1), if_neg (by simpa using hc), ih hcs hbare.2]
      rfl

/-- A paired text with a bare quote ends there. -/
theorem splitAtQuote?_of_holdsBare {quote : Char} {cs : List Char} (hpaired : isPaired cs = true)
    (hbare : holdsBare quote cs = true) : ∃ body rest, splitAtQuote? quote cs = some (body, rest) := by
  fun_induction isPaired cs with
  | case1 => simp [holdsBare] at hbare
  | case2 c cs ih =>
      obtain ⟨body, rest, h⟩ := ih hpaired hbare
      exact ⟨'\\' :: c :: body, rest, by simp only [splitAtQuote?, h, Option.map_some]⟩
  | case3 c cs hnot ih =>
      obtain ⟨hc, hcs⟩ := Bool.and_eq_true_iff.1 hpaired
      rw [holdsBare.eq_3 _ _ _ hnot, Bool.or_eq_true] at hbare
      rw [splitAtQuote?.eq_3 _ _ _ hnot]
      by_cases hquote : c = quote
      · exact ⟨[], cs, by rw [if_pos hquote]⟩
      · obtain ⟨body, rest, h⟩ := ih hcs (hbare.resolve_left (by simpa using hquote))
        exact ⟨c :: body, rest, by rw [if_neg hquote, if_neg (by simpa using hc), h]; rfl⟩

theorem holdsBare_of_not_mem {quote : Char} {cs : List Char} (h : quote ∉ cs) :
    holdsBare quote cs = false := by
  fun_induction holdsBare quote cs with
  | case1 => rfl
  | case2 c cs ih => exact ih (by simp_all)
  | case3 c cs hnot ih =>
      rw [ih (by simp_all), Bool.or_false]
      simp only [List.mem_cons, not_or] at h
      simpa using Ne.symm h.1

end RuleExpr.Lexeme
