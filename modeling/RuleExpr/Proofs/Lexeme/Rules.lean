import RuleExpr.Proofs.Lexeme.Regex

/-!
# Rules of lexemes

Each pattern of the lexer is a rule with a regular expression. What the pattern cuts off is the match of that
expression, with the captured part as the kept text (`patterns_eq_rules`). Texts between quotes and date-times have
one way to match at most, because the character that ends them cannot stand inside; the other rules go on as long as
they can.
-/
namespace RuleExpr.Lexeme
open Numeral Text Regex

/-- A backslash with any character behind it, and plain characters. -/
def escaped (quote : Char) : Regex :=
  .literally ['\\'] (.seq (.one fun _ => true) (.many (.one (isPlain quote))))

def quotedBody (quote : Char) : Regex :=
  .seq (.many (.one (isPlain quote))) (.many (escaped quote))

def quoted (quote : Char) : Regex :=
  .literally [quote] (.seq (.capture (quotedBody quote)) (.char quote))

def digits : Regex := .plus (.one isAsciiDigit)

/-- Digits, and a point with digits if they are there. -/
def magnitude : Regex := .seq digits (.optional (.literally ['.'] digits))

/-- A text without braces; the text is captured. -/
def date : Regex :=
  .literally "#dt\x7b".toList (.seq (.capture (.plus (.one (!isBrace ·)))) (.char '\x7d'))

structure Rule where
  kind : Kind
  regex : Regex

/-- The rules in the order in which they are tried. -/
def rules : List Rule := [
  ⟨.openList, .char '('⟩,
  ⟨.closeList, .char ')'⟩,
  ⟨.fn, .literally ['f', 'n'] (.notAhead (.one isNameChar))⟩,
  ⟨.var, .seq (.notAhead (.literally ['-'] (.one isAsciiDigit))) (.plus (.one isNameChar))⟩,
  ⟨.num, .seq (.optional (.char '-')) magnitude⟩,
  ⟨.date, date⟩,
  ⟨.blank, .plus (.one isBlank)⟩,
  ⟨.str, quoted '"'⟩,
  ⟨.str, quoted '\''⟩]

/-- The pattern that cuts off what a rule matches. -/
def Rule.pattern (rule : Rule) : Pattern :=
  ⟨rule.kind, fun cs => (rule.regex.match? cs).map Match.cut⟩

variable {quote : Char} {cs body rest : List Char} {m : Match}

/-- A function that cuts off what each way matches, and does so only if there is a way, cuts off the match. -/
theorem match?_map_cut {r : Regex} {f : List Char → Option Cut} (hways : ∀ m ∈ r.ways cs, f cs = some m.cut)
    (hsome : ∀ cut, f cs = some cut → ∃ m, m ∈ r.ways cs) : (r.match? cs).map Match.cut = f cs := by
  cases hmatch : r.match? cs with
  | some m => exact (hways m (mem_of_match? hmatch)).symm
  | none =>
      cases hcut : f cs with
      | none => rfl
      | some cut =>
          obtain ⟨m, hm⟩ := hsome cut hcut
          rw [match?_eq_none_iff.1 hmatch] at hm
          cases hm

/-! ## Parentheses, names and white space -/

theorem match?_char (c : Char) (cs : List Char) : ((Regex.char c).match? cs).map Match.cut = cutChar c cs := by
  cases cs with
  | nil => rfl
  | cons d cs =>
      rw [cutChar]
      split
      · next h => rw [match?, Regex.char, ways_one_of_pos (decide_eq_true h), h]; rfl
      · next h => rw [match?, Regex.char, ways_one_of_neg (by simpa using h)]; rfl

theorem match?_run (p : Char → Bool) (cs : List Char) :
    ((Regex.plus (.one p)).match? cs).map Match.cut = cutRun p cs := by
  rw [match?_plus_one, cutRun]
  split <;> rfl

theorem ways_one_eq_nil_iff {p : Char → Bool} : (Regex.one p).ways cs = [] ↔ ∀ c ∈ cs.head?, p c = false := by
  cases cs with
  | nil => simp [ways]
  | cons c cs => simp [ways]

theorem match?_fn (cs : List Char) :
    ((Regex.literally ['f', 'n'] (.notAhead (.one isNameChar))).match? cs).map Match.cut = cutFn cs := by
  refine match?_map_cut (fun m hm => ?_) fun cut hcut => ?_
  · obtain ⟨behind, rfl, b, hb, rfl⟩ := mem_ways_literally.1 hm
    obtain ⟨hends, rfl⟩ := mem_ways_notAhead.1 hb
    exact cutFn_run (ways_one_eq_nil_iff.1 hends)
  · obtain ⟨behind, rfl, hends, -⟩ := cutFn_eq_some hcut
    have hways := mem_ways_notAhead.2 ⟨ways_one_eq_nil_iff.2 hends, rfl⟩
    exact ⟨_, mem_ways_literally.2 ⟨behind, rfl, _, hways, rfl⟩⟩

theorem ways_negative_eq_nil_iff :
    (Regex.literally ['-'] (.one isAsciiDigit)).ways cs = [] ↔ ¬ startsNegative cs = true := by
  rw [startsNegative_iff, List.eq_nil_iff_forall_not_mem]
  refine ⟨fun h hstarts => ?_, fun h m hm => ?_⟩
  · obtain ⟨c, rest, rfl, hc⟩ := hstarts
    exact h _ (mem_ways_literally.2 ⟨c :: rest, rfl, _, mem_ways_one.2 ⟨c, rest, rfl, hc, rfl⟩, rfl⟩)
  · obtain ⟨behind, rfl, b, hb, rfl⟩ := mem_ways_literally.1 hm
    obtain ⟨c, rest, rfl, hc, rfl⟩ := mem_ways_one.1 hb
    exact h ⟨c, rest, rfl, hc⟩

theorem match?_name (cs : List Char) :
    ((Regex.seq (.notAhead (.literally ['-'] (.one isAsciiDigit))) (.plus (.one isNameChar))).match? cs).map Match.cut =
      cutName cs := by
  rw [match?_seq_notAhead, cutName]
  by_cases h : startsNegative cs = true
  · rw [if_neg fun hways => ways_negative_eq_nil_iff.1 hways h, if_pos h]
    rfl
  · rw [if_pos (ways_negative_eq_nil_iff.2 h), if_neg h, match?_run]

/-! ## Numbers -/

theorem match?_digits (cs : List Char) :
    digits.match? cs = (splitDigits? cs).map fun (ds, rest) => .whole ds rest := by
  rw [digits, match?_plus_one, splitDigits?]
  split <;> rfl

theorem match?_fraction (cs : List Char) : (Regex.optional (.literally ['.'] digits)).match? cs =
    some (.whole (leadingFractionPart cs).1 (leadingFractionPart cs).2) := by
  rw [match?_optional]
  unfold leadingFractionPart
  split
  · next cs =>
      have hpoint : (Regex.literally ['.'] digits).match? ('.' :: cs) =
          (digits.match? cs).map fun m => ⟨'.' :: m.front, m.captured, m.rest⟩ := match?_seq_char '.' digits cs
      rw [hpoint, match?_digits]
      cases splitDigits? cs <;> rfl
  · next hnot =>
      have hnone : (Regex.literally ['.'] digits).match? cs = none := by
        cases cs with
        | nil => rfl
        | cons c cs =>
            refine match?_seq_char_eq_none ?_ digits cs
            rintro rfl
            exact hnot cs rfl
      rw [hnone]
      rfl

theorem match?_magnitude (cs : List Char) :
    magnitude.match? cs = (cutMagnitude cs).map fun cut => .whole cut.front cut.rest := by
  rw [magnitude, cutMagnitude]
  have hdigits := match?_digits cs
  cases hsplit : splitDigits? cs with
  | none =>
      rw [hsplit] at hdigits
      rw [match?_seq_eq_none (match?_eq_none_iff.1 hdigits)]
      rfl
  | some parts =>
      rw [hsplit] at hdigits
      rw [match?_seq hdigits (match?_fraction parts.2)]
      rfl

theorem cutMagnitude_map_whole (cs : List Char) :
    ((cutMagnitude cs).map fun cut => Match.whole cut.front cut.rest).map Match.cut = cutMagnitude cs := by
  rw [cutMagnitude]
  cases splitDigits? cs <;> rfl

theorem match?_number (cs : List Char) :
    ((Regex.seq (.optional (.char '-')) magnitude).match? cs).map Match.cut = cutNumber cs := by
  rw [match?_seq_optional]
  unfold cutNumber
  split
  · next cs =>
      have hplain : magnitude.match? ('-' :: cs) = none := rfl
      rw [match?_seq_char, hplain, Option.or_none, match?_magnitude]
      cases cutMagnitude cs <;> rfl
  · next hnot =>
      have hsigned : (Regex.seq (.char '-') magnitude).match? cs = none := by
        cases cs with
        | nil => rfl
        | cons c cs =>
            refine match?_seq_char_eq_none ?_ magnitude cs
            rintro rfl
            exact hnot cs rfl
      rw [hsigned, Option.none_or, match?_magnitude, cutMagnitude_map_whole]

/-! ## Date-times -/

/-- A date-time has one way to match at most: up to the first closing brace. -/
theorem mem_ways_date : m ∈ date.ways cs ↔
    ∃ body rest, cs = "#dt\x7b".toList ++ body ++ '\x7d' :: rest ∧ body ≠ [] ∧ (∀ c ∈ body, isBrace c = false) ∧
      m = ⟨"#dt\x7b".toList ++ body ++ ['\x7d'], some body, rest⟩ := by
  have hfree (body : List Char) : (∀ c ∈ body, (!isBrace c) = true) ↔ ∀ c ∈ body, isBrace c = false := by
    simp only [Bool.not_eq_true']
  rw [date, mem_ways_literally]
  constructor
  · rintro ⟨behind, rfl, b, hb, rfl⟩
    obtain ⟨kept, hkept, close, hclose, rfl⟩ := mem_ways_seq.1 hb
    obtain ⟨run, hrun, rfl⟩ := mem_ways_capture.1 hkept
    obtain ⟨body, tail, rfl, hne, hbody, rfl⟩ := mem_ways_plus_one.1 hrun
    obtain ⟨rest, hrest, rfl⟩ := mem_ways_char.1 hclose
    obtain rfl : tail = '\x7d' :: rest := hrest
    exact ⟨body, rest, (List.append_assoc ..).symm, hne, (hfree body).1 hbody, rfl⟩
  · rintro ⟨body, rest, rfl, hne, hbody, rfl⟩
    refine ⟨body ++ '\x7d' :: rest, List.append_assoc .., ⟨body ++ ['\x7d'], some body, rest⟩, ?_, rfl⟩
    have hrun := mem_ways_plus_one.2 ⟨body, '\x7d' :: rest, rfl, hne, (hfree body).2 hbody, rfl⟩
    exact mem_ways_seq.2 ⟨_, mem_ways_capture.2 ⟨_, hrun, rfl⟩, _, mem_ways_char.2 ⟨rest, rfl, rfl⟩, rfl⟩

theorem match?_date (cs : List Char) : (date.match? cs).map Match.cut = cutDate cs := by
  refine match?_map_cut (fun m hm => ?_) fun cut hcut => ?_
  · obtain ⟨body, rest, rfl, hne, hbody, rfl⟩ := mem_ways_date.1 hm
    exact cutDate_run hne hbody
  · obtain ⟨body, rest, heq, hne, hbody, -⟩ := cutDate_eq_some hcut
    exact ⟨_, mem_ways_date.2 ⟨body, rest, heq, hne, hbody, rfl⟩⟩

/-! ## Texts between quotes -/

theorem IsBody.run {run : List Char} (hrun : ∀ c ∈ run, isPlain quote c = true) (h : IsBody quote cs) :
    IsBody quote (run ++ cs) := by
  induction run with
  | nil => exact h
  | cons c run ih =>
      obtain ⟨hc, hrun⟩ := List.forall_mem_cons.1 hrun
      exact .plain hc (ih hrun)

theorem mem_ways_escaped : m ∈ (escaped quote).ways cs ↔
    ∃ c run rest, cs = '\\' :: c :: run ++ rest ∧ (∀ d ∈ run, isPlain quote d = true) ∧
      m = .whole ('\\' :: c :: run) rest := by
  rw [escaped, mem_ways_literally]
  constructor
  · rintro ⟨behind, rfl, b, hb, rfl⟩
    obtain ⟨first, hfirst, plain, hplain, rfl⟩ := mem_ways_seq.1 hb
    obtain ⟨c, tail, rfl, -, rfl⟩ := mem_ways_one.1 hfirst
    obtain ⟨run, rest, hrest, hrun, rfl⟩ := mem_ways_many_one.1 hplain
    obtain rfl : tail = run ++ rest := hrest
    exact ⟨c, run, rest, rfl, hrun, rfl⟩
  · rintro ⟨c, run, rest, rfl, hrun, rfl⟩
    have hplain := mem_ways_many_one.2 ⟨run, rest, rfl, hrun, rfl⟩
    have hany : Match.whole [c] (run ++ rest) ∈ (Regex.one fun _ => true).ways (c :: run ++ rest) :=
      mem_ways_one.2 ⟨c, run ++ rest, rfl, rfl, rfl⟩
    exact ⟨c :: run ++ rest, rfl, _, mem_ways_seq.2 ⟨_, hany, _, hplain, rfl⟩, rfl⟩

/-- The induction is on the text, because each escape is followed by a run of any length. -/
theorem isBody_of_mem_ways_many (h : m ∈ (Regex.many (escaped quote)).ways cs) :
    ∃ body rest, cs = body ++ rest ∧ IsBody quote body ∧ m = .whole body rest := by
  induction hlength : cs.length using Nat.strong_induction_on generalizing cs m with
  | _ n ih =>
      rcases mem_ways_many.1 h with ⟨a, ha, hshorter, b, hb, rfl⟩ | rfl
      · obtain ⟨body, rest, hrest, hbody, rfl⟩ := ih _ (hlength ▸ hshorter) hb rfl
        obtain ⟨c, run, tail, rfl, hrun, rfl⟩ := mem_ways_escaped.1 ha
        obtain rfl : tail = body ++ rest := hrest
        exact ⟨'\\' :: c :: run ++ body, rest, by simp, .escape (.run hrun hbody), rfl⟩
      · exact ⟨[], cs, rfl, .nil, rfl⟩

/-- A body is a run of plain characters, and then escapes with a run behind each. -/
theorem mem_ways_quotedBody : m ∈ (quotedBody quote).ways cs ↔
    ∃ body rest, cs = body ++ rest ∧ IsBody quote body ∧ m = .whole body rest := by
  rw [quotedBody, mem_ways_seq]
  constructor
  · rintro ⟨a, ha, b, hb, rfl⟩
    obtain ⟨run, tail, rfl, hrun, rfl⟩ := mem_ways_many_one.1 ha
    obtain ⟨body, rest, hrest, hbody, rfl⟩ := isBody_of_mem_ways_many hb
    obtain rfl : tail = body ++ rest := hrest
    exact ⟨run ++ body, rest, (List.append_assoc ..).symm, .run hrun hbody, rfl⟩
  · rintro ⟨body, rest, rfl, hbody, rfl⟩
    induction hbody with
    | nil =>
        exact ⟨_, mem_ways_many_one.2 ⟨[], rest, rfl, List.forall_mem_nil _, rfl⟩, _, mem_ways_many.2 (.inr rfl), rfl⟩
    | @plain c cs hc _ ih =>
        obtain ⟨a, ha, b, hb, heq⟩ := ih
        obtain ⟨run, tail, hcs, hrun, rfl⟩ := mem_ways_many_one.1 ha
        refine ⟨.whole (c :: run) tail, ?_, b, hb, ?_⟩
        · exact mem_ways_many_one.2 ⟨c :: run, tail, congrArg (c :: ·) hcs, List.forall_mem_cons.2 ⟨hc, hrun⟩, rfl⟩
        · rw [Match.followedBy, Match.whole, Match.mk.injEq] at heq ⊢
          exact ⟨congrArg (c :: ·) heq.1, heq.2⟩
    | @escape c cs _ ih =>
        obtain ⟨a, ha, b, hb, heq⟩ := ih
        obtain ⟨run, tail, hcs, hrun, rfl⟩ := mem_ways_many_one.1 ha
        have hfirst : Match.whole ('\\' :: c :: run) tail ∈ (escaped quote).ways ('\\' :: c :: cs ++ rest) :=
          mem_ways_escaped.2 ⟨c, run, tail, congrArg ('\\' :: c :: ·) hcs, hrun, rfl⟩
        have hshorter : tail.length < ('\\' :: c :: cs ++ rest).length := by
          rw [List.cons_append, List.cons_append, hcs]
          simp only [List.length_cons, List.length_append]
          omega
        refine ⟨_, mem_ways_many_one.2 ⟨[], _, rfl, List.forall_mem_nil _, rfl⟩, _,
          mem_ways_many.2 (.inl ⟨_, hfirst, hshorter, b, hb, rfl⟩), ?_⟩
        simp only [Match.followedBy, Match.whole, List.nil_append, List.cons_append, Option.or_none,
          Match.mk.injEq] at heq ⊢
        exact ⟨congrArg ('\\' :: c :: ·) heq.1, heq.2⟩

/-- A text between quotes has one way to match at most: up to the first quote that no backslash escapes. -/
theorem mem_ways_quoted : m ∈ (quoted quote).ways cs ↔
    ∃ body rest, cs = quote :: body ++ quote :: rest ∧ IsBody quote body ∧
      m = ⟨quote :: body ++ [quote], some body, rest⟩ := by
  rw [quoted, mem_ways_literally]
  constructor
  · rintro ⟨behind, rfl, b, hb, rfl⟩
    obtain ⟨kept, hkept, close, hclose, rfl⟩ := mem_ways_seq.1 hb
    obtain ⟨inner, hinner, rfl⟩ := mem_ways_capture.1 hkept
    obtain ⟨body, tail, rfl, hbody, rfl⟩ := mem_ways_quotedBody.1 hinner
    obtain ⟨rest, hrest, rfl⟩ := mem_ways_char.1 hclose
    obtain rfl : tail = quote :: rest := hrest
    exact ⟨body, rest, rfl, hbody, rfl⟩
  · rintro ⟨body, rest, rfl, hbody, rfl⟩
    refine ⟨body ++ quote :: rest, rfl, ⟨body ++ [quote], some body, rest⟩, ?_, rfl⟩
    have hinner := mem_ways_quotedBody.2 ⟨body, quote :: rest, rfl, hbody, rfl⟩
    exact mem_ways_seq.2 ⟨_, mem_ways_capture.2 ⟨_, hinner, rfl⟩, _, mem_ways_char.2 ⟨rest, rfl, rfl⟩, rfl⟩

theorem match?_quoted (hslash : quote ≠ '\\') (cs : List Char) :
    ((quoted quote).match? cs).map Match.cut = cutQuoted quote cs := by
  refine match?_map_cut (fun m hm => ?_) fun cut hcut => ?_
  · obtain ⟨body, rest, rfl, hbody, rfl⟩ := mem_ways_quoted.1 hm
    rw [List.cons_append, cutQuoted, if_pos rfl,
      splitAtQuote?_paired rest hslash hbody.isPaired hbody.not_holdsBare]
    rfl
  · obtain ⟨body, rest, heq, hbody, -⟩ := cutQuoted_eq_some hcut
    exact ⟨_, mem_ways_quoted.2 ⟨body, rest, heq, hbody, rfl⟩⟩

/-! ## All rules -/

theorem patterns_eq_rules : patterns = rules.map Rule.pattern := by
  have hdouble : '"' ≠ '\\' := by decide
  have hsingle : '\'' ≠ '\\' := by decide
  simp only [patterns, rules, Rule.pattern, List.map_cons, List.map_nil, match?_char, match?_fn, match?_name,
    match?_number, match?_date, match?_run, match?_quoted hdouble, match?_quoted hsingle]

end RuleExpr.Lexeme
