import RuleExpr.Proofs.Lexeme.Shape

/-!
# Cutting sources

Of the patterns the first that matches wins. Text of the shape of a kind is cut by the pattern of that kind,
because its first characters rule out the patterns in front. The other way around, `HasExtent` says how far a cut of
each kind goes (`cut?_extent`): names, numbers and white space as far as they can, a text up to the first quote that is
not escaped, and a date-time up to the first brace. What is kept of a cut then has the shape of its kind, and so has
every lexeme of a source (`hasShape_of_split`).
-/
namespace RuleExpr.Lexeme
open Numeral Text

/-! ## Which pattern matches -/

theorem cut?_eq (cs : List Char) : cut? cs =
    ((cutChar '(' cs).map (Kind.openList, ·)).or (((cutChar ')' cs).map (Kind.closeList, ·)).or
      (((cutFn cs).map (Kind.fn, ·)).or (((cutName cs).map (Kind.var, ·)).or
        (((cutNumber cs).map (Kind.num, ·)).or (((cutDate cs).map (Kind.date, ·)).or
          (((cutRun isBlank cs).map (Kind.blank, ·)).or (((cutQuoted '"' cs).map (Kind.str, ·)).or
            ((cutQuoted '\'' cs).map (Kind.str, ·))))))))) := by
  have step (f : Pattern → Option (Kind × Cut)) (p : Pattern) (ps : List Pattern) :
      (p :: ps).findSome? f = (f p).or (ps.findSome? f) := by
    rw [List.findSome?_cons]
    cases f p <;> rfl
  simp only [cut?, patterns, step, List.findSome?_nil, Option.or_none]

theorem cutChar_cons_eq_none {wanted c : Char} {cs : List Char} (h : c ≠ wanted) :
    cutChar wanted (c :: cs) = none := by
  rw [cutChar, if_neg h]

theorem cutFn_eq_none {cs : List Char} (h : ∀ rest, cs ≠ 'f' :: 'n' :: rest) : cutFn cs = none := by
  unfold cutFn
  split
  · exact (h _ rfl).elim
  · rfl

theorem cutName_cons_eq_none {c : Char} {cs : List Char} (h : isNameChar c = false) :
    cutName (c :: cs) = none := by
  rw [cutName, cutRun_cons_eq_none h, ite_self]

theorem cut?_fn {rest : List Char} (h : ∀ c ∈ rest.head?, isNameChar c = false) :
    cut? ('f' :: 'n' :: rest) = some (.fn, .whole ['f', 'n'] rest) := by
  rw [cut?_eq, cutFn_run h]
  rfl

/-- A name other than `fn` is no parenthesis and does not start with the word `fn`. -/
theorem cut?_run {name rest : List Char} (hne : name ≠ []) (hname : ∀ c ∈ name, isNameChar c = true)
    (hfn : name ≠ ['f', 'n']) (hends : ∀ c ∈ rest.head?, isNameChar c = false)
    (hpositive : startsNegative (name ++ rest) = false) : cut? (name ++ rest) = some (.var, .whole name rest) := by
  have noFn : cutFn (name ++ rest) = none := by
    unfold cutFn
    split
    · next cs heq =>
        match name, hne, hfn with
        | [a], _, _ =>
            obtain ⟨-, rfl⟩ := List.cons.inj heq
            cases hends 'n' rfl
        | [a, b], _, hfn =>
            obtain ⟨rfl, htail⟩ := List.cons.inj heq
            obtain ⟨rfl, -⟩ := List.cons.inj htail
            exact (hfn rfl).elim
        | a :: b :: c :: name, _, _ =>
            obtain ⟨-, htail⟩ := List.cons.inj heq
            obtain ⟨-, rfl⟩ := List.cons.inj htail
            have hc : isNameChar c = true := hname c (by simp)
            exact if_pos hc
    · rfl
  obtain ⟨c, name, rfl⟩ := List.exists_cons_of_ne_nil hne
  have hc : isNameChar c = true := hname c (by simp)
  have hopen : c ≠ '(' := by
    rintro rfl
    cases hc
  have hclose : c ≠ ')' := by
    rintro rfl
    cases hc
  rw [cut?_eq, noFn, cutName_run hne hname hends hpositive, List.cons_append, cutChar_cons_eq_none hopen,
    cutChar_cons_eq_none hclose]
  rfl

theorem cut?_name {name rest : List Char} (hne : name ≠ []) (hname : ∀ c ∈ name, isNameChar c = true)
    (hfn : name ≠ ['f', 'n']) (hrest : ∀ c ∈ rest.head?, isNameChar c = false ∧ isAsciiDigit c = false) :
    cut? (name ++ rest) = some (.var, .whole name rest) :=
  cut?_run hne hname hfn (fun c hc => (hrest c hc).1) (startsNegative_run hne hname fun c hc => (hrest c hc).2)

theorem splitDigits?_append {ds : List Char} (h : IsDigits ds) (tail : List Char) :
    splitDigits? (ds ++ tail) = some (ds ++ tail.takeWhile isAsciiDigit, tail.dropWhile isAsciiDigit) := by
  obtain ⟨c, ds, rfl⟩ := List.exists_cons_of_ne_nil h.1
  rw [splitDigits?, List.takeWhile_append_of_pos h.2, List.dropWhile_append_of_pos h.2]
  rfl

theorem exists_cutNumber {cs : List Char} (h : IsNumber cs) (rest : List Char) :
    ∃ cut, cutNumber (cs ++ rest) = some cut := by
  have magnitude {cs : List Char} (h : IsMagnitude cs) : ∃ cut, cutMagnitude (cs ++ rest) = some cut := by
    cases h with
    | whole hds => exact ⟨_, by rw [cutMagnitude, splitDigits?_append hds]; rfl⟩
    | fraction hds _ => exact ⟨_, by rw [cutMagnitude, List.append_assoc, splitDigits?_append hds]; rfl⟩
  cases h with
  | positive hm =>
      obtain ⟨c, ds, rfl, hc⟩ := hm.exists_cons
      rw [List.cons_append, cutNumber.eq_2]
      · exact magnitude hm
      · rintro cs heq
        obtain ⟨rfl, -⟩ := List.cons.inj heq
        cases hc
  | negative hm =>
      obtain ⟨cut, hcut⟩ := magnitude hm
      exact ⟨_, by rw [List.cons_append, cutNumber, hcut]; rfl⟩

/-- What starts with a number is cut as one, however far the number goes. -/
theorem cut?_of_isNumber {cs : List Char} (h : IsNumber cs) (rest : List Char) :
    cut? (cs ++ rest) = (cutNumber (cs ++ rest)).map (Kind.num, ·) := by
  have onlyNumber {cs : List Char} {cut : Cut} (h : cutNumber cs = some cut) (hopen : cutChar '(' cs = none)
      (hclose : cutChar ')' cs = none) (hfn : cutFn cs = none) (hname : cutName cs = none) :
      cut? cs = (cutNumber cs).map (Kind.num, ·) := by
    rw [cut?_eq, hopen, hclose, hfn, hname, h]
    rfl
  obtain ⟨cut, hcut⟩ := exists_cutNumber h rest
  cases h with
  | positive hm =>
      obtain ⟨c, tail, rfl, hc⟩ := hm.exists_cons
      have hopen : c ≠ '(' := by
        rintro rfl
        cases hc
      have hclose : c ≠ ')' := by
        rintro rfl
        cases hc
      have noFn : cutFn (c :: tail ++ rest) = none := by
        refine cutFn_eq_none fun rest heq => ?_
        obtain ⟨rfl, -⟩ := List.cons.inj heq
        cases hc
      exact onlyNumber hcut (cutChar_cons_eq_none hopen) (cutChar_cons_eq_none hclose) noFn
        (cutName_cons_eq_none (isNameChar_of_isAsciiDigit hc))
  | negative hm =>
      obtain ⟨c, tail, rfl, hc⟩ := hm.exists_cons
      have noName : cutName ('-' :: c :: tail ++ rest) = none := by
        have negative : startsNegative ('-' :: c :: tail ++ rest) = true :=
          startsNegative_iff.2 ⟨c, tail ++ rest, rfl, hc⟩
        rw [cutName, if_pos negative]
      exact onlyNumber hcut rfl rfl rfl noName

theorem cut?_number {cs rest : List Char} (h : IsNumber cs)
    (hrest : ∀ c ∈ rest.head?, isAsciiDigit c = false ∧ c ≠ '.') :
    cut? (cs ++ rest) = some (.num, .whole cs rest) := by
  rw [cut?_of_isNumber h, cutNumber_run h hrest]
  rfl

theorem cut?_date {body rest : List Char} (hne : body ≠ []) (hbody : ∀ c ∈ body, isBrace c = false) :
    cut? ("#dt\x7b".toList ++ body ++ '\x7d' :: rest) =
      some (.date, ⟨"#dt\x7b".toList ++ body ++ ['\x7d'], body, rest⟩) := by
  rw [cut?_eq, cutDate_run hne hbody]
  rfl

theorem cut?_quoted {quote : Char} (hquote : quote = '"' ∨ quote = '\'') (cs : List Char) :
    cut? (quote :: cs) = (cutQuoted quote (quote :: cs)).map (Kind.str, ·) := by
  rw [cut?_eq]
  rcases hquote with rfl | rfl
  · have other : cutQuoted '\'' ('"' :: cs) = none := rfl
    rw [other, Option.map_none, Option.or_none]
    rfl
  · rfl

theorem isNameChar_of_isBlank {c : Char} (h : isBlank c = true) : isNameChar c = false := by
  by_contra hname
  have hcases := isNameChar_iff.1 (by simpa using hname)
  simp only [List.mem_cons, List.not_mem_nil, or_false] at hcases
  simp only [isBlank, Bool.or_eq_true, Bool.and_eq_true, decide_eq_true_eq, beq_iff_eq] at h
  omega

theorem isAsciiDigit_of_isBlank {c : Char} (h : isBlank c = true) : isAsciiDigit c = false := by
  by_contra hdigit
  rw [Bool.not_eq_false] at hdigit
  exact Bool.false_ne_true (isBlank_of_isAsciiDigit hdigit ▸ h)

theorem cutNumber_cons_eq_none {c : Char} {cs : List Char} (hminus : c ≠ '-') (hdigit : isAsciiDigit c = false) :
    cutNumber (c :: cs) = none := by
  have noDigits : splitDigits? (c :: cs) = none := by
    rw [splitDigits?, List.takeWhile_cons_of_neg (by simp [hdigit])]
    rfl
  rw [cutNumber.eq_2 _ fun cs heq => hminus (List.cons.inj heq).1, cutMagnitude, noDigits]
  rfl

theorem cutDate_cons_eq_none {c : Char} {cs : List Char} (h : c ≠ '#') : cutDate (c :: cs) = none := by
  unfold cutDate
  split
  · next heq => exact (h (List.cons.inj heq).1).elim
  · rfl

/-- A blank character starts nothing but white space. -/
theorem cut?_blank {run rest : List Char} (hne : run ≠ []) (hrun : ∀ c ∈ run, isBlank c = true)
    (hends : ∀ c ∈ rest.head?, isBlank c = false) : cut? (run ++ rest) = some (.blank, .whole run rest) := by
  have hcut := cutRun_run hne hrun hends
  obtain ⟨c, run, rfl⟩ := List.exists_cons_of_ne_nil hne
  have hc : isBlank c = true := hrun c List.mem_cons_self
  have differs {d : Char} (hd : isBlank d = false) : c ≠ d := by
    rintro rfl
    exact Bool.false_ne_true (hd ▸ hc)
  have noFn : cutFn (c :: run ++ rest) = none :=
    cutFn_eq_none fun _ heq => differs (d := 'f') rfl (List.cons.inj heq).1
  rw [cut?_eq, hcut, noFn, List.cons_append, cutChar_cons_eq_none (differs rfl), cutChar_cons_eq_none (differs rfl),
    cutName_cons_eq_none (isNameChar_of_isBlank hc), cutNumber_cons_eq_none (differs rfl) (isAsciiDigit_of_isBlank hc),
    cutDate_cons_eq_none (differs rfl)]
  rfl

/-! ## How far cuts go -/

/-- A non-empty run of a class. -/
def IsRun (holds : Char → Bool) (cs : List Char) : Prop :=
  cs ≠ [] ∧ ∀ c ∈ cs, holds c = true

/-- A front of the text of a form, such that no longer front is of that form. -/
def IsLongest (form : List Char → Prop) (front cs : List Char) : Prop :=
  front <+: cs ∧ form front ∧ ∀ other, other <+: cs → form other → other.length ≤ front.length

/-- How far a lexeme of some kind goes, and what is kept of it. -/
def HasExtent (kind : Kind) (cut : Cut) : Prop :=
  match kind with
  | .openList => cut.front = ['('] ∧ cut.kept = cut.front
  | .closeList => cut.front = [')'] ∧ cut.kept = cut.front
  | .fn => cut.front = ['f', 'n'] ∧ cut.kept = cut.front ∧ ∀ c ∈ cut.rest.head?, isNameChar c = false
  | .var => IsLongest (IsRun isNameChar) cut.front (cut.front ++ cut.rest) ∧ cut.kept = cut.front ∧
      cut.front ≠ ['f', 'n']
  | .num => IsLongest IsNumber cut.front (cut.front ++ cut.rest) ∧ cut.kept = cut.front
  | .date => cut.front = "#dt\x7b".toList ++ cut.kept ++ ['\x7d'] ∧ IsRun (!isBrace ·) cut.kept
  | .blank => IsLongest (IsRun isBlank) cut.front (cut.front ++ cut.rest) ∧ cut.kept = cut.front
  | .str => ∃ quote, (quote = '"' ∨ quote = '\'') ∧ cut.front = quote :: cut.kept ++ [quote] ∧ IsBody quote cut.kept

variable {kind : Kind} {cs front rest : List Char} {cut : Cut}

theorem isLongest_of_length_le {form : List Char → Prop} (hform : form front)
    (h : ∀ other tail, form other → front ++ rest = other ++ tail → other.length ≤ front.length) :
    IsLongest form front (front ++ rest) := by
  refine ⟨List.prefix_append front rest, hform, fun other hother hform => ?_⟩
  obtain ⟨tail, htail⟩ := hother
  exact h other tail hform htail.symm

theorem cutRun_extent {holds : Char → Bool} (h : cutRun holds cs = some cut) :
    IsLongest (IsRun holds) cut.front (cut.front ++ cut.rest) ∧ cut.kept = cut.front := by
  obtain ⟨hne, rfl⟩ := cutRun_eq_some h
  refine ⟨isLongest_of_length_le ⟨hne, fun c hc => List.mem_takeWhile_imp hc⟩ ?_, rfl⟩
  rintro other tail ⟨-, hother⟩ heq
  have hwhole : cs = other ++ tail := List.takeWhile_append_dropWhile.symm.trans heq
  rw [Cut.whole, hwhole, List.takeWhile_append_of_pos hother, List.length_append]
  exact Nat.le_add_right _ _

/-- A name that is cut off does not go on behind it, so `fn` would have been taken by the pattern in front. -/
theorem cutName_extent (h : cut? cs = some (.var, cut)) (hname : cutName cs = some cut) : HasExtent .var cut := by
  have hrun : cutRun isNameChar cs = some cut := by
    rw [cutName] at hname
    split at hname
    · cases hname
    · exact hname
  obtain ⟨hlongest, hkept⟩ := cutRun_extent hrun
  refine ⟨hlongest, hkept, fun hfn => ?_⟩
  obtain ⟨-, rfl⟩ := cutRun_eq_some hrun
  have hwhole : cs = 'f' :: 'n' :: cs.dropWhile isNameChar := by
    have := List.takeWhile_append_dropWhile (p := isNameChar) (l := cs)
    rw [show cs.takeWhile isNameChar = ['f', 'n'] from hfn] at this
    exact this.symm
  rw [hwhole, cut?_fn head?_dropWhile_eq_false] at h
  cases h

theorem isMagnitude_of_cutMagnitude {cs : List Char} {cut : Cut} (h : cutMagnitude cs = some cut) :
    IsMagnitude cut.front ∧ cut.kept = cut.front := by
  obtain ⟨⟨ds, rest⟩, hsplit, rfl⟩ := Option.map_eq_some_iff.1 h
  have hds : IsDigits ds := (splitDigits?_run_of_eq_some hsplit).1
  refine ⟨?_, rfl⟩
  simp only [Cut.whole, leadingFractionPart]
  split
  · split
    · next hfs => exact .fraction hds (splitDigits?_run_of_eq_some hfs).1
    · simpa only [List.append_nil] using IsMagnitude.whole hds
  · simpa only [List.append_nil] using IsMagnitude.whole hds

theorem IsMagnitude.length_le {other tail : List Char} (hother : IsMagnitude other)
    (h : cutMagnitude (other ++ tail) = some cut) : other.length ≤ cut.front.length := by
  cases hother with
  | whole hds =>
      rw [cutMagnitude, splitDigits?_append hds] at h
      obtain rfl := Option.some.inj h
      simp only [Cut.whole, List.length_append]
      omega
  | @fraction ds fs hds hfs =>
      have hpoint : ∀ c ∈ ('.' :: (fs ++ tail)).head?, isAsciiDigit c = false := by
        rintro c ⟨⟩
        rfl
      rw [cutMagnitude, List.append_assoc, List.cons_append, splitDigits?_run hds hpoint] at h
      obtain rfl := Option.some.inj h
      simp only [Cut.whole, leadingFractionPart, splitDigits?_append hfs, List.length_append, List.length_cons]
      omega

theorem IsNumber.length_le {other tail : List Char} (hother : IsNumber other)
    (h : cutNumber (other ++ tail) = some cut) : other.length ≤ cut.front.length := by
  cases hother with
  | negative hm =>
      rw [List.cons_append, cutNumber] at h
      obtain ⟨inner, hinner, rfl⟩ := Option.map_eq_some_iff.1 h
      exact Nat.succ_le_succ (hm.length_le hinner)
  | positive hm =>
      have hplain : cutNumber (other ++ tail) = cutMagnitude (other ++ tail) := by
        obtain ⟨c, ds, rfl, hc⟩ := hm.exists_cons
        refine cutNumber.eq_2 _ fun cs heq => ?_
        obtain ⟨rfl, -⟩ := List.cons.inj heq
        cases hc
      exact hm.length_le (hplain.symm.trans h)

theorem isNumber_of_cutNumber (h : cutNumber cs = some cut) : IsNumber cut.front ∧ cut.kept = cut.front := by
  unfold cutNumber at h
  split at h
  · obtain ⟨inner, hinner, rfl⟩ := Option.map_eq_some_iff.1 h
    exact ⟨.negative (isMagnitude_of_cutMagnitude hinner).1, rfl⟩
  · obtain ⟨hmagnitude, hkept⟩ := isMagnitude_of_cutMagnitude h
    exact ⟨.positive hmagnitude, hkept⟩

theorem cutNumber_extent (h : cutNumber cs = some cut) : HasExtent .num cut := by
  obtain ⟨hnumber, hkept⟩ := isNumber_of_cutNumber h
  refine ⟨isLongest_of_length_le hnumber fun other tail hother heq => ?_, hkept⟩
  rw [← (cutNumber_of h).1, heq] at h
  exact hother.length_le h

/-- A cut goes as far as its kind says. -/
theorem cut?_extent (h : cut? cs = some (kind, cut)) : HasExtent kind cut := by
  obtain ⟨p, hp, hcut⟩ := List.exists_of_findSome?_eq_some h
  obtain ⟨c, hc, heq⟩ := Option.map_eq_some_iff.1 hcut
  obtain ⟨rfl, rfl⟩ := Prod.mk.inj heq
  simp only [patterns, List.mem_cons, List.not_mem_nil, or_false] at hp
  rcases hp with rfl | rfl | rfl | rfl | rfl | rfl | rfl | rfl | rfl
  · obtain ⟨rest, -, rfl⟩ := cutChar_eq_some hc
    exact ⟨rfl, rfl⟩
  · obtain ⟨rest, -, rfl⟩ := cutChar_eq_some hc
    exact ⟨rfl, rfl⟩
  · obtain ⟨rest, -, hends, rfl⟩ := cutFn_eq_some hc
    exact ⟨rfl, rfl, hends⟩
  · exact cutName_extent h hc
  · exact cutNumber_extent hc
  · obtain ⟨body, rest, -, hne, hbody, rfl⟩ := cutDate_eq_some hc
    exact ⟨rfl, hne, fun c hc => by simpa using hbody c hc⟩
  · exact cutRun_extent hc
  · obtain ⟨body, rest, -, hbody, rfl⟩ := cutQuoted_eq_some hc
    exact ⟨_, .inl rfl, rfl, hbody⟩
  · obtain ⟨body, rest, -, hbody, rfl⟩ := cutQuoted_eq_some hc
    exact ⟨_, .inr rfl, rfl, hbody⟩

/-- What a cut keeps has the shape of its kind, unless it is white space. -/
theorem cut?_hasShape (h : cut? cs = some (kind, cut)) (hkind : kind ≠ .blank) : HasShape kind cut.kept := by
  have hextent := cut?_extent h
  cases kind with
  | openList | closeList => exact hextent.2.trans hextent.1
  | fn => exact hextent.2.1.trans hextent.1
  | var =>
      obtain ⟨⟨-, hrun, -⟩, hkept, hfn⟩ := hextent
      rw [HasShape, hkept]
      exact ⟨hrun.1, hrun.2, hfn⟩
  | num =>
      obtain ⟨⟨-, hnumber, -⟩, hkept⟩ := hextent
      rw [HasShape, hkept]
      exact hnumber
  | date =>
      obtain ⟨-, hne, hbody⟩ := hextent
      exact ⟨hne, fun c hc => by simpa using hbody c hc⟩
  | blank => exact (hkind rfl).elim
  | str =>
      obtain ⟨quote, -, -, hbody⟩ := hextent
      exact hbody.isPaired

/-! ## Sources -/

/-- Cutting a source goes on behind its first cut. -/
theorem split_of_cut? {cs : List Char} {kind : Kind} {cut : Cut} (h : cut? cs = some (kind, cut)) :
    split cs = (split cut.rest).map ((ofCut? kind cut).toList ++ ·) := by
  have hne : cs ≠ [] := by
    rintro rfl
    have := (cut?_eq_some h).rest_length_lt
    cases this
  rw [split, if_neg hne]
  split
  · next hnone => simp [hnone] at h
  · next kind' cut' hsome =>
      obtain ⟨rfl, rfl⟩ := Prod.mk.inj (Option.some.inj (hsome.symm.trans h))
      cases split cut'.rest <;> rfl

/-- Cutting fails where no lexeme starts. -/
theorem split_eq_error {cs : List Char} {f : Fault} (h : split cs = .error f) : ∃ rest, f = .invalidToken rest := by
  fun_induction split cs with
  | case1 => cases h
  | case2 => exact ⟨_, (Except.error.inj h).symm⟩
  | case3 _ _ _ _ _ _ _ hrest ih =>
      obtain rfl := Except.error.inj h
      exact ih hrest
  | case4 => cases h

theorem ofSource_eq_error {source : Option String} {f : Fault} (h : ofSource source = .error f) :
    ∃ rest, f = .invalidToken rest := by
  cases source with
  | none => cases h
  | some source => exact split_eq_error h

/-- Every lexeme of a source has the shape of its kind. -/
theorem hasShape_of_split {cs : List Char} {ls : List Lexeme} (h : split cs = .ok ls) :
    ∀ l ∈ ls, HasShape l.kind l.text.toList := by
  fun_induction split cs generalizing ls with
  | case1 =>
      obtain rfl := Except.ok.inj h
      simp
  | case2 => cases h
  | case3 => cases h
  | case4 cs _ kind cut hcut _ lexemes hrest ih =>
      obtain rfl := Except.ok.inj h
      intro l hl
      rcases List.mem_append.1 hl with hfirst | hlater
      · unfold ofCut? at hfirst
        split at hfirst
        · simp at hfirst
        · next hkind =>
            obtain rfl : l = ⟨kind, String.ofList cut.kept⟩ := by simpa using hfirst
            simpa only [String.toList_ofList] using cut?_hasShape hcut hkind
      · exact ih hrest l hlater

theorem hasShape_of_ofSource {source : Option String} {ls : List Lexeme} (h : ofSource source = .ok ls) :
    ∀ l ∈ ls, HasShape l.kind l.text.toList := by
  cases source with
  | none =>
      obtain rfl := Except.ok.inj h
      exact List.forall_mem_nil _
  | some source => exact hasShape_of_split h

/-- White space is passed over. -/
theorem split_run {run rest : List Char} (hrun : ∀ c ∈ run, isBlank c = true)
    (hends : ∀ c ∈ rest.head?, isBlank c = false) : split (run ++ rest) = split rest := by
  by_cases hne : run = []
  · rw [hne, List.nil_append]
  · rw [split_of_cut? (cut?_blank hne hrun hends)]
    simp only [ofCut?, if_true, Option.toList_none, List.nil_append, Cut.whole]
    cases split rest <;> rfl

/-- One space between lexemes is passed over. -/
theorem split_space {rest : List Char} (h : ∀ c ∈ rest.head?, isBlank c = false) :
    split (' ' :: rest) = split rest := by
  have hspace : ∀ c ∈ [' '], isBlank c = true := by
    intro c hc
    rw [List.mem_singleton.1 hc]
    rfl
  exact split_run hspace h

end RuleExpr.Lexeme
