import RuleExpr.Proofs.Lexeme.Locality

/-!
# Breaks

Blanks and parentheses go on with no lexeme other than white space. So a lexeme stays what it is if text is appended
that starts with one of them (`cut?_extend`), and the lexemes of sources with breaks between them are those of the parts
(`split_distributes_over_breaks`). White space itself may go on in the text behind, but it gives no lexemes.
-/
namespace RuleExpr.Lexeme
open Numeral Text

variable {kind : Kind} {cs front kept rest tail : List Char} {ls : List Lexeme}

/-! ## More text behind a lexeme -/

/-- A blank or a parenthesis. -/
def isBreak (c : Char) : Bool := isBlank c || c = '(' || c = ')'

theorem isBreak_iff {c : Char} : isBreak c = true ↔ isBlank c = true ∨ c = '(' ∨ c = ')' := by
  simp only [isBreak, Bool.or_eq_true, decide_eq_true_eq, or_assoc]

theorem isNameChar_of_isBreak {c : Char} (h : isBreak c = true) : isNameChar c = false := by
  rcases isBreak_iff.1 h with hblank | rfl | rfl
  · exact isNameChar_of_isBlank hblank
  · rfl
  · rfl

theorem isAsciiDigit_of_isBreak {c : Char} (h : isBreak c = true) : isAsciiDigit c = false := by
  rcases isBreak_iff.1 h with hblank | rfl | rfl
  · exact isAsciiDigit_of_isBlank hblank
  · rfl
  · rfl

theorem IsNumber.mem {c : Char} (h : IsNumber cs) (hc : c ∈ cs) : isAsciiDigit c = true ∨ c = '.' ∨ c = '-' := by
  have magnitude {cs : List Char} (h : IsMagnitude cs) (hc : c ∈ cs) : isAsciiDigit c = true ∨ c = '.' := by
    cases h with
    | whole hds => exact .inl (hds.2 c hc)
    | fraction hds hfs =>
        rcases List.mem_append.1 hc with hleft | hright
        · exact .inl (hds.2 c hleft)
        · rcases List.mem_cons.1 hright with rfl | hright
          · exact .inr rfl
          · exact .inl (hfs.2 c hright)
  cases h with
  | positive hm => exact (magnitude hm hc).imp_right .inl
  | negative hm =>
      rcases List.mem_cons.1 hc with rfl | hc
      · exact .inr (.inr rfl)
      · exact (magnitude hm hc).imp_right .inl

theorem IsNumber.not_mem_of_isBreak {c : Char} (h : IsNumber cs) (hc : isBreak c = true) : c ∉ cs := by
  intro hmem
  rcases h.mem hmem with hdigit | rfl | rfl
  · exact Bool.false_ne_true (isAsciiDigit_of_isBreak hc ▸ hdigit)
  · cases hc
  · cases hc

/-- No longer front of a form reaches into text that starts with a character that the form excludes. -/
theorem IsLongest.extend {form : List Char → Prop} (h : IsLongest form front cs)
    (hends : ∀ other, form other → ∀ c ∈ tail.head?, c ∉ other) : IsLongest form front (cs ++ tail) := by
  obtain ⟨hfront, hform, hmost⟩ := h
  refine ⟨hfront.trans (List.prefix_append cs tail), hform, fun other hother hothers => ?_⟩
  rcases List.prefix_or_prefix_of_prefix hother (List.prefix_append cs tail) with hinside | ⟨more, rfl⟩
  · exact hmost other hinside hothers
  · rw [List.prefix_append_right_inj] at hother
    cases more with
    | nil => exact hmost _ (by simp) hothers
    | cons c more =>
        obtain ⟨_, rfl⟩ := hother
        exact (hends _ hothers c rfl (by simp)).elim

theorem HasExtent.extend (hkind : kind ≠ .blank) (htail : ∀ c ∈ tail.head?, isBreak c = true)
    (h : HasExtent kind ⟨front, kept, rest⟩) : HasExtent kind ⟨front, kept, rest ++ tail⟩ := by
  have longest {form : List Char → Prop} (hform : ∀ other, form other → ∀ c, isBreak c = true → c ∉ other)
      (h : IsLongest form front (front ++ rest)) : IsLongest form front (front ++ (rest ++ tail)) := by
    rw [← List.append_assoc]
    exact h.extend fun other hother c hc => hform other hother c (htail c hc)
  cases kind with
  | fn =>
      refine ⟨h.1, h.2.1, fun c hc => ?_⟩
      cases rest with
      | nil => exact isNameChar_of_isBreak (htail c hc)
      | cons d rest => exact h.2.2 c hc
  | var =>
      refine ⟨longest (fun other hother c hc hmem => ?_) h.1, h.2⟩
      exact Bool.false_ne_true (isNameChar_of_isBreak hc ▸ hother.2 c hmem)
  | num => exact ⟨longest (fun other hother c hc => hother.not_mem_of_isBreak hc) h.1, h.2⟩
  | blank => exact (hkind rfl).elim
  | openList | closeList | date | str => exact h

theorem startsNegative_of_append (hne : cs ≠ []) (htail : ∀ c ∈ tail.head?, isBreak c = true)
    (h : startsNegative (cs ++ tail) = true) : startsNegative cs = true := by
  obtain ⟨d, rest, heq, hd⟩ := startsNegative_iff.1 h
  match cs, hne with
  | [a], _ =>
      obtain ⟨-, rfl⟩ := List.cons.inj heq
      exact (Bool.false_ne_true (isAsciiDigit_of_isBreak (htail d rfl) ▸ hd)).elim
  | a :: b :: cs, _ =>
      obtain ⟨rfl, htail⟩ := List.cons.inj heq
      obtain ⟨rfl, -⟩ := List.cons.inj htail
      exact startsNegative_iff.2 ⟨b, cs, rfl, hd⟩

/-- A lexeme other than white space stays as it is if text is appended that starts with a break. -/
theorem cut?_extend (hkind : kind ≠ .blank) (htail : ∀ c ∈ tail.head?, isBreak c = true)
    (h : cut? (front ++ rest) = some (kind, ⟨front, kept, rest⟩)) :
    cut? (front ++ (rest ++ tail)) = some (kind, ⟨front, kept, rest ++ tail⟩) := by
  refine cut?_of_hasExtent ((cut?_extent h).extend hkind htail) ?_
  rintro rfl
  by_contra hnegative
  rw [Bool.not_eq_false, ← List.append_assoc] at hnegative
  have hne : front ++ rest ≠ [] := List.append_ne_nil_of_left_ne_nil (cut?_eq_some h).2 rest
  have hshorter := startsNegative_of_append hne htail hnegative
  rw [startsNegative_of_cut? h] at hshorter
  cases hshorter

/-! ## Breaks -/

/-- White space is passed over whatever follows it. -/
theorem split_blanks {run : List Char} (hrun : ∀ c ∈ run, isBlank c = true) (rest : List Char) :
    split (run ++ rest) = split rest := by
  have hmore : ∀ c ∈ rest.takeWhile isBlank, isBlank c = true := fun c hc => List.mem_takeWhile_imp hc
  calc split (run ++ rest)
      = split (run ++ rest.takeWhile isBlank ++ rest.dropWhile isBlank) := by
        rw [List.append_assoc, List.takeWhile_append_dropWhile]
    _ = split (rest.dropWhile isBlank) :=
        split_run (List.forall_mem_append.2 ⟨hrun, hmore⟩) head?_dropWhile_eq_false
    _ = split (rest.takeWhile isBlank ++ rest.dropWhile isBlank) := (split_run hmore head?_dropWhile_eq_false).symm
    _ = split rest := by rw [List.takeWhile_append_dropWhile]

/-- The lexeme of a parenthesis. -/
def parenthesis? (c : Char) : Option Lexeme :=
  if c = '(' then some ⟨.openList, "("⟩ else if c = ')' then some ⟨.closeList, ")"⟩ else none

theorem split_break {c : Char} (h : isBreak c = true) (rest : List Char) :
    split (c :: rest) = (split rest).map ((parenthesis? c).toList ++ ·) := by
  rcases isBreak_iff.1 h with hblank | rfl | rfl
  · have hpassed : split ([c] ++ rest) = split rest := split_blanks (by simpa using hblank) rest
    have hnone : parenthesis? c = none := by
      unfold parenthesis?
      rw [if_neg, if_neg]
      · rintro rfl
        cases hblank
      · rintro rfl
        cases hblank
    rw [List.singleton_append] at hpassed
    rw [hpassed, hnone]
    cases split rest <;> rfl
  · have hcut : cut? ('(' :: rest) = some (.openList, .whole ['('] rest) := rfl
    exact split_of_cut? hcut
  · have hcut : cut? (')' :: rest) = some (.closeList, .whole [')'] rest) := rfl
    exact split_of_cut? hcut

theorem split_breaks {breaks : List Char} (h : ∀ c ∈ breaks, isBreak c = true) (rest : List Char) :
    split (breaks ++ rest) = (split rest).map (breaks.filterMap parenthesis? ++ ·) := by
  induction breaks with
  | nil => cases hrest : split rest <;> simp [hrest, Except.map]
  | cons c breaks ih =>
      obtain ⟨hfirst, hothers⟩ := List.forall_mem_cons.1 h
      rw [List.cons_append, split_break hfirst, ih hothers, List.filterMap_cons]
      cases split rest with
      | error f => rfl
      | ok ls => cases parenthesis? c <;> rfl

/-- A source that can be cut keeps its lexemes in front of a break, and cutting goes on behind them. -/
theorem split_append (h : split cs = .ok ls) (htail : ∀ c ∈ tail.head?, isBreak c = true) :
    split (cs ++ tail) = (split tail).map (ls ++ ·) := by
  fun_induction split cs generalizing ls with
  | case1 =>
      obtain rfl := Except.ok.inj h
      rw [List.nil_append]
      cases split tail <;> rfl
  | case2 => cases h
  | case3 => cases h
  | case4 cs _ kind cut hcut _ lexemes hrest ih =>
      obtain rfl := Except.ok.inj h
      have hlater := ih hrest
      obtain ⟨hwhole, -⟩ := cut?_eq_some hcut
      obtain ⟨front, kept, rest⟩ := cut
      obtain rfl : front ++ rest = cs := hwhole
      rw [List.append_assoc]
      by_cases hkind : kind = .blank
      · -- the white space may go on in the text behind, so it is passed over with that
        subst hkind
        have hblank : IsRun isBlank front := (cut?_extent hcut).1.2.1
        rw [split_blanks hblank.2, hlater]
        rfl
      · rw [split_of_cut? (cut?_extend hkind htail hcut), hlater]
        cases split tail with
        | error f => rfl
        | ok ms => exact congrArg Except.ok (List.append_assoc _ _ _).symm

/-- Between two sources that can be cut stands a text of blanks and parentheses: the lexemes of the whole are those of
the three parts. Which blanks they are and how many does not matter. -/
theorem split_distributes_over_breaks (a b : String) (ls ms : List Lexeme) (ha : ofSource (some a) = .ok ls)
    (hb : ofSource (some b) = .ok ms) :
    (∀ breaks : String, breaks ≠ "" → (∀ c ∈ breaks.toList, isBreak c = true) →
      ∃ ks, ofSource (some breaks) = .ok ks ∧ ofSource (some (a ++ breaks ++ b)) = .ok (ls ++ ks ++ ms)) ∧
    ∀ blanks others : String, blanks ≠ "" → others ≠ "" → (∀ c ∈ blanks.toList, isBlank c = true) →
      (∀ c ∈ others.toList, isBlank c = true) →
      ofSource (some (a ++ blanks ++ b)) = .ok (ls ++ ms) ∧
        ofSource (some (a ++ others ++ b)) = ofSource (some (a ++ blanks ++ b)) := by
  have distributes (breaks : String) (hne : breaks ≠ "") (h : ∀ c ∈ breaks.toList, isBreak c = true) :
      ofSource (some (a ++ breaks ++ b)) = .ok (ls ++ breaks.toList.filterMap parenthesis? ++ ms) := by
    have htail : ∀ c ∈ (breaks.toList ++ b.toList).head?, isBreak c = true := by
      intro c hc
      rw [List.head?_append_of_ne_nil _ (by simpa using hne)] at hc
      exact h c (List.mem_of_mem_head? hc)
    have hsecond : split b.toList = .ok ms := hb
    rw [ofSource, String.toList_append, String.toList_append, List.append_assoc, split_append ha htail,
      split_breaks h, hsecond, List.append_assoc]
    rfl
  have passed (blanks : String) (hne : blanks ≠ "") (h : ∀ c ∈ blanks.toList, isBlank c = true) :
      ofSource (some (a ++ blanks ++ b)) = .ok (ls ++ ms) := by
    have hnone : blanks.toList.filterMap parenthesis? = [] := by
      have hsame := split_breaks (fun c hc => isBreak_iff.2 (.inl (h c hc))) []
      rw [split_blanks h, split_nil] at hsame
      simpa using (Except.ok.inj hsame).symm
    rw [distributes blanks hne fun c hc => isBreak_iff.2 (.inl (h c hc)), hnone, List.append_nil]
  refine ⟨fun breaks hne h => ⟨_, ?_, distributes breaks hne h⟩, fun blanks others hblanks hothers h h' => ?_⟩
  · have hown := split_breaks h []
    rw [split_nil, List.append_nil] at hown
    exact hown.trans (congrArg Except.ok (List.append_nil _))
  · rw [passed blanks hblanks h, passed others hothers h']
    exact ⟨rfl, rfl⟩

/-- A minus in front of the break and a digit behind it, which together would be a number. -/
theorem split_distributes_over_breaks_minus :
    ofSource (some "(f fn -") = .ok [⟨.openList, "("⟩, ⟨.var, "f"⟩, ⟨.fn, "fn"⟩, ⟨.var, "-"⟩] ∧
      ofSource (some "5 'x y')") = .ok [⟨.num, "5"⟩, ⟨.str, "x y"⟩, ⟨.closeList, ")"⟩] ∧
      (∃ ks, ofSource (some "\t)(") = .ok ks ∧ ofSource (some ("(f fn -" ++ "\t)(" ++ "5 'x y')")) =
        .ok ([⟨.openList, "("⟩, ⟨.var, "f"⟩, ⟨.fn, "fn"⟩, ⟨.var, "-"⟩] ++ ks ++
          [⟨.num, "5"⟩, ⟨.str, "x y"⟩, ⟨.closeList, ")"⟩])) ∧
      ofSource (some ("(f fn -" ++ " \n\n" ++ "5 'x y')")) = ofSource (some ("(f fn -" ++ " " ++ "5 'x y')")) := by
  have ha : ofSource (some "(f fn -") = .ok [⟨.openList, "("⟩, ⟨.var, "f"⟩, ⟨.fn, "fn"⟩, ⟨.var, "-"⟩] :=
    eq_ok_of_toOption (by decide +kernel)
  have hb : ofSource (some "5 'x y')") = .ok [⟨.num, "5"⟩, ⟨.str, "x y"⟩, ⟨.closeList, ")"⟩] :=
    eq_ok_of_toOption (by decide +kernel)
  obtain ⟨distributes, passed⟩ := split_distributes_over_breaks "(f fn -" "5 'x y')" _ _ ha hb
  have hbreaks : ∀ c ∈ "\t)(".toList, isBreak c = true := List.all_eq_true.1 (by decide +kernel)
  have hspace : ∀ c ∈ " ".toList, isBlank c = true := List.all_eq_true.1 (by decide +kernel)
  have hlines : ∀ c ∈ " \n\n".toList, isBlank c = true := List.all_eq_true.1 (by decide +kernel)
  refine ⟨ha, hb, distributes "\t)(" (by decide) hbreaks, ?_⟩
  exact (passed " " " \n\n" (by decide) (by decide) hspace hlines).2

end RuleExpr.Lexeme
