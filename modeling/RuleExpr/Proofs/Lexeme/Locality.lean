import RuleExpr.Proofs.Lexeme.Cutting

/-!
# Lexemes and the text behind them

What is cut off a source is decided by how far its kind goes there (`cut?_of_hasExtent`), and the text behind a lexeme
bounds it only from outside. So a lexeme stays what it is if the text ends somewhere behind it (`cut?_shorten`). It
follows that cutting fails at a place that belongs to what is left there alone: the text in front of that place has the
lexemes that came before the failure, and what is left fails alone as it did behind them (`failure_is_located`).
-/
namespace RuleExpr.Lexeme
open Numeral Text

variable {kind : Kind} {cs front kept rest tail : List Char} {cut : Cut}

/-! ## Extents decide cuts -/

theorem IsLongest.unique {form : List Char → Prop} {other : List Char} (h : IsLongest form front cs)
    (hother : IsLongest form other cs) : front = other := by
  obtain ⟨hfront, hform, hmost⟩ := h
  obtain ⟨hstarts, hothers, hleast⟩ := hother
  have hle : front.length ≤ other.length := hleast front hfront hform
  have hge : other.length ≤ front.length := hmost other hstarts hothers
  exact (List.prefix_of_prefix_length_le hfront hstarts hle).eq_of_length (hle.antisymm hge)

theorem IsLongest.ends {holds : Char → Bool} (h : IsLongest (IsRun holds) front (front ++ rest)) :
    ∀ c ∈ rest.head?, holds c = false := by
  intro c hc
  obtain ⟨-, ⟨hne, hrun⟩, hmost⟩ := h
  obtain ⟨rest, rfl⟩ := List.head?_eq_some_iff.1 hc
  by_contra hholds
  have longer : IsRun holds (front ++ [c]) := by
    refine ⟨List.append_ne_nil_of_left_ne_nil hne _, List.forall_mem_append.2 ⟨hrun, ?_⟩⟩
    simpa using hholds
  have hle := hmost (front ++ [c]) ⟨rest, by simp⟩ longer
  simp at hle

/-- A number is cut off as far as it goes. -/
theorem cut?_of_longest_number (h : IsLongest IsNumber front (front ++ rest)) :
    cut? (front ++ rest) = some (.num, .whole front rest) := by
  obtain ⟨cut, hcut⟩ := exists_cutNumber h.2.1 rest
  obtain ⟨hlongest, hkept⟩ := cutNumber_extent hcut
  have hwhole := (cutNumber_of hcut).1
  rw [hwhole] at hlongest
  have hfront : cut.front = front := hlongest.unique h
  have hrest : cut.rest = rest := by
    rw [hfront] at hwhole
    exact List.append_cancel_left hwhole
  rw [cut?_of_isNumber h.2.1, hcut]
  obtain ⟨f, k, r⟩ := cut
  obtain rfl : f = front := hfront
  obtain rfl : k = f := hkept
  obtain rfl : r = rest := hrest
  rfl

/-- Text that goes as far as its kind says is cut off as such. A minus in front of a digit starts no name. -/
theorem cut?_of_hasExtent (h : HasExtent kind ⟨front, kept, rest⟩)
    (hpositive : kind = .var → startsNegative (front ++ rest) = false) :
    cut? (front ++ rest) = some (kind, ⟨front, kept, rest⟩) := by
  cases kind with
  | openList =>
      obtain ⟨rfl, rfl⟩ : front = ['('] ∧ kept = front := h
      rfl
  | closeList =>
      obtain ⟨rfl, rfl⟩ : front = [')'] ∧ kept = front := h
      rfl
  | fn =>
      obtain ⟨rfl, rfl, hends⟩ :
          front = ['f', 'n'] ∧ kept = front ∧ ∀ c ∈ rest.head?, isNameChar c = false := h
      exact cut?_fn hends
  | var =>
      obtain ⟨hlongest, hkept, hfn⟩ := h
      obtain rfl : kept = front := hkept
      obtain ⟨hne, hname⟩ : IsRun isNameChar kept := hlongest.2.1
      exact cut?_run hne hname hfn hlongest.ends (hpositive rfl)
  | num =>
      obtain ⟨hlongest, hkept⟩ := h
      obtain rfl : kept = front := hkept
      exact cut?_of_longest_number hlongest
  | date =>
      obtain ⟨hfront, hne, hbody⟩ := h
      obtain rfl : front = "#dt\x7b".toList ++ kept ++ ['\x7d'] := hfront
      have hplain : ∀ c ∈ kept, isBrace c = false := fun c hc => by simpa using hbody c hc
      rw [List.append_assoc, List.singleton_append]
      exact cut?_date hne hplain
  | blank =>
      obtain ⟨hlongest, hkept⟩ := h
      obtain rfl : kept = front := hkept
      obtain ⟨hne, hrun⟩ : IsRun isBlank kept := hlongest.2.1
      exact cut?_blank hne hrun hlongest.ends
  | str =>
      obtain ⟨quote, hquote, hfront, hbody⟩ := h
      obtain rfl : front = quote :: kept ++ [quote] := hfront
      have hslash : quote ≠ '\\' := by
        rcases hquote with rfl | rfl <;> decide
      have hsplit := splitAtQuote?_paired rest hslash hbody.isPaired hbody.not_holdsBare
      simp only [List.cons_append, List.append_assoc, List.nil_append]
      rw [cut?_quoted hquote, cutQuoted, if_pos rfl, hsplit]
      rfl

theorem startsNegative_of_cut? (h : cut? cs = some (.var, cut)) : startsNegative cs = false := by
  by_contra hnegative
  rw [Bool.not_eq_false] at hnegative
  obtain ⟨c, rest, rfl, hc⟩ := startsNegative_iff.1 hnegative
  have hnumber : IsNumber ['-', c] := .negative (.whole ⟨by simp, by simpa using hc⟩)
  have hcut := cut?_of_isNumber hnumber rest
  rw [List.cons_append, List.singleton_append, h] at hcut
  obtain ⟨_, _, heq⟩ := Option.map_eq_some_iff.1 hcut.symm
  cases heq

/-! ## Less text behind a lexeme -/

theorem IsLongest.shorten {form : List Char → Prop} (h : IsLongest form front (front ++ (rest ++ tail))) :
    IsLongest form front (front ++ rest) := by
  obtain ⟨-, hform, hmost⟩ := h
  refine ⟨List.prefix_append front rest, hform, fun other hother hothers => hmost other ?_ hothers⟩
  rw [← List.append_assoc]
  exact hother.trans (List.prefix_append _ tail)

theorem HasExtent.shorten (h : HasExtent kind ⟨front, kept, rest ++ tail⟩) :
    HasExtent kind ⟨front, kept, rest⟩ := by
  cases kind with
  | fn =>
      refine ⟨h.1, h.2.1, fun c hc => h.2.2 c ?_⟩
      exact List.mem_head?_append_of_mem_head? hc
  | var => exact ⟨h.1.shorten, h.2⟩
  | num | blank => exact ⟨h.1.shorten, h.2⟩
  | openList | closeList | date | str => exact h

theorem startsNegative_append (h : startsNegative cs = true) (tail : List Char) :
    startsNegative (cs ++ tail) = true := by
  obtain ⟨c, rest, rfl, hc⟩ := startsNegative_iff.1 h
  exact startsNegative_iff.2 ⟨c, rest ++ tail, rfl, hc⟩

/-- A lexeme that was cut off is cut off as well if the text ends somewhere behind it. -/
theorem cut?_shorten (h : cut? (front ++ (rest ++ tail)) = some (kind, ⟨front, kept, rest ++ tail⟩)) :
    cut? (front ++ rest) = some (kind, ⟨front, kept, rest⟩) := by
  refine cut?_of_hasExtent (cut?_extent h).shorten ?_
  rintro rfl
  by_contra hnegative
  rw [Bool.not_eq_false] at hnegative
  have hlonger := startsNegative_append hnegative tail
  rw [List.append_assoc, startsNegative_of_cut? h] at hlonger
  cases hlonger

/-! ## Failures -/

/-- The lexemes that are cut off a source one after the other until none can be, and what is left then. -/
def scan (cs : List Char) : List Lexeme × List Char :=
  match h : cut? cs with
  | none => ([], cs)
  | some (kind, cut) =>
    have := (cut?_eq_some h).rest_length_lt
    ((ofCut? kind cut).toList ++ (scan cut.rest).1, (scan cut.rest).2)
termination_by cs.length

theorem cut?_scan (cs : List Char) : cut? (scan cs).2 = none := by
  fun_induction scan cs with
  | case1 cs hnone => exact hnone
  | case2 cs kind cut hcut _ ih => exact ih

theorem split_of_cut?_eq_none (h : cut? cs = none) (hne : cs ≠ []) :
    split cs = .error (.invalidToken (String.ofList cs)) := by
  rw [split, if_neg hne]
  split
  · rfl
  · next hsome =>
      rw [h] at hsome
      cases hsome

/-- Cutting succeeds with all lexemes if nothing is left, and otherwise fails with what is left. -/
theorem split_eq_scan (cs : List Char) : split cs =
    if (scan cs).2 = [] then .ok (scan cs).1 else .error (.invalidToken (String.ofList (scan cs).2)) := by
  fun_induction scan cs with
  | case1 cs hnone =>
      by_cases hne : cs = []
      · rw [if_pos hne, hne, split_nil]
      · rw [if_neg hne, split_of_cut?_eq_none hnone hne]
  | case2 cs kind cut hcut _ ih =>
      rw [split_of_cut? hcut, ih]
      split <;> rfl

/-- What stands in front of what is left has the same lexemes on its own. -/
theorem split_front_of_scan (cs : List Char) :
    ∃ front, cs = front ++ (scan cs).2 ∧ split front = .ok (scan cs).1 := by
  fun_induction scan cs with
  | case1 cs _ => exact ⟨[], rfl, split_nil⟩
  | case2 cs kind cut hcut _ ih =>
      obtain ⟨front, hrest, hsplit⟩ := ih
      obtain ⟨hwhole, -⟩ := cut?_eq_some hcut
      refine ⟨cut.front ++ front, ?_, ?_⟩
      · rw [List.append_assoc, ← hrest, hwhole]
      · obtain ⟨first, kept, rest⟩ := cut
        dsimp only at hrest hwhole hsplit ⊢
        rw [← hwhole] at hcut
        rw [hrest] at hcut
        rw [split_of_cut? (cut?_shorten hcut), hsplit]
        rfl

/-- A source that cannot be cut into lexemes fails where the first of them is missing. What is left there is not empty
and fails alone at the same place; what stands in front of it is cut into the lexemes that came before the failure. -/
theorem failure_is_located (source rest : String) (h : ofSource (some source) = .error (.invalidToken rest)) :
    rest ≠ "" ∧ ∃ front ls, source = front ++ rest ∧ scan source.toList = (ls, rest.toList) ∧
      ofSource (some front) = .ok ls ∧ ofSource (some rest) = .error (.invalidToken rest) := by
  rw [ofSource, split_eq_scan] at h
  split at h
  · cases h
  · next hne =>
      have hrest : (scan source.toList).2 = rest.toList := by
        obtain rfl := Fault.invalidToken.inj (Except.error.inj h)
        rw [String.toList_ofList]
      rw [hrest] at hne
      obtain ⟨front, hwhole, hfront⟩ := split_front_of_scan source.toList
      have hfails : split rest.toList = .error (.invalidToken (String.ofList rest.toList)) :=
        split_of_cut?_eq_none (hrest ▸ cut?_scan source.toList) hne
      refine ⟨?_, String.ofList front, (scan source.toList).1, ?_, ?_, ?_, ?_⟩
      · rintro rfl
        exact hne rfl
      · rw [hrest] at hwhole
        rw [← String.toList_inj, String.toList_append, String.toList_ofList, hwhole]
      · rw [← hrest]
      · rw [ofSource, String.toList_ofList, hfront]
      · rw [ofSource, hfails, String.ofList_toList]

/-- A number ends in front of a point that no digit follows, and nothing starts with the point. -/
theorem failure_is_located_stray_point :
    ofSource (some "(fn -1.x 2)") = .error (.invalidToken ".x 2)") ∧
      ∃ front ls, "(fn -1.x 2)" = front ++ ".x 2)" ∧ scan "(fn -1.x 2)".toList = (ls, ".x 2)".toList) ∧
        ofSource (some front) = .ok ls ∧ ls = [⟨.openList, "("⟩, ⟨.fn, "fn"⟩, ⟨.num, "-1"⟩] := by
  have h : ofSource (some "(fn -1.x 2)") = .error (.invalidToken ".x 2)") := by
    rw [ofSource, split_eq_scan]
    decide +kernel
  obtain ⟨-, front, ls, hwhole, hscan, hfront, -⟩ := failure_is_located "(fn -1.x 2)" ".x 2)" h
  have hlexemes : (scan "(fn -1.x 2)".toList).1 = [⟨.openList, "("⟩, ⟨.fn, "fn"⟩, ⟨.num, "-1"⟩] := by
    decide +kernel
  rw [hscan] at hlexemes
  exact ⟨h, front, ls, hwhole, hscan, hfront, hlexemes⟩

end RuleExpr.Lexeme
