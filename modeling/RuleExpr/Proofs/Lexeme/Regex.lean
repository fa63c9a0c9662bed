import RuleExpr.Proofs.Lexeme.Shape

/-!
# Regular expressions

A regular expression may match the front of a text in several ways. They are tried in an order: repetitions and
optional parts first take what they can and give it back one by one, and the first way that goes through is the match.
Parts in brackets whose text nobody reads are plain parts here.

A class is repeated as long as its characters go on (`match?_plus_one`). Where the text behind an expression decides
between its ways, membership in the ways is described instead.
-/
namespace RuleExpr.Lexeme

inductive Regex where
  /-- A character of a class. -/
  | one (holds : Char → Bool)
  | seq (first second : Regex)
  | optional (body : Regex)
  /-- Any number of times. -/
  | many (body : Regex)
  /-- Takes nothing, where the body does not match. -/
  | notAhead (body : Regex)
  /-- The text of this part is captured. -/
  | capture (body : Regex)

/-- A way to match the front of a text. -/
structure Match where
  front : List Char
  captured : Option (List Char)
  rest : List Char

namespace Match

/-- Nothing is captured. -/
def whole (front rest : List Char) : Match := ⟨front, none, rest⟩

def nothing (cs : List Char) : Match := whole [] cs

def followedBy (m n : Match) : Match := ⟨m.front ++ n.front, n.captured.or m.captured, n.rest⟩

theorem map_nothing_followedBy (cs : List Char) (ms : List Match) : ms.map (nothing cs).followedBy = ms := by
  refine (List.map_congr_left fun m _ => ?_).trans (List.map_id ms)
  simp only [followedBy, nothing, whole, Option.or_none, List.nil_append, id_eq]

/-- What is captured, or else all of the front, is kept. -/
def cut (m : Match) : Cut := ⟨m.front, m.captured.getD m.front, m.rest⟩

end Match

/-- The ways to match something any number of times, most often first. -/
def repeatWays (ways : List Char → List Match) (cs : List Char) : List Match :=
  ((ways cs).flatMap fun m =>
    if m.rest.length < cs.length then (repeatWays ways m.rest).map m.followedBy else []) ++ [.nothing cs]
termination_by cs.length

namespace Regex

/-- The ways to match the front of a text in the order in which they are tried. -/
def ways : Regex → List Char → List Match
  | one holds, c :: cs => if holds c then [.whole [c] cs] else []
  | one _, [] => []
  | seq first second, cs => (first.ways cs).flatMap fun m => (second.ways m.rest).map m.followedBy
  | optional body, cs => body.ways cs ++ [.nothing cs]
  | many body, cs => repeatWays body.ways cs
  | notAhead body, cs => if (body.ways cs).isEmpty then [.nothing cs] else []
  | capture body, cs => (body.ways cs).map fun m => ⟨m.front, some m.front, m.rest⟩

/-- The match of a text at its front. -/
def match? (r : Regex) (cs : List Char) : Option Match :=
  (r.ways cs).head?

/-- A given character. -/
def char (c : Char) : Regex := one (· = c)

/-- Given characters in front. -/
def literally (text : List Char) (behind : Regex) : Regex :=
  text.foldr (fun c r => seq (char c) r) behind

/-- Once or more often. -/
def plus (body : Regex) : Regex := seq body (many body)

variable {p : Char → Bool} {r s : Regex} {c : Char} {cs : List Char} {m n : Match}

/-! ## Ways -/

theorem ways_one_of_pos (h : p c = true) : (one p).ways (c :: cs) = [.whole [c] cs] := if_pos h

theorem ways_one_of_neg (h : ¬ p c = true) : (one p).ways (c :: cs) = [] := if_neg h

theorem mem_ways_one : m ∈ (one p).ways cs ↔ ∃ c rest, cs = c :: rest ∧ p c = true ∧ m = .whole [c] rest := by
  cases cs with
  | nil => simp [ways]
  | cons c cs =>
      by_cases hc : p c = true
      · rw [ways_one_of_pos hc, List.mem_singleton]
        constructor
        · rintro rfl
          exact ⟨c, cs, rfl, hc, rfl⟩
        · rintro ⟨d, rest, heq, -, rfl⟩
          obtain ⟨rfl, rfl⟩ := List.cons.inj heq
          rfl
      · rw [ways_one_of_neg hc]
        refine iff_of_false List.not_mem_nil ?_
        rintro ⟨d, rest, heq, hd, -⟩
        obtain ⟨rfl, rfl⟩ := List.cons.inj heq
        exact hc hd

theorem mem_ways_char : m ∈ (char c).ways cs ↔ ∃ rest, cs = c :: rest ∧ m = .whole [c] rest := by
  rw [char, mem_ways_one]
  constructor
  · rintro ⟨d, rest, rfl, hd, rfl⟩
    obtain rfl := of_decide_eq_true hd
    exact ⟨rest, rfl, rfl⟩
  · rintro ⟨rest, rfl, rfl⟩
    exact ⟨c, rest, rfl, decide_eq_true rfl, rfl⟩

theorem mem_ways_seq : m ∈ (seq r s).ways cs ↔ ∃ a ∈ r.ways cs, ∃ b ∈ s.ways a.rest, a.followedBy b = m := by
  simp only [ways, List.mem_flatMap, List.mem_map]

theorem mem_ways_capture : m ∈ (capture r).ways cs ↔ ∃ a ∈ r.ways cs, m = ⟨a.front, some a.front, a.rest⟩ := by
  simp only [ways, List.mem_map, eq_comm]

theorem mem_ways_notAhead : m ∈ (notAhead r).ways cs ↔ r.ways cs = [] ∧ m = .nothing cs := by
  simp only [ways, List.isEmpty_iff]
  split
  · next h => simp only [h, true_and, List.mem_singleton]
  · next h => simp only [h, false_and, List.not_mem_nil]

theorem mem_ways_literally {text : List Char} : m ∈ (literally text r).ways cs ↔
    ∃ behind, cs = text ++ behind ∧ ∃ b ∈ r.ways behind, m = ⟨text ++ b.front, b.captured, b.rest⟩ := by
  induction text generalizing cs m with
  | nil =>
      constructor
      · exact fun h => ⟨cs, rfl, m, h, rfl⟩
      · rintro ⟨behind, rfl, b, hb, rfl⟩
        exact hb
  | cons c text ih =>
      rw [literally, List.foldr_cons, ← literally, mem_ways_seq]
      constructor
      · rintro ⟨a, ha, b, hb, rfl⟩
        obtain ⟨rest, rfl, rfl⟩ := mem_ways_char.1 ha
        obtain ⟨behind, hbehind, n, hn, rfl⟩ := ih.1 hb
        refine ⟨behind, congrArg (c :: ·) hbehind, n, hn, ?_⟩
        simp only [Match.followedBy, Match.whole, Option.or_none]
        rfl
      · rintro ⟨behind, rfl, b, hb, rfl⟩
        refine ⟨.whole [c] (text ++ behind), mem_ways_char.2 ⟨_, rfl, rfl⟩, _, ih.2 ⟨behind, rfl, b, hb, rfl⟩, ?_⟩
        simp only [Match.followedBy, Match.whole, Option.or_none]
        rfl

theorem ways_many (r : Regex) (cs : List Char) : (many r).ways cs =
    ((r.ways cs).flatMap fun m =>
      if m.rest.length < cs.length then ((many r).ways m.rest).map m.followedBy else []) ++ [.nothing cs] := by
  rw [ways, repeatWays]
  rfl

theorem mem_ways_many : m ∈ (many r).ways cs ↔
    (∃ a ∈ r.ways cs, a.rest.length < cs.length ∧ ∃ b ∈ (many r).ways a.rest, a.followedBy b = m) ∨
      m = .nothing cs := by
  rw [ways_many, List.mem_append, List.mem_flatMap, List.mem_singleton]
  refine or_congr_left (exists_congr fun a => and_congr_right fun _ => ?_)
  split
  · next h => simp only [h, true_and, List.mem_map]
  · next h => simp only [h, false_and, List.not_mem_nil]

/-! ## Matches -/

theorem match?_eq_none_iff : r.match? cs = none ↔ r.ways cs = [] := List.head?_eq_none_iff

theorem mem_of_match? (h : r.match? cs = some m) : m ∈ r.ways cs := List.mem_of_head? h

theorem match?_seq (hm : r.match? cs = some m) (hn : s.match? m.rest = some n) :
    (seq r s).match? cs = some (m.followedBy n) := by
  obtain ⟨later, hlater⟩ := List.head?_eq_some_iff.1 hm
  obtain ⟨behind, hbehind⟩ := List.head?_eq_some_iff.1 hn
  rw [match?, ways, hlater, List.flatMap_cons, hbehind]
  rfl

theorem match?_seq_eq_none (h : r.ways cs = []) : (seq r s).match? cs = none := by
  rw [match?, ways, h]
  rfl

theorem match?_seq_char (c : Char) (r : Regex) (cs : List Char) :
    (seq (char c) r).match? (c :: cs) = (r.match? cs).map fun m => ⟨c :: m.front, m.captured, m.rest⟩ := by
  have hfirst : (char c).match? (c :: cs) = some (.whole [c] cs) := by
    rw [match?, char, ways_one_of_pos (decide_eq_true rfl)]
    rfl
  cases hmatch : r.match? cs with
  | none =>
      rw [match?, ways, char, ways_one_of_pos (decide_eq_true rfl), List.flatMap_singleton, Match.whole,
        match?_eq_none_iff.1 hmatch]
      rfl
  | some m =>
      rw [match?_seq hfirst hmatch]
      simp only [Match.followedBy, Match.whole, Option.or_none, Option.map_some, List.singleton_append]

theorem match?_seq_char_eq_none {d : Char} (h : d ≠ c) (r : Regex) (cs : List Char) :
    (seq (char c) r).match? (d :: cs) = none :=
  match?_seq_eq_none (ways_one_of_neg (by simpa using h))

theorem match?_seq_notAhead (r s : Regex) (cs : List Char) :
    (seq (notAhead r) s).match? cs = if r.ways cs = [] then s.match? cs else none := by
  simp only [match?, ways, List.isEmpty_iff]
  split
  · rw [List.flatMap_singleton, Match.map_nothing_followedBy]
    rfl
  · rfl

/-- With an optional part in front, what comes behind it may also be matched without it. -/
theorem match?_seq_optional (r s : Regex) (cs : List Char) :
    (seq (optional r) s).match? cs = ((seq r s).match? cs).or (s.match? cs) := by
  simp only [match?, ways, List.flatMap_append, List.flatMap_singleton, Match.map_nothing_followedBy, List.head?_append]
  rfl

/-- An optional part is matched if it can be. -/
theorem match?_optional (r : Regex) (cs : List Char) :
    (optional r).match? cs = some ((r.match? cs).getD (.nothing cs)) := by
  rw [match?, ways, match?]
  cases r.ways cs <;> rfl

/-- A class is repeated as long as its characters go on. -/
theorem match?_many_one (p : Char → Bool) (cs : List Char) :
    (many (one p)).match? cs = some (.whole (cs.takeWhile p) (cs.dropWhile p)) := by
  induction cs with
  | nil =>
      rw [match?, ways_many]
      rfl
  | cons c cs ih =>
      by_cases hc : p c = true
      · obtain ⟨fewer, hfewer⟩ := List.head?_eq_some_iff.1 ih
        rw [match?, ways_many, ways_one_of_pos hc, List.flatMap_singleton]
        have hshorter : (Match.whole [c] cs).rest.length < (c :: cs).length := Nat.lt_succ_self _
        rw [if_pos hshorter, Match.whole, hfewer, List.takeWhile_cons_of_pos hc, List.dropWhile_cons_of_pos hc]
        rfl
      · rw [match?, ways_many, ways_one_of_neg hc, List.takeWhile_cons_of_neg hc, List.dropWhile_cons_of_neg hc]
        rfl

theorem match?_plus_one (p : Char → Bool) (cs : List Char) : (plus (one p)).match? cs =
    if (cs.takeWhile p).isEmpty then none else some (.whole (cs.takeWhile p) (cs.dropWhile p)) := by
  cases cs with
  | nil => rfl
  | cons c cs =>
      by_cases hc : p c = true
      · have hfirst : (one p).match? (c :: cs) = some (.whole [c] cs) := by
          rw [match?, ways_one_of_pos hc]
          rfl
        rw [plus, match?_seq hfirst (match?_many_one p cs), List.takeWhile_cons_of_pos hc,
          List.dropWhile_cons_of_pos hc]
        rfl
      · rw [plus, match?_seq_eq_none (ways_one_of_neg hc), List.takeWhile_cons_of_neg hc]
        rfl

/-- The ways to repeat a class are the fronts of its characters. -/
theorem mem_ways_many_one : m ∈ (many (one p)).ways cs ↔
    ∃ run rest, cs = run ++ rest ∧ (∀ c ∈ run, p c = true) ∧ m = .whole run rest := by
  constructor
  · intro h
    induction cs generalizing m with
    | nil =>
        rcases mem_ways_many.1 h with ⟨a, ha, -⟩ | rfl
        · cases ha
        · exact ⟨[], [], rfl, List.forall_mem_nil _, rfl⟩
    | cons c cs ih =>
        rcases mem_ways_many.1 h with ⟨a, ha, -, b, hb, rfl⟩ | rfl
        · obtain ⟨d, rest, heq, hd, rfl⟩ := mem_ways_one.1 ha
          obtain ⟨rfl, rfl⟩ := List.cons.inj heq
          obtain ⟨run, rest, rfl, hrun, rfl⟩ := ih hb
          exact ⟨c :: run, rest, rfl, List.forall_mem_cons.2 ⟨hd, hrun⟩, rfl⟩
        · exact ⟨[], c :: cs, rfl, List.forall_mem_nil _, rfl⟩
  · rintro ⟨run, rest, rfl, hrun, rfl⟩
    induction run with
    | nil => exact mem_ways_many.2 (.inr rfl)
    | cons c run ih =>
        obtain ⟨hc, hrun⟩ := List.forall_mem_cons.1 hrun
        exact mem_ways_many.2 (.inl ⟨.whole [c] (run ++ rest), mem_ways_one.2 ⟨c, _, rfl, hc, rfl⟩,
          Nat.lt_succ_self _, .whole run rest, ih hrun, rfl⟩)

theorem mem_ways_plus_one : m ∈ (plus (one p)).ways cs ↔
    ∃ run rest, cs = run ++ rest ∧ run ≠ [] ∧ (∀ c ∈ run, p c = true) ∧ m = .whole run rest := by
  rw [plus, mem_ways_seq]
  constructor
  · rintro ⟨a, ha, b, hb, rfl⟩
    obtain ⟨c, rest, rfl, hc, rfl⟩ := mem_ways_one.1 ha
    obtain ⟨run, rest, rfl, hrun, rfl⟩ := mem_ways_many_one.1 hb
    exact ⟨c :: run, rest, rfl, List.cons_ne_nil c run, List.forall_mem_cons.2 ⟨hc, hrun⟩, rfl⟩
  · rintro ⟨run, rest, rfl, hne, hrun, rfl⟩
    obtain ⟨c, run, rfl⟩ := List.exists_cons_of_ne_nil hne
    obtain ⟨hc, hrun⟩ := List.forall_mem_cons.1 hrun
    exact ⟨.whole [c] (run ++ rest), mem_ways_one.2 ⟨c, _, rfl, hc, rfl⟩, .whole run rest,
      mem_ways_many_one.2 ⟨run, rest, rfl, hrun, rfl⟩, rfl⟩

end Regex

end RuleExpr.Lexeme
