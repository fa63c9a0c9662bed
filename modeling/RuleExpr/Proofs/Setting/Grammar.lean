import RuleExpr.Setting
import RuleExpr.Proofs.Numeral.Grouped

/-!
# What a setting is read as

A setting comes to its default, to an integer that is not negative, or to a fault that names it, and its text alone
decides which of these (`integer_reads_its_grammar`).
-/
namespace RuleExpr.Setting
open Text Numeral

variable {s : Setting} {i : ℤ}

/-- The text is missing or blank. -/
def IsUnset (s : Setting) : Prop := ∀ raw ∈ s.text, ∀ c ∈ raw.toList, isBlank c = true

/-- The text is a numeral of the integer, between blanks and without too many digits. -/
def Denotes (s : Setting) (i : ℤ) : Prop :=
  ∃ (before : List Char) (n : GroupedNumeral) (after : List Char),
    s.text = some (String.ofList (before ++ n.text ++ after)) ∧
      (∀ c ∈ before, isBlank c = true) ∧ (∀ c ∈ after, isBlank c = true) ∧ n.size ≤ digitLimit ∧ n.value = i

/-! ## The text -/

theorem trim_eq_nil_iff {cs : List Char} : trim cs = [] ↔ ∀ c ∈ cs, isBlank c = true := by
  rw [trim, trimBy_eq_iff]
  constructor
  · rintro ⟨⟨before, after, rfl, hbefore, hafter⟩, -⟩ c hc
    rw [List.append_nil, List.mem_append] at hc
    exact hc.elim (hbefore c) (hafter c)
  · intro h
    exact ⟨⟨cs, [], by simp, h, nofun⟩, nofun, nofun⟩

theorem trim_eq_text_iff {cs : List Char} {n : GroupedNumeral} : trim cs = n.text ↔
    ∃ before after, cs = before ++ n.text ++ after ∧ (∀ c ∈ before, isBlank c = true) ∧
      ∀ c ∈ after, isBlank c = true := by
  rw [trim, trimBy_eq_iff]
  refine and_iff_left ⟨?_, ?_⟩
  · exact fun c hc => n.not_blank_of_mem (List.mem_of_head? hc)
  · exact fun c hc => n.not_blank_of_mem (List.mem_of_getLast? hc)

theorem isUnset_iff {raw : String} (h : s.text = some raw) : s.IsUnset ↔ trim raw.toList = [] := by
  rw [trim_eq_nil_iff, IsUnset, h]
  simp

theorem denotes_iff {raw : String} (h : s.text = some raw) : s.Denotes i ↔ toInt (trim raw.toList) = .ok i := by
  rw [toInt_trim_eq_ok_iff]
  constructor
  · rintro ⟨before, n, after, htext, hbefore, hafter, hvalue⟩
    have hraw : raw.toList = before ++ n.text ++ after := by
      rw [Option.some.inj (h.symm.trans htext), String.toList_ofList]
    exact ⟨n, trim_eq_text_iff.2 ⟨before, after, hraw, hbefore, hafter⟩, hvalue⟩
  · rintro ⟨n, htrim, hvalue⟩
    obtain ⟨before, after, hraw, hbefore, hafter⟩ := trim_eq_text_iff.1 htrim
    refine ⟨before, n, after, ?_, hbefore, hafter, hvalue⟩
    rw [h, ← hraw, String.ofList_toList]

/-! ## The three cases -/

theorem integer_of_unset (h : s.IsUnset) (default : Option ℤ) : s.integer default = .ok default := by
  obtain ⟨name, _ | raw⟩ := s
  · rfl
  · simp only [integer, (isUnset_iff rfl).1 h]

theorem integer_of_denotes (h : s.Denotes i) (default : Option ℤ) :
    s.integer default = if i < 0 then .error (.settingNegative s.name i) else .ok (some i) := by
  obtain ⟨name, _ | raw⟩ := s
  · obtain ⟨_, _, _, htext, -⟩ := h
    cases htext
  · have hread := (denotes_iff rfl).1 h
    -- What was read can be written, so the wording shows the integer and does not fail itself.
    have hreported : (Fault.settingNegative name i).reported = .settingNegative name i := by
      have hwritable : Value.allWritable (Fault.settingNegative name i).subjects = true := by
        simpa [Fault.subjects, Value.allWritable, Value.isWritable] using isWritable_of_toInt hread
      rw [Fault.reported, if_pos hwritable]
    rw [integer]
    dsimp only
    split
    · next htrim =>
        rw [htrim] at hread
        cases hread
    · simp only [hread, hreported]

theorem integer_of_neither (hset : ¬ s.IsUnset) (hnone : ∀ i, ¬ s.Denotes i) (default : Option ℤ) :
    ∃ raw ∈ s.text, s.integer default = .error (.settingNotInteger s.name raw) := by
  obtain ⟨name, _ | raw⟩ := s
  · exact absurd nofun hset
  · refine ⟨raw, rfl, ?_⟩
    rw [integer]
    dsimp only
    split
    · next htrim => exact absurd ((isUnset_iff rfl).2 htrim) hset
    · cases hread : toInt (trim raw.toList) with
      | error flaw => rfl
      | ok i => exact absurd ((denotes_iff rfl).2 hread) (hnone i)

/-- A text is refused since it denotes no integer, or a negative one. -/
inductive Refusal (s : Setting) : Fault → Prop
  | notInteger {raw : String} : raw ∈ s.text → (∀ i, ¬ s.Denotes i) → Refusal s (.settingNotInteger s.name raw)
  | negative {i : ℤ} : i < 0 → s.Denotes i → Refusal s (.settingNegative s.name i)

/-- The wording of a refusal starts with the name of the setting. -/
theorem Refusal.names {f : Fault} (h : s.Refusal f) : ∃ wording, f.message? = some (s.name ++ wording) := by
  cases h with
  | notInteger | negative => exact ⟨_, congrArg some (String.append_assoc ..)⟩

theorem exists_refusal (hset : ¬ s.IsUnset) (hnone : ¬ ∃ i, 0 ≤ i ∧ s.Denotes i) :
    ∃ f, s.Refusal f ∧ ∀ default, s.integer default = .error f := by
  by_cases hdenotes : ∃ i, s.Denotes i
  · obtain ⟨i, hi⟩ := hdenotes
    have hnegative : i < 0 := lt_of_not_ge fun hle => hnone ⟨i, hle, hi⟩
    exact ⟨_, .negative hnegative hi, fun default => by rw [integer_of_denotes hi, if_pos hnegative]⟩
  · have hneither : ∀ i, ¬ s.Denotes i := not_exists.1 hdenotes
    obtain ⟨raw, hraw, -⟩ := integer_of_neither hset hneither none
    refine ⟨_, .notInteger hraw hneither, ?_⟩
    intro default
    obtain ⟨text, htext, hresult⟩ := integer_of_neither hset hneither default
    rwa [Option.mem_unique htext hraw] at hresult

theorem integer_eq_ok_iff {default result : Option ℤ} : s.integer default = .ok result ↔
    s.IsUnset ∧ result = default ∨ ∃ i, 0 ≤ i ∧ s.Denotes i ∧ result = some i := by
  have hread {i : ℤ} (hi : 0 ≤ i) (h : s.Denotes i) : s.integer default = .ok (some i) := by
    rw [integer_of_denotes h, if_neg (not_lt.2 hi)]
  constructor
  · intro h
    by_cases hset : s.IsUnset
    · rw [integer_of_unset hset] at h
      exact .inl ⟨hset, (Except.ok.inj h).symm⟩
    · by_cases hdenotes : ∃ i, 0 ≤ i ∧ s.Denotes i
      · obtain ⟨i, hi, hdenotes⟩ := hdenotes
        rw [hread hi hdenotes] at h
        exact .inr ⟨i, hi, hdenotes, (Except.ok.inj h).symm⟩
      · obtain ⟨f, -, hf⟩ := exists_refusal hset hdenotes
        rw [hf] at h
        cases h
  · rintro (⟨hset, rfl⟩ | ⟨i, hi, hdenotes, rfl⟩)
    · exact integer_of_unset hset _
    · exact hread hi hdenotes

/-- The text of an integer denotes it between any blanks. -/
theorem denotes_ofInt (h : isWritable i = true) {before after : List Char} (hbefore : ∀ c ∈ before, isBlank c = true)
    (hafter : ∀ c ∈ after, isBlank c = true) (name : String) :
    Denotes ⟨name, some (String.ofList (before ++ ofInt i ++ after))⟩ i := by
  obtain ⟨n, htext, hvalue⟩ := GroupedNumeral.exists_text_eq_ofInt h
  refine ⟨before, n, after, ?_, hbefore, hafter, hvalue⟩
  rw [htext]

/-- A setting comes to its default if and only if it is unset, and to an integer if and only if its text denotes the
integer and the integer is not negative. Anything else is refused by name. A ceiling that is set is not negative, and
the text of such a number sets it, between any blanks. -/
theorem integer_reads_its_grammar (s : Setting) :
    ((∀ default, s.integer default = .ok default) ↔ s.IsUnset) ∧
    (∀ i, (∀ default, s.integer default = .ok (some i)) ↔ 0 ≤ i ∧ s.Denotes i) ∧
    (¬ s.IsUnset → (¬ ∃ i, 0 ≤ i ∧ s.Denotes i) →
      ∃ f wording, s.Refusal f ∧ f.message? = some (s.name ++ wording) ∧ ∀ default, s.integer default = .error f) ∧
    (∀ i, s.ceiling = .ok (some i) → 0 ≤ i) ∧
    ∀ (n : ℕ) (before after : List Char), (Nat.toDigits 10 n).length ≤ digitLimit →
      (∀ c ∈ before, isBlank c = true) → (∀ c ∈ after, isBlank c = true) →
      ∀ default, integer ⟨s.name, some (String.ofList (before ++ ofInt n ++ after))⟩ default = .ok (some (n : ℤ)) := by
  refine ⟨⟨fun h => ?_, integer_of_unset⟩, fun i => ⟨fun h => ?_, ?_⟩, ?_, ?_, ?_⟩
  · rcases integer_eq_ok_iff.1 (h none) with ⟨hset, -⟩ | ⟨i, -, -, hresult⟩
    · exact hset
    · cases hresult
  · rcases integer_eq_ok_iff.1 (h none) with ⟨-, hresult⟩ | ⟨j, hj, hdenotes, hresult⟩
    · cases hresult
    · obtain rfl := Option.some.inj hresult
      exact ⟨hj, hdenotes⟩
  · rintro ⟨hi, hdenotes⟩ default
    exact integer_eq_ok_iff.2 (.inr ⟨i, hi, hdenotes, rfl⟩)
  · intro hset hnone
    obtain ⟨f, hrefusal, hresult⟩ := exists_refusal hset hnone
    obtain ⟨wording, hwording⟩ := hrefusal.names
    exact ⟨f, wording, hrefusal, hwording, hresult⟩
  · intro i h
    rcases integer_eq_ok_iff.1 h with ⟨-, hresult⟩ | ⟨j, hj, -, hresult⟩
    · cases hresult
    · obtain rfl := Option.some.inj hresult
      exact hj
  · intro n before after hlength hbefore hafter default
    have hwritable : isWritable (n : ℤ) = true := isWritable_iff_length.2 hlength
    have hdenotes := denotes_ofInt hwritable hbefore hafter s.name
    exact integer_eq_ok_iff.2 (.inr ⟨n, Int.natCast_nonneg n, hdenotes, rfl⟩)

/-- Digits of two scripts with an underscore between them, a separator behind them, and two underscores in a row. -/
theorem integer_reads_its_grammar_mixed :
    integer ⟨"MAX_OPS", some " +1_2٣\x1c"⟩ none = .ok (some 123) ∧
      ∃ f wording, f.message? = some ("MAX_OPS" ++ wording) ∧ integer ⟨"MAX_OPS", some "1__2"⟩ none = .error f := by
  let n : GroupedNumeral := ⟨.plus, ['1', '_', '2', '٣'], by decide +kernel⟩
  have hsize : n.size ≤ digitLimit := by decide +kernel
  have hvalue : n.value = 123 := by decide +kernel
  have hdenotes : Denotes ⟨"MAX_OPS", some " +1_2٣\x1c"⟩ 123 :=
    ⟨[' '], n, ['\x1c'], rfl, List.forall_mem_singleton.2 rfl, List.forall_mem_singleton.2 rfl, hsize, hvalue⟩
  have hset : ¬ IsUnset ⟨"MAX_OPS", some "1__2"⟩ := by
    rw [isUnset_iff rfl]
    decide +kernel
  have hnone : ¬ ∃ i, 0 ≤ i ∧ Denotes ⟨"MAX_OPS", some "1__2"⟩ i := by
    have hmalformed : toInt (trim "1__2".toList) = .error .malformed := by decide +kernel
    rintro ⟨i, -, hi⟩
    rw [denotes_iff rfl, hmalformed] at hi
    cases hi
  obtain ⟨f, wording, -, hwording, hresult⟩ := (integer_reads_its_grammar _).2.2.1 hset hnone
  exact ⟨((integer_reads_its_grammar _).2.1 123).2 ⟨by decide, hdenotes⟩ none, f, wording, hwording, hresult none⟩

end RuleExpr.Setting
