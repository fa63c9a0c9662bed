import Mathlib
import RuleExpr.Proofs.Scope.Merge

/-!
# Scopes and their history

Frames enter and leave a scope on one side only. So a frame remains in the scope as long as, since it was pushed, frames
have not been taken more often than pushed, and a name is looked up in the frame pushed last among those that remain and
bind it (`lookup_follows_history`).
-/
namespace RuleExpr.Scope

/-- What may happen to the frames of a scope. -/
inductive Change where
  | push (f : Frame)
  | pop
deriving DecidableEq, Repr

/-- The scope after a change. Where there is no frame to take, nothing changes. -/
def after (s : Scope) : Change → Scope
  | .push f => s.push f
  | .pop =>
    match s.pop with
    | .ok (_, rest) => rest
    | .error _ => s

def afterAll (s : Scope) (changes : List Change) : Scope := changes.foldl after s

/-- How many frames a change adds. -/
def Change.gain : Change → ℤ
  | push _ => 1
  | pop => -1

/-- How many more frames are pushed than taken. -/
def gain (changes : List Change) : ℤ := (changes.map Change.gain).sum

/-- At no time have more frames been taken than pushed. -/
def Standing (changes : List Change) : Prop := ∀ front, front <+: changes → 0 ≤ gain front

instance : DecidablePred Standing := fun changes =>
  decidable_of_iff (∀ front ∈ changes.inits, 0 ≤ gain front) (by simp only [List.mem_inits, Standing])

/-- Every frame that is taken was pushed before, and every frame that is pushed is taken. -/
structure Balanced (changes : List Change) : Prop where
  standing : Standing changes
  gain_eq : gain changes = 0

/-- The innermost frame is taken at some time, by a pop behind changes that balance. -/
def Taken (changes : List Change) : Prop := ∃ inner rest, changes = inner ++ .pop :: rest ∧ Balanced inner

/-- The frame was pushed, and what happened since has not taken it. -/
structure Remains (history : List Change) (f : Frame) (since : List Change) : Prop where
  pushed : .push f :: since <:+ history
  not_taken : ¬ Taken since

variable {s : Scope} {changes history since later : List Change} {c : Change} {f g : Frame} {name : String}

/-! ## Counting -/

theorem gain_append (earlier later : List Change) : gain (earlier ++ later) = gain earlier + gain later := by
  rw [gain, List.map_append, List.sum_append, gain, gain]

theorem gain_concat (changes : List Change) (c : Change) : gain (changes ++ [c]) = gain changes + c.gain := by
  rw [gain_append]
  simp [gain]

theorem gain_push (f : Frame) (changes : List Change) : gain (.push f :: changes) = 1 + gain changes := by
  simp [gain, Change.gain]

theorem Standing.gain_nonneg (h : Standing changes) : 0 ≤ gain changes := h changes List.prefix_rfl

theorem standing_nil : Standing [] := by
  intro front hfront
  rw [List.prefix_nil.1 hfront]
  rfl

theorem Standing.front (h : Standing (history ++ since)) : Standing history :=
  fun front hfront => h front (hfront.trans (List.prefix_append history since))

theorem standing_concat : Standing (changes ++ [c]) ↔ Standing changes ∧ 0 ≤ gain (changes ++ [c]) := by
  constructor
  · exact fun h => ⟨h.front, h.gain_nonneg⟩
  · rintro ⟨h, hlast⟩ front hfront
    rcases List.prefix_concat_iff.1 hfront with rfl | hearlier
    · exact hlast
    · exact h front hearlier

/-- The innermost frame is taken if and only if more frames are taken than pushed at some time. -/
theorem not_taken_iff : ¬ Taken changes ↔ Standing changes := by
  constructor
  · intro h
    induction changes using List.reverseRecOn with
    | nil => exact standing_nil
    | append_singleton changes c ih =>
        have hfront : Standing changes := by
          apply ih
          rintro ⟨inner, rest, rfl, hinner⟩
          exact h ⟨inner, rest ++ [c], List.append_assoc .., hinner⟩
        refine standing_concat.2 ⟨hfront, ?_⟩
        rw [gain_concat]
        -- Only a pop behind as many pops as pushes makes the count negative, and it would take the frame.
        cases c with
        | push f => exact Int.le_add_one hfront.gain_nonneg
        | pop =>
            have hopen : gain changes ≠ 0 := fun hzero => h ⟨changes, [], rfl, hfront, hzero⟩
            have hnonneg := hfront.gain_nonneg
            rw [Change.gain]
            omega
  · rintro h ⟨inner, rest, rfl, hinner⟩
    rw [← List.singleton_append, ← List.append_assoc] at h
    have hpop := h.front.gain_nonneg
    rw [gain_concat, hinner.gain_eq] at hpop
    cases hpop

theorem Remains.standing (h : Remains history f since) : Standing since := not_taken_iff.1 h.not_taken

theorem afterAll_concat (s : Scope) (changes : List Change) (c : Change) :
    s.afterAll (changes ++ [c]) = (s.afterAll changes).after c :=
  List.foldl_concat after s c changes

theorem frames_after_pop (s : Scope) : (s.after .pop).frames = s.frames.tail := by
  obtain ⟨_ | ⟨f, frames⟩⟩ := s <;> rfl

/-- As long as no more frames are taken than pushed, the frames that were there before stay below the others. -/
theorem frames_afterAll (h : Standing changes) (s : Scope) :
    ∃ upper, (s.afterAll changes).frames = upper ++ s.frames ∧ (upper.length : ℤ) = gain changes := by
  induction changes using List.reverseRecOn with
  | nil => exact ⟨[], rfl, rfl⟩
  | append_singleton changes c ih =>
      obtain ⟨hfront, hlast⟩ := standing_concat.1 h
      obtain ⟨upper, hframes, hlength⟩ := ih hfront
      rw [gain_concat] at hlast ⊢
      rw [afterAll_concat]
      cases c with
      | push f =>
          refine ⟨f :: upper, ?_, ?_⟩
          · rw [List.cons_append, ← hframes]
            rfl
          · rw [List.length_cons, Nat.cast_succ, hlength]
            rfl
      | pop =>
          rw [Change.gain] at hlast ⊢
          -- There is a frame above to take, since the count stays above zero.
          cases upper with
          | nil =>
              rw [List.length_nil] at hlength
              omega
          | cons u upper =>
              rw [List.length_cons] at hlength
              refine ⟨upper, ?_, by omega⟩
              rw [frames_after_pop, hframes]
              rfl

theorem afterAll_of_balanced (h : Balanced changes) (s : Scope) : s.afterAll changes = s := by
  obtain ⟨upper, hframes, hlength⟩ := frames_afterAll h.standing s
  rw [h.gain_eq, Int.natCast_eq_zero, List.length_eq_zero_iff] at hlength
  rw [hlength, List.nil_append] at hframes
  exact congrArg Scope.mk hframes

/-! ## Frames that remain -/

theorem remains_concat : Remains (history ++ [c]) f since ↔
    since = [] ∧ c = .push f ∨
      ∃ earlier, since = earlier ++ [c] ∧ Remains history f earlier ∧ 0 ≤ gain earlier + c.gain := by
  constructor
  · intro h
    rcases List.suffix_concat_iff.1 h.pushed with hnil | ⟨front, hfront, hhistory⟩
    · cases hnil
    · rcases List.cons_eq_append_iff.1 hfront with ⟨-, hlast⟩ | ⟨earlier, rfl, rfl⟩
      · obtain ⟨hc, hnil⟩ := List.cons_eq_cons.1 hlast
        exact .inl ⟨hnil.symm, hc⟩
      · obtain ⟨hearlier, hlast⟩ := standing_concat.1 h.standing
        rw [gain_concat] at hlast
        exact .inr ⟨earlier, rfl, ⟨hhistory, not_taken_iff.2 hearlier⟩, hlast⟩
  · rintro (⟨rfl, rfl⟩ | ⟨earlier, rfl, h, hlast⟩)
    · exact ⟨List.suffix_append history _, not_taken_iff.2 standing_nil⟩
    · rw [← gain_concat] at hlast
      refine ⟨List.suffix_concat_iff.2 (.inr ⟨_, rfl, h.pushed⟩), not_taken_iff.2 ?_⟩
      exact standing_concat.2 ⟨h.standing, hlast⟩

theorem remains_push : Remains (history ++ [.push g]) f since ↔
    since = [] ∧ g = f ∨ ∃ earlier, since = earlier ++ [.push g] ∧ Remains history f earlier := by
  rw [remains_concat, Change.push.injEq]
  refine or_congr_right (exists_congr fun earlier => and_congr_right fun _ => and_iff_left_of_imp fun h => ?_)
  exact Int.le_add_one h.standing.gain_nonneg

theorem remains_pop : Remains (history ++ [.pop]) f since ↔
    ∃ earlier, since = earlier ++ [.pop] ∧ Remains history f earlier ∧ 0 < gain earlier := by
  rw [remains_concat, or_iff_right (by rintro ⟨-, hpop⟩; cases hpop)]
  refine exists_congr fun earlier => and_congr_right fun _ => and_congr_right fun _ => ?_
  rw [Change.gain]
  omega

/-- The frames of a scope are those that remain, and above each of them stand as many as were gained since. -/
theorem getElem?_frames_iff {i : ℕ} : (afterAll ⟨[]⟩ history).frames[i]? = some f ↔
    ∃ since, Remains history f since ∧ gain since = i := by
  -- The last change moves every frame by one place, up or down, and the count since each frame with it.
  induction history using List.reverseRecOn generalizing i with
  | nil =>
      refine iff_of_false nofun ?_
      rintro ⟨since, ⟨hpushed, -⟩, -⟩
      exact List.cons_ne_nil _ _ (List.suffix_nil.1 hpushed)
  | append_singleton history c ih =>
      rw [afterAll_concat]
      cases c with
      | push g =>
          have hframes : ((afterAll ⟨[]⟩ history).after (.push g)).frames = g :: (afterAll ⟨[]⟩ history).frames := rfl
          simp only [hframes, remains_push]
          cases i with
          | zero =>
              rw [List.getElem?_cons_zero, Option.some.injEq]
              constructor
              · exact fun h => ⟨[], .inl ⟨rfl, h⟩, rfl⟩
              · rintro ⟨since, ⟨rfl, h⟩ | ⟨earlier, rfl, hremains⟩, hgain⟩
                · exact h
                · have hnonneg := hremains.standing.gain_nonneg
                  rw [gain_concat, Change.gain] at hgain
                  omega
          | succ i =>
              rw [List.getElem?_cons_succ, ih]
              constructor
              · rintro ⟨since, hremains, hgain⟩
                refine ⟨since ++ [.push g], .inr ⟨since, rfl, hremains⟩, ?_⟩
                rw [gain_concat, hgain]
                rfl
              · rintro ⟨since, ⟨rfl, -⟩ | ⟨earlier, rfl, hremains⟩, hgain⟩
                · cases hgain
                · rw [gain_concat, Change.gain] at hgain
                  exact ⟨earlier, hremains, by omega⟩
      | pop =>
          simp only [frames_after_pop, List.getElem?_tail, ih, remains_pop]
          constructor
          · rintro ⟨since, hremains, hgain⟩
            refine ⟨since ++ [.pop], ⟨since, rfl, hremains, by omega⟩, ?_⟩
            rw [gain_concat, Change.gain]
            omega
          · rintro ⟨since, ⟨earlier, rfl, hremains, -⟩, hgain⟩
            rw [gain_concat, Change.gain] at hgain
            exact ⟨earlier, hremains, by omega⟩

theorem mem_frames_iff : f ∈ (afterAll ⟨[]⟩ history).frames ↔ ∃ since, Remains history f since := by
  rw [List.mem_iff_getElem?]
  simp only [getElem?_frames_iff]
  constructor
  · rintro ⟨i, since, hremains, -⟩
    exact ⟨since, hremains⟩
  · rintro ⟨since, hremains⟩
    exact ⟨(gain since).toNat, since, hremains, (Int.toNat_of_nonneg hremains.standing.gain_nonneg).symm⟩

/-- Of two frames that remain, the one that was pushed later stands above the other. -/
theorem Remains.gain_lt (hf : Remains history f since) (hg : Remains history g later)
    (h : later.length < since.length) : gain later < gain since := by
  have hsuffix : .push g :: later <:+ .push f :: since :=
    List.suffix_of_suffix_length_le hg.pushed hf.pushed (Nat.succ_le_succ h.le)
  rcases List.suffix_cons_iff.1 hsuffix with heq | ⟨between, rfl⟩
  · rw [(List.cons_eq_cons.1 heq).2] at h
    exact absurd h (lt_irrefl _)
  · have hbetween := hf.standing.front.gain_nonneg
    rw [gain_append, gain_push]
    omega

theorem Remains.gain_lt_iff (hf : Remains history f since) (hg : Remains history g later) :
    gain later < gain since ↔ later.length < since.length := by
  refine ⟨fun h => ?_, hf.gain_lt hg⟩
  rcases lt_trichotomy later.length since.length with hless | heq | hgreater
  · exact hless
  · have hsuffix := List.suffix_of_suffix_length_le hg.pushed hf.pushed (Nat.succ_le_succ heq.le)
    have hsame := hsuffix.eq_of_length (congrArg Nat.succ heq)
    rw [(List.cons_eq_cons.1 hsame).2] at h
    exact absurd h (lt_irrefl _)
  · exact absurd (hg.gain_lt hf hgreater) h.not_gt

/-! ## Lookup -/

/-- The frame that is found is the last one pushed of those that remain and bind the name. -/
theorem find?_eq_some_iff : (afterAll ⟨[]⟩ history).find? name = some f ↔
    ∃ since, Remains history f since ∧ f.binds name = true ∧
      ∀ g later, Remains history g later → g.binds name = true → since.length ≤ later.length := by
  rw [find?, List.find?_eq_some_iff_getElem]
  constructor
  · rintro ⟨hbinds, i, hi, hget, habove⟩
    obtain ⟨since, hremains, hgain⟩ := getElem?_frames_iff.1 (List.getElem?_eq_some_iff.2 ⟨hi, hget⟩)
    refine ⟨since, hremains, hbinds, ?_⟩
    intro g later hlater hg
    by_contra hless
    have hbelow := hremains.gain_lt hlater (not_le.1 hless)
    obtain ⟨j, hj⟩ := Int.eq_ofNat_of_zero_le hlater.standing.gain_nonneg
    obtain ⟨hbound, hitem⟩ := List.getElem?_eq_some_iff.1 (getElem?_frames_iff.2 ⟨later, hlater, hj⟩)
    have hplain := habove j (by omega)
    rw [hitem, hg] at hplain
    cases hplain
  · rintro ⟨since, hremains, hbinds, hlast⟩
    obtain ⟨i, hi⟩ := Int.eq_ofNat_of_zero_le hremains.standing.gain_nonneg
    obtain ⟨hbound, hitem⟩ := List.getElem?_eq_some_iff.1 (getElem?_frames_iff.2 ⟨since, hremains, hi⟩)
    refine ⟨hbinds, i, hbound, hitem, ?_⟩
    intro j hj
    obtain ⟨later, hlater, hgain⟩ := getElem?_frames_iff.1 (List.getElem?_eq_getElem (hj.trans hbound))
    have hless := (hremains.gain_lt_iff hlater).1 (by omega)
    rw [Bool.not_eq_true', Bool.eq_false_iff]
    exact fun hg => absurd (hlast _ later hlater hg) (not_le.2 hless)

theorem find?_eq_none_iff : (afterAll ⟨[]⟩ history).find? name = none ↔
    ∀ f since, Remains history f since → f.binds name = false := by
  rw [find?, List.find?_eq_none]
  simp only [mem_frames_iff, Bool.not_eq_true, forall_exists_index]

theorem lookup?_eq_none_iff : s.lookup? name = none ↔ s.find? name = none := by
  rw [← Option.not_isSome_iff_eq_none, ← contains_eq, contains, Option.not_isSome_iff_eq_none]

theorem resolve_eq_ok_iff {v : Value} :
    s.resolve name = .ok v ↔ ∃ f, s.find? name = some f ∧ f.lookup? name = some v := by
  rw [← Option.bind_eq_some_iff, ← lookup?, resolve]
  cases s.lookup? name with
  | none => exact iff_of_false nofun nofun
  | some w => rw [Except.ok.injEq, Option.some.injEq]

theorem resolve_eq_error_iff {fault : Fault} :
    s.resolve name = .error fault ↔ s.find? name = none ∧ fault = .undefinedName (.text name) := by
  rw [← lookup?_eq_none_iff, resolve]
  cases s.lookup? name with
  | none => rw [Except.error.injEq, eq_comm, and_iff_right rfl]
  | some w => exact iff_of_false nofun nofun

theorem contains_iff : s.contains name = true ↔ ∃ v, s.resolve name = .ok v := by
  rw [contains_eq, Option.isSome_iff_exists]
  simp only [resolve_eq_ok_iff, ← Option.bind_eq_some_iff, lookup?]

/-! ## Any beginning -/

theorem afterAll_append (s : Scope) (earlier later : List Change) :
    s.afterAll (earlier ++ later) = (s.afterAll earlier).afterAll later :=
  List.foldl_append

theorem afterAll_pushes (frames : List Frame) : afterAll ⟨[]⟩ (frames.map .push) = ofFrames frames := by
  induction frames using List.reverseRecOn with
  | nil => rfl
  | append_singleton frames f ih =>
      rw [List.map_append, List.map_singleton, afterAll_concat, ih, ofFrames, ofFrames, List.reverse_concat']
      rfl

/-- After any changes, a name is found in the frame pushed last of those that remain and bind it, whatever the value is,
and in none if and only if no frame that remains binds it. The name has the value of that frame, and is undefined if
there is no such frame. Changes that balance leave the scope as it was, and so does taking a frame where there is none,
which is a fault. -/
theorem lookup_follows_history (frames : List Frame) (changes : List Change) (name : String) :
    let s := (ofFrames frames).afterAll changes
    let history := frames.map .push ++ changes
    (∀ f, s.find? name = some f ↔
      ∃ since, Remains history f since ∧ f.binds name = true ∧
        ∀ g later, Remains history g later → g.binds name = true → since.length ≤ later.length) ∧
    (s.find? name = none ↔ ∀ f since, Remains history f since → f.binds name = false) ∧
    (∀ v, s.resolve name = .ok v ↔ ∃ f, s.find? name = some f ∧ f.lookup? name = some v) ∧
    (∀ fault, s.resolve name = .error fault ↔ s.find? name = none ∧ fault = .undefinedName (.text name)) ∧
    (s.contains name = true ↔ ∃ v, s.resolve name = .ok v) ∧
    (∀ more, Balanced more → s.afterAll more = s) ∧
    (s.frames = [] → s.pop = .error .noFrame ∧ s.after .pop = s ∧
      ∀ m : Machine, m.scope = s → Eval.leave m = (.error (.fault .noFrame), m)) := by
  intro s history
  have hs : s = afterAll ⟨[]⟩ history := by rw [afterAll_append, afterAll_pushes]
  refine ⟨?_, ?_, fun _ => resolve_eq_ok_iff, fun _ => resolve_eq_error_iff, contains_iff,
    fun more h => afterAll_of_balanced h s, ?_⟩
  · intro f
    rw [hs, find?_eq_some_iff]
  · rw [hs, find?_eq_none_iff]
  · intro hnone
    have hempty : s = ⟨[]⟩ := congrArg Scope.mk hnone
    rw [hempty]
    refine ⟨rfl, rfl, ?_⟩
    intro m hm
    rw [Eval.leave, hm]
    rfl

/-- A name bound to nil hides the binding below it, which shows again once the frame is taken. -/
theorem lookup_follows_history_nil :
    let outer : Frame := ⟨[("a", .int 1)]⟩
    let inner : Frame := ⟨[("a", .nil)]⟩
    let s := (ofFrames [outer]).afterAll [.push inner, .push ⟨[]⟩, .pop]
    s.find? "a" = some inner ∧ s.resolve "a" = .ok .nil ∧ s.contains "a" = true ∧
      s.afterAll [.push outer, .pop] = s ∧ (s.after .pop).resolve "a" = .ok (.int 1) := by
  intro outer inner s
  obtain ⟨-, -, hresolve, -, hcontains, hbalanced, -⟩ :=
    lookup_follows_history [outer] [.push inner, .push ⟨[]⟩, .pop] "a"
  obtain ⟨-, -, houter, -⟩ := lookup_follows_history [outer] [.push inner, .push ⟨[]⟩, .pop, .pop] "a"
  have hfind : s.find? "a" = some inner := by decide
  have hnil : s.resolve "a" = .ok .nil := (hresolve .nil).2 ⟨inner, hfind, rfl⟩
  have hmore : Balanced [.push outer, .pop] := ⟨by decide, by decide⟩
  exact ⟨hfind, hnil, hcontains.2 ⟨.nil, hnil⟩, hbalanced _ hmore, (houter (.int 1)).2 ⟨outer, by decide, rfl⟩⟩

end RuleExpr.Scope
