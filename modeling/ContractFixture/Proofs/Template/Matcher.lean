import ContractFixture.Template.Matcher

/-! # Bounds and patterns of matchers -/

namespace ContractFixture.Matcher

/-! ## Repetitions -/

theorem toNat_max (a b : UInt64) : (Max.max a b).toNat = Max.max a.toNat b.toNat := by
  have cases : Max.max a b = if a ≤ b then b else a := rfl
  rw [cases]
  split
  · rename_i h
    exact (Nat.max_eq_right (UInt64.le_iff_toNat_le.mp h)).symm
  · rename_i h
    rw [UInt64.le_iff_toNat_le] at h
    omega

theorem toNat_min (a b : UInt64) : (Min.min a b).toNat = Min.min a.toNat b.toNat := by
  have cases : Min.min a b = if a ≤ b then a else b := rfl
  rw [cases]
  split
  · rename_i h
    exact (Nat.min_eq_left (UInt64.le_iff_toNat_le.mp h)).symm
  · rename_i h
    rw [UInt64.le_iff_toNat_le] at h
    omega

@[simp] theorem repetitions_zero (min : UInt64) : repetitions min 0 = min := rfl

@[simp] theorem repetitionRule_zero (min : UInt64) :
    repetitionRule min 0 = Rule.byType.withMin min := rfl

theorem repetitions_bounded {min max : UInt64} (h : max ≠ 0) :
    1 ≤ (repetitions min max).toNat ∧ (repetitions min max).toNat ≤ max.toNat := by
  have some : max.toNat ≠ 0 := fun none => h (UInt64.toNat_inj.mp none)
  have one : (1 : UInt64).toNat = 1 := rfl
  rw [repetitions, if_pos h, toNat_min, toNat_max, one]
  omega

/-! ## What a rule tells of its matcher -/

theorem min_rule_eq_some {m : Matcher} {bound : UInt64} (h : m.rule.min = some bound) :
    ∃ contents, m = .each contents bound 0 := by
  cases m with
  | each contents min max =>
    rw [rule, repetitionRule] at h
    split at h
    · simp [Rule.withMax, Rule.byType] at h
    · rename_i unbounded
      obtain rfl := Decidable.not_not.mp unbounded
      obtain rfl := Option.some.inj h
      exact ⟨contents, rfl⟩
  | _ => simp [rule, Rule.byType, Rule.byPattern] at h

theorem max_rule_eq_some {m : Matcher} {bound : UInt64} (h : m.rule.max = some bound) :
    bound ≠ 0 ∧ ∃ contents min, m = .each contents min bound := by
  cases m with
  | each contents min max =>
    rw [rule, repetitionRule] at h
    split at h
    · rename_i bounded
      obtain rfl := Option.some.inj h
      exact ⟨bounded, contents, min, rfl⟩
    · simp [Rule.withMin, Rule.byType] at h
  | _ => simp [rule, Rule.byType, Rule.byPattern] at h

theorem pattern_rule_eq_some {m : Matcher} {form : String} (h : m.rule.pattern = some form) :
    ∃ sample, m = .pattern sample form := by
  cases m with
  | pattern sample form =>
    obtain rfl := Option.some.inj h
    exact ⟨sample, rfl⟩
  | each contents min max =>
    rw [rule, repetitionRule] at h
    split at h <;> simp [Rule.withMin, Rule.withMax, Rule.byType] at h
  | _ => simp [rule, Rule.byType] at h

end ContractFixture.Matcher
