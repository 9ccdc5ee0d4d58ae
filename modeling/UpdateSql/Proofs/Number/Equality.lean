/-
**Equality of floats.**

Floats are compared as numbers: a NaN is equal to nothing, the two zeros are equal, and all other
floats are equal to themselves alone.  So equality is symmetric and transitive, and only what is no
NaN is equal to itself.

Main results:

* `FloatEquality.unpacked_beq_iff`, `FloatEquality.beq_iff` — **which floats are equal**;
* `FloatEquality.symm`, `FloatEquality.trans`, `FloatEquality.beq_self_iff` — the laws of equality
  that hold of floats.
-/

import Mathlib

set_option relaxedAutoImplicit false
set_option autoImplicit false

namespace UpdateSql.FloatEquality

open Float.Model (UnpackedFloat)
open Float.Model.UnpackedFloat (Sign)

/-! ### Floats taken apart -/

/-- Finite floats are compared by sign, exponent and mantissa. -/
theorem finite_beq_finite {s t : Sign} {m m' : Nat} {e e' : Int} (hm : 0 < m) (hm' : 0 < m') :
    (UnpackedFloat.finite s m e hm).beq (.finite t m' e' hm') = true ↔
      s = t ∧ m = m' ∧ e = e' := by
  cases s <;> cases t <;>
    simp [UnpackedFloat.beq, UnpackedFloat.compare, and_comm]

theorem infinity_beq_infinity {s t : Sign} :
    (UnpackedFloat.infinity s).beq (.infinity t) = true ↔ s = t := by
  cases s <;> cases t <;> simp [UnpackedFloat.beq, UnpackedFloat.compare] <;> rfl

/-- **Two floats are equal exactly if both are zeros, or they are the same and no NaN.** -/
theorem unpacked_beq_iff {x y : UnpackedFloat} : x.beq y = true ↔
    (∃ s t, x = .zero s ∧ y = .zero t) ∨ x = y ∧ x.isNaN = false := by
  cases x with
  | notANumber => simp [UnpackedFloat.beq, UnpackedFloat.compare, UnpackedFloat.isNaN]
  | infinity s =>
      cases y with
      | infinity t => simp [infinity_beq_infinity, UnpackedFloat.isNaN]
      | _ => cases s <;> simp [UnpackedFloat.beq, UnpackedFloat.compare]
  | zero s =>
      cases y with
      | infinity t | finite t m e hm =>
          cases t <;> simp [UnpackedFloat.beq, UnpackedFloat.compare]
      | _ => simp [UnpackedFloat.beq, UnpackedFloat.compare]
  | finite s m e hm =>
      cases y with
      | finite t m' e' hm' => simp [finite_beq_finite, UnpackedFloat.isNaN]
      | infinity t => cases s <;> cases t <;> simp [UnpackedFloat.beq, UnpackedFloat.compare]
      | _ => cases s <;> simp [UnpackedFloat.beq, UnpackedFloat.compare]

/-! ### Floats -/

/-- **Two floats are equal exactly if both are zeros, or they are the same number and no NaN.** -/
theorem beq_iff {x y : Float} : (x == y) = true ↔
    (∃ s t, x.toModel.unpack = .zero s ∧ y.toModel.unpack = .zero t) ∨
      x.toModel.unpack = y.toModel.unpack ∧ x.isNaN = false :=
  unpacked_beq_iff

theorem symm {x y : Float} (h : (x == y) = true) : (y == x) = true := by
  rcases beq_iff.1 h with ⟨s, t, hx, hy⟩ | ⟨hxy, hx⟩
  · exact beq_iff.2 (.inl ⟨t, s, hy, hx⟩)
  · refine beq_iff.2 (.inr ⟨hxy.symm, ?_⟩)
    have hnan : y.isNaN = x.isNaN := congrArg UnpackedFloat.isNaN hxy.symm
    rw [hnan, hx]

theorem trans {x y z : Float} (hxy : (x == y) = true) (hyz : (y == z) = true) :
    (x == z) = true := by
  rcases beq_iff.1 hxy with ⟨s, t, hx, hy⟩ | ⟨hxy, hx⟩
  · rcases beq_iff.1 hyz with ⟨_, u, -, hz⟩ | ⟨hyz, -⟩
    · exact beq_iff.2 (.inl ⟨s, u, hx, hz⟩)
    · exact beq_iff.2 (.inl ⟨s, t, hx, hyz ▸ hy⟩)
  · rcases beq_iff.1 hyz with ⟨s, t, hy, hz⟩ | ⟨hyz, -⟩
    · exact beq_iff.2 (.inl ⟨s, t, hxy ▸ hy, hz⟩)
    · exact beq_iff.2 (.inr ⟨hxy.trans hyz, hx⟩)

/-- What is equal to itself is no NaN, and the other way round. -/
theorem beq_self_iff {x : Float} : (x == x) = true ↔ x.isNaN = false := by
  constructor
  · intro h
    rcases beq_iff.1 h with ⟨s, -, hx, -⟩ | ⟨-, hx⟩
    · have hnan : x.isNaN = (UnpackedFloat.zero s).isNaN := congrArg UnpackedFloat.isNaN hx
      exact hnan
    · exact hx
  · intro hx
    exact beq_iff.2 (.inr ⟨rfl, hx⟩)

end UpdateSql.FloatEquality
