import Mathlib.Data.BitVec

/-! Words written through a mask: the bits of the mask come from the new value
and the others stay. -/

namespace Mask

variable {w : Nat}

/-- `new` on the bits of `mask` and `old` elsewhere. -/
def merge (mask old new : BitVec w) : BitVec w :=
  (new &&& mask) ||| (old &&& ~~~mask)

def AgreeOff (mask left right : BitVec w) : Prop :=
  left &&& ~~~mask = right &&& ~~~mask

instance (mask left right : BitVec w) : Decidable (AgreeOff mask left right) :=
  inferInstanceAs (Decidable (_ = _))

theorem agreeOff_refl (mask word : BitVec w) : AgreeOff mask word word := rfl

theorem AgreeOff.symm {mask left right : BitVec w} (agree : AgreeOff mask left right) :
    AgreeOff mask right left := Eq.symm agree

theorem AgreeOff.trans {mask left middle right : BitVec w} (first : AgreeOff mask left middle)
    (second : AgreeOff mask middle right) : AgreeOff mask left right := Eq.trans first second

@[simp] theorem getElem_merge (mask old new : BitVec w) (i : Nat) (bound : i < w) :
    (merge mask old new)[i] = if mask[i] then new[i] else old[i] := by
  simp only [merge, BitVec.getElem_or, BitVec.getElem_and, BitVec.getElem_not]
  cases mask[i] <;> simp

theorem agreeOff_iff (mask left right : BitVec w) :
    AgreeOff mask left right ↔ ∀ i (bound : i < w), mask[i] = false → left[i] = right[i] := by
  constructor
  · intro agree i bound clear
    have bit := congrArg (fun word : BitVec w => word[i]) agree
    simpa [clear] using bit
  · intro bits
    apply BitVec.eq_of_getElem_eq
    intro i bound
    cases clear : mask[i]
    · simp [clear, bits i bound clear]
    · simp [clear]

theorem merge_agreeOff (mask old new : BitVec w) : AgreeOff mask (merge mask old new) old := by
  rw [agreeOff_iff]
  intro i bound clear
  simp [clear]

theorem merge_and (mask old new : BitVec w) : merge mask old new &&& mask = new &&& mask := by
  apply BitVec.eq_of_getElem_eq
  intro i bound
  cases through : mask[i] <;> simp [through]

theorem merge_congr (mask left right new : BitVec w) (agree : AgreeOff mask left right) :
    merge mask left new = merge mask right new := by
  unfold merge
  rw [agree]

@[simp] theorem merge_allOnes (old new : BitVec w) : merge (BitVec.allOnes w) old new = new := by
  simp [merge]

@[simp] theorem merge_self (mask word : BitVec w) : merge mask word word = word := by
  apply BitVec.eq_of_getElem_eq
  intro i bound
  simp

@[simp] theorem merge_zero (old new : BitVec w) : merge 0 old new = old := by
  simp [merge]

/-- A value that was merged before is let through where both masks let it. -/
theorem merge_merge (outer inner old new : BitVec w) :
    merge outer old (merge inner old new) = merge (inner &&& outer) old new := by
  apply BitVec.eq_of_getElem_eq
  intro i bound
  cases through : outer[i] <;> simp [through]

theorem merge_of_agree_on {inner outer old new : BitVec w} (on : old &&& inner = new &&& inner) :
    merge (inner &&& outer) old new = old := by
  apply BitVec.eq_of_getElem_eq
  intro i bound
  have bit := congrArg (fun word : BitVec w => word[i]) on
  cases through : inner[i]
  · simp [through]
  · simp only [BitVec.getElem_and, through, Bool.and_true] at bit
    simp [bit]

theorem merge_of_agreeOff {mask old new : BitVec w} (agree : AgreeOff mask old new) :
    merge mask old new = new := by
  rw [merge_congr mask old new new agree, merge_self]

theorem merge_and_agreeOff (inner outer old new : BitVec w) :
    AgreeOff outer (merge (inner &&& outer) old new) old := by
  rw [← merge_merge]
  exact merge_agreeOff outer old _

theorem AgreeOff.mono {small large left right : BitVec w} (below : small &&& ~~~large = 0)
    (agree : AgreeOff small left right) : AgreeOff large left right := by
  rw [agreeOff_iff] at agree ⊢
  intro i bound clear
  apply agree i bound
  have bit := congrArg (fun word : BitVec w => word[i]) below
  simpa [clear] using bit

theorem agreeOff_allOnes (left right : BitVec w) : AgreeOff (BitVec.allOnes w) left right := by
  simp [AgreeOff]

theorem eq_of_agreeOff_zero {left right : BitVec w} (agree : AgreeOff 0 left right) :
    left = right := by
  simpa [AgreeOff] using agree

end Mask
