/-
**Locks and keys are their composites.**

A lock or key is built of a ring and a domain or of a composite, and either way what does not fit is
dropped. The two ways meet in the 18 bits of the composite:

* `toNat_composite`: a composite is the ring's number above the domain's;
* `ofComposite_toUInt64`: a lock or key is found again in its composite;
* `toNat_toUInt64_ofComposite`: a composite that is split keeps its low 18 bits;
* `toNat_toUInt64_ofParts`: the composite of a ring and a domain, as a number;
* `composite_bijective`: any 18 bits are the composite of exactly one lock and of one key;
* `ofParts_eq_ofComposite_iff`: a ring and a domain make the same value as a composite exactly when
  they are what the composite is split into;
* `identified_by_composite`: all this for locks and keys alike.
-/

import Mathlib.Algebra.Group.Nat.Defs
import Mathlib.Logic.Function.Basic
import ControlWords.Access

namespace ControlWords.Access

section

variable {role : AccessRole}

/-- A composite is the ring's number above the domain's. -/
theorem toNat_composite (access : Access role) :
    access.composite.toNat = access.ring.toNat * 2 ^ 16 + access.domain.toNat := by
  have small : access.domain.toNat < 2 ^ 16 := access.domain.isLt
  show (access.ring ++ access.domain).toNat = _
  rw [BitVec.toNat_append, Nat.shiftLeft_eq, Nat.mul_comm,
    ← Nat.two_pow_add_eq_or_of_lt small]

/-- The composite of a value is its number. -/
theorem toNat_toUInt64 (access : Access role) :
    access.toUInt64.toNat = access.ring.toNat * 2 ^ 16 + access.domain.toNat := by
  have small : access.composite.toNat < 2 ^ 18 := access.composite.isLt
  rw [← toNat_composite, toUInt64, UInt64.toNat_ofBitVec, BitVec.toNat_setWidth]
  omega

/-- A composite is split into the ring and the domain that it is made of. -/
theorem ofComposite_toUInt64 (access : Access role) : ofComposite access.toUInt64 = access := by
  have number := access.toNat_toUInt64
  have narrow : access.ring.toNat < 2 ^ 2 := access.ring.isLt
  have small : access.domain.toNat < 2 ^ 16 := access.domain.isLt
  obtain ⟨ring, domain⟩ := access
  simp only [ofComposite, Access.mk.injEq]
  simp only at number narrow small
  constructor
  · apply BitVec.eq_of_toNat_eq
    rw [BitVec.extractLsb'_toNat, UInt64.toNat_toBitVec, number, Nat.shiftRight_eq_div_pow]
    omega
  · apply BitVec.eq_of_toNat_eq
    rw [BitVec.toNat_setWidth, UInt64.toNat_toBitVec, number]
    omega

/-- The high bits of a ring number are dropped. -/
theorem toNat_ring_ofParts (ring : UInt8) (domain : UInt16) :
    (ofParts ring domain : Access role).ring.toNat = ring.toNat % 2 ^ 2 := by
  rw [ofParts, BitVec.toNat_setWidth, UInt8.toNat_toBitVec]

/-- A composite that is split and joined again keeps its low 18 bits. -/
theorem toNat_toUInt64_ofComposite (composite : UInt64) :
    (ofComposite composite : Access role).toUInt64.toNat = composite.toNat % 2 ^ 18 := by
  rw [toNat_toUInt64]
  simp only [ofComposite, BitVec.extractLsb'_toNat, BitVec.toNat_setWidth,
    UInt64.toNat_toBitVec, Nat.shiftRight_eq_div_pow]
  omega

theorem toNat_composite_ofComposite (composite : UInt64) :
    (ofComposite composite : Access role).composite.toNat = composite.toNat % 2 ^ 18 := by
  rw [toNat_composite, ← toNat_toUInt64, toNat_toUInt64_ofComposite]

/-- The composite of a ring and a domain has the low two bits of the ring above the domain. -/
theorem toNat_toUInt64_ofParts (ring : UInt8) (domain : UInt16) :
    (ofParts ring domain : Access role).toUInt64.toNat =
      ring.toNat % 4 * 2 ^ 16 + domain.toNat := by
  rw [toNat_toUInt64, toNat_ring_ofParts]
  rfl

theorem toUInt64_injective : Function.Injective (toUInt64 : Access role → UInt64) :=
  Function.LeftInverse.injective ofComposite_toUInt64

/-- **Any 18 bits are the composite of exactly one value.** -/
theorem composite_bijective : Function.Bijective (composite : Access role → BitVec 18) := by
  constructor
  · intro first second same
    apply toUInt64_injective
    rw [toUInt64, toUInt64, same]
  · intro bits
    have number : (UInt64.ofNat bits.toNat).toNat = bits.toNat :=
      UInt64.toNat_ofNat_of_lt' (Nat.lt_of_lt_of_le bits.isLt (by decide))
    refine ⟨ofComposite (UInt64.ofNat bits.toNat), BitVec.eq_of_toNat_eq ?_⟩
    rw [toNat_composite_ofComposite, number, Nat.mod_eq_of_lt bits.isLt]

/-- **A ring and a domain make the value of a composite** exactly when it is split into them. -/
theorem ofParts_eq_ofComposite_iff {ring : UInt8} {domain : UInt16} {composite : UInt64} :
    (ofParts ring domain : Access role) = ofComposite composite ↔
      composite.toNat % 2 ^ 18 = ring.toNat % 4 * 2 ^ 16 + domain.toNat := by
  rw [← toUInt64_injective.eq_iff, ← UInt64.toNat_inj, toNat_toUInt64_ofParts,
    toNat_toUInt64_ofComposite]
  exact eq_comm

end

/-- Values of any two roles show the same. -/
structure Alike {role other : AccessRole} (first : Access role) (second : Access other) : Prop where
  ring : first.ring = second.ring
  domain : first.domain = second.domain
  composite : first.toUInt64 = second.toUInt64

/-- **Locks and keys are identified by their composites.** The composite of what is split from a
number is the low 18 bits of the number, and what is split from the composite of a ring and a domain
is the value of the ring and the domain. A ring and a domain make the value of a number exactly when
the low 18 bits of the number are the low two bits of the ring above the domain. Two values are
equal exactly when their composites are, and any 18 bits are the composite of one value. None of
this depends on the role: what is built of the same input as a lock and as a key shows the same. -/
theorem identified_by_composite (role : AccessRole) :
    (∀ composite : UInt64,
      (ofComposite composite : Access role).toUInt64.toNat = composite.toNat % 2 ^ 18) ∧
    (∀ (ring : UInt8) (domain : UInt16),
      ofComposite (ofParts ring domain : Access role).toUInt64 =
        (ofParts ring domain : Access role)) ∧
    (∀ (ring : UInt8) (domain : UInt16) (composite : UInt64),
      (ofParts ring domain : Access role) = ofComposite composite ↔
        composite.toNat % 2 ^ 18 = ring.toNat % 4 * 2 ^ 16 + domain.toNat) ∧
    (∀ first second : Access role, first = second ↔ first.toUInt64 = second.toUInt64) ∧
    Function.Bijective (composite : Access role → BitVec 18) ∧
    ∀ other : AccessRole,
      (∀ (ring : UInt8) (domain : UInt16),
        Alike (ofParts ring domain : Access role) (ofParts ring domain : Access other)) ∧
      ∀ composite : UInt64,
        Alike (ofComposite composite : Access role) (ofComposite composite : Access other) := by
  refine ⟨toNat_toUInt64_ofComposite, fun ring domain => ofComposite_toUInt64 _,
    fun ring domain composite => ofParts_eq_ofComposite_iff,
    fun first second => toUInt64_injective.eq_iff.symm, composite_bijective, fun other => ?_⟩
  exact ⟨fun _ _ => ⟨rfl, rfl, rfl⟩, fun _ => ⟨rfl, rfl, rfl⟩⟩

end ControlWords.Access
