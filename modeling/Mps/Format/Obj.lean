import Mps.Basic
import Mathlib.Data.BitVec
import Mathlib.Data.Nat.Bitwise
import Mathlib.Logic.Function.Basic

namespace Mps

def TYPE_REF : Nat := 0

def TYPE_FWD : Nat := 1

def TYPE_PAD : Nat := 2

-- `obj_s`: the type, then the union `u`
structure ObjS (w : Nat) where
  type : Nat
  u : BitVec w
  deriving DecidableEq, Repr

def Heap (w : Nat) : Type := BitVec w → ObjS w

-- `sizeof(obj_s)` is `2 ^ alignLog`, below `2 ^ w`
structure Platform (w : Nat) where
  alignLog : Nat
  alignLog_lt : alignLog < w

def smallPlatform : Platform 8 := ⟨2, by decide⟩

variable {w : Nat}

section Format

variable (F : Platform w)

def ALIGNMENT : BitVec w := BitVec.ofNat w (2 ^ F.alignLog)

-- Align up `a` to a multiple of `b`.
def ALIGN_UP (a b : BitVec w) : BitVec w := (a + b - 1) &&& ~~~(b - 1)

def NULL : BitVec w := 0

def objFwd (mem : Heap w) (old new : BitVec w) : Heap w :=
  Function.update mem old ⟨TYPE_FWD, new⟩

def objIsfwd (mem : Heap w) (addr : BitVec w) : BitVec w :=
  if (mem addr).type = TYPE_FWD then (mem addr).u else NULL

def objPad (mem : Heap w) (addr size : BitVec w) : Heap w :=
  Function.update mem addr ⟨TYPE_PAD, size⟩

def objSkip (mem : Heap w) (addr : BitVec w) : BitVec w :=
  let size := if (mem addr).type = TYPE_PAD then (mem addr).u else ALIGNMENT F
  addr + ALIGN_UP size (ALIGNMENT F)

end Format

theorem and_two_pow_sub_two_pow {v k : Nat} (hv : v < 2 ^ w) (hk : k ≤ w) :
    v &&& (2 ^ w - 2 ^ k) = v / 2 ^ k * 2 ^ k := by
  have hmask : 2 ^ w - 2 ^ k = 2 ^ k * (2 ^ (w - k) - 1) := by
    rw [Nat.mul_sub, Nat.mul_one, ← Nat.pow_add, Nat.add_sub_cancel' hk]
  apply Nat.eq_of_testBit_eq
  intro i
  rw [Nat.testBit_and, hmask, Nat.testBit_mul_pow_two, Nat.testBit_two_pow_sub_one,
    Nat.mul_comm, Nat.testBit_mul_pow_two, ← Nat.shiftRight_eq_div_pow, Nat.testBit_shiftRight]
  by_cases hik : k ≤ i
  · have hbit : k + (i - k) = i := Nat.add_sub_cancel' hik
    by_cases hiw : i < w
    · simp [hik, hbit, show i - k < w - k by omega]
    · have : v.testBit i = false :=
        Nat.testBit_lt_two_pow (lt_of_lt_of_le hv (Nat.pow_le_pow_right (by decide) (by omega)))
      simp [hik, hbit, this]
  · simp [hik]

section Align

variable (F : Platform w)

theorem two_pow_alignLog_lt : 2 ^ F.alignLog < 2 ^ w :=
  Nat.pow_lt_pow_right (by decide) F.alignLog_lt

@[simp] theorem ALIGNMENT_toNat : (ALIGNMENT F).toNat = 2 ^ F.alignLog := by
  simp [ALIGNMENT, Nat.mod_eq_of_lt (two_pow_alignLog_lt F)]

theorem ALIGNMENT_sub_one_toNat : (ALIGNMENT F - 1).toNat = 2 ^ F.alignLog - 1 := by
  have hpos : 0 < 2 ^ F.alignLog := Nat.two_pow_pos _
  have hone : (1 : BitVec w).toNat = 1 := by
    show (BitVec.ofNat w 1).toNat = 1
    rw [BitVec.toNat_ofNat, Nat.mod_eq_of_lt (by have := two_pow_alignLog_lt F; omega)]
  rw [BitVec.toNat_sub_of_le (by rw [BitVec.le_def, ALIGNMENT_toNat, hone]; exact hpos),
    ALIGNMENT_toNat, hone]

theorem ALIGN_UP_toNat_eq (x : BitVec w) :
    (ALIGN_UP x (ALIGNMENT F)).toNat =
      (x + ALIGNMENT F - 1).toNat / 2 ^ F.alignLog * 2 ^ F.alignLog := by
  have hpos : 0 < 2 ^ F.alignLog := Nat.two_pow_pos _
  rw [ALIGN_UP, BitVec.toNat_and, BitVec.toNat_not, ALIGNMENT_sub_one_toNat,
    show 2 ^ w - 1 - (2 ^ F.alignLog - 1) = 2 ^ w - 2 ^ F.alignLog by omega,
    and_two_pow_sub_two_pow (BitVec.isLt _) F.alignLog_lt.le]

theorem ALIGN_UP_toNat {x : BitVec w} (hx : x.toNat + 2 ^ F.alignLog - 1 < 2 ^ w) :
    (ALIGN_UP x (ALIGNMENT F)).toNat =
      (x.toNat + 2 ^ F.alignLog - 1) / 2 ^ F.alignLog * 2 ^ F.alignLog := by
  have hpos : 0 < 2 ^ F.alignLog := Nat.two_pow_pos _
  rw [ALIGN_UP_toNat_eq, add_sub_assoc, BitVec.toNat_add_of_lt (by rw [ALIGNMENT_sub_one_toNat]; omega),
    ALIGNMENT_sub_one_toNat, Nat.add_sub_assoc hpos]

theorem add_align_lt_of_dvd {x : BitVec w} (hx : 2 ^ F.alignLog ∣ x.toNat) :
    x.toNat + 2 ^ F.alignLog - 1 < 2 ^ w := by
  obtain ⟨j, hj⟩ := hx
  have hw : 2 ^ w = 2 ^ F.alignLog * 2 ^ (w - F.alignLog) := by
    rw [← Nat.pow_add, Nat.add_sub_cancel' F.alignLog_lt.le]
  have hjlt : j < 2 ^ (w - F.alignLog) := by
    have := x.isLt
    rw [hj, hw] at this
    exact Nat.lt_of_mul_lt_mul_left this
  have : 2 ^ F.alignLog * (j + 1) ≤ 2 ^ w := hw ▸ Nat.mul_le_mul_left _ hjlt
  rw [Nat.mul_add, Nat.mul_one] at this
  have hpos : 0 < 2 ^ F.alignLog := Nat.two_pow_pos _
  omega

theorem ALIGN_UP_of_dvd {x : BitVec w} (hx : 2 ^ F.alignLog ∣ x.toNat) :
    ALIGN_UP x (ALIGNMENT F) = x := by
  apply BitVec.eq_of_toNat_eq
  rw [ALIGN_UP_toNat F (add_align_lt_of_dvd F hx)]
  obtain ⟨j, hj⟩ := hx
  have hpos : 0 < 2 ^ F.alignLog := Nat.two_pow_pos _
  rw [hj, Nat.add_sub_assoc hpos, Nat.mul_add_div hpos, Nat.div_eq_of_lt (by omega),
    Nat.add_zero, Nat.mul_comm]

-- `ALIGN_UP x ALIGNMENT` is the least multiple of `ALIGNMENT` at or above `x`.
theorem ALIGN_UP_least {x : BitVec w} (hx : x.toNat + 2 ^ F.alignLog - 1 < 2 ^ w) :
    2 ^ F.alignLog ∣ (ALIGN_UP x (ALIGNMENT F)).toNat ∧
      x.toNat ≤ (ALIGN_UP x (ALIGNMENT F)).toNat ∧
      ∀ m, 2 ^ F.alignLog ∣ m → x.toNat ≤ m → (ALIGN_UP x (ALIGNMENT F)).toNat ≤ m := by
  rw [ALIGN_UP_toNat F hx]
  have hpos : 0 < 2 ^ F.alignLog := Nat.two_pow_pos _
  refine ⟨Nat.dvd_mul_left _ _, ?_, fun m ⟨j, hj⟩ hm => ?_⟩
  · have := Nat.lt_div_mul_add (a := x.toNat + 2 ^ F.alignLog - 1) hpos
    omega
  · subst hj
    have hq : (x.toNat + 2 ^ F.alignLog - 1) / 2 ^ F.alignLog < j + 1 := by
      rw [Nat.div_lt_iff_lt_mul hpos, Nat.add_mul, Nat.one_mul, Nat.mul_comm]
      omega
    rw [Nat.mul_comm _ j]
    exact Nat.mul_le_mul_right _ (by omega)

end Align

section Laws

variable (F : Platform w)

@[simp] theorem objPad_self (mem : Heap w) (addr size : BitVec w) :
    objPad mem addr size addr = ⟨TYPE_PAD, size⟩ :=
  Function.update_same _ _ _

@[simp] theorem objFwd_self (mem : Heap w) (old new : BitVec w) :
    objFwd mem old new old = ⟨TYPE_FWD, new⟩ :=
  Function.update_same _ _ _

theorem objSkip_of_ne_pad {mem : Heap w} {addr : BitVec w} (h : (mem addr).type ≠ TYPE_PAD) :
    objSkip F mem addr = addr + ALIGNMENT F := by
  rw [objSkip, if_neg h, ALIGN_UP_of_dvd F (by simp)]

theorem objSkip_of_pad {mem : Heap w} {addr : BitVec w} (h : (mem addr).type = TYPE_PAD)
    (hsize : 2 ^ F.alignLog ∣ (mem addr).u.toNat) : objSkip F mem addr = addr + (mem addr).u := by
  rw [objSkip, if_pos h, ALIGN_UP_of_dvd F hsize]

theorem objPad_read (mem : Heap w) (addr size : BitVec w)
    (hsize : (ALIGNMENT F).toNat ∣ size.toNat) :
    objSkip F (objPad mem addr size) addr = addr + size ∧
      objIsfwd (objPad mem addr size) addr = NULL :=
  ⟨(objSkip_of_pad F (by simp) (by simpa using hsize)).trans (by simp),
    by simp [objIsfwd, TYPE_PAD, TYPE_FWD]⟩

theorem objFwd_read (mem : Heap w) (old new : BitVec w) (href : (mem old).type = TYPE_REF) :
    objIsfwd (objFwd mem old new) old = new ∧
      objSkip F (objFwd mem old new) old = objSkip F mem old ∧
      objSkip F mem old = old + ALIGNMENT F := by
  have hne : (mem old).type ≠ TYPE_PAD := by rw [href]; decide
  refine ⟨by simp [objIsfwd], ?_, objSkip_of_ne_pad F hne⟩
  rw [objSkip_of_ne_pad F (by simp [TYPE_FWD, TYPE_PAD]), objSkip_of_ne_pad F hne]

theorem objFormat_laws :
    (∀ (mem : Heap w) (addr size : BitVec w), (ALIGNMENT F).toNat ∣ size.toNat →
      objSkip F (objPad mem addr size) addr = addr + size ∧
        objIsfwd (objPad mem addr size) addr = NULL) ∧
    (∀ (mem : Heap w) (old new : BitVec w), (mem old).type = TYPE_REF →
      objIsfwd (objFwd mem old new) old = new ∧
        objSkip F (objFwd mem old new) old = objSkip F mem old ∧
        objSkip F mem old = old + ALIGNMENT F) ∧
    (∀ x : BitVec w, x.toNat + (ALIGNMENT F).toNat - 1 < 2 ^ w →
      (ALIGNMENT F).toNat ∣ (ALIGN_UP x (ALIGNMENT F)).toNat ∧
        x.toNat ≤ (ALIGN_UP x (ALIGNMENT F)).toNat ∧
        ∀ m, (ALIGNMENT F).toNat ∣ m → x.toNat ≤ m → (ALIGN_UP x (ALIGNMENT F)).toNat ≤ m) :=
  ⟨objPad_read F, objFwd_read F, fun _ hx => by simpa using ALIGN_UP_least F (by simpa using hx)⟩

end Laws

end Mps
