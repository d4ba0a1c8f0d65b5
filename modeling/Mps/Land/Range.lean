import Mps.Basic
import Mathlib.Order.Interval.Finset.Nat

namespace Mps

-- range.h is not in the source: a range `[base, limit)` as the spec describes it
structure Range (w : Nat) where
  base : Nat
  limit : Nat
  base_le_limit : base ≤ limit
  limit_lt : limit < 2 ^ w
  deriving DecidableEq, Repr

variable {w : Nat}

namespace Range

def addrs (r : Range w) : Finset Nat := Finset.Ico r.base r.limit

@[simp] theorem mem_addrs {r : Range w} {a : Nat} : a ∈ r.addrs ↔ r.base ≤ a ∧ a < r.limit :=
  Finset.mem_Ico

theorem base_lt_two_pow (r : Range w) : r.base < 2 ^ w :=
  Nat.lt_of_le_of_lt r.base_le_limit r.limit_lt

end Range

def RangeSize (r : Range w) : Nat := r.limit - r.base

def RangeIsEmpty (r : Range w) : Bool := r.base == r.limit

def RangesNest (outer inner : Range w) : Bool :=
  decide (outer.base ≤ inner.base ∧ inner.limit ≤ outer.limit)

def RangesEqual (a b : Range w) : Bool := decide (a.base = b.base ∧ a.limit = b.limit)

def RangeInit (base limit : Nat) (hlimit : limit < 2 ^ w) : Except String (Range w) :=
  if h : base ≤ limit then pure ⟨base, limit, h, hlimit⟩ else throw "base <= limit"

@[simp] theorem RangeIsEmpty_iff (r : Range w) : RangeIsEmpty r = true ↔ r.base = r.limit := by
  simp [RangeIsEmpty]

@[simp] theorem RangesNest_iff (outer inner : Range w) :
    RangesNest outer inner = true ↔ outer.base ≤ inner.base ∧ inner.limit ≤ outer.limit := by
  simp [RangesNest]

@[simp] theorem RangesEqual_iff (a b : Range w) : RangesEqual a b = true ↔ a = b := by
  cases a; cases b; simp [RangesEqual]

theorem RangeInit_of_le {base limit : Nat} (hlimit : limit < 2 ^ w) (h : base ≤ limit) :
    RangeInit base limit hlimit = pure ⟨base, limit, h, hlimit⟩ := by
  simp [RangeInit, h]

theorem RangesNest_trans {a b c : Range w} (hab : RangesNest a b = true)
    (hbc : RangesNest b c = true) : RangesNest a c = true := by
  simp only [RangesNest_iff] at *
  omega

theorem RangesNest_refl (a : Range w) : RangesNest a a = true := by
  simp

theorem addrs_subset_of_nest {outer inner : Range w} (h : RangesNest outer inner = true) :
    inner.addrs ⊆ outer.addrs := by
  intro a
  simp only [Range.mem_addrs]
  simp only [RangesNest_iff] at h
  omega

theorem RangeSize_le_of_nest {outer inner : Range w} (h : RangesNest outer inner = true) :
    RangeSize inner ≤ RangeSize outer := by
  simp only [RangesNest_iff] at h
  unfold RangeSize
  omega

theorem RangeIsEmpty_eq_false_iff (r : Range w) :
    RangeIsEmpty r = false ↔ r.base < r.limit := by
  have := r.base_le_limit
  rw [← Bool.not_eq_true, RangeIsEmpty_iff]
  omega

-- The addresses covered by a list of blocks
def freeOf (bs : List (Range w)) : Finset Nat := bs.foldr (fun b acc => b.addrs ∪ acc) ∅

@[simp] theorem freeOf_nil : freeOf ([] : List (Range w)) = ∅ := rfl

@[simp] theorem freeOf_cons (b : Range w) (bs : List (Range w)) :
    freeOf (b :: bs) = b.addrs ∪ freeOf bs := rfl

theorem mem_freeOf {bs : List (Range w)} {a : Nat} : a ∈ freeOf bs ↔ ∃ b ∈ bs, a ∈ b.addrs := by
  induction bs with
  | nil => simp
  | cons b bs ih => simp [ih]

@[simp] theorem freeOf_append (bs cs : List (Range w)) :
    freeOf (bs ++ cs) = freeOf bs ∪ freeOf cs := by
  induction bs with
  | nil => simp
  | cons b bs ih => simp [ih, Finset.union_assoc]

theorem freeOf_perm {bs cs : List (Range w)} (h : bs.Perm cs) : freeOf bs = freeOf cs := by
  ext a
  simp only [mem_freeOf, h.mem_iff]

theorem subset_freeOf {bs : List (Range w)} {b : Range w} (hb : b ∈ bs) : b.addrs ⊆ freeOf bs :=
  fun _ ha => mem_freeOf.2 ⟨b, hb, ha⟩

theorem disjoint_freeOf {b : Range w} {cs : List (Range w)}
    (h : ∀ c ∈ cs, Disjoint b.addrs c.addrs) : Disjoint b.addrs (freeOf cs) := by
  rw [Finset.disjoint_left]
  intro a ha hc
  obtain ⟨c, hc, hac⟩ := mem_freeOf.1 hc
  exact Finset.disjoint_left.1 (h c hc) ha hac

theorem disjoint_freeOf_of_pairwise {bs cs : List (Range w)}
    (h : (bs ++ cs).Pairwise fun a b => Disjoint a.addrs b.addrs) :
    Disjoint (freeOf bs) (freeOf cs) := by
  rw [List.pairwise_append] at h
  rw [Finset.disjoint_left]
  intro a ha hc
  obtain ⟨b, hb, hab⟩ := mem_freeOf.1 ha
  obtain ⟨c, hc, hac⟩ := mem_freeOf.1 hc
  exact Finset.disjoint_left.1 (h.2.2 b hb c hc) hab hac

def blocksSize (bs : List (Range w)) : Nat := bs.foldr (fun b acc => RangeSize b + acc) 0

@[simp] theorem blocksSize_cons (b : Range w) (bs : List (Range w)) :
    blocksSize (b :: bs) = RangeSize b + blocksSize bs := rfl

theorem blocksSize_append (bs cs : List (Range w)) :
    blocksSize (bs ++ cs) = blocksSize bs + blocksSize cs := by
  induction bs with
  | nil => exact (Nat.zero_add _).symm
  | cons b bs ih => rw [List.cons_append, blocksSize_cons, blocksSize_cons, ih, Nat.add_assoc]

theorem card_freeOf {bs : List (Range w)}
    (h : bs.Pairwise fun a b => Disjoint a.addrs b.addrs) : (freeOf bs).card = blocksSize bs := by
  induction bs with
  | nil => rfl
  | cons b bs ih =>
      rw [List.pairwise_cons] at h
      rw [freeOf_cons, Finset.card_union_of_disjoint (disjoint_freeOf h.1), ih h.2,
        blocksSize_cons]
      simp [Range.addrs, RangeSize]

theorem countP_mem_addrs {bs : List (Range w)}
    (h : bs.Pairwise fun a b => Disjoint a.addrs b.addrs) (a : Nat) :
    bs.countP (fun b => a ∈ b.addrs) = if a ∈ freeOf bs then 1 else 0 := by
  induction bs with
  | nil => rfl
  | cons b bs ih =>
      rw [List.pairwise_cons] at h
      rw [List.countP_cons, ih h.2, freeOf_cons]
      by_cases hb : a ∈ b.addrs
      · have : a ∉ freeOf bs := Finset.disjoint_left.1 (disjoint_freeOf h.1) hb
        simp [hb, this]
      · by_cases hs : a ∈ freeOf bs <;> simp [hb, hs]

-- The contents of a land: disjoint non-empty blocks
structure BlockSet (w : Nat) where
  blocks : List (Range w)
  nonempty : ∀ b ∈ blocks, b.base < b.limit
  disjoint : blocks.Pairwise fun a b => Disjoint a.addrs b.addrs

namespace BlockSet

def empty : BlockSet w := ⟨[], by simp, List.Pairwise.nil⟩

def free (B : BlockSet w) : Finset Nat := freeOf B.blocks

def size (B : BlockSet w) : Nat := blocksSize B.blocks

theorem mem_free {B : BlockSet w} {a : Nat} : a ∈ B.free ↔ ∃ b ∈ B.blocks, a ∈ b.addrs :=
  mem_freeOf

theorem size_eq_card (B : BlockSet w) : B.size = B.free.card :=
  (card_freeOf B.disjoint).symm

theorem free_subset_range (B : BlockSet w) : B.free ⊆ Finset.range (2 ^ w - 1) := by
  intro a ha
  obtain ⟨b, -, hab⟩ := mem_free.1 ha
  simp only [Range.mem_addrs] at hab
  have := b.limit_lt
  simp only [Finset.mem_range]
  omega

theorem disjoint_of_ne {B : BlockSet w} {b c : Range w} (hb : b ∈ B.blocks) (hc : c ∈ B.blocks)
    (hne : b ≠ c) : Disjoint b.addrs c.addrs :=
  B.disjoint.forall (fun _ _ h => h.symm) hb hc hne

theorem nodup (B : BlockSet w) : B.blocks.Nodup :=
  B.disjoint.imp_of_mem fun {b _} hb _ hd heq => by
    subst heq
    have hne := B.nonempty b hb
    have : b.addrs = ∅ := Finset.disjoint_self_iff_empty _ |>.1 hd
    simp only [Range.addrs, Finset.Ico_eq_empty_iff, not_lt] at this
    omega

theorem eq_of_nest {B : BlockSet w} {b c r : Range w} (hb : b ∈ B.blocks) (hc : c ∈ B.blocks)
    (hr : r.base < r.limit) (hbr : RangesNest b r = true) (hcr : RangesNest c r = true) :
    b = c := by
  by_contra hne
  have hmem : r.base ∈ r.addrs := by simp [hr]
  exact Finset.disjoint_left.1 (disjoint_of_ne hb hc hne) (addrs_subset_of_nest hbr hmem)
    (addrs_subset_of_nest hcr hmem)

end BlockSet

end Mps
