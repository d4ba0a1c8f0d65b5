import Mps.Land.Range

namespace Mps

inductive FindDelete
  | NONE
  | LOW
  | HIGH
  | ENTIRE
  deriving DecidableEq, Repr

variable {w : Nat}

-- Iteration stops after the first visit that answers `false`.
def iterateBlocks {γ : Type} (visitor : Range w → γ → Bool × γ) :
    List (Range w) → γ → Bool × γ
  | [], closure => (true, closure)
  | b :: bs, closure =>
      match visitor b closure with
      | (true, closure) => iterateBlocks visitor bs closure
      | (false, closure) => (false, closure)

@[simp] theorem iterateBlocks_nil {γ : Type} (visitor : Range w → γ → Bool × γ) (closure : γ) :
    iterateBlocks visitor [] closure = (true, closure) := rfl

theorem iterateBlocks_append {γ : Type} (visitor : Range w → γ → Bool × γ)
    (bs cs : List (Range w)) (closure : γ) :
    iterateBlocks visitor (bs ++ cs) closure =
      match iterateBlocks visitor bs closure with
      | (true, closure) => iterateBlocks visitor cs closure
      | (false, closure) => (false, closure) := by
  induction bs generalizing closure with
  | nil => rfl
  | cons b bs ih =>
      simp only [List.cons_append, iterateBlocks]
      rcases visitor b closure with ⟨_ | _, closure⟩
      · rfl
      · exact ih closure

-- The child methods the failover calls: result code, out-parameters, then the new state
structure LandClass (w : Nat) (σ : Type) : Type 1 where
  sizeMethod : σ → Nat
  insert : σ → Range w → Res × Range w × σ
  insertSteal : σ → Range w → Res × Range w × Range w × σ
  delete : σ → Range w → Res × Range w × σ
  deleteSteal : σ → Range w → Res × Range w × σ
  iterate : {γ : Type} → σ → (Range w → γ → Bool × γ) → γ → Bool × γ
  findFirst : σ → Nat → FindDelete → Bool × Range w × Range w × σ
  findLast : σ → Nat → FindDelete → Bool × Range w × Range w × σ
  findLargest : σ → Nat → FindDelete → Bool × Range w × Range w × σ
  findInZones : σ → Nat → Nat → Bool → Res × Bool × Range w × Range w × σ

def Inserted (F F' : Finset Nat) (r ret : Range w) : Prop :=
  F' = F ∪ r.addrs ∧ RangesNest ret r = true ∧ ret.addrs ⊆ F'

def Deleted (F F' : Finset Nat) (r old : Range w) : Prop :=
  RangesNest old r = true ∧ old.addrs ⊆ F ∧ F' = F \ r.addrs

def Found (F F' : Finset Nat) (size : Nat) (findDelete : FindDelete) (range old : Range w) :
    Prop :=
  size ≤ RangeSize old ∧ RangesNest old range = true ∧ old.addrs ⊆ F ∧
    F' = if findDelete = .NONE then F else F \ range.addrs

section Lift

variable {F F' G : Finset Nat}

private theorem union_sdiff_of_disjoint {X : Finset Nat} (hX : X ⊆ F) (hd : Disjoint F G) :
    (F ∪ G) \ X = F \ X ∪ G := by
  rw [Finset.union_sdiff_distrib, Finset.sdiff_eq_self_of_disjoint
    (Finset.disjoint_of_subset_right hX hd.symm)]

theorem subset_union_sdiff_right {X : Finset Nat} (hX : X ⊆ F) (hd : Disjoint F G)
    (h : F' ⊆ F \ X) : F' ∪ G ⊆ (F ∪ G) \ X := by
  rw [union_sdiff_of_disjoint hX hd]
  exact Finset.union_subset_union_left h

theorem subset_union_sdiff_left {X : Finset Nat} (hX : X ⊆ F) (hd : Disjoint G F)
    (h : F' ⊆ F \ X) : G ∪ F' ⊆ (G ∪ F) \ X := by
  rw [Finset.union_comm G, Finset.union_comm G]
  exact subset_union_sdiff_right hX hd.symm h

theorem Inserted.union_right {r ret : Range w} (h : Inserted F F' r ret) :
    Inserted (F ∪ G) (F' ∪ G) r ret := by
  obtain ⟨rfl, hn, hs⟩ := h
  exact ⟨Finset.union_right_comm _ _ _, hn, hs.trans Finset.subset_union_left⟩

theorem Inserted.union_left {r ret : Range w} (h : Inserted F F' r ret) :
    Inserted (G ∪ F) (G ∪ F') r ret := by
  obtain ⟨rfl, hn, hs⟩ := h
  exact ⟨(Finset.union_assoc _ _ _).symm, hn, hs.trans Finset.subset_union_right⟩

theorem Deleted.union_right {r old : Range w} (h : Deleted F F' r old) (hd : Disjoint F G) :
    Deleted (F ∪ G) (F' ∪ G) r old := by
  obtain ⟨hn, hs, rfl⟩ := h
  exact ⟨hn, hs.trans Finset.subset_union_left,
    (union_sdiff_of_disjoint ((addrs_subset_of_nest hn).trans hs) hd).symm⟩

theorem Deleted.union_left {r old : Range w} (h : Deleted F F' r old) (hd : Disjoint G F) :
    Deleted (G ∪ F) (G ∪ F') r old := by
  have h' := h.union_right hd.symm
  rwa [Finset.union_comm F, Finset.union_comm F'] at h'

theorem Found.union_right {size : Nat} {findDelete : FindDelete} {range old : Range w}
    (h : Found F F' size findDelete range old) (hd : Disjoint F G) :
    Found (F ∪ G) (F' ∪ G) size findDelete range old := by
  obtain ⟨hsize, hn, hs, rfl⟩ := h
  refine ⟨hsize, hn, hs.trans Finset.subset_union_left, ?_⟩
  split_ifs
  · rfl
  · exact (union_sdiff_of_disjoint ((addrs_subset_of_nest hn).trans hs) hd).symm

theorem Found.union_left {size : Nat} {findDelete : FindDelete} {range old : Range w}
    (h : Found F F' size findDelete range old) (hd : Disjoint G F) :
    Found (G ∪ F) (G ∪ F') size findDelete range old := by
  have h' := h.union_right hd.symm
  rwa [Finset.union_comm F, Finset.union_comm F'] at h'

theorem Inserted.subset {r ret : Range w} (h : Inserted F F' r ret) : F' ⊆ F ∪ r.addrs :=
  h.1.le

theorem Deleted.subset {r old : Range w} (h : Deleted F F' r old) : F' ⊆ F :=
  h.2.2 ▸ Finset.sdiff_subset

theorem Found.subset {size : Nat} {findDelete : FindDelete} {range old : Range w}
    (h : Found F F' size findDelete range old) : F' ⊆ F := by
  rw [h.2.2.2]
  split_ifs
  · exact Finset.Subset.refl F
  · exact Finset.sdiff_subset

end Lift

section Contract

variable {σ : Type}

structure FindContract (blocks : σ → BlockSet w)
    (find : σ → Nat → FindDelete → Bool × Range w × Range w × σ) : Prop where
  found : ∀ {s size findDelete range old s'}, find s size findDelete = (true, range, old, s') →
    old ∈ (blocks s).blocks ∧ Found (blocks s).free (blocks s').free size findDelete range old
  not_found : ∀ {s size findDelete range old s'}, find s size findDelete = (false, range, old, s') →
    blocks s' = blocks s

-- The land contract, read through the blocks each state of the land holds
structure LandContract (L : LandClass w σ) (blocks : σ → BlockSet w) : Prop where
  size : ∀ s, L.sizeMethod s = (blocks s).size
  insert_ok : ∀ {s r ret s'}, L.insert s r = (.ok, ret, s') →
    Inserted (blocks s).free (blocks s').free r ret
  insert_ne : ∀ {s r res ret s'}, L.insert s r = (res, ret, s') → res ≠ .ok → blocks s' = blocks s
  insertSteal_ok : ∀ {s r ret io s'}, L.insertSteal s r = (.ok, ret, io, s') →
    RangesNest r io = true ∧ Inserted (blocks s).free (blocks s').free io ret
  insertSteal_ne : ∀ {s r res ret io s'}, L.insertSteal s r = (res, ret, io, s') → res ≠ .ok →
    blocks s' = blocks s
  delete_ok : ∀ {s r old s'}, L.delete s r = (.ok, old, s') →
    old ∈ (blocks s).blocks ∧ Deleted (blocks s).free (blocks s').free r old
  delete_allocFailure : ∀ {s r old s'}, L.delete s r = (.allocFailure, old, s') →
    old ∈ (blocks s).blocks ∧ RangesNest old r = true
  delete_ne : ∀ {s r res old s'}, L.delete s r = (res, old, s') → res ≠ .ok → blocks s' = blocks s
  deleteSteal_ok : ∀ {s r old s'}, L.deleteSteal s r = (.ok, old, s') →
    old ∈ (blocks s).blocks ∧ RangesNest old r = true ∧
      (blocks s').free ⊆ (blocks s).free \ r.addrs
  deleteSteal_ne : ∀ {s r res old s'}, L.deleteSteal s r = (res, old, s') → res ≠ .ok →
    blocks s' = blocks s
  iterate : ∀ {γ : Type} s (visitor : Range w → γ → Bool × γ) closure,
    L.iterate s visitor closure = iterateBlocks visitor (blocks s).blocks closure
  findFirst : FindContract blocks L.findFirst
  findLast : FindContract blocks L.findLast
  findLargest : FindContract blocks L.findLargest
  findInZones_found : ∀ {s size zoneSet high range old s'},
    L.findInZones s size zoneSet high = (.ok, true, range, old, s') →
      old ∈ (blocks s).blocks ∧ Deleted (blocks s).free (blocks s').free range old
  findInZones_ne : ∀ {s size zoneSet high res found range old s'},
    L.findInZones s size zoneSet high = (res, found, range, old, s') →
      (res ≠ .ok ∨ found = false) → blocks s' = blocks s

namespace LandContract

variable {L : LandClass w σ} {blocks : σ → BlockSet w} (hL : LandContract L blocks)
  {s s' : σ} {r ret old io : Range w} {res : Res}
include hL

theorem insert_subset (he : L.insert s r = (res, ret, s')) :
    (blocks s').free ⊆ (blocks s).free ∪ r.addrs := by
  by_cases hok : res = .ok
  · subst hok
    exact (hL.insert_ok he).subset
  · rw [hL.insert_ne he hok]
    exact Finset.subset_union_left

theorem insertSteal_subset (he : L.insertSteal s r = (res, ret, io, s')) :
    (blocks s').free ⊆ (blocks s).free ∪ r.addrs := by
  by_cases hok : res = .ok
  · subst hok
    obtain ⟨hn, hi⟩ := hL.insertSteal_ok he
    exact hi.subset.trans (Finset.union_subset_union_right (addrs_subset_of_nest hn))
  · rw [hL.insertSteal_ne he hok]
    exact Finset.subset_union_left

theorem delete_subset (he : L.delete s r = (res, old, s')) : (blocks s').free ⊆ (blocks s).free := by
  by_cases hok : res = .ok
  · subst hok
    exact (hL.delete_ok he).2.subset
  · rw [hL.delete_ne he hok]

theorem deleteSteal_subset (he : L.deleteSteal s r = (res, old, s')) :
    (blocks s').free ⊆ (blocks s).free := by
  by_cases hok : res = .ok
  · subst hok
    exact (hL.deleteSteal_ok he).2.2.trans Finset.sdiff_subset
  · rw [hL.deleteSteal_ne he hok]

theorem findInZones_subset {size zoneSet : Nat} {high found : Bool}
    (he : L.findInZones s size zoneSet high = (res, found, ret, old, s')) :
    (blocks s').free ⊆ (blocks s).free := by
  by_cases hok : res = .ok ∧ found = true
  · obtain ⟨rfl, rfl⟩ := hok
    exact (hL.findInZones_found he).2.subset
  · rw [hL.findInZones_ne he (by cases found <;> simp_all)]

end LandContract

theorem FindContract.subset {blocks : σ → BlockSet w}
    {find : σ → Nat → FindDelete → Bool × Range w × Range w × σ} (hf : FindContract blocks find)
    {s s' : σ} {size : Nat} {findDelete : FindDelete} {found : Bool} {range old : Range w}
    (he : find s size findDelete = (found, range, old, s')) : (blocks s').free ⊆ (blocks s).free := by
  cases found
  · rw [hf.not_found he]
  · exact (hf.found he).2.subset

def FindComplete (blocks : σ → BlockSet w)
    (find : σ → Nat → FindDelete → Bool × Range w × Range w × σ) : Prop :=
  ∀ s size findDelete, (find s size findDelete).1 = false →
    ∀ b ∈ (blocks s).blocks, RangeSize b < size

def InsertNeverFails (L : LandClass w σ) (blocks : σ → BlockSet w) : Prop :=
  ∀ s (r : Range w), r.base < r.limit → Disjoint r.addrs (blocks s).free → (L.insert s r).1 = .ok

-- A land answers `fail` to an insert exactly when the range overlaps its free addresses.
def InsertFailsOnOverlap (L : LandClass w σ) (blocks : σ → BlockSet w) : Prop :=
  ∀ s r, (L.insert s r).1 = .fail ↔ ¬Disjoint r.addrs (blocks s).free

def InsertFailsOnlyOnOverlap (L : LandClass w σ) (blocks : σ → BlockSet w) : Prop :=
  ∀ s (r : Range w), Disjoint r.addrs (blocks s).free → (L.insert s r).1 ≠ .fail

theorem InsertFailsOnOverlap.only {L : LandClass w σ} {blocks : σ → BlockSet w}
    (h : InsertFailsOnOverlap L blocks) : InsertFailsOnlyOnOverlap L blocks :=
  fun s r hr hfail => (h s r).1 hfail hr

def FlushMethod (σ τ : Type) : Type := σ → τ → Bool × σ × τ

def FlushMoves {τ : Type} (blocksP : σ → BlockSet w) (blocksS : τ → BlockSet w)
    (flush : FlushMethod σ τ) : Prop :=
  ∀ p s, ∃ moved : List (Range w),
    ((blocksS (flush p s).2.2).blocks ++ moved).Perm (blocksS s).blocks ∧
      (blocksP (flush p s).2.1).free = (blocksP p).free ∪ freeOf moved

-- The result codes the recovery path of `failoverDelete` relies on
structure ExactResults (L : LandClass w σ) (blocks : σ → BlockSet w) : Prop where
  insert_res : ∀ s r, (L.insert s r).1 = .ok ∨ (L.insert s r).1 = .fail ∨
    (L.insert s r).1 = .allocFailure
  insert_fail : InsertFailsOnOverlap L blocks
  delete_res : ∀ s r, (L.delete s r).1 = .ok ∨ (L.delete s r).1 = .fail ∨
    (L.delete s r).1 = .allocFailure
  delete_fail : ∀ s r, (L.delete s r).1 = .fail ↔ ¬∃ b ∈ (blocks s).blocks, RangesNest b r = true

def DeleteBlockNeverFails (L : LandClass w σ) (blocks : σ → BlockSet w) : Prop :=
  ∀ s b, b ∈ (blocks s).blocks → (L.delete s b).1 = .ok

def DeleteNeverFails (L : LandClass w σ) (blocks : σ → BlockSet w) : Prop :=
  ∀ s (r b : Range w), r.base < r.limit → b ∈ (blocks s).blocks → RangesNest b r = true →
    (L.delete s r).1 = .ok

-- A flush that moves whole blocks only
def FlushMovesWhole {τ : Type} (blocksP : σ → BlockSet w) (blocksS : τ → BlockSet w)
    (flush : FlushMethod σ τ) : Prop :=
  ∀ p s, ∃ moved : List (Range w),
    ((blocksS (flush p s).2.2).blocks ++ moved).Perm (blocksS s).blocks ∧
      (blocksP (flush p s).2.1).free = (blocksP p).free ∪ freeOf moved ∧
      ∀ b ∈ (blocksP p).blocks ++ moved, ∃ b' ∈ (blocksP (flush p s).2.1).blocks,
        RangesNest b' b = true

theorem FlushMovesWhole.moves {τ : Type} {blocksP : σ → BlockSet w} {blocksS : τ → BlockSet w}
    {flush : FlushMethod σ τ} (h : FlushMovesWhole blocksP blocksS flush) :
    FlushMoves blocksP blocksS flush := fun p s =>
  let ⟨moved, hperm, hfree, _⟩ := h p s
  ⟨moved, hperm, hfree⟩

end Contract

end Mps
