import Mps.Land.Failover.Spec
import Mps.Land.Reference.Land

namespace Mps

variable {w : Nat} {σ τ : Type}

inductive FailoverOp (w : Nat)
  | insert (range : Range w)
  | insertSteal (range : Range w)
  | delete (rangeReturn range : Range w)
  | deleteSteal (range : Range w)
  | findFirst (size : Nat) (findDelete : FindDelete)
  | findLast (size : Nat) (findDelete : FindDelete)
  | findLargest (size : Nat) (findDelete : FindDelete)
  | findInZones (size zoneSet : Nat) (high : Bool)

section Run

variable (P : LandClass w σ) (S : LandClass w τ) (LandFlush : FlushMethod σ τ) (critical : Bool)
  (bP : σ → BlockSet w) (bS : τ → BlockSet w)

def failoverStep (fo : FailoverStruct σ τ) : FailoverOp w → Except String (FailoverStruct σ τ)
  | .insert r => pure (failoverInsert P S LandFlush fo r).2.2
  | .insertSteal r => (·.2.2.2) <$> failoverInsertSteal P LandFlush fo r
  | .delete rangeReturn r => (·.2.2) <$> failoverDelete P S LandFlush critical fo rangeReturn r
  | .deleteSteal r => (·.2.2) <$> failoverDeleteSteal P S LandFlush fo r
  | .findFirst size findDelete => pure (failoverFindFirst P S LandFlush fo size findDelete).2.2.2
  | .findLast size findDelete => pure (failoverFindLast P S LandFlush fo size findDelete).2.2.2
  | .findLargest size findDelete =>
      pure (failoverFindLargest P S LandFlush fo size findDelete).2.2.2
  | .findInZones size zoneSet high =>
      (·.2.2.2.2) <$> failoverFindInZones P S LandFlush critical fo size zoneSet high

-- The caller's discipline: a range is inserted only if none of it is free already.
def InsertsFresh (fo : FailoverStruct σ τ) : FailoverOp w → Prop
  | .insert r | .insertSteal r => Disjoint r.addrs (failoverFree bP bS fo)
  | _ => True

instance (fo : FailoverStruct σ τ) (op : FailoverOp w) : Decidable (InsertsFresh bP bS fo op) :=
  match op with
  | .insert r | .insertSteal r => inferInstanceAs (Decidable (Disjoint r.addrs _))
  | .delete .. | .deleteSteal .. | .findFirst .. | .findLast .. | .findLargest ..
  | .findInZones .. => isTrue trivial

inductive Reachable (init : FailoverStruct σ τ) : FailoverStruct σ τ → Prop
  | init : Reachable init init
  | step {fo fo' : FailoverStruct σ τ} {op : FailoverOp w} : Reachable init fo →
      InsertsFresh bP bS fo op → failoverStep P S LandFlush critical fo op = .ok fo' →
      Reachable init fo'

end Run

section Invariant

variable {P : LandClass w σ} {S : LandClass w τ} {LandFlush : FlushMethod σ τ} {critical : Bool}
  {bP : σ → BlockSet w} {bS : τ → BlockSet w}
  (hP : LandContract P bP) (hS : LandContract S bS) (hF : FlushMoves bP bS LandFlush)
include hP hS hF

theorem failoverStep_disjoint {fo fo' : FailoverStruct σ τ} {op : FailoverOp w}
    (hd : ChildrenDisjoint bP bS fo) (hfresh : InsertsFresh bP bS fo op)
    (h : failoverStep P S LandFlush critical fo op = .ok fo') : ChildrenDisjoint bP bS fo' := by
  unfold failoverStep at h
  cases op with
  | insert r =>
      cases h
      exact (failoverInsert_spec hP hS hF rfl).2.2 hd hfresh
  | insertSteal r =>
      obtain ⟨⟨res, ret, io, fo''⟩, hi, rfl⟩ := map_eq_ok.1 h
      exact (failoverInsertSteal_spec hP hF hi).2.2 hd hfresh
  | delete rangeReturn r =>
      obtain ⟨⟨res, old, fo''⟩, hi, rfl⟩ := map_eq_ok.1 h
      exact (failoverDelete_spec hP hS hF hd hi).2.2
  | deleteSteal r =>
      obtain ⟨⟨res, old, fo''⟩, hi, rfl⟩ := map_eq_ok.1 h
      exact (failoverDeleteSteal_spec hP hS hF hd hi).2.2
  | findFirst size findDelete =>
      cases h
      exact (failoverFind_spec hF hP.findFirst hS.findFirst hd rfl).2.2
  | findLast size findDelete =>
      cases h
      exact (failoverFind_spec hF hP.findLast hS.findLast hd rfl).2.2
  | findLargest size findDelete =>
      cases h
      exact (failoverFind_spec hF hP.findLargest hS.findLargest hd rfl).2.2
  | findInZones size zoneSet high =>
      obtain ⟨⟨res, found, range, old, fo''⟩, hi, rfl⟩ := map_eq_ok.1 h
      exact (failoverFindInZones_spec hP hS hF hd hi).2.2

theorem Reachable.disjoint {init fo : FailoverStruct σ τ} (hinit : ChildrenDisjoint bP bS init)
    (h : Reachable P S LandFlush critical bP bS init fo) : ChildrenDisjoint bP bS fo := by
  induction h with
  | init => exact hinit
  | step _ hfresh hstep ih => exact failoverStep_disjoint hP hS hF ih hfresh hstep

omit hF in
theorem failoverSize_eq_card {fo : FailoverStruct σ τ} (hd : ChildrenDisjoint bP bS fo) :
    failoverSize P S fo = (failoverFree bP bS fo).card ∧
      P.sizeMethod fo.primary + S.sizeMethod fo.secondary < 2 ^ w := by
  have hsum : P.sizeMethod fo.primary + S.sizeMethod fo.secondary =
      (failoverFree bP bS fo).card := by
    rw [hP.size, hS.size, BlockSet.size_eq_card, BlockSet.size_eq_card, failoverFree,
      Finset.card_union_of_disjoint hd]
  have hle : (failoverFree bP bS fo).card ≤ 2 ^ w - 1 := by
    simpa using Finset.card_le_card (Finset.union_subset (bP fo.primary).free_subset_range
      (bS fo.secondary).free_subset_range)
  have : 0 < 2 ^ w := Nat.two_pow_pos w
  refine ⟨?_, by omega⟩
  rw [failoverSize, hsum, Nat.mod_eq_of_lt (by omega)]

theorem reachable_size_counts_union {init fo : FailoverStruct σ τ}
    (hinit : ChildrenDisjoint bP bS init) (h : Reachable P S LandFlush critical bP bS init fo) :
    ChildrenDisjoint bP bS fo ∧ failoverSize P S fo = (failoverFree bP bS fo).card ∧
      P.sizeMethod fo.primary + S.sizeMethod fo.secondary < 2 ^ w :=
  have hd := h.disjoint hP hS hF hinit
  ⟨hd, failoverSize_eq_card hP hS hd⟩

end Invariant

-- A full primary: an insert spills into the secondary

section Scenario

def fullPrimary : FailoverStruct (RefState 8) (RefState 8) :=
  ⟨⟨BlockSet.empty, 0⟩, ⟨BlockSet.empty, 0⟩⟩

def range100 : Range 8 := ⟨100, 110, by decide, by decide⟩

def refPrimary : LandClass 8 (RefState 8) := refLand false fun _ => 0

def refSecondary : LandClass 8 (RefState 8) := refLand true fun _ => 0

def spilled : FailoverStruct (RefState 8) (RefState 8) :=
  (failoverInsert refPrimary refSecondary (refFlush false) fullPrimary range100).2.2

theorem spilled_reachable :
    Reachable refPrimary refSecondary (refFlush false) true RefState.blocks RefState.blocks
      fullPrimary spilled :=
  .step .init (show InsertsFresh RefState.blocks RefState.blocks fullPrimary (.insert range100) by
    decide) rfl

end Scenario

-- A primary with no free descriptor holding `[10, 20)`, and a secondary holding `[0, 5)`

section Exhausted

def exhaustedPrimary : RefState 8 :=
  ⟨⟨[⟨10, 20, by decide, by decide⟩], by decide, by decide⟩, 1⟩

def keptSecondary : RefState 8 :=
  ⟨⟨[⟨0, 5, by decide, by decide⟩], by decide, by decide⟩, 0⟩

def range3 : Range 8 := ⟨3, 10, by decide, by decide⟩

end Exhausted

theorem reachable_size_counts_union_spilled :
    ChildrenDisjoint RefState.blocks RefState.blocks fullPrimary ∧
      failoverSize refPrimary refSecondary spilled =
        (failoverFree RefState.blocks RefState.blocks spilled).card ∧
      refPrimary.sizeMethod spilled.primary + refSecondary.sizeMethod spilled.secondary < 2 ^ 8 :=
  ⟨by decide, (reachable_size_counts_union (refLand_contract false _) (refLand_contract true _)
    (refFlush_movesWhole false).moves (by decide) spilled_reachable).2⟩

end Mps
