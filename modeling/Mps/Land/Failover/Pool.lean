import Mps.Land.Failover.Exhaustion
import Mps.Land.Failover.Refinement

namespace Mps

variable {w : Nat} {σ τ : Type}

section RoundTrip

variable {P : LandClass w σ} {S : LandClass w τ} {LandFlush : FlushMethod σ τ}
  {bP : σ → BlockSet w} {bS : τ → BlockSet w}
  (hP : LandContract P bP) (hS : LandContract S bS) (hPo : InsertFailsOnlyOnOverlap P bP)
  (hSi : InsertNeverFails S bS) (hF : FlushMoves bP bS LandFlush)
include hP hS hPo hSi hF

theorem failoverInsert_restores {fo₁ : FailoverStruct σ τ} {r : Range w} {F : Finset Nat}
    (hd₁ : ChildrenDisjoint bP bS fo₁) (hsub : r.addrs ⊆ F)
    (hF₁ : failoverFree bP bS fo₁ = F \ r.addrs) :
    failoverFree bP bS (failoverInsert P S LandFlush fo₁ r).2.2 = F ∧
      ChildrenDisjoint bP bS (failoverInsert P S LandFlush fo₁ r).2.2 ∧
      (r.base < r.limit → (failoverInsert P S LandFlush fo₁ r).1 = .ok) := by
  have hfresh : Disjoint r.addrs (failoverFree bP bS fo₁) := hF₁ ▸ Finset.disjoint_sdiff
  have hok : r.base < r.limit → (failoverInsert P S LandFlush fo₁ r).1 = .ok :=
    fun hr => failoverInsert_fresh_ok hPo hSi hF hr hfresh
  rcases hins : failoverInsert P S LandFlush fo₁ r with ⟨res, ret, fo₂⟩
  rw [hins] at hok
  obtain ⟨hinserted, hkept, hdisj⟩ := failoverInsert_spec hP hS hF hins
  refine ⟨?_, hdisj hd₁ hfresh, hok⟩
  by_cases hr : r.base < r.limit
  · rw [(hinserted (hok hr)).1, hF₁, Finset.sdiff_union_of_subset hsub]
  · -- an empty range has no addresses
    have hempty : r.addrs = ∅ := Finset.Ico_eq_empty_of_le (Nat.not_lt.1 hr)
    by_cases hres : res = .ok
    · rw [(hinserted hres).1, hF₁, hempty, Finset.sdiff_empty, Finset.union_empty]
    · rw [hkept hres, hF₁, hempty, Finset.sdiff_empty]

theorem failoverFind_insert_restores
    {findP : σ → Nat → FindDelete → Bool × Range w × Range w × σ}
    {findS : τ → Nat → FindDelete → Bool × Range w × Range w × τ}
    (hfP : FindContract bP findP) (hfS : FindContract bS findS) {fo fo₁ : FailoverStruct σ τ}
    (hd : ChildrenDisjoint bP bS fo) {size : Nat} {findDelete : FindDelete} {range old : Range w}
    (hdel : findDelete ≠ .NONE)
    (hfind : failoverFind LandFlush findP findS fo size findDelete = (true, range, old, fo₁)) :
    failoverFree bP bS (failoverInsert P S LandFlush fo₁ range).2.2 = failoverFree bP bS fo ∧
      ChildrenDisjoint bP bS (failoverInsert P S LandFlush fo₁ range).2.2 ∧
      (range.base < range.limit → (failoverInsert P S LandFlush fo₁ range).1 = .ok) := by
  obtain ⟨hfound, -, hd₁⟩ := failoverFind_spec hF hfP hfS hd hfind
  obtain ⟨-, hn, hold, hF₁⟩ := hfound rfl
  rw [if_neg hdel] at hF₁
  exact failoverInsert_restores hP hS hPo hSi hF hd₁ ((addrs_subset_of_nest hn).trans hold) hF₁

end RoundTrip

theorem failoverFind_insert_restores_spilled :
    ChildrenDisjoint RefState.blocks RefState.blocks spilled ∧ FindDelete.LOW ≠ .NONE ∧
      ∃ range old fo₁, failoverFind (refFlush false) refPrimary.findFirst refSecondary.findFirst
          spilled 4 .LOW = (true, range, old, fo₁) ∧
        failoverFree RefState.blocks RefState.blocks
            (failoverInsert refPrimary refSecondary (refFlush false) fo₁ range).2.2 =
          failoverFree RefState.blocks RefState.blocks spilled ∧
        ChildrenDisjoint RefState.blocks RefState.blocks
          (failoverInsert refPrimary refSecondary (refFlush false) fo₁ range).2.2 ∧
        (range.base < range.limit →
          (failoverInsert refPrimary refSecondary (refFlush false) fo₁ range).1 = .ok) :=
  have hd : ChildrenDisjoint RefState.blocks RefState.blocks spilled := by decide
  have hdel : FindDelete.LOW ≠ .NONE := by decide
  ⟨hd, hdel, _, _, _, rfl, failoverFind_insert_restores (refLand_contract false _)
    (refLand_contract true _) (refLand_exact false _).insert_fail.only (refLand_freelist_insert _)
    (refFlush_movesWhole false).moves (refLand_contract false _).findFirst
    (refLand_contract true _).findFirst hd hdel
    (show failoverFind (refFlush false) refPrimary.findFirst refSecondary.findFirst spilled 4 .LOW
      = _ from rfl)⟩

section DeleteRoundTrip

variable {P : LandClass w σ} {S : LandClass w τ} {LandFlush : FlushMethod σ τ}
  {bP : σ → BlockSet w} {bS : τ → BlockSet w}
  (hP : LandContract P bP) (hS : LandContract S bS) (hPx : ExactResults P bP)
  (hSi : InsertNeverFails S bS) (hSd : DeleteNeverFails S bS) (hPb : DeleteBlockNeverFails P bP)
  (hF : FlushMovesWhole bP bS LandFlush)
include hP hS hPx hSi hSd hPb hF

theorem failoverDelete_insert_restores {critical : Bool} {fo : FailoverStruct σ τ}
    (hd : ChildrenDisjoint bP bS fo) {rangeReturn r : Range w} (hr : r.base < r.limit)
    (hin : ∃ b ∈ (bP fo.primary).blocks ++ (bS fo.secondary).blocks, RangesNest b r = true) :
    ∃ old fo₁, failoverDelete P S LandFlush critical fo rangeReturn r = .ok (.ok, old, fo₁) ∧
      (failoverInsert P S LandFlush fo₁ r).1 = .ok ∧
      failoverFree bP bS (failoverInsert P S LandFlush fo₁ r).2.2 = failoverFree bP bS fo ∧
      ChildrenDisjoint bP bS (failoverInsert P S LandFlush fo₁ r).2.2 := by
  obtain ⟨old, fo₁, hdel, -⟩ := failoverDelete_within_ok hP hS hPx hSi hSd hPb hF hd hr hin
  obtain ⟨hdeleted, -, hd₁⟩ := failoverDelete_spec hP hS hF.moves hd hdel
  obtain ⟨hn, hold, hF₁⟩ := hdeleted rfl
  obtain ⟨hU, hD, hok⟩ := failoverInsert_restores hP hS hPx.insert_fail.only hSi hF.moves hd₁
    ((addrs_subset_of_nest hn).trans hold) hF₁
  exact ⟨old, fo₁, hdel, hok hr, hU, hD⟩

end DeleteRoundTrip

-- Deleting `[12, 15)` splits the exhausted primary's block: the recovery path
def range12 : Range 8 := ⟨12, 15, by decide, by decide⟩

theorem failoverDelete_insert_restores_exhausted :
    ChildrenDisjoint RefState.blocks RefState.blocks ⟨exhaustedPrimary, keptSecondary⟩ ∧
      range12.base < range12.limit ∧
      (∃ b ∈ exhaustedPrimary.blocks.blocks ++ keptSecondary.blocks.blocks,
        RangesNest b range12 = true) ∧
      ∃ old fo₁, failoverDelete refPrimary refSecondary (refFlush false) true
          ⟨exhaustedPrimary, keptSecondary⟩ range12 range12 = .ok (.ok, old, fo₁) ∧
        (failoverInsert refPrimary refSecondary (refFlush false) fo₁ range12).1 = .ok ∧
        failoverFree RefState.blocks RefState.blocks
            (failoverInsert refPrimary refSecondary (refFlush false) fo₁ range12).2.2 =
          failoverFree RefState.blocks RefState.blocks ⟨exhaustedPrimary, keptSecondary⟩ ∧
        ChildrenDisjoint RefState.blocks RefState.blocks
          (failoverInsert refPrimary refSecondary (refFlush false) fo₁ range12).2.2 :=
  have hd : ChildrenDisjoint RefState.blocks RefState.blocks
      ⟨exhaustedPrimary, keptSecondary⟩ := by decide
  have hr : range12.base < range12.limit := by decide
  have hin : ∃ b ∈ exhaustedPrimary.blocks.blocks ++ keptSecondary.blocks.blocks,
      RangesNest b range12 = true := by decide
  ⟨hd, hr, hin, failoverDelete_insert_restores (refLand_contract false _)
    (refLand_contract true _) (refLand_exact false _) (refLand_freelist_insert _)
    (refLand_freelist_delete _) (refLand_deleteBlock false _) (refFlush_movesWhole false) hd hr
    hin⟩

-- A visitor that adds up the sizes of the blocks it meets
def sumSizes (b : Range w) (total : Nat) : Bool × Nat := (true, total + RangeSize b)

theorem iterateBlocks_sumSizes (bs : List (Range w)) (total : Nat) :
    iterateBlocks sumSizes bs total = (true, total + blocksSize bs) := by
  induction bs generalizing total with
  | nil => rfl
  | cons b bs ih =>
      show iterateBlocks sumSizes bs (total + RangeSize b) = _
      rw [ih, blocksSize_cons, Nat.add_assoc]

section IterateSize

variable {P : LandClass w σ} {S : LandClass w τ} {bP : σ → BlockSet w} {bS : τ → BlockSet w}
  (hP : LandContract P bP) (hS : LandContract S bS)
include hP hS

theorem failoverIterate_sums_to_size {fo : FailoverStruct σ τ} (hd : ChildrenDisjoint bP bS fo) :
    failoverIterate P S fo sumSizes 0 = (true, failoverSize P S fo) := by
  have hsum : blocksSize ((bP fo.primary).blocks ++ (bS fo.secondary).blocks) =
      P.sizeMethod fo.primary + S.sizeMethod fo.secondary := by
    rw [hP.size, hS.size, blocksSize_append]
    rfl
  rw [failoverIterate_eq hP hS, iterateBlocks_sumSizes, Nat.zero_add, hsum, failoverSize,
    Nat.mod_eq_of_lt (failoverSize_eq_card hP hS hd).2]

end IterateSize

theorem failoverIterate_sums_to_size_spilled :
    ChildrenDisjoint RefState.blocks RefState.blocks spilled ∧
      failoverIterate refPrimary refSecondary spilled sumSizes 0 =
        (true, failoverSize refPrimary refSecondary spilled) :=
  have hd : ChildrenDisjoint RefState.blocks RefState.blocks spilled := by decide
  ⟨hd, failoverIterate_sums_to_size (refLand_contract false _) (refLand_contract true _) hd⟩

-- A pool allocating from the failover, as MVFF does, with the ranges it has handed out
structure PoolState (w : Nat) (σ τ : Type) where
  fo : FailoverStruct σ τ
  held : List (Range w)

inductive PoolOp (w : Nat)
  | alloc (size : Nat)
  | free (range : Range w)

section PoolRun

variable (P : LandClass w σ) (S : LandClass w τ) (LandFlush : FlushMethod σ τ)
  (findP : σ → Nat → FindDelete → Bool × Range w × Range w × σ)
  (findS : τ → Nat → FindDelete → Bool × Range w × Range w × τ) (findDelete : FindDelete)

-- `mps_alloc` reaches `failoverFind*` and keeps the range; `mps_free` reaches `failoverInsert`.
def poolStep (ps : PoolState w σ τ) : PoolOp w → PoolState w σ τ
  | .alloc size =>
      match failoverFind LandFlush findP findS ps.fo size findDelete with
      | (true, range, _, fo) => ⟨fo, range :: ps.held⟩
      | (false, _, _, fo) => ⟨fo, ps.held⟩
  | .free range => ⟨(failoverInsert P S LandFlush ps.fo range).2.2, ps.held.erase range⟩

def PoolAdmits (ps : PoolState w σ τ) : PoolOp w → Prop
  | .alloc _ => True
  | .free range => range ∈ ps.held

instance (ps : PoolState w σ τ) (op : PoolOp w) : Decidable (PoolAdmits ps op) :=
  match op with
  | .alloc _ => isTrue trivial
  | .free range => inferInstanceAs (Decidable (range ∈ ps.held))

inductive PoolReachable (init : FailoverStruct σ τ) : PoolState w σ τ → Prop
  | init : PoolReachable init ⟨init, []⟩
  | step {ps : PoolState w σ τ} {op : PoolOp w} : PoolReachable init ps → PoolAdmits ps op →
      PoolReachable init (poolStep P S LandFlush findP findS findDelete ps op)

end PoolRun

structure PoolInv (bP : σ → BlockSet w) (bS : τ → BlockSet w) (total : Finset Nat)
    (ps : PoolState w σ τ) : Prop where
  children : ChildrenDisjoint bP bS ps.fo
  held_pairwise : ps.held.Pairwise fun a b => Disjoint a.addrs b.addrs
  held_not_free : Disjoint (freeOf ps.held) (failoverFree bP bS ps.fo)
  conserved : failoverFree bP bS ps.fo ∪ freeOf ps.held = total

section PoolInvariant

variable {P : LandClass w σ} {S : LandClass w τ} {LandFlush : FlushMethod σ τ}
  {findP : σ → Nat → FindDelete → Bool × Range w × Range w × σ}
  {findS : τ → Nat → FindDelete → Bool × Range w × Range w × τ} {findDelete : FindDelete}
  {bP : σ → BlockSet w} {bS : τ → BlockSet w}
  (hP : LandContract P bP) (hS : LandContract S bS) (hPo : InsertFailsOnlyOnOverlap P bP)
  (hSi : InsertNeverFails S bS) (hF : FlushMoves bP bS LandFlush)
  (hfP : FindContract bP findP) (hfS : FindContract bS findS)
  {total : Finset Nat} {ps : PoolState w σ τ}

include hF hfP hfS in
theorem PoolInv.alloc_step (hdel : findDelete ≠ .NONE) (hi : PoolInv bP bS total ps)
    (size : Nat) :
    PoolInv bP bS total (poolStep P S LandFlush findP findS findDelete ps (.alloc size)) := by
  rcases hfind : failoverFind LandFlush findP findS ps.fo size findDelete with
    ⟨_ | _, range, old, fo⟩
  all_goals
    obtain ⟨hfound, hmiss, hd⟩ := failoverFind_spec hF hfP hfS hi.children hfind
    simp only [poolStep, hfind]
  · -- a miss changes no free address
    have hfree := hmiss rfl
    exact ⟨hd, hi.held_pairwise, hfree ▸ hi.held_not_free, hfree ▸ hi.conserved⟩
  · obtain ⟨-, hn, hold, hfree⟩ := hfound rfl
    rw [if_neg hdel] at hfree
    have hsub : range.addrs ⊆ failoverFree bP bS ps.fo := (addrs_subset_of_nest hn).trans hold
    have hheld : Disjoint range.addrs (freeOf ps.held) :=
      Finset.disjoint_of_subset_left hsub hi.held_not_free.symm
    refine ⟨hd, List.pairwise_cons.2 ⟨fun b hb =>
      Finset.disjoint_of_subset_right (subset_freeOf hb) hheld, hi.held_pairwise⟩, ?_, ?_⟩
    · rw [freeOf_cons, hfree]
      exact Finset.disjoint_union_left.2 ⟨Finset.disjoint_sdiff,
        Finset.disjoint_of_subset_right Finset.sdiff_subset hi.held_not_free⟩
    · rw [freeOf_cons, hfree, ← Finset.union_assoc, Finset.sdiff_union_of_subset hsub,
        hi.conserved]

include hP hS hPo hSi hF in
theorem PoolInv.free_step (hi : PoolInv bP bS total ps) {range : Range w}
    (hheld : range ∈ ps.held) :
    PoolInv bP bS total (poolStep P S LandFlush findP findS findDelete ps (.free range)) := by
  have hperm := List.perm_cons_erase hheld
  have hsplit : freeOf ps.held = range.addrs ∪ freeOf (ps.held.erase range) := freeOf_perm hperm
  have hrest := (List.pairwise_cons.1 ((hperm.pairwise_iff fun h => h.symm).1 hi.held_pairwise)).1
  have hfresh : Disjoint range.addrs (failoverFree bP bS ps.fo) :=
    Finset.disjoint_of_subset_left (subset_freeOf hheld) hi.held_not_free
  obtain ⟨hU, hD, -⟩ := failoverInsert_restores hP hS hPo hSi hF hi.children
    Finset.subset_union_right (Finset.union_sdiff_cancel_right hfresh.symm).symm
  simp only [poolStep]
  refine ⟨hD, hi.held_pairwise.sublist (List.erase_sublist _ _), ?_, ?_⟩
  · rw [hU]
    exact Finset.disjoint_union_right.2 ⟨Finset.disjoint_of_subset_left
      (hsplit ▸ Finset.subset_union_right) hi.held_not_free, (disjoint_freeOf hrest).symm⟩
  · rw [hU, Finset.union_assoc, ← hsplit, hi.conserved]

include hP hS hPo hSi hF hfP hfS in
theorem pool_never_hands_out_twice {init : FailoverStruct σ τ} (hdel : findDelete ≠ .NONE)
    (hd : ChildrenDisjoint bP bS init)
    (h : PoolReachable P S LandFlush findP findS findDelete init ps) :
    PoolInv bP bS (failoverFree bP bS init) ps := by
  induction h with
  | init => exact ⟨hd, List.Pairwise.nil, Finset.disjoint_empty_left _, Finset.union_empty _⟩
  | @step ps op _ hadm ih =>
      cases op with
      | alloc size => exact ih.alloc_step hF hfP hfS hdel size
      | free range => exact ih.free_step hP hS hPo hSi hF hadm

end PoolInvariant

def range100to104 : Range 8 := ⟨100, 104, by decide, by decide⟩

def spilledPoolRun : PoolState 8 (RefState 8) (RefState 8) :=
  let step := poolStep refPrimary refSecondary (refFlush false) refPrimary.findFirst
    refSecondary.findFirst .LOW
  step (step (step ⟨spilled, []⟩ (.alloc 4)) (.alloc 2)) (.free range100to104)

theorem pool_never_hands_out_twice_spilled :
    FindDelete.LOW ≠ .NONE ∧ ChildrenDisjoint RefState.blocks RefState.blocks spilled ∧
      PoolReachable refPrimary refSecondary (refFlush false) refPrimary.findFirst
        refSecondary.findFirst .LOW spilled spilledPoolRun ∧
      PoolInv RefState.blocks RefState.blocks
        (failoverFree RefState.blocks RefState.blocks spilled) spilledPoolRun :=
  have hdel : FindDelete.LOW ≠ .NONE := by decide
  have hd : ChildrenDisjoint RefState.blocks RefState.blocks spilled := by decide
  have hrun : PoolReachable refPrimary refSecondary (refFlush false) refPrimary.findFirst
      refSecondary.findFirst .LOW spilled spilledPoolRun :=
    .step (.step (.step .init (show PoolAdmits _ (.alloc 4) from trivial))
      (show PoolAdmits _ (.alloc 2) from trivial))
      (show PoolAdmits _ (.free range100to104) by decide)
  ⟨hdel, hd, hrun, pool_never_hands_out_twice (refLand_contract false _)
    (refLand_contract true _) (refLand_exact false _).insert_fail.only (refLand_freelist_insert _)
    (refFlush_movesWhole false).moves (refLand_contract false _).findFirst
    (refLand_contract true _).findFirst hdel hd hrun⟩

end Mps
