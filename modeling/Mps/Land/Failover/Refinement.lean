import Mps.Land.Failover.Run

namespace Mps

variable {w : Nat} {σ τ : Type}

section Contract

variable (P : LandClass w σ) (S : LandClass w τ) (LandFlush : FlushMethod σ τ) (critical : Bool)
  (bP : σ → BlockSet w) (bS : τ → BlockSet w)

def FindActs (find : FailoverStruct σ τ → Nat → FindDelete →
    Bool × Range w × Range w × FailoverStruct σ τ) (fo : FailoverStruct σ τ) : Prop :=
  ∀ {size findDelete found range old fo'}, find fo size findDelete = (found, range, old, fo') →
    (found = true →
      Found (failoverFree bP bS fo) (failoverFree bP bS fo') size findDelete range old) ∧
    (found = false → failoverFree bP bS fo' = failoverFree bP bS fo)

-- The land contract over the union of the children's free addresses
structure ActsAsLand (fo : FailoverStruct σ τ) : Prop where
  insert : ∀ {r res ret fo'}, failoverInsert P S LandFlush fo r = (res, ret, fo') →
    (res = .ok → Inserted (failoverFree bP bS fo) (failoverFree bP bS fo') r ret) ∧
    (res ≠ .ok → failoverFree bP bS fo' = failoverFree bP bS fo)
  insertSteal : ∀ { rangeIO res ret io fo'},
    failoverInsertSteal P LandFlush fo rangeIO = .ok (res, ret, io, fo') →
    (res = .ok → RangesNest rangeIO io = true ∧
      Inserted (failoverFree bP bS fo) (failoverFree bP bS fo') io ret) ∧
    (res ≠ .ok → failoverFree bP bS fo' = failoverFree bP bS fo)
  delete : ∀ {rangeReturn r res old fo'},
    failoverDelete P S LandFlush critical fo rangeReturn r = .ok (res, old, fo') →
    (res = .ok → Deleted (failoverFree bP bS fo) (failoverFree bP bS fo') r old) ∧
    (res ≠ .ok → failoverFree bP bS fo' = failoverFree bP bS fo)
  deleteSteal : ∀ {r res old fo'}, failoverDeleteSteal P S LandFlush fo r = .ok (res, old, fo') →
    (res = .ok → RangesNest old r = true ∧ old.addrs ⊆ failoverFree bP bS fo ∧
      failoverFree bP bS fo' ⊆ failoverFree bP bS fo \ r.addrs) ∧
    (res ≠ .ok → failoverFree bP bS fo' = failoverFree bP bS fo)
  findFirst : FindActs bP bS (failoverFindFirst P S LandFlush) fo
  findLast : FindActs bP bS (failoverFindLast P S LandFlush) fo
  findLargest : FindActs bP bS (failoverFindLargest P S LandFlush) fo
  findInZones : ∀ {size zoneSet high res found range old fo'},
    failoverFindInZones P S LandFlush critical fo size zoneSet high =
      .ok (res, found, range, old, fo') →
    (res = .ok ∧ found = true →
      Deleted (failoverFree bP bS fo) (failoverFree bP bS fo') range old) ∧
    (¬(res = .ok ∧ found = true) → failoverFree bP bS fo' = failoverFree bP bS fo)

end Contract

section Refinement

variable {P : LandClass w σ} {S : LandClass w τ} {LandFlush : FlushMethod σ τ} {critical : Bool}
  {bP : σ → BlockSet w} {bS : τ → BlockSet w}
  (hP : LandContract P bP) (hS : LandContract S bS) (hF : FlushMoves bP bS LandFlush)
include hP hS hF

theorem actsAsLand_of_disjoint {fo : FailoverStruct σ τ} (hd : ChildrenDisjoint bP bS fo) :
    ActsAsLand P S LandFlush critical bP bS fo where
  insert h := (failoverInsert_spec hP hS hF h).imp_right And.left
  insertSteal h := (failoverInsertSteal_spec hP hF h).imp_right And.left
  delete h := (failoverDelete_spec hP hS hF hd h).imp_right And.left
  deleteSteal h := (failoverDeleteSteal_spec hP hS hF hd h).imp_right And.left
  findFirst h := (failoverFind_spec hF hP.findFirst hS.findFirst hd h).imp_right And.left
  findLast h := (failoverFind_spec hF hP.findLast hS.findLast hd h).imp_right And.left
  findLargest h := (failoverFind_spec hF hP.findLargest hS.findLargest hd h).imp_right And.left
  findInZones h := (failoverFindInZones_spec hP hS hF hd h).imp_right And.left

end Refinement

theorem actsAsLand_of_disjoint_spilled :
    ChildrenDisjoint RefState.blocks RefState.blocks spilled ∧
      ActsAsLand refPrimary refSecondary (refFlush false) true RefState.blocks RefState.blocks
        spilled :=
  have hd : ChildrenDisjoint RefState.blocks RefState.blocks spilled := by decide
  ⟨hd, actsAsLand_of_disjoint (refLand_contract false _) (refLand_contract true _)
    (refFlush_movesWhole false).moves hd⟩

-- With overlapping children the union is no land: a delete keeps addresses free in the secondary

def range35 : Range 8 := ⟨3, 5, by decide, by decide⟩

theorem delete_after_double_free_keeps_union :
    let fo := (failoverInsert refPrimary refSecondary (refFlush false)
      ⟨exhaustedPrimary, keptSecondary⟩ range3).2.2
    ChildrenDisjoint RefState.blocks RefState.blocks ⟨exhaustedPrimary, keptSecondary⟩ ∧
      (failoverInsert refPrimary refSecondary (refFlush false) ⟨exhaustedPrimary, keptSecondary⟩
        range3).1 = .ok ∧
      ((failoverDelete refPrimary refSecondary (refFlush false) true fo range35 range35).toOption.map
        fun result => (result.1, failoverFree RefState.blocks RefState.blocks result.2.2)) =
        some (.ok, failoverFree RefState.blocks RefState.blocks fo) ∧
      failoverFree RefState.blocks RefState.blocks fo \ range35.addrs ≠
        failoverFree RefState.blocks RefState.blocks fo := by
  decide

section Misses

variable {LandFlush : FlushMethod σ τ} {bP : σ → BlockSet w} {bS : τ → BlockSet w}
  {findP : σ → Nat → FindDelete → Bool × Range w × Range w × σ}
  {findS : τ → Nat → FindDelete → Bool × Range w × Range w × τ}

theorem failoverFind_miss_complete (hF : FlushMovesWhole bP bS LandFlush)
    (hPc : FindComplete bP findP) (hSc : FindComplete bS findS) {fo : FailoverStruct σ τ}
    {size : Nat} {findDelete : FindDelete}
    (h : (failoverFind LandFlush findP findS fo size findDelete).1 = false) :
    ∀ b ∈ (bP fo.primary).blocks ++ (bS fo.secondary).blocks, RangeSize b < size := by
  intro b hb
  obtain ⟨b', hb', hn⟩ := flush_keeps_block hF hb
  refine lt_of_le_of_lt (RangeSize_le_of_nest hn) ?_
  rcases hfl : LandFlush fo.primary fo.secondary with ⟨flag, p₁, s₁⟩
  rw [hfl] at hb'
  rcases hPf : findP p₁ size findDelete with ⟨_ | _, range₁, old₁, p₂⟩
  · have hSf : (findS s₁ size findDelete).1 = false := by
      simpa [failoverFind, hfl, hPf] using h
    rcases List.mem_append.1 hb' with hb' | hb'
    · exact hPc p₁ size findDelete (by rw [hPf]) b' hb'
    · exact hSc s₁ size findDelete hSf b' hb'
  · simp [failoverFind, hfl, hPf] at h

end Misses

theorem failoverFind_miss_complete_spilled :
    (failoverFindFirst refPrimary refSecondary (refFlush false) spilled 20 .NONE).1 = false ∧
      ∀ b ∈ spilled.primary.blocks.blocks ++ spilled.secondary.blocks.blocks, RangeSize b < 20 :=
  have hmiss :
      (failoverFindFirst refPrimary refSecondary (refFlush false) spilled 20 .NONE).1 = false := by
    decide
  ⟨hmiss, failoverFind_miss_complete (refFlush_movesWhole false) (refLand_findComplete false _).1
    (refLand_findComplete true _).1 hmiss⟩

section Iteration

variable {γ : Type}

-- A visitor that also logs each call and its answer
def recordVisits (visitor : Range w → γ → Bool × γ) (b : Range w)
    (closure : γ × List (Range w × Bool)) : Bool × γ × List (Range w × Bool) :=
  let (more, c) := visitor b closure.1
  (more, c, closure.2 ++ [(b, more)])

-- What the log of an iteration over `blocks` that answered `answer` shows
structure CallsInOrder (blocks : List (Range w)) (answer : Bool) (log : List (Range w × Bool)) :
    Prop where
  calls : log.map Prod.fst = blocks.take log.length
  continued : ∀ e ∈ log.dropLast, e.2 = true
  answer_iff : answer = true ↔ ∀ e ∈ log, e.2 = true
  complete : answer = true → log.length = blocks.length

theorem iterateBlocks_recordVisits (visitor : Range w → γ → Bool × γ) (bs : List (Range w))
    (closure : γ) (log₀ : List (Range w × Bool)) :
    ∃ log, iterateBlocks (recordVisits visitor) bs (closure, log₀) =
        ((iterateBlocks visitor bs closure).1, (iterateBlocks visitor bs closure).2, log₀ ++ log) ∧
      CallsInOrder bs (iterateBlocks visitor bs closure).1 log := by
  induction bs generalizing closure log₀ with
  | nil => exact ⟨[], by simp, ⟨by simp, by simp, by simp, by simp⟩⟩
  | cons b bs ih =>
      rcases hv : visitor b closure with ⟨_ | _, c⟩
      · -- the visitor stops at `b`
        exact ⟨[(b, false)], by simp [iterateBlocks, recordVisits, hv],
          ⟨by simp, by simp, by simp [iterateBlocks, hv], by simp [iterateBlocks, hv]⟩⟩
      · obtain ⟨log, heq, ⟨hmap, hlast, hiff, hlen⟩⟩ := ih c (log₀ ++ [(b, true)])
        refine ⟨(b, true) :: log, by simp [iterateBlocks, recordVisits, hv, heq],
          ⟨by simp [hmap], fun e he => ?_, by simp [iterateBlocks, hv, hiff],
            by simpa [iterateBlocks, hv] using hlen⟩⟩
        rcases log.eq_nil_or_concat with rfl | ⟨l, e', rfl⟩
        · simp at he
        · rw [List.dropLast_cons_of_ne_nil (by simp)] at he
          rcases List.mem_cons.1 he with rfl | he
          · rfl
          · exact hlast e he

theorem iterateBlocks_of_never_stops {visitor : Range w → γ → Bool × γ}
    (hall : ∀ b c, (visitor b c).1 = true) (bs : List (Range w)) (closure : γ) :
    (iterateBlocks visitor bs closure).1 = true := by
  induction bs generalizing closure with
  | nil => rfl
  | cons b bs ih =>
      have h := hall b closure
      rcases hv : visitor b closure with ⟨_ | _, c⟩
      · simp [hv] at h
      · simp [iterateBlocks, hv, ih]

theorem length_le_of_answer_false {log : List (Range w × Bool)}
    (hlast : ∀ e ∈ log.dropLast, e.2 = true) {n : Nat} {e : Range w × Bool}
    (he : e ∈ log.take n) (hf : e.2 = false) : log.length ≤ n := by
  by_contra hlt
  have hsub : log.take n ⊆ log.dropLast := by
    rw [List.dropLast_eq_take]
    exact (List.take_sublist_take_left log (by omega)).subset
  simp [hlast e (hsub he)] at hf

end Iteration

section FailoverIteration

variable {γ : Type} {P : LandClass w σ} {S : LandClass w τ} {bP : σ → BlockSet w}
  {bS : τ → BlockSet w} (hP : LandContract P bP) (hS : LandContract S bS)
include hP hS

theorem failoverIterate_eq (fo : FailoverStruct σ τ) (visitor : Range w → γ → Bool × γ)
    (closure : γ) : failoverIterate P S fo visitor closure =
      iterateBlocks visitor ((bP fo.primary).blocks ++ (bS fo.secondary).blocks) closure := by
  rw [failoverIterate, hP.iterate, iterateBlocks_append]
  rcases iterateBlocks visitor (bP fo.primary).blocks closure with ⟨_ | _, c⟩
  · rfl
  · exact hS.iterate _ _ _

omit hP hS in
theorem pairwise_children_blocks {fo : FailoverStruct σ τ} (hd : ChildrenDisjoint bP bS fo) :
    ((bP fo.primary).blocks ++ (bS fo.secondary).blocks).Pairwise
      fun a b => Disjoint a.addrs b.addrs :=
  List.pairwise_append.2 ⟨(bP _).disjoint, (bS _).disjoint, fun _ ha _ hb =>
    Finset.disjoint_of_subset_left (subset_freeOf ha)
      (Finset.disjoint_of_subset_right (subset_freeOf hb) hd)⟩

theorem failoverIterate_visits_in_order {fo : FailoverStruct σ τ}
    (hd : ChildrenDisjoint bP bS fo) (visitor : Range w → γ → Bool × γ) (closure : γ) :
    ∃ log, failoverIterate P S fo (recordVisits visitor) (closure, []) =
        ((failoverIterate P S fo visitor closure).1, (failoverIterate P S fo visitor closure).2,
          log) ∧
      CallsInOrder ((bP fo.primary).blocks ++ (bS fo.secondary).blocks)
        (failoverIterate P S fo visitor closure).1 log ∧
      (∀ e ∈ log.take (bP fo.primary).blocks.length, e.2 = false →
        log.length ≤ (bP fo.primary).blocks.length) ∧
      ((∀ b c, (visitor b c).1 = true) → ∀ a,
        log.countP (fun e => a ∈ e.1.addrs) = if a ∈ failoverFree bP bS fo then 1 else 0) := by
  simp only [failoverIterate_eq hP hS]
  obtain ⟨log, heq, hcalls⟩ := iterateBlocks_recordVisits visitor
    ((bP fo.primary).blocks ++ (bS fo.secondary).blocks) closure []
  refine ⟨log, heq, hcalls, fun e he hf => length_le_of_answer_false hcalls.continued he hf,
    fun hall a => ?_⟩
  have hfull : log.map Prod.fst = (bP fo.primary).blocks ++ (bS fo.secondary).blocks := by
    rw [hcalls.calls, hcalls.complete (iterateBlocks_of_never_stops hall _ _), List.take_length]
  rw [← Function.comp_def (fun b : Range w => decide (a ∈ b.addrs)) Prod.fst, ← List.countP_map,
    hfull, countP_mem_addrs (pairwise_children_blocks hd), freeOf_append]
  rfl

end FailoverIteration

def countBlocks (_ : Range 8) (n : Nat) : Bool × Nat := (true, n + 1)

theorem failoverIterate_visits_in_order_exhausted :
    ChildrenDisjoint RefState.blocks RefState.blocks ⟨exhaustedPrimary, keptSecondary⟩ ∧
      ∃ log, failoverIterate refPrimary refSecondary ⟨exhaustedPrimary, keptSecondary⟩
          (recordVisits countBlocks) (0, []) =
          ((failoverIterate refPrimary refSecondary ⟨exhaustedPrimary, keptSecondary⟩
              countBlocks 0).1,
            (failoverIterate refPrimary refSecondary ⟨exhaustedPrimary, keptSecondary⟩
              countBlocks 0).2, log) ∧
        CallsInOrder (exhaustedPrimary.blocks.blocks ++ keptSecondary.blocks.blocks)
          (failoverIterate refPrimary refSecondary ⟨exhaustedPrimary, keptSecondary⟩
            countBlocks 0).1 log ∧
        (∀ e ∈ log.take exhaustedPrimary.blocks.blocks.length, e.2 = false →
          log.length ≤ exhaustedPrimary.blocks.blocks.length) ∧
        ((∀ b c, (countBlocks b c).1 = true) → ∀ a,
          log.countP (fun e => a ∈ e.1.addrs) = if a ∈ failoverFree RefState.blocks
            RefState.blocks ⟨exhaustedPrimary, keptSecondary⟩ then 1 else 0) :=
  have hd : ChildrenDisjoint RefState.blocks RefState.blocks
      ⟨exhaustedPrimary, keptSecondary⟩ := by decide
  ⟨hd, failoverIterate_visits_in_order (refLand_contract false _) (refLand_contract true _) hd
    countBlocks 0⟩

end Mps
