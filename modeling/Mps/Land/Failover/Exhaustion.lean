import Mps.Land.Failover.Run

namespace Mps

variable {w : Nat} {σ τ : Type}

section Recovery

variable {P : LandClass w σ} {S : LandClass w τ} {LandFlush : FlushMethod σ τ}
  {bP : σ → BlockSet w} {bS : τ → BlockSet w}

theorem failoverReinsert_ok (hPo : InsertFailsOnlyOnOverlap P bP) (hSi : InsertNeverFails S bS)
    (fragment : Range w) {p : σ} {s : τ}
    (hfrag : Disjoint fragment.addrs ((bP p).free ∪ (bS s).free)) :
    ∃ p' s', failoverReinsert P S .ok fragment p s = .ok (.ok, p', s') := by
  obtain ⟨hfP, hfS⟩ := Finset.disjoint_union_right.1 hfrag
  cases hempty : RangeIsEmpty fragment
  case true => exact ⟨p, s, by simp [failoverReinsert, hempty]; rfl⟩
  rcases hPi : P.insert p fragment with ⟨res₁, ret₁, p₁⟩
  by_cases hok : res₁ = .ok
  · subst hok
    exact ⟨p₁, s, by simp [failoverReinsert, hempty, hPi]; rfl⟩
  have hfail : res₁ ≠ .fail := by simpa [hPi] using hPo p fragment hfP
  rcases hSi' : S.insert s fragment with ⟨res₂, ret₂, s₂⟩
  have hres₂ : res₂ = .ok := by
    simpa [hSi'] using hSi s fragment ((RangeIsEmpty_eq_false_iff _).1 hempty) hfS
  subst hres₂
  have hbne : (res₁ != .fail) = true := bne_iff_ne.2 hfail
  exact ⟨p₁, s₂, by simp [failoverReinsert, hempty, hPi, hok, hbne, hSi']; rfl⟩

-- A fresh insert succeeds: an allocation failure spills into the secondary, which takes it.
theorem failoverInsert_fresh_ok (hPo : InsertFailsOnlyOnOverlap P bP) (hSi : InsertNeverFails S bS)
    (hF : FlushMoves bP bS LandFlush) {fo : FailoverStruct σ τ} {r : Range w}
    (hr : r.base < r.limit) (hfree : Disjoint r.addrs (failoverFree bP bS fo)) :
    (failoverInsert P S LandFlush fo r).1 = .ok := by
  rcases hfl : LandFlush fo.primary fo.secondary with ⟨b, p₁, s₁⟩
  rw [failoverFree, ← flush_union hF hfl] at hfree
  obtain ⟨hfP, hfS⟩ := Finset.disjoint_union_right.1 hfree
  rcases hPi : P.insert p₁ r with ⟨res₁, ret₁, p₂⟩
  have hfail : res₁ ≠ .fail := by simpa [hPi] using hPo p₁ r hfP
  by_cases hok : res₁ = .ok
  · simp [failoverInsert, hfl, hPi, hok]
  · rcases hSi' : S.insert s₁ r with ⟨res₂, ret₂, s₂⟩
    simpa [failoverInsert, hfl, hPi, hok, hfail, hSi'] using hSi s₁ r hr hfS

variable (hP : LandContract P bP) (hS : LandContract S bS) (hPx : ExactResults P bP)
  (hSi : InsertNeverFails S bS) (hSd : DeleteNeverFails S bS) (hPb : DeleteBlockNeverFails P bP)
  (hF : FlushMovesWhole bP bS LandFlush)
include hP hS hPx hSi hSd hPb hF

-- A delete within one block succeeds on each of its three paths.
theorem failoverDelete_within_ok {critical : Bool} {fo : FailoverStruct σ τ}
    (hd : ChildrenDisjoint bP bS fo) {rangeReturn r : Range w} (hr : r.base < r.limit)
    (hin : ∃ b ∈ (bP fo.primary).blocks ++ (bS fo.secondary).blocks, RangesNest b r = true) :
    ∃ old fo', failoverDelete P S LandFlush critical fo rangeReturn r = .ok (.ok, old, fo') ∧
      RangesNest old r = true ∧
      old ∈ (bP (LandFlush fo.primary fo.secondary).2.1).blocks ++
        (bS (LandFlush fo.primary fo.secondary).2.2).blocks := by
  obtain ⟨b, hb, hbr⟩ := hin
  obtain ⟨b', hb', hb'r⟩ := flush_keeps_block hF hb
  have hnr := RangesNest_trans hb'r hbr
  rcases hfl : LandFlush fo.primary fo.secondary with ⟨flag, p₁, s₁⟩
  rw [hfl] at hb'
  have hD := flush_disjoint hF.moves hfl hd
  rcases hPd : P.delete p₁ r with ⟨res₁, old₁, p₂⟩
  rcases hPx.delete_res p₁ r with hres | hres | hres <;> rw [hPd] at hres <;> subst hres
  · -- deleted from the primary
    obtain ⟨hold, hdel⟩ := hP.delete_ok hPd
    exact ⟨old₁, ⟨p₂, s₁⟩, by simp [failoverDelete, hfl, hPd, failoverDeleteDone_eq fun _ => hdel.1],
      hdel.1, List.mem_append_left _ hold⟩
  · -- not in the primary: the block that holds the range stayed in the secondary
    have hbS : b' ∈ (bS s₁).blocks := (List.mem_append.1 hb').resolve_left fun h =>
      (hPx.delete_fail p₁ r).1 (by rw [hPd]) ⟨b', h, hnr⟩
    rcases hSd' : S.delete s₁ r with ⟨res₂, old₂, s₂⟩
    have hres₂ : res₂ = .ok := by simpa [hSd'] using hSd s₁ r b' hr hbS hnr
    subst hres₂
    obtain ⟨hold, hdel⟩ := hS.delete_ok hSd'
    exact ⟨old₂, ⟨p₂, s₂⟩, by simp [failoverDelete, hfl, hPd, hSd']; rfl, hdel.1,
      List.mem_append_right _ hold⟩
  · -- the recovery path: the whole old block goes, and its fragments come back
    obtain ⟨hold, hn⟩ := hP.delete_allocFailure hPd
    have hp₂ := hP.delete_ne hPd (by decide)
    have hold₂ : old₁ ∈ (bP p₂).blocks := hp₂ ▸ hold
    rcases hPd₂ : P.delete p₂ old₁ with ⟨res₃, dummy, p₃⟩
    have hres₃ : res₃ = .ok := by simpa [hPd₂] using hPb p₂ old₁ hold₂
    subst hres₃
    obtain ⟨hdummy, hdel₃⟩ := hP.delete_ok hPd₂
    obtain rfl := (bP p₂).eq_of_nest hdummy hold₂ ((bP p₂).nonempty _ hold₂) hdel₃.1
      (RangesNest_refl _)
    have hn' := (RangesNest_iff _ _).1 hn
    obtain ⟨-, hoU, hD₃⟩ := recovery_block_fresh hP hold hp₂ hPd₂ hD
    obtain ⟨hleftF, hrightF⟩ := recovery_fragments_fresh hn hoU
    obtain ⟨p₄, s₄, h₄⟩ :=
      failoverReinsert_ok hPx.insert_fail.only hSi ⟨dummy.base, r.base, hn'.1, r.base_lt_two_pow⟩ hleftF
    obtain ⟨hU₄, -, -⟩ := failoverReinsert_spec hP hS h₄ hleftF hD₃
    obtain ⟨p₅, s₅, h₅⟩ :=
      failoverReinsert_ok hPx.insert_fail.only hSi ⟨r.limit, dummy.limit, hn'.2, dummy.limit_lt⟩ (hU₄ ▸ hrightF)
    refine ⟨dummy, ⟨p₅, s₅⟩, ?_, hn, List.mem_append_left _ hold⟩
    have hEq : RangesEqual dummy dummy = true := (RangesEqual_iff _ _).2 rfl
    simp [failoverDelete, hfl, hPd, hPd₂, ResIsAllocFailure, hEq, RangeInit_of_le _ hn'.1,
      RangeInit_of_le _ hn'.2, show failoverReinsert P S _ _ _ _ = pure _ from h₄,
      show failoverReinsert P S _ _ _ _ = pure _ from h₅, failoverDeleteDone_eq fun _ => hn]

theorem exhaustion_never_surfaces {critical : Bool} {fo : FailoverStruct σ τ}
    (hd : ChildrenDisjoint bP bS fo) :
    (∀ r : Range w, r.base < r.limit → Disjoint r.addrs (failoverFree bP bS fo) →
      (failoverInsert P S LandFlush fo r).1 = .ok) ∧
    (∀ rangeReturn r : Range w, r.base < r.limit →
      (∃ b ∈ (bP fo.primary).blocks ++ (bS fo.secondary).blocks, RangesNest b r = true) →
      ∃ old fo', failoverDelete P S LandFlush critical fo rangeReturn r = .ok (.ok, old, fo') ∧
        RangesNest old r = true ∧
        old ∈ (bP (LandFlush fo.primary fo.secondary).2.1).blocks ++
          (bS (LandFlush fo.primary fo.secondary).2.2).blocks) :=
  ⟨fun _ hr hfree => failoverInsert_fresh_ok hPx.insert_fail.only hSi hF.moves hr hfree,
    fun _ _ hr hin => failoverDelete_within_ok hP hS hPx hSi hSd hPb hF hd hr hin⟩

end Recovery

theorem exhaustion_never_surfaces_exhausted :
    ChildrenDisjoint RefState.blocks RefState.blocks ⟨exhaustedPrimary, keptSecondary⟩ ∧
      (∀ r : Range 8, r.base < r.limit → Disjoint r.addrs
          (failoverFree RefState.blocks RefState.blocks ⟨exhaustedPrimary, keptSecondary⟩) →
        (failoverInsert refPrimary refSecondary (refFlush false) ⟨exhaustedPrimary, keptSecondary⟩
          r).1 = .ok) ∧
      (∀ rangeReturn r : Range 8, r.base < r.limit →
        (∃ b ∈ exhaustedPrimary.blocks.blocks ++ keptSecondary.blocks.blocks,
          RangesNest b r = true) →
        ∃ old fo', failoverDelete refPrimary refSecondary (refFlush false) true
            ⟨exhaustedPrimary, keptSecondary⟩ rangeReturn r = .ok (.ok, old, fo') ∧
          RangesNest old r = true ∧
          old ∈ (refFlush false exhaustedPrimary keptSecondary).2.1.blocks.blocks ++
            (refFlush false exhaustedPrimary keptSecondary).2.2.blocks.blocks) :=
  have hd : ChildrenDisjoint RefState.blocks RefState.blocks
      ⟨exhaustedPrimary, keptSecondary⟩ := by decide
  ⟨hd, exhaustion_never_surfaces (refLand_contract false _) (refLand_contract true _)
    (refLand_exact false _) (refLand_freelist_insert _) (refLand_freelist_delete _)
    (refLand_deleteBlock false _) (refFlush_movesWhole false) hd⟩

section Overlap

variable {P : LandClass w σ} {S : LandClass w τ} {LandFlush : FlushMethod σ τ}
  {bP : σ → BlockSet w} {bS : τ → BlockSet w}

-- The overlap check of an insert is the primary's, made after the flush.
theorem failoverInsert_checks_primary (hP : LandContract P bP) (hS : LandContract S bS)
    (hPo : InsertFailsOnOverlap P bP) (hF : FlushMoves bP bS LandFlush) (fo : FailoverStruct σ τ)
    (r : Range w) :
    (¬Disjoint r.addrs (bP (LandFlush fo.primary fo.secondary).2.1).free →
      (failoverInsert P S LandFlush fo r).1 = .fail ∧
        failoverFree bP bS (failoverInsert P S LandFlush fo r).2.2 = failoverFree bP bS fo) ∧
    ((failoverInsert P S LandFlush fo r).1 = .ok →
      Disjoint r.addrs (bP (LandFlush fo.primary fo.secondary).2.1).free) ∧
    (ChildrenDisjoint bP bS fo → Disjoint r.addrs (failoverFree bP bS fo) →
      ChildrenDisjoint bP bS (failoverInsert P S LandFlush fo r).2.2) := by
  rcases hins : failoverInsert P S LandFlush fo r with ⟨res, ret, fo'⟩
  obtain ⟨-, hne, hdisj⟩ := failoverInsert_spec hP hS hF hins
  rcases hfl : LandFlush fo.primary fo.secondary with ⟨b, p₁, s₁⟩
  have hfailP := hPo p₁ r
  rcases hPi : P.insert p₁ r with ⟨res₁, ret₁, p₂⟩
  rw [hPi] at hfailP
  have hfail : res₁ = .fail → res = .fail := by
    rintro rfl
    simp [failoverInsert, hfl, hPi] at hins
    exact hins.1.symm
  refine ⟨fun hov => ?_, fun hok => ?_, hdisj⟩
  · have hres := hfail (hfailP.2 hov)
    exact ⟨hres, hne (by simp [hres])⟩
  · by_contra hov
    rw [hfail (hfailP.2 hov)] at hok
    cases hok

end Overlap

theorem failoverInsert_checks_primary_exhausted :
    (¬Disjoint range3.addrs
        (refFlush false exhaustedPrimary keptSecondary).2.1.blocks.free →
      (failoverInsert refPrimary refSecondary (refFlush false) ⟨exhaustedPrimary, keptSecondary⟩
          range3).1 = .fail ∧
        failoverFree RefState.blocks RefState.blocks (failoverInsert refPrimary refSecondary
          (refFlush false) ⟨exhaustedPrimary, keptSecondary⟩ range3).2.2 =
          failoverFree RefState.blocks RefState.blocks ⟨exhaustedPrimary, keptSecondary⟩) ∧
      ((failoverInsert refPrimary refSecondary (refFlush false) ⟨exhaustedPrimary, keptSecondary⟩
          range3).1 = .ok →
        Disjoint range3.addrs (refFlush false exhaustedPrimary keptSecondary).2.1.blocks.free) ∧
      (ChildrenDisjoint RefState.blocks RefState.blocks ⟨exhaustedPrimary, keptSecondary⟩ →
        Disjoint range3.addrs
          (failoverFree RefState.blocks RefState.blocks ⟨exhaustedPrimary, keptSecondary⟩) →
        ChildrenDisjoint RefState.blocks RefState.blocks (failoverInsert refPrimary refSecondary
          (refFlush false) ⟨exhaustedPrimary, keptSecondary⟩ range3).2.2) :=
  failoverInsert_checks_primary (refLand_contract false _) (refLand_contract true _)
    (refLand_exact false _).insert_fail (refFlush_movesWhole false).moves
    ⟨exhaustedPrimary, keptSecondary⟩ range3

theorem failoverInsert_accepts_secondary_overlap :
    ChildrenDisjoint RefState.blocks RefState.blocks ⟨exhaustedPrimary, keptSecondary⟩ ∧
      (failoverInsert refPrimary refSecondary (refFlush false) ⟨exhaustedPrimary, keptSecondary⟩
        range3).1 = .ok ∧
      ¬Disjoint range3.addrs
        (failoverFree RefState.blocks RefState.blocks ⟨exhaustedPrimary, keptSecondary⟩) ∧
      ¬ChildrenDisjoint RefState.blocks RefState.blocks (failoverInsert refPrimary refSecondary
        (refFlush false) ⟨exhaustedPrimary, keptSecondary⟩ range3).2.2 := by
  decide

-- A primary with no free descriptor holding `[8, 32)` in zones of 8 bytes, and an empty secondary

section Zones

def zoneOf (a : Nat) : Nat := a / 8

def zonedPrimary : RefState 8 :=
  ⟨⟨[⟨8, 32, by decide, by decide⟩], by decide, by decide⟩, 1⟩

def range16 : Range 8 := ⟨16, 20, by decide, by decide⟩

end Zones

theorem failoverFindInZones_reports_miss :
    RangesNest ⟨8, 32, by decide, by decide⟩ range16 = true ∧
      (∀ a ∈ range16.addrs, (4 : Nat).testBit (zoneOf a) = true) ∧
      ((failoverFindInZones (refLand false zoneOf) (refLand true zoneOf) (refFlush false) false
          ⟨zonedPrimary, ⟨BlockSet.empty, 0⟩⟩ 4 4 false).toOption.map
        fun result => (result.1, result.2.1)) = some (.ok, false) := by
  decide

end Mps
