import Mps.Land.Failover

namespace Mps

variable {w : Nat} {σ τ : Type}

section Union

variable (bP : σ → BlockSet w) (bS : τ → BlockSet w)

-- The failover's free addresses: those free in either child
def failoverFree (fo : FailoverStruct σ τ) : Finset Nat :=
  (bP fo.primary).free ∪ (bS fo.secondary).free

def ChildrenDisjoint (fo : FailoverStruct σ τ) : Prop :=
  Disjoint (bP fo.primary).free (bS fo.secondary).free

instance (fo : FailoverStruct σ τ) : Decidable (ChildrenDisjoint bP bS fo) :=
  inferInstanceAs (Decidable (Disjoint _ _))

end Union

section Flush

variable {bP : σ → BlockSet w} {bS : τ → BlockSet w} {LandFlush : FlushMethod σ τ}
  {p p' : σ} {s s' : τ} {b : Bool}

private theorem flush_moved (hF : FlushMoves bP bS LandFlush) (h : LandFlush p s = (b, p', s')) :
    ∃ moved : List (Range w), (bS s').free ∪ freeOf moved = (bS s).free ∧
      (bP p').free = (bP p).free ∪ freeOf moved ∧ Disjoint (bS s').free (freeOf moved) := by
  obtain ⟨moved, hperm, hfree⟩ := hF p s
  rw [h] at hperm hfree
  exact ⟨moved, (freeOf_append _ _).symm.trans (freeOf_perm hperm), hfree,
    disjoint_freeOf_of_pairwise ((bS s).disjoint.perm hperm.symm fun h => h.symm)⟩

theorem flush_union (hF : FlushMoves bP bS LandFlush) (h : LandFlush p s = (b, p', s')) :
    (bP p').free ∪ (bS s').free = (bP p).free ∪ (bS s).free := by
  obtain ⟨moved, hs, hp, -⟩ := flush_moved hF h
  rw [hp, ← hs]
  ac_rfl

theorem flush_disjoint (hF : FlushMoves bP bS LandFlush) (h : LandFlush p s = (b, p', s'))
    (hd : Disjoint (bP p).free (bS s).free) : Disjoint (bP p').free (bS s').free := by
  obtain ⟨moved, hs, hp, hmoved⟩ := flush_moved hF h
  rw [hp, Finset.disjoint_union_left]
  exact ⟨Finset.disjoint_of_subset_right (hs ▸ Finset.subset_union_left) hd, hmoved.symm⟩

theorem flush_keeps_block (hF : FlushMovesWhole bP bS LandFlush) {b : Range w}
    (hb : b ∈ (bP p).blocks ++ (bS s).blocks) :
    ∃ b' ∈ (bP (LandFlush p s).2.1).blocks ++ (bS (LandFlush p s).2.2).blocks,
      RangesNest b' b = true := by
  obtain ⟨moved, hperm, -, hwhole⟩ := hF p s
  rcases List.mem_append.1 hb with hb | hb
  · obtain ⟨b', hb', hn⟩ := hwhole b (List.mem_append_left _ hb)
    exact ⟨b', List.mem_append_left _ hb', hn⟩
  · rcases List.mem_append.1 (hperm.mem_iff.2 hb) with hb | hb
    · exact ⟨b, List.mem_append_right _ hb, RangesNest_refl b⟩
    · obtain ⟨b', hb', hn⟩ := hwhole b (List.mem_append_right _ hb)
      exact ⟨b', List.mem_append_left _ hb', hn⟩

end Flush

theorem failoverDeleteDone_eq {critical : Bool} {res : Res} {rangeReturn oldRange range : Range w}
    {fo : FailoverStruct σ τ} (hn : res = .ok → RangesNest oldRange range = true) :
    failoverDeleteDone critical res rangeReturn oldRange range fo =
      .ok (res, if res = .ok then oldRange else rangeReturn, fo) := by
  by_cases hok : res = .ok
  · simp [failoverDeleteDone, hok, hn hok]
    rfl
  · simp [failoverDeleteDone, hok]
    rfl

private theorem recovered_free {F G : Finset Nat} {range old : Range w}
    (hn : RangesNest old range = true) (hold : old.addrs ⊆ F) (hd : Disjoint F G) :
    F \ old.addrs ∪ G ∪ Finset.Ico old.base range.base ∪ Finset.Ico range.limit old.limit =
      (F ∪ G) \ range.addrs := by
  rw [RangesNest_iff] at hn
  have := range.base_le_limit
  ext a
  have hF : old.base ≤ a ∧ a < old.limit → a ∈ F := fun h => hold (Range.mem_addrs.2 h)
  have hG : a ∈ F → a ∉ G := fun h => Finset.disjoint_left.1 hd h
  simp only [Finset.mem_union, Finset.mem_sdiff, Range.mem_addrs, Finset.mem_Ico]
  by_cases haF : a ∈ F <;> by_cases haG : a ∈ G <;> simp_all <;> omega

theorem recovery_fragments_fresh {F : Finset Nat} {old range : Range w}
    (hn : RangesNest old range = true) (hF : Disjoint old.addrs F) :
    Disjoint (Finset.Ico old.base range.base) F ∧
      Disjoint (Finset.Ico range.limit old.limit) (F ∪ Finset.Ico old.base range.base) := by
  rw [RangesNest_iff] at hn
  have := range.base_le_limit
  have hsub : ∀ {a b : Nat}, old.base ≤ a → b ≤ old.limit → Finset.Ico a b ⊆ old.addrs :=
    fun ha hb x hx => by
      simp only [Finset.mem_Ico, Range.mem_addrs] at hx ⊢
      omega
  refine ⟨Finset.disjoint_of_subset_left (hsub le_rfl (by omega)) hF,
    Finset.disjoint_union_right.2 ⟨Finset.disjoint_of_subset_left (hsub (by omega) le_rfl) hF,
      Finset.disjoint_left.2 fun x hx hx' => ?_⟩⟩
  simp only [Finset.mem_Ico] at hx hx'
  omega

private theorem disjoint_of_subset_union {A B B' X : Finset Nat} (hd : Disjoint A B)
    (hX : Disjoint A X) (h : B' ⊆ B ∪ X) : Disjoint A B' :=
  Finset.disjoint_of_subset_right h (Finset.disjoint_union_right.2 ⟨hd, hX⟩)

section Operations

variable {P : LandClass w σ} {S : LandClass w τ} {LandFlush : FlushMethod σ τ}
  {bP : σ → BlockSet w} {bS : τ → BlockSet w}
  (hP : LandContract P bP) (hS : LandContract S bS) (hF : FlushMoves bP bS LandFlush)
include hP hS hF

theorem failoverInsert_spec {fo fo' : FailoverStruct σ τ} {r ret : Range w} {res : Res}
    (h : failoverInsert P S LandFlush fo r = (res, ret, fo')) :
    (res = .ok → Inserted (failoverFree bP bS fo) (failoverFree bP bS fo') r ret) ∧
      (res ≠ .ok → failoverFree bP bS fo' = failoverFree bP bS fo) ∧
      (ChildrenDisjoint bP bS fo → Disjoint r.addrs (failoverFree bP bS fo) →
        ChildrenDisjoint bP bS fo') := by
  rcases hfl : LandFlush fo.primary fo.secondary with ⟨b, p₁, s₁⟩
  have hU := flush_union hF hfl
  rcases hPi : P.insert p₁ r with ⟨res₁, ret₁, p₂⟩
  by_cases hspill : res₁ ≠ .ok ∧ res₁ ≠ .fail
  · have hp₂ := hP.insert_ne hPi hspill.1
    rcases hSi : S.insert s₁ r with ⟨res₂, ret₂, s₂⟩
    simp only [failoverInsert, hfl, hPi, hSi, hspill, ne_eq, not_false_eq_true, and_self,
      ite_true, Prod.mk.injEq] at h
    obtain ⟨rfl, rfl, rfl⟩ := h
    simp only [failoverFree, ChildrenDisjoint, hp₂, ← hU]
    refine ⟨fun hok => (hS.insert_ok (hok ▸ hSi)).union_left, fun hne => by
      rw [hS.insert_ne hSi hne], fun hd hr => ?_⟩
    exact disjoint_of_subset_union (flush_disjoint hF hfl hd)
      (Finset.disjoint_union_left.1 hr.symm).1 (hS.insert_subset hSi)
  · simp only [failoverInsert, hfl, hPi, hspill, ite_false, Prod.mk.injEq] at h
    obtain ⟨rfl, rfl, rfl⟩ := h
    simp only [failoverFree, ChildrenDisjoint, ← hU]
    refine ⟨fun hok => (hP.insert_ok (hok ▸ hPi)).union_right, fun hne => by
      rw [hP.insert_ne hPi hne], fun hd hr => ?_⟩
    exact (disjoint_of_subset_union (flush_disjoint hF hfl hd).symm
      (Finset.disjoint_union_left.1 hr.symm).2 (hP.insert_subset hPi)).symm

omit hF in
theorem failoverReinsert_spec {res res' : Res} {fragment : Range w} {p p' : σ} {s s' : τ}
    (h : failoverReinsert P S res fragment p s = .ok (res', p', s'))
    (hfrag : Disjoint fragment.addrs ((bP p).free ∪ (bS s).free))
    (hd : Disjoint (bP p).free (bS s).free) :
    (bP p').free ∪ (bS s').free = (bP p).free ∪ (bS s).free ∪ fragment.addrs ∧
      Disjoint (bP p').free (bS s').free ∧ (res = .ok → res' = .ok) := by
  obtain ⟨hfP, hfS⟩ := Finset.disjoint_union_right.1 hfrag
  by_cases hempty : RangeIsEmpty fragment
  · simp only [failoverReinsert, hempty, ite_true, pure, Except.pure, Except.ok.injEq,
      Prod.mk.injEq] at h
    obtain ⟨rfl, rfl, rfl⟩ := h
    have : fragment.addrs = ∅ := by
      rw [RangeIsEmpty_iff] at hempty
      simp [Range.addrs, hempty]
    exact ⟨by rw [this, Finset.union_empty], hd, id⟩
  rcases hPi : P.insert p fragment with ⟨res₁, ret₁, p₁⟩
  by_cases hok : res₁ = .ok
  · subst hok
    simp only [failoverReinsert, hempty, hPi, ite_true, pure, Except.pure, Except.ok.injEq,
      Prod.mk.injEq, Bool.false_eq_true, ite_false] at h
    obtain ⟨rfl, rfl, rfl⟩ := h
    refine ⟨by rw [(hP.insert_ok hPi).1]; ac_rfl, ?_, fun _ => rfl⟩
    exact (disjoint_of_subset_union hd.symm hfS.symm (hP.insert_subset hPi)).symm
  · rcases hSi : S.insert s fragment with ⟨res₂, ret₂, s₂⟩
    simp only [failoverReinsert, hempty, hPi, hSi, hok, Bool.false_eq_true, ite_false,
      bind_eq_ok, AVER_eq_ok] at h
    obtain ⟨_, -, _, -, _, -, _, hres₂, h⟩ := h
    rw [beq_iff_eq] at hres₂
    subst hres₂
    simp only [pure, Except.pure, Except.ok.injEq, Prod.mk.injEq] at h
    obtain ⟨rfl, rfl, rfl⟩ := h
    rw [hP.insert_ne hPi hok]
    refine ⟨by rw [(hS.insert_ok hSi).1]; ac_rfl, ?_, fun _ => rfl⟩
    exact disjoint_of_subset_union hd hfP.symm (hS.insert_subset hSi)

omit hS hF in
-- The recovery path deletes the whole old block: it is then free in neither child.
theorem recovery_block_fresh {p₁ p₂ p₃ : σ} {s₁ : τ} {old dummy : Range w}
    (hold : old ∈ (bP p₁).blocks) (hp₂ : bP p₂ = bP p₁)
    (hPd₂ : P.delete p₂ old = (.ok, dummy, p₃)) (hD : Disjoint (bP p₁).free (bS s₁).free) :
    (bP p₃).free = (bP p₁).free \ old.addrs ∧
      Disjoint old.addrs ((bP p₃).free ∪ (bS s₁).free) ∧ Disjoint (bP p₃).free (bS s₁).free := by
  have hp₃ : (bP p₃).free = (bP p₁).free \ old.addrs := hp₂ ▸ (hP.delete_ok hPd₂).2.2.2
  refine ⟨hp₃, Finset.disjoint_union_right.2 ⟨hp₃ ▸ Finset.disjoint_sdiff,
    Finset.disjoint_of_subset_left (subset_freeOf hold) hD⟩,
    Finset.disjoint_of_subset_left (hp₃ ▸ Finset.sdiff_subset) hD⟩

theorem failoverDelete_spec {critical : Bool} {fo fo' : FailoverStruct σ τ}
    {rangeReturn r old : Range w} {res : Res} (hd : ChildrenDisjoint bP bS fo)
    (h : failoverDelete P S LandFlush critical fo rangeReturn r = .ok (res, old, fo')) :
    (res = .ok → Deleted (failoverFree bP bS fo) (failoverFree bP bS fo') r old) ∧
      (res ≠ .ok → failoverFree bP bS fo' = failoverFree bP bS fo) ∧
      ChildrenDisjoint bP bS fo' := by
  rcases hfl : LandFlush fo.primary fo.secondary with ⟨b, p₁, s₁⟩
  have hU := flush_union hF hfl
  have hD := flush_disjoint hF hfl hd
  simp only [failoverFree, ChildrenDisjoint, ← hU]
  rcases hPd : P.delete p₁ r with ⟨res₁, old₁, p₂⟩
  by_cases hfail : res₁ = .fail
  · -- not in the primary: the secondary answers
    subst hfail
    rcases hSd : S.delete s₁ r with ⟨res₂, old₂, s₂⟩
    simp only [failoverDelete, hfl, hPd, hSd, ite_true, pure, Except.pure, Except.ok.injEq,
      Prod.mk.injEq] at h
    obtain ⟨rfl, rfl, rfl⟩ := h
    rw [hP.delete_ne hPd (by decide)]
    refine ⟨fun hok => (hS.delete_ok (hok ▸ hSd)).2.union_left hD, fun hne => by
      rw [hS.delete_ne hSd hne], ?_⟩
    exact Finset.disjoint_of_subset_right (hS.delete_subset hSd) hD
  by_cases hok : res₁ = .ok
  · -- deleted from the primary
    subst hok
    obtain ⟨-, hdel⟩ := hP.delete_ok hPd
    simp only [failoverDelete, hfl, hPd, hfail, ite_true, ite_false,
      failoverDeleteDone_eq (fun _ => hdel.1), Except.ok.injEq, Prod.mk.injEq] at h
    obtain ⟨rfl, rfl, rfl⟩ := h
    exact ⟨fun _ => hdel.union_right hD, fun hne => absurd rfl hne,
      Finset.disjoint_of_subset_left hdel.subset hD⟩
  rcases hPd₂ : P.delete p₂ old₁ with ⟨res₃, dummy, p₃⟩
  simp only [failoverDelete, hfl, hPd, hPd₂, hfail, hok, ite_false, bind_eq_ok, AVER_eq_ok] at h
  obtain ⟨_, -, _, halloc, h⟩ := h
  rw [ResIsAllocFailure_iff] at halloc
  subst halloc
  obtain ⟨hold, hn⟩ := hP.delete_allocFailure hPd
  have hp₂ := hP.delete_ne hPd hok
  by_cases hres₃ : res₃ = .ok
  swap
  · -- the old block could not be deleted either: nothing changed
    simp only [hres₃, ne_eq, not_false_eq_true, ite_true, pure, Except.pure, Except.ok.injEq,
      Prod.mk.injEq] at h
    obtain ⟨rfl, -, rfl⟩ := h
    rw [hP.delete_ne hPd₂ hres₃, hp₂]
    exact ⟨fun h => absurd h hres₃, fun _ => rfl, hD⟩
  subst hres₃
  have hn' := (RangesNest_iff _ _).1 hn
  simp only [ne_eq, not_true_eq_false, ite_false, bind_eq_ok, AVER_eq_ok,
    RangeInit_of_le _ hn'.1, RangeInit_of_le _ hn'.2] at h
  obtain ⟨_, -, _, -, left, hleft, ⟨res₄, p₄, s₄⟩, h₄, right, hright, ⟨res₅, p₅, s₅⟩, h₅,
    hdone⟩ := h
  simp only [pure, Except.pure, Except.ok.injEq] at hleft hright
  subst hleft hright
  obtain ⟨hp₃, hoU, hD₃⟩ := recovery_block_fresh hP hold hp₂ hPd₂ hD
  obtain ⟨hleftF, hrightF⟩ := recovery_fragments_fresh hn hoU
  obtain ⟨hU₄, hD₄, hres₄⟩ := failoverReinsert_spec hP hS h₄ hleftF hD₃
  obtain ⟨hU₅, hD₅, hres₅⟩ := failoverReinsert_spec hP hS h₅ (hU₄ ▸ hrightF) hD₄
  simp only [failoverDeleteDone_eq (fun _ => hn), hres₅ (hres₄ rfl), ite_true, Except.ok.injEq,
    Prod.mk.injEq] at hdone
  obtain ⟨rfl, rfl, rfl⟩ := hdone
  have hold' : old₁.addrs ⊆ (bP p₁).free := subset_freeOf hold
  refine ⟨fun _ => ⟨hn, hold'.trans Finset.subset_union_left, ?_⟩, fun hne => absurd rfl hne,
    hD₅⟩
  rw [hU₅, hU₄, hp₃]
  exact recovered_free hn hold' hD

omit hS in
theorem failoverInsertSteal_spec {fo fo' : FailoverStruct σ τ} { rangeIO ret io : Range w}
    {res : Res} (h : failoverInsertSteal P LandFlush fo rangeIO = .ok (res, ret, io, fo')) :
    (res = .ok → RangesNest rangeIO io = true ∧
        Inserted (failoverFree bP bS fo) (failoverFree bP bS fo') io ret) ∧
      (res ≠ .ok → failoverFree bP bS fo' = failoverFree bP bS fo) ∧
      (ChildrenDisjoint bP bS fo → Disjoint rangeIO.addrs (failoverFree bP bS fo) →
        ChildrenDisjoint bP bS fo') := by
  rcases hfl : LandFlush fo.primary fo.secondary with ⟨b, p₁, s₁⟩
  have hU := flush_union hF hfl
  rcases hPi : P.insertSteal p₁ rangeIO with ⟨res₁, ret₁, io₁, p₂⟩
  simp only [failoverInsertSteal, hfl, hPi, bind_eq_ok, AVER_eq_ok, pure, Except.pure,
    Except.ok.injEq, Prod.mk.injEq] at h
  obtain ⟨_, -, ⟨rfl, rfl, rfl, rfl⟩⟩ := h
  simp only [failoverFree, ChildrenDisjoint, ← hU]
  refine ⟨fun hok => ?_, fun hne => by rw [hP.insertSteal_ne hPi hne], fun hd hr => ?_⟩
  · obtain ⟨hn, hi⟩ := hP.insertSteal_ok (hok ▸ hPi)
    exact ⟨hn, hi.union_right⟩
  · exact (disjoint_of_subset_union (flush_disjoint hF hfl hd).symm
      (Finset.disjoint_union_left.1 hr.symm).2 (hP.insertSteal_subset hPi)).symm

theorem failoverDeleteSteal_spec {fo fo' : FailoverStruct σ τ} {r old : Range w} {res : Res}
    (hd : ChildrenDisjoint bP bS fo)
    (h : failoverDeleteSteal P S LandFlush fo r = .ok (res, old, fo')) :
    (res = .ok → RangesNest old r = true ∧ old.addrs ⊆ failoverFree bP bS fo ∧
        failoverFree bP bS fo' ⊆ failoverFree bP bS fo \ r.addrs) ∧
      (res ≠ .ok → failoverFree bP bS fo' = failoverFree bP bS fo) ∧
      ChildrenDisjoint bP bS fo' := by
  rcases hfl : LandFlush fo.primary fo.secondary with ⟨b, p₁, s₁⟩
  have hU := flush_union hF hfl
  have hD := flush_disjoint hF hfl hd
  simp only [failoverFree, ChildrenDisjoint, ← hU]
  rcases hPd : P.deleteSteal p₁ r with ⟨res₁, old₁, p₂⟩
  by_cases hfail : res₁ = .fail
  · subst hfail
    rcases hSd : S.deleteSteal s₁ r with ⟨res₂, old₂, s₂⟩
    simp only [failoverDeleteSteal, hfl, hPd, hSd, ite_true, bind_eq_ok, AVER_eq_ok, pure,
      Except.pure, Except.ok.injEq, Prod.mk.injEq] at h
    obtain ⟨_, -, ⟨rfl, rfl, rfl⟩⟩ := h
    rw [hP.deleteSteal_ne hPd (by decide)]
    refine ⟨fun hok => ?_, fun hne => by rw [hS.deleteSteal_ne hSd hne],
      Finset.disjoint_of_subset_right (hS.deleteSteal_subset hSd) hD⟩
    obtain ⟨hold, hn, hsub⟩ := hS.deleteSteal_ok (hok ▸ hSd)
    exact ⟨hn, (subset_freeOf hold).trans Finset.subset_union_right,
      subset_union_sdiff_left ((addrs_subset_of_nest hn).trans (subset_freeOf hold)) hD hsub⟩
  · simp only [failoverDeleteSteal, hfl, hPd, hfail, ite_false, bind_eq_ok, AVER_eq_ok, pure,
      Except.pure, Except.ok.injEq, Prod.mk.injEq] at h
    obtain ⟨_, -, ⟨rfl, rfl, rfl⟩⟩ := h
    refine ⟨fun hok => ?_, fun hne => by rw [hP.deleteSteal_ne hPd hne],
      Finset.disjoint_of_subset_left (hP.deleteSteal_subset hPd) hD⟩
    obtain ⟨hold, hn, hsub⟩ := hP.deleteSteal_ok (hok ▸ hPd)
    exact ⟨hn, (subset_freeOf hold).trans Finset.subset_union_left,
      subset_union_sdiff_right ((addrs_subset_of_nest hn).trans (subset_freeOf hold)) hD hsub⟩

omit hP hS in
theorem failoverFind_spec {findP : σ → Nat → FindDelete → Bool × Range w × Range w × σ}
    {findS : τ → Nat → FindDelete → Bool × Range w × Range w × τ}
    (hfP : FindContract bP findP) (hfS : FindContract bS findS)
    {fo fo' : FailoverStruct σ τ} {size : Nat} {findDelete : FindDelete} {found : Bool}
    {range old : Range w} (hd : ChildrenDisjoint bP bS fo)
    (h : failoverFind LandFlush findP findS fo size findDelete = (found, range, old, fo')) :
    (found = true →
        Found (failoverFree bP bS fo) (failoverFree bP bS fo') size findDelete range old) ∧
      (found = false → failoverFree bP bS fo' = failoverFree bP bS fo) ∧
      ChildrenDisjoint bP bS fo' := by
  rcases hfl : LandFlush fo.primary fo.secondary with ⟨b, p₁, s₁⟩
  have hU := flush_union hF hfl
  have hD := flush_disjoint hF hfl hd
  simp only [failoverFree, ChildrenDisjoint, ← hU]
  rcases hPf : findP p₁ size findDelete with ⟨_ | _, range₁, old₁, p₂⟩
  · rcases hSf : findS s₁ size findDelete with ⟨found₂, range₂, old₂, s₂⟩
    simp only [failoverFind, hfl, hPf, hSf, Prod.mk.injEq] at h
    obtain ⟨rfl, rfl, rfl, rfl⟩ := h
    rw [hfP.not_found hPf]
    refine ⟨fun hf => ((hfS.found (hf ▸ hSf)).2.union_left hD), fun hf => by
      rw [hfS.not_found (hf ▸ hSf)], Finset.disjoint_of_subset_right (hfS.subset hSf) hD⟩
  · simp only [failoverFind, hfl, hPf, Prod.mk.injEq] at h
    obtain ⟨rfl, rfl, rfl, rfl⟩ := h
    exact ⟨fun _ => (hfP.found hPf).2.union_right hD, fun h => absurd h Bool.noConfusion,
      Finset.disjoint_of_subset_left (hfP.subset hPf) hD⟩

theorem failoverFindInZones_spec {critical : Bool} {fo fo' : FailoverStruct σ τ}
    {size zoneSet : Nat} {high found : Bool} {range old : Range w} {res : Res}
    (hd : ChildrenDisjoint bP bS fo)
    (h : failoverFindInZones P S LandFlush critical fo size zoneSet high =
      .ok (res, found, range, old, fo')) :
    (res = .ok ∧ found = true →
        Deleted (failoverFree bP bS fo) (failoverFree bP bS fo') range old) ∧
      (¬(res = .ok ∧ found = true) → failoverFree bP bS fo' = failoverFree bP bS fo) ∧
      ChildrenDisjoint bP bS fo' := by
  rcases hfl : LandFlush fo.primary fo.secondary with ⟨b, p₁, s₁⟩
  have hU := flush_union hF hfl
  have hD := flush_disjoint hF hfl hd
  simp only [failoverFree, ChildrenDisjoint, ← hU]
  rcases hPf : P.findInZones p₁ size zoneSet high with ⟨res₁, found₁, range₁, old₁, p₂⟩
  by_cases hhit : res₁ = .ok ∧ found₁ = true
  · obtain ⟨rfl, rfl⟩ := hhit
    simp only [failoverFindInZones, hfl, hPf, bind_eq_ok, pure, Except.pure, ne_eq,
      not_true_eq_false, false_or, Bool.true_eq_false, ite_false, Except.ok.injEq,
      Prod.mk.injEq] at h
    obtain ⟨_, -, rfl, rfl, rfl, rfl, rfl⟩ := h
    exact ⟨fun _ => (hP.findInZones_found hPf).2.union_right hD, fun h => absurd ⟨rfl, rfl⟩ h,
      Finset.disjoint_of_subset_left (hP.findInZones_subset hPf) hD⟩
  · rcases hSf : S.findInZones s₁ size zoneSet high with ⟨res₂, found₂, range₂, old₂, s₂⟩
    have hmiss : res₁ ≠ .ok ∨ found₁ = false := by
      cases found₁ <;> simp_all
    simp only [failoverFindInZones, hfl, hPf, hSf, hmiss, ite_true, bind_eq_ok, pure,
      Except.pure, Except.ok.injEq, Prod.mk.injEq] at h
    obtain ⟨_, -, rfl, rfl, rfl, rfl, rfl⟩ := h
    rw [hP.findInZones_ne hPf hmiss]
    refine ⟨fun hf => (hS.findInZones_found (hf.1 ▸ hf.2 ▸ hSf)).2.union_left hD,
      fun hf => ?_, Finset.disjoint_of_subset_right (hS.findInZones_subset hSf) hD⟩
    rw [hS.findInZones_ne hSf (by cases found₂ <;> simp_all)]

end Operations

end Mps
