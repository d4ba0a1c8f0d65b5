import Mps.Land.Reference.Blocks
import Mathlib.Data.Finset.Max

namespace Mps

variable {w : Nat}

def Range.zero : Range w := ⟨0, 0, le_rfl, Nat.two_pow_pos w⟩

structure RefState (w : Nat) where
  blocks : BlockSet w
  capacity : Nat

namespace RefState

-- Whether the land has descriptors for the blocks `B'` in place of its current ones
def admits (freelist : Bool) (st : RefState w) (B' : BlockSet w) : Bool :=
  freelist || decide (B'.blocks.length ≤ st.blocks.blocks.length) ||
    decide (B'.blocks.length ≤ st.capacity)

def withBlocks (st : RefState w) (B : BlockSet w) : RefState w := { st with blocks := B }

@[simp] theorem withBlocks_blocks (st : RefState w) (B : BlockSet w) :
    (st.withBlocks B).blocks = B := rfl

theorem admits_true (st : RefState w) (B' : BlockSet w) : st.admits true B' = true := rfl

theorem admits_of_length_le {freelist : Bool} {st : RefState w} {B' : BlockSet w}
    (h : B'.blocks.length ≤ st.blocks.blocks.length) : st.admits freelist B' = true := by
  simp [admits, h]

end RefState

section Methods

variable (freelist : Bool)

-- Refused on overlap, joined with its neighbours, out of memory without a descriptor
def refInsert (st : RefState w) (r : Range w) : Res × Range w × RefState w :=
  if hr : r.base < r.limit then
    if hd : Disjoint r.addrs st.blocks.free then
      if st.admits freelist (st.blocks.insertCoalesced r hr hd) then
        (.ok, (st.blocks.coalesce r).1, st.withBlocks (st.blocks.insertCoalesced r hr hd))
      else (.allocFailure, r, st)
    else (.fail, r, st)
  else (.ok, r, st)

-- Splitting a block needs a descriptor.
def refDelete (st : RefState w) (r : Range w) : Res × Range w × RefState w :=
  match h : st.blocks.blocks.find? (fun b => RangesNest b r) with
  | none => (.fail, r, st)
  | some old =>
      let B' := st.blocks.carve old r (List.mem_of_find?_eq_some h)
        (by simpa using List.find?_some h)
      if st.admits freelist B' then (.ok, old, st.withBlocks B') else (.allocFailure, old, st)

end Methods

-- How a find picks its block among those of at least `size` bytes
structure Selector (w : Nat) where
  select : List (Range w) → Nat → Option (Range w)
  spec : ∀ {bs size b}, select bs size = some b → b ∈ bs ∧ size ≤ RangeSize b

def firstFit : Selector w :=
  ⟨fun bs size => bs.find? fun b => size ≤ RangeSize b,
    fun h => ⟨List.mem_of_find?_eq_some h, by simpa using List.find?_some h⟩⟩

def lastFit : Selector w :=
  ⟨fun bs size => bs.reverse.find? fun b => size ≤ RangeSize b,
    fun h => ⟨List.mem_reverse.1 (List.mem_of_find?_eq_some h), by simpa using List.find?_some h⟩⟩

def largestFit : Selector w :=
  ⟨fun bs size => bs.find? fun b => size ≤ RangeSize b && bs.all fun c => RangeSize c ≤ RangeSize b,
    fun h => ⟨List.mem_of_find?_eq_some h, by
      have := List.find?_some h
      simp only [Bool.and_eq_true, decide_eq_true_eq] at this
      exact this.1⟩⟩

def Selector.Complete (sel : Selector w) : Prop :=
  ∀ {bs size}, sel.select bs size = none → ∀ b ∈ bs, RangeSize b < size

theorem firstFit_complete : (firstFit (w := w)).Complete := fun h b hb => by
  simpa using List.find?_eq_none.1 h b hb

theorem lastFit_complete : (lastFit (w := w)).Complete := fun h b hb => by
  simpa using List.find?_eq_none.1 h b (List.mem_reverse.2 hb)

theorem largestFit_complete : (largestFit (w := w)).Complete := by
  intro bs size h b hb
  obtain ⟨m, hm, hmax⟩ :=
    Finset.exists_max_image bs.toFinset RangeSize ⟨b, List.mem_toFinset.2 hb⟩
  have hnot := List.find?_eq_none.1 h m (List.mem_toFinset.1 hm)
  simp only [Bool.and_eq_true, decide_eq_true_eq, List.all_eq_true, not_and] at hnot
  have hbm := hmax b (List.mem_toFinset.2 hb)
  by_contra hle
  exact hnot (by omega) fun c hc => hmax c (List.mem_toFinset.2 hc)

def findDeleteRange (old : Range w) (size : Nat) (h : size ≤ RangeSize old) :
    FindDelete → Range w
  | .NONE | .ENTIRE => old
  | .LOW => ⟨old.base, old.base + size, by omega,
      by have := old.limit_lt; have := old.base_le_limit; unfold RangeSize at h; omega⟩
  | .HIGH => ⟨old.limit - size, old.limit, by omega, old.limit_lt⟩

theorem findDeleteRange_nest (old : Range w) (size : Nat) (h : size ≤ RangeSize old)
    (findDelete : FindDelete) : RangesNest old (findDeleteRange old size h findDelete) = true := by
  unfold RangeSize at h
  have := old.base_le_limit
  cases findDelete <;> simp [findDeleteRange] <;> omega

def refFind (sel : Selector w) (st : RefState w) (size : Nat) (findDelete : FindDelete) :
    Bool × Range w × Range w × RefState w :=
  match h : sel.select st.blocks.blocks size with
  | none => (false, Range.zero, Range.zero, st)
  | some old =>
      let range := findDeleteRange old size (sel.spec h).2 findDelete
      if findDelete = .NONE then (true, range, old, st)
      else (true, range, old, st.withBlocks (st.blocks.carve old range (sel.spec h).1
        (findDeleteRange_nest _ _ _ _)))

-- The lowest (with `high`, the highest) start in `b` of `size` bytes within the zones
def zoneFit (AddrZone : Nat → Nat) (zoneSet size : Nat) (high : Bool) (b : Range w) :
    Option Nat :=
  let starts := List.range' b.base (RangeSize b + 1 - size)
  (if high then starts.reverse else starts).find? fun x =>
    (List.range' x size).all fun a => zoneSet.testBit (AddrZone a)

def zoneSearch (AddrZone : Nat → Nat) (zoneSet size : Nat) (high : Bool) (bs : List (Range w)) :
    Option (Range w × Nat) :=
  (if high then bs.reverse else bs).findSome? fun b =>
    (zoneFit AddrZone zoneSet size high b).map (b, ·)

theorem zoneSearch_spec {AddrZone : Nat → Nat} {zoneSet size : Nat} {high : Bool}
    {bs : List (Range w)} {old : Range w} {x : Nat}
    (h : zoneSearch AddrZone zoneSet size high bs = some (old, x)) :
    old ∈ bs ∧ old.base ≤ x ∧ x + size ≤ old.limit := by
  obtain ⟨b, hb, hfit⟩ := List.exists_of_findSome?_eq_some h
  obtain ⟨x', hx', heq⟩ := Option.map_eq_some'.1 hfit
  simp only [Prod.mk.injEq] at heq
  obtain ⟨rfl, rfl⟩ := heq
  have hmem := List.mem_of_find?_eq_some hx'
  have := b.base_le_limit
  have hb' : b ∈ bs := by split at hb <;> simp_all
  split at hmem <;> simp only [List.mem_reverse, List.mem_range'_1, RangeSize] at hmem <;>
    exact ⟨hb', by omega, by omega⟩

def zoneRange (old : Range w) (x size : Nat) (h : old.base ≤ x ∧ x + size ≤ old.limit) :
    Range w :=
  ⟨x, x + size, by omega, by have := old.limit_lt; omega⟩

theorem zoneRange_nest (old : Range w) (x size : Nat) (h : old.base ≤ x ∧ x + size ≤ old.limit) :
    RangesNest old (zoneRange old x size h) = true := by
  simp [zoneRange]
  omega

-- Find and delete in zones; splitting the block needs a descriptor
def refFindInZones (freelist : Bool) (AddrZone : Nat → Nat) (st : RefState w) (size zoneSet : Nat)
    (high : Bool) : Res × Bool × Range w × Range w × RefState w :=
  match h : zoneSearch AddrZone zoneSet size high st.blocks.blocks with
  | none => (.ok, false, Range.zero, Range.zero, st)
  | some (old, x) =>
      let range := zoneRange old x size (zoneSearch_spec h).2
      let B' := st.blocks.carve old range (zoneSearch_spec h).1 (zoneRange_nest _ _ _ _)
      if st.admits freelist B' then (.ok, true, range, old, st.withBlocks B')
      else (.allocFailure, false, range, old, st)

section Spec

variable {freelist : Bool} {st st' : RefState w} {r ret old : Range w} {res : Res}

theorem refInsert_ok (h : refInsert freelist st r = (.ok, ret, st')) :
    Inserted st.blocks.free st'.blocks.free r ret ∧
      (∀ c ∈ st.blocks.blocks, ∃ c' ∈ st'.blocks.blocks, RangesNest c' c = true) ∧
      (r.base < r.limit → ret ∈ st'.blocks.blocks) := by
  unfold refInsert at h
  split_ifs at h with hr hd hadm <;> simp only [Prod.mk.injEq, reduceCtorEq, false_and] at h
  · obtain ⟨-, rfl, rfl⟩ := h
    exact ⟨⟨BlockSet.insertCoalesced_free hr hd, (BlockSet.coalesce_joined _ _).nest,
      subset_freeOf (BlockSet.coalesce_mem_insertCoalesced hr hd)⟩,
      fun c hc => BlockSet.insertCoalesced_grows hr hd c (List.mem_cons_of_mem _ hc),
      fun _ => BlockSet.coalesce_mem_insertCoalesced hr hd⟩
  · obtain ⟨-, rfl, rfl⟩ := h
    have hempty : r.addrs = ∅ := by
      simp only [Range.addrs, Finset.Ico_eq_empty_iff]
      omega
    exact ⟨⟨by rw [hempty, Finset.union_empty], RangesNest_refl r, by simp [hempty]⟩,
      fun c hc => ⟨c, hc, RangesNest_refl c⟩, fun h => absurd h hr⟩

theorem refInsert_ne (h : refInsert freelist st r = (res, ret, st')) (hres : res ≠ .ok) :
    st' = st := by
  unfold refInsert at h
  split_ifs at h <;> simp only [Prod.mk.injEq] at h <;> first
    | exact h.2.2.symm
    | exact absurd h.1.symm hres

theorem refInsert_res (freelist : Bool) (st : RefState w) (r : Range w) :
    (refInsert freelist st r).1 = .ok ∨ (refInsert freelist st r).1 = .fail ∨
      (refInsert freelist st r).1 = .allocFailure := by
  unfold refInsert
  split_ifs <;> simp

theorem refInsert_fail_iff (freelist : Bool) (st : RefState w) (r : Range w) :
    (refInsert freelist st r).1 = .fail ↔ ¬Disjoint r.addrs st.blocks.free := by
  unfold refInsert
  by_cases hr : r.base < r.limit
  · by_cases hd : Disjoint r.addrs st.blocks.free
    · simp only [hr, hd, dite_true, not_true_eq_false, iff_false]
      split_ifs <;> simp
    · simp [hr, hd]
  · have hempty : r.addrs = ∅ := Finset.Ico_eq_empty_of_le (Nat.le_of_not_lt hr)
    simp [hr, hempty]

theorem refDelete_ok (h : refDelete freelist st r = (.ok, old, st')) :
    old ∈ st.blocks.blocks ∧ Deleted st.blocks.free st'.blocks.free r old := by
  unfold refDelete at h
  split at h
  · simp at h
  · rename_i old' hfind
    dsimp only at h
    split_ifs at h <;> simp only [Prod.mk.injEq, reduceCtorEq, false_and] at h
    obtain ⟨-, rfl, rfl⟩ := h
    have hold := List.mem_of_find?_eq_some hfind
    have hn : RangesNest old' r = true := by simpa using List.find?_some hfind
    exact ⟨hold, hn, subset_freeOf hold, BlockSet.carve_free hold hn⟩

theorem refDelete_allocFailure (h : refDelete freelist st r = (.allocFailure, old, st')) :
    old ∈ st.blocks.blocks ∧ RangesNest old r = true := by
  unfold refDelete at h
  split at h
  · simp at h
  · rename_i old' hfind
    dsimp only at h
    split_ifs at h <;> simp only [Prod.mk.injEq, reduceCtorEq, false_and] at h
    obtain ⟨-, rfl, rfl⟩ := h
    exact ⟨List.mem_of_find?_eq_some hfind, by simpa using List.find?_some hfind⟩

theorem refDelete_ne (h : refDelete freelist st r = (res, old, st')) (hres : res ≠ .ok) :
    st' = st := by
  unfold refDelete at h
  split at h
  · simp only [Prod.mk.injEq] at h
    exact h.2.2.symm
  · dsimp only at h
    split_ifs at h <;> simp only [Prod.mk.injEq] at h
    · exact absurd h.1.symm hres
    · exact h.2.2.symm

theorem refDelete_res (freelist : Bool) (st : RefState w) (r : Range w) :
    (refDelete freelist st r).1 = .ok ∨ (refDelete freelist st r).1 = .fail ∨
      (refDelete freelist st r).1 = .allocFailure := by
  unfold refDelete
  split
  · simp
  · dsimp only
    split_ifs <;> simp

theorem refDelete_fail_iff (freelist : Bool) (st : RefState w) (r : Range w) :
    (refDelete freelist st r).1 = .fail ↔ ¬∃ b ∈ st.blocks.blocks, RangesNest b r = true := by
  unfold refDelete
  split
  · rename_i hfind
    simpa using hfind
  · rename_i old hfind
    have hold := List.mem_of_find?_eq_some hfind
    have hn : RangesNest old r = true := by simpa using List.find?_some hfind
    dsimp only
    split_ifs <;> simp only [reduceCtorEq, false_iff, not_not] <;> exact ⟨old, hold, hn⟩

theorem refDelete_eq_ok {b : Range w} (hb : b ∈ st.blocks.blocks) (hn : RangesNest b r = true)
    (hadm : ∀ old (hold : old ∈ st.blocks.blocks) (hn : RangesNest old r = true),
      st.admits freelist (st.blocks.carve old r hold hn) = true) :
    (refDelete freelist st r).1 = .ok := by
  unfold refDelete
  split
  · rename_i hfind
    simp only [List.find?_eq_none] at hfind
    exact absurd hn (by simpa using hfind b hb)
  · dsimp only
    rw [if_pos (hadm _ _ _)]

theorem refFind_contract (sel : Selector w) : FindContract RefState.blocks (refFind sel) where
  found := by
    intro st size findDelete range old st' h
    unfold refFind at h
    split at h
    · simp at h
    · rename_i old' hsel
      obtain ⟨hold, hsize⟩ := sel.spec hsel
      dsimp only at h
      split_ifs at h with hnone <;> simp only [Prod.mk.injEq] at h <;>
        obtain ⟨-, rfl, rfl, rfl⟩ := h
      · exact ⟨hold, hsize, findDeleteRange_nest _ _ _ _, subset_freeOf hold, by simp [hnone]⟩
      · exact ⟨hold, hsize, findDeleteRange_nest _ _ _ _, subset_freeOf hold,
          by simp [hnone, BlockSet.carve_free]⟩
  not_found := by
    intro st size findDelete range old st' h
    unfold refFind at h
    split at h
    · simp only [Prod.mk.injEq] at h
      rw [← h.2.2.2]
    · dsimp only at h
      split_ifs at h <;> simp at h

theorem refFind_complete {sel : Selector w} (hsel : sel.Complete) :
    FindComplete RefState.blocks (refFind sel) := by
  intro st size findDelete h
  unfold refFind at h
  split at h
  · rename_i hnone
    exact hsel hnone
  · dsimp only at h
    split_ifs at h

theorem refFindInZones_found {AddrZone : Nat → Nat} {size zoneSet : Nat} {high : Bool}
    (h : refFindInZones freelist AddrZone st size zoneSet high = (.ok, true, ret, old, st')) :
    old ∈ st.blocks.blocks ∧ Deleted st.blocks.free st'.blocks.free ret old := by
  unfold refFindInZones at h
  split at h
  · simp at h
  · dsimp only at h
    split_ifs at h <;> simp only [Prod.mk.injEq, reduceCtorEq, false_and] at h
    obtain ⟨-, -, rfl, rfl, rfl⟩ := h
    rename_i old' x hsearch _
    have hold := (zoneSearch_spec hsearch).1
    exact ⟨hold, zoneRange_nest _ _ _ _, subset_freeOf hold, BlockSet.carve_free hold _⟩

theorem refFindInZones_ne {AddrZone : Nat → Nat} {size zoneSet : Nat} {high found : Bool}
    (h : refFindInZones freelist AddrZone st size zoneSet high = (res, found, ret, old, st'))
    (hmiss : res ≠ .ok ∨ found = false) : st' = st := by
  unfold refFindInZones at h
  split at h
  · simp only [Prod.mk.injEq] at h
    exact h.2.2.2.2.symm
  · dsimp only at h
    split_ifs at h <;> simp only [Prod.mk.injEq] at h
    · obtain ⟨rfl, rfl, -⟩ := h
      simp at hmiss
    · exact h.2.2.2.2.symm

end Spec

-- Insert the secondary's blocks into the primary in order, until one is refused
def refFlushBlocks (freelist : Bool) (p : RefState w) : List (Range w) → Bool × RefState w × Nat
  | [] => (true, p, 0)
  | b :: bs =>
      match refInsert freelist p b with
      | (.ok, _, p') =>
          let (flushed, p'', k) := refFlushBlocks freelist p' bs
          (flushed, p'', k + 1)
      | _ => (false, p, 0)

def refFlush (freelist : Bool) : FlushMethod (RefState w) (RefState w) := fun p s =>
  let (flushed, p', k) := refFlushBlocks freelist p s.blocks.blocks
  (flushed, p', s.withBlocks (s.blocks.sublist (s.blocks.blocks.drop k) (List.drop_sublist _ _)))

private theorem refFlushBlocks_none (p : RefState w) (bs : List (Range w)) :
    p.blocks.free = p.blocks.free ∪ freeOf (bs.take 0) ∧
      ∀ c ∈ p.blocks.blocks ++ bs.take 0, ∃ c' ∈ p.blocks.blocks, RangesNest c' c = true := by
  simp only [List.take_zero, freeOf_nil, Finset.union_empty, List.append_nil, true_and]
  exact fun c hc => ⟨c, hc, RangesNest_refl c⟩

theorem refFlushBlocks_spec {freelist : Bool} {bs : List (Range w)}
    (hbs : ∀ b ∈ bs, b.base < b.limit) {p p' : RefState w} {flushed : Bool} {k : Nat}
    (h : refFlushBlocks freelist p bs = (flushed, p', k)) :
    p'.blocks.free = p.blocks.free ∪ freeOf (bs.take k) ∧
      ∀ c ∈ p.blocks.blocks ++ bs.take k, ∃ c' ∈ p'.blocks.blocks, RangesNest c' c = true := by
  induction bs generalizing p flushed k with
  | nil =>
      simp only [refFlushBlocks, Prod.mk.injEq] at h
      obtain ⟨-, rfl, rfl⟩ := h
      exact refFlushBlocks_none p []
  | cons b bs ih =>
      rcases hins : refInsert freelist p b with ⟨res, ret, p₁⟩
      by_cases hok : res = .ok
      · subst hok
        rcases hrest : refFlushBlocks freelist p₁ bs with ⟨flushed', p'', k'⟩
        simp only [refFlushBlocks, hins, hrest, Prod.mk.injEq] at h
        obtain ⟨rfl, rfl, rfl⟩ := h
        obtain ⟨hfree, hgrow⟩ := ih (fun c hc => hbs c (List.mem_cons_of_mem _ hc)) hrest
        obtain ⟨hins₁, hgrow₁, hret⟩ := refInsert_ok hins
        refine ⟨by rw [hfree, hins₁.1, List.take_succ_cons, freeOf_cons]; ac_rfl, ?_⟩
        intro c hc
        simp only [List.take_succ_cons, List.mem_append, List.mem_cons] at hc
        rcases hc with hc | rfl | hc
        · obtain ⟨c₁, hc₁, hn₁⟩ := hgrow₁ c hc
          obtain ⟨c', hc', hn'⟩ := hgrow c₁ (List.mem_append_left _ hc₁)
          exact ⟨c', hc', RangesNest_trans hn' hn₁⟩
        · obtain ⟨c', hc', hn'⟩ := hgrow ret
            (List.mem_append_left _ (hret (hbs c (List.mem_cons_self _ _))))
          exact ⟨c', hc', RangesNest_trans hn' hins₁.2.1⟩
        · exact hgrow c (List.mem_append_right _ hc)
      · simp only [refFlushBlocks, hins] at h
        split at h
        · rename_i heq
          exact absurd (Prod.mk.inj heq).1 hok
        · simp only [Prod.mk.injEq] at h
          obtain ⟨-, rfl, rfl⟩ := h
          exact refFlushBlocks_none p _

theorem refFlush_movesWhole (freelist : Bool) :
    FlushMovesWhole RefState.blocks RefState.blocks (refFlush (w := w) freelist) := by
  intro p s
  rcases h : refFlushBlocks freelist p s.blocks.blocks with ⟨flushed, p', k⟩
  obtain ⟨hfree, hgrow⟩ := refFlushBlocks_spec s.blocks.nonempty h
  refine ⟨s.blocks.blocks.take k, ?_, ?_, ?_⟩ <;> simp only [refFlush, h]
  · rw [RefState.withBlocks_blocks, BlockSet.sublist_blocks]
    exact List.perm_append_comm.trans (by rw [List.take_append_drop])
  · exact hfree
  · exact hgrow

-- `freelist` never runs out of descriptors; `AddrZone` maps addresses to zones.
def refLand (freelist : Bool) (AddrZone : Nat → Nat) : LandClass w (RefState w) where
  sizeMethod st := st.blocks.size
  insert := refInsert freelist
  insertSteal st r :=
    let (res, ret, st') := refInsert freelist st r
    (res, ret, r, st')
  delete := refDelete freelist
  deleteSteal := refDelete true
  iterate st visitor closure := iterateBlocks visitor st.blocks.blocks closure
  findFirst := refFind firstFit
  findLast := refFind lastFit
  findLargest := refFind largestFit
  findInZones := refFindInZones freelist AddrZone

section Contract

variable (freelist : Bool) (AddrZone : Nat → Nat)

theorem refLand_contract : LandContract (refLand (w := w) freelist AddrZone) RefState.blocks where
  size _ := rfl
  insert_ok h := (refInsert_ok h).1
  insert_ne h hres := by rw [refInsert_ne h hres]
  insertSteal_ok {st r ret io st'} h := by
    rcases hins : refInsert freelist st r with ⟨res, ret', st''⟩
    simp only [refLand, hins, Prod.mk.injEq] at h
    obtain ⟨rfl, rfl, rfl, rfl⟩ := h
    exact ⟨RangesNest_refl _, (refInsert_ok hins).1⟩
  insertSteal_ne {st r res ret io st'} h hres := by
    rcases hins : refInsert freelist st r with ⟨res', ret', st''⟩
    simp only [refLand, hins, Prod.mk.injEq] at h
    obtain ⟨rfl, rfl, rfl, rfl⟩ := h
    rw [refInsert_ne hins hres]
  delete_ok h := refDelete_ok h
  delete_allocFailure h := refDelete_allocFailure h
  delete_ne h hres := by rw [refDelete_ne h hres]
  deleteSteal_ok h := by
    obtain ⟨hold, hn, -, hfree⟩ := refDelete_ok h
    exact ⟨hold, hn, hfree.le⟩
  deleteSteal_ne h hres := by rw [refDelete_ne h hres]
  iterate _ _ _ := rfl
  findFirst := refFind_contract firstFit
  findLast := refFind_contract lastFit
  findLargest := refFind_contract largestFit
  findInZones_found h := refFindInZones_found h
  findInZones_ne h hmiss := by rw [refFindInZones_ne h hmiss]

theorem refLand_exact : ExactResults (refLand (w := w) freelist AddrZone) RefState.blocks :=
  ⟨refInsert_res freelist, refInsert_fail_iff freelist, refDelete_res freelist,
    refDelete_fail_iff freelist⟩

theorem refLand_findComplete :
    FindComplete RefState.blocks (refLand (w := w) freelist AddrZone).findFirst ∧
      FindComplete RefState.blocks (refLand (w := w) freelist AddrZone).findLast ∧
      FindComplete RefState.blocks (refLand (w := w) freelist AddrZone).findLargest :=
  ⟨refFind_complete firstFit_complete, refFind_complete lastFit_complete,
    refFind_complete largestFit_complete⟩

theorem refLand_deleteBlock :
    DeleteBlockNeverFails (refLand (w := w) freelist AddrZone) RefState.blocks := by
  intro st b hb
  refine refDelete_eq_ok hb (RangesNest_refl b) fun old hold hn => ?_
  obtain rfl := st.blocks.eq_of_nest hold hb (st.blocks.nonempty b hb) hn (RangesNest_refl b)
  exact RefState.admits_of_length_le (BlockSet.carve_length_self hold hn).le

theorem refLand_freelist_insert :
    InsertNeverFails (refLand (w := w) true AddrZone) RefState.blocks := by
  intro st r hr hd
  simp [refLand, refInsert, hr, hd, RefState.admits_true]

theorem refLand_freelist_delete :
    DeleteNeverFails (refLand (w := w) true AddrZone) RefState.blocks :=
  fun _ _ _ _ hb hn => refDelete_eq_ok hb hn fun _ _ _ => RefState.admits_true _ _

end Contract

end Mps
