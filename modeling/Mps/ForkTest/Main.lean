import Mps.Format.Obj
import Mathlib.Data.Finset.Basic

namespace Mps

variable {w : Nat} {α : Type}

-- The allocation point as the test calls it: `mps_reserve`, then `mps_commit`
structure AllocPoint (w : Nat) (α : Type) where
  reserve : α → BitVec w → Res × BitVec w × α
  commit : α → BitVec w → BitVec w → Bool × α

-- What the test relies on while the arena is parked
structure AllocContract (ap : AllocPoint w α) (committed : α → Finset (BitVec w)) : Prop where
  reserve_ok : ∀ {st size addr st'}, ap.reserve st size = (.ok, addr, st') →
    addr ≠ NULL ∧ addr ∉ committed st ∧ committed st' = committed st
  commit_true : ∀ {st addr size st'}, ap.commit st addr size = (true, st') →
    committed st' = insert addr (committed st)
  commit_false : ∀ {st addr size st'}, ap.commit st addr size = (false, st') →
    committed st' = committed st

section Main

variable (F : Platform w) (ap : AllocPoint w α)

-- `size_t size = ALIGN_UP(sizeof(obj_s), ALIGNMENT)`, where `ALIGNMENT` is `sizeof(obj_s)`
def cellSize : BitVec w := ALIGN_UP (ALIGNMENT F) (ALIGNMENT F)

-- The `do ... while (!mps_commit(...))` loop, for at most `fuel` rounds
def reserveCell : Nat → α → Heap w → Option (Except String (BitVec w × α × Heap w))
  | 0, _, _ => none
  | fuel + 1, st, mem =>
      match ap.reserve st (cellSize F) with
      | (.ok, addr, st) =>
          let mem := Function.update mem addr ⟨TYPE_REF, NULL⟩
          match ap.commit st addr (cellSize F) with
          | (true, st) => some (.ok (addr, st, mem))
          | (false, st) => reserveCell fuel st mem
      | _ => some (.error "Couldn't allocate.")

-- The `for` loop over `count` cells
def buildList (fuel : Nat) : Nat → α → Heap w → BitVec w →
    Option (Except String (α × Heap w × BitVec w))
  | 0, st, mem, first => some (.ok (st, mem, first))
  | count + 1, st, mem, first =>
      match reserveCell F ap fuel st mem with
      | some (.ok (obj, st, mem)) =>
          buildList fuel count st (Function.update mem obj { mem obj with u := first }) obj
      | some (.error e) => some (.error e)
      | none => none

-- The child's walk from `first` to `NULL`, for at most `fuel` tests of its condition
def walkList (mem : Heap w) : Nat → BitVec w → Option (Except String Unit)
  | 0, _ => none
  | fuel + 1, obj =>
      if obj = NULL then some (.ok ())
      else if (mem obj).type = TYPE_REF then walkList mem fuel (mem obj).u
      else some (.error "obj->type == TYPE_REF")

end Main

-- `cells` are the objects met by following `u.ref` from `first` to `NULL`, each a reference
def Chain (mem : Heap w) : BitVec w → List (BitVec w) → Prop
  | first, [] => first = NULL
  | first, c :: cs => first = c ∧ c ≠ NULL ∧ (mem c).type = TYPE_REF ∧ Chain mem (mem c).u cs

theorem Chain.frame {mem mem' : Heap w} {first : BitVec w} {cells : List (BitVec w)}
    (h : Chain mem first cells) (hkeep : ∀ c ∈ cells, mem' c = mem c) : Chain mem' first cells := by
  induction cells generalizing first with
  | nil => exact h
  | cons c cs ih =>
      obtain ⟨rfl, hne, href, htail⟩ := h
      have hc := hkeep first (List.mem_cons_self _ _)
      exact ⟨rfl, hne, hc ▸ href, hc ▸ ih htail fun c' hc' => hkeep c' (List.mem_cons_of_mem _ hc')⟩

theorem walkList_chain {mem : Heap w} {first : BitVec w} {cells : List (BitVec w)}
    (h : Chain mem first cells) :
    (∀ k, walkList mem (cells.length + 1 + k) first = some (.ok ())) ∧
      walkList mem cells.length first = none := by
  induction cells generalizing first with
  | nil =>
      cases h
      exact ⟨fun k => by simp [Nat.zero_add, Nat.add_comm 1 k, walkList], rfl⟩
  | cons c cs ih =>
      obtain ⟨rfl, hne, href, htail⟩ := h
      obtain ⟨hdone, hshort⟩ := ih htail
      refine ⟨fun k => ?_, ?_⟩
      · rw [List.length_cons, show cs.length + 1 + 1 + k = cs.length + 1 + k + 1 by omega,
          walkList, if_neg hne, if_pos href, hdone]
      · rw [List.length_cons, walkList, if_neg hne, if_pos href, hshort]

section Build

variable {F : Platform w} {ap : AllocPoint w α} {committed : α → Finset (BitVec w)}
  (hap : AllocContract ap committed)
include hap

theorem reserveCell_ok {fuel : Nat} {st st' : α} {mem mem' : Heap w} {obj : BitVec w}
    (h : reserveCell F ap fuel st mem = some (.ok (obj, st', mem'))) :
    obj ≠ NULL ∧ obj ∉ committed st ∧ committed st' = insert obj (committed st) ∧
      (mem' obj).type = TYPE_REF ∧ ∀ a ∈ committed st, mem' a = mem a := by
  induction fuel generalizing st mem with
  | zero => cases h
  | succ fuel ih =>
      rcases hr : ap.reserve st (cellSize F) with ⟨res, addr, st₁⟩
      cases res
      case ok =>
        obtain ⟨hnull, hfresh, hkeep⟩ := hap.reserve_ok hr
        have hframe : ∀ a ∈ committed st, Function.update mem addr ⟨TYPE_REF, NULL⟩ a = mem a :=
          fun a ha => Function.update_noteq (fun (h : a = addr) => hfresh (h ▸ ha)) _ _
        rcases hc : ap.commit st₁ addr (cellSize F) with ⟨_ | _, st₂⟩
        · -- the commit failed: the next round starts over from the same committed objects
          simp only [reserveCell, hr, hc] at h
          have hcom := (hap.commit_false hc).trans hkeep
          obtain ⟨hne, hout, hins, htype, hmem⟩ := ih h
          rw [hcom] at hout hins hmem
          exact ⟨hne, hout, hins, htype, fun a ha => (hmem a ha).trans (hframe a ha)⟩
        · -- the commit succeeded: the cell is the reserved address
          simp only [reserveCell, hr, hc, Option.some.injEq, Except.ok.injEq, Prod.mk.injEq] at h
          obtain ⟨rfl, rfl, rfl⟩ := h
          exact ⟨hnull, hfresh, (hap.commit_true hc).trans (by rw [hkeep]), by simp [TYPE_REF],
            hframe⟩
      all_goals simp [reserveCell, hr] at h

theorem buildList_chain {fuel count : Nat} {st st' : α} {mem mem' : Heap w}
    {first first' : BitVec w} {cells : List (BitVec w)} (hchain : Chain mem first cells)
    (hnodup : cells.Nodup) (hcells : ∀ c ∈ cells, c ∈ committed st)
    (h : buildList F ap fuel count st mem first = some (.ok (st', mem', first'))) :
    ∃ cells', Chain mem' first' cells' ∧ cells'.length = cells.length + count ∧ cells'.Nodup ∧
      ∀ c ∈ cells', c ∈ committed st' := by
  induction count generalizing st mem first cells with
  | zero =>
      simp only [buildList, Option.some.injEq, Except.ok.injEq, Prod.mk.injEq] at h
      obtain ⟨rfl, rfl, rfl⟩ := h
      exact ⟨cells, hchain, rfl, hnodup, hcells⟩
  | succ count ih =>
      rcases hcell : reserveCell F ap fuel st mem with _ | _ | ⟨obj, st₁, mem₁⟩ <;>
        simp only [buildList, hcell, Option.some.injEq, reduceCtorEq] at h
      obtain ⟨hnull, hfresh, hcom, htype, hframe⟩ := reserveCell_ok hap hcell
      have hobj : obj ∉ cells := fun hc => hfresh (hcells obj hc)
      have hchain₁ : Chain (Function.update mem₁ obj { mem₁ obj with u := first }) obj
          (obj :: cells) := by
        refine ⟨rfl, hnull, by simpa using htype, ?_⟩
        rw [Function.update_same]
        exact hchain.frame fun c hc => by
          rw [Function.update_noteq (fun (h : c = obj) => hobj (h ▸ hc)), hframe c (hcells c hc)]
      obtain ⟨cells', hc', hlen, hnd, hmem⟩ := ih hchain₁ (List.nodup_cons.2 ⟨hobj, hnodup⟩)
        (fun c hc => hcom ▸ Finset.mem_insert.2 ((List.mem_cons.1 hc).imp id (hcells c))) h
      exact ⟨cells', hc', by rw [hlen, List.length_cons]; omega, hnd, hmem⟩

theorem forktest_child_walks_list {fuel count : Nat} {st : α} {mem : Heap w}
    {r : α × Heap w × BitVec w} (h : buildList F ap fuel count st mem NULL = some (.ok r)) :
    ∃ cells, Chain r.2.1 r.2.2 cells ∧ cells.length = count ∧ cells.Nodup ∧
      (∀ c ∈ cells, c ∈ committed r.1) ∧
      (∀ k, walkList r.2.1 (count + 1 + k) r.2.2 = some (.ok ())) ∧
      walkList r.2.1 count r.2.2 = none := by
  obtain ⟨st', mem', first⟩ := r
  obtain ⟨cells, hchain, hlen, hnd, hmem⟩ :=
    buildList_chain hap (show Chain mem NULL [] from rfl) List.nodup_nil (by simp) h
  rw [List.length_nil, Nat.zero_add] at hlen
  obtain ⟨hwalk, hshort⟩ := walkList_chain hchain
  exact ⟨cells, hchain, hlen, hnd, hmem, hlen ▸ hwalk, hlen ▸ hshort⟩

end Build

section Example

-- Hands out the next multiple of four; its first commit fails
def flakyAp : AllocPoint 8 (List (BitVec 8) × Bool) where
  reserve st _ :=
    if BitVec.ofNat 8 (4 * (st.1.length + 1)) = NULL ∨ BitVec.ofNat 8 (4 * (st.1.length + 1)) ∈ st.1
    then (.fail, NULL, st) else (.ok, BitVec.ofNat 8 (4 * (st.1.length + 1)), st)
  commit st addr _ := if st.2 then (false, (st.1, false)) else (true, (addr :: st.1, false))

theorem flakyAp_contract : AllocContract flakyAp fun st => st.1.toFinset where
  reserve_ok {st size addr st'} h := by
    simp only [flakyAp] at h
    split_ifs at h with hfresh
    · cases h
    · simp only [Prod.mk.injEq, true_and] at h
      obtain ⟨rfl, rfl⟩ := h
      simpa [not_or] using hfresh
  commit_true {st addr size st'} h := by
    simp only [flakyAp] at h
    split_ifs at h
    · simp at h
    · simp only [Prod.mk.injEq, true_and] at h
      subst h
      simp
  commit_false {st addr size st'} h := by
    simp only [flakyAp] at h
    split_ifs at h
    · simp only [Prod.mk.injEq, true_and] at h
      subst h
      rfl
    · simp at h

def blankHeap : Heap 8 := fun _ => ⟨TYPE_PAD, 0⟩

end Example

theorem forktest_child_walks_list_flaky :
    AllocContract flakyAp (fun st => st.1.toFinset) ∧
      ∃ r, buildList smallPlatform flakyAp 2 3 ([], true) blankHeap NULL = some (.ok r) ∧
        ∃ cells, Chain r.2.1 r.2.2 cells ∧ cells.length = 3 ∧ cells.Nodup ∧
          (∀ c ∈ cells, c ∈ r.1.1.toFinset) ∧
          (∀ k, walkList r.2.1 (3 + 1 + k) r.2.2 = some (.ok ())) ∧ walkList r.2.1 3 r.2.2 = none :=
  ⟨flakyAp_contract, _, rfl, forktest_child_walks_list flakyAp_contract
    (show buildList smallPlatform flakyAp 2 3 ([], true) blankHeap NULL = _ from rfl)⟩

end Mps
