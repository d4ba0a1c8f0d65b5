import Mps.Format.Scan

namespace Mps

variable {w : Nat} {F : Platform w}

section Layout

variable (F)

-- `a` is the start of an object of `size` bytes among `objs`, laid out from `base`
def StartsAt : Nat → List (ObjS w) → Nat → Nat → Prop
  | _, [], _, _ => False
  | base, o :: os, a, size => (a = base ∧ objSize F o = size) ∨ StartsAt (base + objSize F o) os a size

instance StartsAt.decidable : ∀ base objs a size, Decidable (StartsAt F base objs a size)
  | _, [], _, _ => isFalse id
  | base, o :: os, a, size =>
      have := StartsAt.decidable (base + objSize F o) os a size
      inferInstanceAs
        (Decidable ((a = base ∧ objSize F o = size) ∨ StartsAt F (base + objSize F o) os a size))

def skipN (mem : Heap w) : Nat → BitVec w → BitVec w
  | 0, addr => addr
  | n + 1, addr => skipN mem n (objSkip F mem addr)

def forwardAll (mem : Heap w) (calls : List (BitVec w × BitVec w)) : Heap w :=
  calls.foldl (fun mem c => objFwd mem c.1 c.2) mem

-- The objects after `obj_fwd old new`: the one starting at `old` is forwarded
def forwardObjs (old new : BitVec w) : Nat → List (ObjS w) → List (ObjS w)
  | _, [] => []
  | base, o :: os =>
      if base = old.toNat then ⟨TYPE_FWD, new⟩ :: os
      else o :: forwardObjs old new (base + objSize F o) os

def forwardAllObjs (base : Nat) (objs : List (ObjS w)) (calls : List (BitVec w × BitVec w)) :
    List (ObjS w) :=
  calls.foldl (fun objs c => forwardObjs F c.1 c.2 base objs) objs

variable {F}

theorem StartsAt.le {base a size : Nat} {objs : List (ObjS w)}
    (h : StartsAt F base objs a size) : base ≤ a := by
  induction objs generalizing base with
  | nil => exact h.elim
  | cons o os ih =>
      rcases h with ⟨rfl, -⟩ | h
      · exact le_rfl
      · have := ih h
        omega

theorem StartsAt.of_sizes {base a size : Nat} {objs objs' : List (ObjS w)}
    (hs : objs'.map (objSize F) = objs.map (objSize F)) (h : StartsAt F base objs a size) :
    StartsAt F base objs' a size := by
  induction objs generalizing base objs' with
  | nil => exact h.elim
  | cons o os ih =>
      cases objs' with
      | nil => cases hs
      | cons o' os' =>
          simp only [List.map_cons, List.cons.injEq] at hs
          simp only [StartsAt, hs.1] at h ⊢
          exact h.imp_right (ih hs.2)

end Layout

namespace Tiles

variable {mem : Heap w}

theorem update_of_ge {base limit a : BitVec w} {objs : List (ObjS w)} (x : ObjS w)
    (h : Tiles F mem base objs limit) (ha : limit.toNat ≤ a.toNat) :
    Tiles F (Function.update mem a x) base objs limit := by
  induction h with
  | nil base => exact .nil base
  | @cons base next limit o os hmem hwf hsize htail ih =>
      have hne : base ≠ a := fun h => by
        subst h
        have := objSize_pos hwf
        have := htail.le
        omega
      exact .cons (by rw [Function.update_noteq hne, hmem]) hwf hsize (ih ha)

theorem append {base mid limit : BitVec w} {pre post : List (ObjS w)}
    (h₁ : Tiles F mem base pre mid) (h₂ : Tiles F mem mid post limit) :
    Tiles F mem base (pre ++ post) limit := by
  induction h₁ with
  | nil => exact h₂
  | cons hmem hwf hsize _ ih => exact .cons hmem hwf hsize (ih h₂)

theorem lt_of_startsAt {base limit : BitVec w} {objs : List (ObjS w)} {a size : Nat}
    (h : Tiles F mem base objs limit) (ha : StartsAt F base.toNat objs a size) :
    a < limit.toNat := by
  induction h with
  | nil => exact ha.elim
  | cons _ hwf hsize htail ih =>
      have := objSize_pos hwf
      have := htail.le
      rcases ha with ⟨rfl, -⟩ | ha
      · omega
      · exact ih (hsize ▸ ha)

theorem skipN_length {base limit : BitVec w} {objs : List (ObjS w)}
    (h : Tiles F mem base objs limit) : skipN F mem objs.length base = limit := by
  induction h with
  | nil => rfl
  | cons hmem hwf hsize _ ih => rw [List.length_cons, skipN, objSkip_eq_next hmem hwf hsize, ih]

theorem forward {base limit old : BitVec w} {objs : List (ObjS w)}
    (h : Tiles F mem base objs limit) (hold : StartsAt F base.toNat objs old.toNat (2 ^ F.alignLog))
    (new : BitVec w) :
    Tiles F (objFwd mem old new) base (forwardObjs F old new base.toNat objs) limit ∧
      (forwardObjs F old new base.toNat objs).map (objSize F) = objs.map (objSize F) := by
  induction h with
  | nil => exact hold.elim
  | @cons base next limit o os hmem hwf hsize htail ih =>
      have hbase : base.toNat < next.toNat := by have := objSize_pos hwf; omega
      rcases hold with ⟨hat, hsz⟩ | hold
      · obtain rfl : old = base := BitVec.eq_of_toNat_eq hat
        have hfwd : objSize F (⟨TYPE_FWD, new⟩ : ObjS w) = objSize F o := by
          rw [hsz]
          simp [objSize, TYPE_FWD, TYPE_PAD]
        rw [forwardObjs, if_pos rfl]
        exact ⟨.cons (objFwd_self mem old new) (.inr (.inl rfl)) (hfwd ▸ hsize)
          (htail.update_of_lt _ hbase), by simp [hfwd]⟩
      · have hne : base ≠ old := fun h => by
          have := (hsize ▸ hold).le
          subst h
          omega
        obtain ⟨ht', hs'⟩ := ih (hsize ▸ hold)
        rw [forwardObjs, if_neg fun h => hne (BitVec.eq_of_toNat_eq h), hsize]
        exact ⟨.cons (by rw [objFwd, Function.update_noteq hne, hmem]) hwf hsize ht',
          by simp [hs']⟩

theorem forwardAll {base limit : BitVec w} {objs : List (ObjS w)}
    (h : Tiles F mem base objs limit) (calls : List (BitVec w × BitVec w))
    (hcalls : ∀ c ∈ calls, StartsAt F base.toNat objs c.1.toNat (2 ^ F.alignLog)) :
    Tiles F (Mps.forwardAll mem calls) base (forwardAllObjs F base.toNat objs calls) limit ∧
      (forwardAllObjs F base.toNat objs calls).map (objSize F) = objs.map (objSize F) := by
  induction calls generalizing mem objs with
  | nil => exact ⟨h, rfl⟩
  | cons c cs ih =>
      obtain ⟨h₁, hs₁⟩ := h.forward (hcalls c (List.mem_cons_self _ _)) c.2
      obtain ⟨h', hs'⟩ :=
        ih h₁ fun c' hc' => (hcalls c' (List.mem_cons_of_mem _ hc')).of_sizes hs₁
      exact ⟨h', hs'.trans hs₁⟩

theorem pad {base mid limit : BitVec w} {objs : List (ObjS w)} (h : Tiles F mem base objs mid)
    {size : BitVec w} (hpos : 0 < size.toNat) (hdvd : (ALIGNMENT F).toNat ∣ size.toNat)
    (hlim : mid.toNat + size.toNat = limit.toNat) :
    Tiles F (objPad mem mid size) base (objs ++ [⟨TYPE_PAD, size⟩]) limit :=
  (h.update_of_ge _ le_rfl).append <|
    .cons (objPad_self mem mid size) (.inr (.inr ⟨rfl, hpos, hdvd⟩))
      (by simpa [objSize, TYPE_PAD] using hlim) (.nil limit)

end Tiles

theorem forwardAll_fwd {mem : Heap w} {a : BitVec w} (calls : List (BitVec w × BitVec w))
    (ha : (mem a).type = TYPE_FWD) : (forwardAll mem calls a).type = TYPE_FWD := by
  induction calls generalizing mem with
  | nil => exact ha
  | cons c cs ih =>
      apply ih
      show (objFwd mem c.1 c.2 a).type = TYPE_FWD
      by_cases hc : a = c.1
      · rw [hc, objFwd_self]
      · rwa [objFwd, Function.update_noteq hc]

theorem forwardAll_forwarded {mem : Heap w} (calls : List (BitVec w × BitVec w)) :
    ∀ c ∈ calls, (forwardAll mem calls c.1).type = TYPE_FWD := by
  induction calls generalizing mem with
  | nil => exact fun _ h => absurd h (List.not_mem_nil _)
  | cons c cs ih =>
      intro c' hc'
      rcases List.mem_cons.1 hc' with rfl | hc'
      · exact forwardAll_fwd cs (by simp [TYPE_FWD])
      · exact ih c' hc'

theorem collection_keeps_segment_walkable {mem : Heap w} {base mid limit size : BitVec w}
    {objs : List (ObjS w)} (h : Tiles F mem base objs mid) (calls : List (BitVec w × BitVec w))
    (hcalls : ∀ c ∈ calls, StartsAt F base.toNat objs c.1.toNat (2 ^ F.alignLog))
    (hpos : 0 < size.toNat) (hdvd : (ALIGNMENT F).toNat ∣ size.toNat)
    (hlim : mid.toNat + size.toNat = limit.toNat) :
    let mem' := objPad (forwardAll mem calls) mid size
    Tiles F mem' base (forwardAllObjs F base.toNat objs calls ++ [⟨TYPE_PAD, size⟩]) limit ∧
      skipN F mem' (objs.length + 1) base = limit ∧
      ∀ c ∈ calls, (mem' c.1).type = TYPE_FWD := by
  obtain ⟨h₁, hs₁⟩ := h.forwardAll calls hcalls
  have hlen : (forwardAllObjs F base.toNat objs calls).length = objs.length := by
    simpa using congrArg List.length hs₁
  have ht := h₁.pad hpos hdvd hlim
  refine ⟨ht, by simpa [hlen] using ht.skipN_length, fun c hc => ?_⟩
  have hne : c.1 ≠ mid := fun hc₁ => by
    have := h.lt_of_startsAt (hcalls c hc)
    rw [hc₁] at this
    omega
  show (objPad (forwardAll mem calls) mid size c.1).type = TYPE_FWD
  rw [objPad, Function.update_noteq hne]
  exact forwardAll_forwarded calls c hc

section Example

-- The reference at address 0 of the scan example is copied to 100.
def forwardCalls : List (BitVec 8 × BitVec 8) := [(0, 100)]

example : forwardAllObjs smallPlatform 0 scanObjs forwardCalls =
    [⟨TYPE_FWD, 100⟩, ⟨TYPE_PAD, 8⟩, ⟨TYPE_FWD, 80⟩] := by
  decide

end Example

theorem collection_keeps_segment_walkable_small :
    Tiles smallPlatform scanHeap 0 scanObjs 16 ∧
      (∀ c ∈ forwardCalls, StartsAt smallPlatform (0 : BitVec 8).toNat scanObjs c.1.toNat
        (2 ^ smallPlatform.alignLog)) ∧
      0 < (16 : BitVec 8).toNat ∧ (ALIGNMENT smallPlatform).toNat ∣ (16 : BitVec 8).toNat ∧
      (16 : BitVec 8).toNat + (16 : BitVec 8).toNat = (32 : BitVec 8).toNat ∧
      Tiles smallPlatform (objPad (forwardAll scanHeap forwardCalls) 16 16) 0
          (forwardAllObjs smallPlatform (0 : BitVec 8).toNat scanObjs forwardCalls ++
            [⟨TYPE_PAD, 16⟩]) 32 ∧
        skipN smallPlatform (objPad (forwardAll scanHeap forwardCalls) 16 16)
          (scanObjs.length + 1) 0 = 32 ∧
        ∀ c ∈ forwardCalls, (objPad (forwardAll scanHeap forwardCalls) 16 16 c.1).type = TYPE_FWD :=
  have hcalls : ∀ c ∈ forwardCalls, StartsAt smallPlatform (0 : BitVec 8).toNat scanObjs
      c.1.toNat (2 ^ smallPlatform.alignLog) := by decide
  have hdvd : (ALIGNMENT smallPlatform).toNat ∣ (16 : BitVec 8).toNat := by decide
  ⟨scanHeap_tiles, hcalls, by decide, hdvd, by decide,
    collection_keeps_segment_walkable scanHeap_tiles forwardCalls hcalls (by decide) hdvd
      (by decide)⟩

end Mps
