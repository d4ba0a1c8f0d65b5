import Mps.Format.Obj

namespace Mps

variable {w : Nat} {φ : Type}

section Scan

variable (F : Platform w) (MPS_FIX12 : φ → BitVec w → Res × BitVec w × φ)

-- The `while` loop of `obj_scan`, for at most `fuel` iterations
def objScanLoop : Nat → φ → Heap w → BitVec w → BitVec w → Option (Res × φ × Heap w × BitVec w)
  | 0, _, _, _, _ => none
  | fuel + 1, ss, mem, base, limit =>
      if base < limit then
        let obj := mem base
        if obj.type = TYPE_REF then
          let (res, p, ss) := MPS_FIX12 ss obj.u
          if res ≠ .ok then some (res, ss, mem, base)
          else
            let mem := Function.update mem base { obj with u := p }
            objScanLoop fuel ss mem (objSkip F mem base) limit
        else objScanLoop fuel ss mem (objSkip F mem base) limit
      else some (.ok, ss, mem, base)

def objScan (fuel : Nat) (ss : φ) (mem : Heap w) (base limit : BitVec w) :
    Option (Res × φ × Heap w) :=
  (objScanLoop F MPS_FIX12 fuel ss mem base limit).map fun (res, ss, mem, _) => (res, ss, mem)

variable {F MPS_FIX12} {fuel : Nat} {ss ss' : φ} {mem : Heap w} {base limit p : BitVec w}

theorem objScanLoop_done (h : ¬base < limit) :
    objScanLoop F MPS_FIX12 (fuel + 1) ss mem base limit = some (.ok, ss, mem, base) := by
  simp [objScanLoop, h]

theorem objScanLoop_fix_ok (h : base < limit) (href : (mem base).type = TYPE_REF)
    (hfix : MPS_FIX12 ss (mem base).u = (.ok, p, ss')) :
    objScanLoop F MPS_FIX12 (fuel + 1) ss mem base limit =
      objScanLoop F MPS_FIX12 fuel ss' (Function.update mem base { mem base with u := p })
        (objSkip F (Function.update mem base { mem base with u := p }) base) limit := by
  simp [objScanLoop, h, href, hfix]

theorem objScanLoop_fix_ne {res : Res} (h : base < limit) (href : (mem base).type = TYPE_REF)
    (hfix : MPS_FIX12 ss (mem base).u = (res, p, ss')) (hres : res ≠ .ok) :
    objScanLoop F MPS_FIX12 (fuel + 1) ss mem base limit = some (res, ss', mem, base) := by
  simp [objScanLoop, h, href, hfix, hres]

theorem objScanLoop_not_ref (h : base < limit) (href : (mem base).type ≠ TYPE_REF) :
    objScanLoop F MPS_FIX12 (fuel + 1) ss mem base limit =
      objScanLoop F MPS_FIX12 fuel ss mem (objSkip F mem base) limit := by
  simp [objScanLoop, h, href]

end Scan

section Tiling

variable (F : Platform w)

def objSize (o : ObjS w) : Nat := if o.type = TYPE_PAD then o.u.toNat else 2 ^ F.alignLog

def WellFormed (o : ObjS w) : Prop :=
  o.type = TYPE_REF ∨ o.type = TYPE_FWD ∨
    (o.type = TYPE_PAD ∧ 0 < o.u.toNat ∧ (ALIGNMENT F).toNat ∣ o.u.toNat)

instance (o : ObjS w) : Decidable (WellFormed F o) :=
  inferInstanceAs (Decidable (_ ∨ _ ∨ _))

-- `objs` laid out one after another from `base`, tiling `[base, limit)` exactly
inductive Tiles (mem : Heap w) : BitVec w → List (ObjS w) → BitVec w → Prop
  | nil (base : BitVec w) : Tiles mem base [] base
  | cons {base next limit : BitVec w} {o : ObjS w} {os : List (ObjS w)} :
      mem base = o → WellFormed F o → base.toNat + objSize F o = next.toNat →
      Tiles mem next os limit → Tiles mem base (o :: os) limit

variable {F}

theorem objSize_pos {o : ObjS w} (h : WellFormed F o) : 0 < objSize F o := by
  unfold objSize
  split_ifs with hpad
  · rcases h with h | h | h
    · rw [h] at hpad; cases hpad
    · rw [h] at hpad; cases hpad
    · exact h.2.1
  · exact Nat.two_pow_pos _

theorem objSkip_eq_next {mem : Heap w} {base next : BitVec w} {o : ObjS w} (hmem : mem base = o)
    (hwf : WellFormed F o) (hsize : base.toNat + objSize F o = next.toNat) :
    objSkip F mem base = next := by
  apply BitVec.eq_of_toNat_eq
  have hnext := next.isLt
  subst hmem
  by_cases hpad : (mem base).type = TYPE_PAD
  · have hdvd : 2 ^ F.alignLog ∣ (mem base).u.toNat := by
      rcases hwf with h | h | h
      · rw [h] at hpad; cases hpad
      · rw [h] at hpad; cases hpad
      · simpa using h.2.2
    rw [objSize, if_pos hpad] at hsize
    rw [objSkip_of_pad F hpad hdvd, BitVec.toNat_add_of_lt (by omega), hsize]
  · rw [objSize, if_neg hpad] at hsize
    rw [objSkip_of_ne_pad F hpad, BitVec.toNat_add_of_lt (by rw [ALIGNMENT_toNat]; omega),
      ALIGNMENT_toNat, hsize]

namespace Tiles

variable {mem : Heap w}

theorem le {base limit : BitVec w} {objs : List (ObjS w)} (h : Tiles F mem base objs limit) :
    base.toNat ≤ limit.toNat := by
  induction h with
  | nil => exact le_rfl
  | cons _ hwf hsize _ ih =>
      have := objSize_pos hwf
      omega

theorem lt_of_cons {base limit : BitVec w} {o : ObjS w} {os : List (ObjS w)}
    (h : Tiles F mem base (o :: os) limit) : base < limit := by
  cases h with
  | cons _ hwf hsize htail =>
      have := objSize_pos hwf
      have := htail.le
      rw [BitVec.lt_def]
      omega

theorem update_of_lt {base limit a : BitVec w} {objs : List (ObjS w)} (x : ObjS w)
    (h : Tiles F mem base objs limit) (ha : a.toNat < base.toNat) :
    Tiles F (Function.update mem a x) base objs limit := by
  induction h with
  | nil base => exact .nil base
  | @cons base next limit o os hmem hwf hsize _ ih =>
      have hne : base ≠ a := fun h => by subst h; omega
      exact .cons (by rw [Function.update_noteq hne, hmem]) hwf hsize (ih (by omega))

theorem run_from_next {mem₁ mem' : Heap w} {base next limit : BitVec w} {o : ObjS w}
    {os : List (ObjS w)} (hbase : base.toNat < next.toNat) (hlt : base < limit)
    (hmem₁ : mem₁ base = o) (hwf : WellFormed F o) (hsize : base.toNat + objSize F o = next.toNat)
    (hframe₁ : ∀ a, a ≠ base → mem₁ a = mem a) (ht : Tiles F mem' next os limit)
    (hframe : ∀ a, mem' a ≠ mem₁ a → next ≤ a ∧ a < limit) :
    Tiles F mem' base (o :: os) limit ∧ ∀ a, mem' a ≠ mem a → base ≤ a ∧ a < limit := by
  have hkeep : mem' base = o :=
    hmem₁ ▸ by_contra fun h => by have := BitVec.le_def.1 (hframe base h).1; omega
  refine ⟨.cons hkeep hwf hsize ht, fun a ha => ?_⟩
  by_cases hab : a = base
  · subst hab
    exact ⟨BitVec.le_def.2 le_rfl, hlt⟩
  · obtain ⟨hle, hlim⟩ := hframe a (by rwa [hframe₁ a hab])
    exact ⟨BitVec.le_def.2 (by have := BitVec.le_def.1 hle; omega), hlim⟩

end Tiles

end Tiling

section Refinement

variable (MPS_FIX12 : φ → BitVec w → Res × BitVec w × φ)

-- The scan over the list of objects: references fixed in order, until a fix fails
def scanObjects : φ → List (ObjS w) → Res × φ × List (ObjS w)
  | ss, [] => (.ok, ss, [])
  | ss, o :: os =>
      if o.type = TYPE_REF then
        let (res, p, ss) := MPS_FIX12 ss o.u
        if res ≠ .ok then (res, ss, o :: os)
        else
          let (res, ss, os) := scanObjects ss os
          (res, ss, { o with u := p } :: os)
      else
        let (res, ss, os) := scanObjects ss os
        (res, ss, o :: os)

variable {MPS_FIX12} {ss ss' : φ} {o : ObjS w} {os : List (ObjS w)} {p : BitVec w}

theorem scanObjects_fix_ok (href : o.type = TYPE_REF) (hfix : MPS_FIX12 ss o.u = (.ok, p, ss')) :
    scanObjects MPS_FIX12 ss (o :: os) =
      ((scanObjects MPS_FIX12 ss' os).1, (scanObjects MPS_FIX12 ss' os).2.1,
        { o with u := p } :: (scanObjects MPS_FIX12 ss' os).2.2) := by
  simp [scanObjects, href, hfix]

theorem scanObjects_fix_ne {res : Res} (href : o.type = TYPE_REF)
    (hfix : MPS_FIX12 ss o.u = (res, p, ss')) (hres : res ≠ .ok) :
    scanObjects MPS_FIX12 ss (o :: os) = (res, ss', o :: os) := by
  simp [scanObjects, href, hfix, hres]

theorem scanObjects_not_ref (href : o.type ≠ TYPE_REF) :
    scanObjects MPS_FIX12 ss (o :: os) =
      ((scanObjects MPS_FIX12 ss os).1, (scanObjects MPS_FIX12 ss os).2.1,
        o :: (scanObjects MPS_FIX12 ss os).2.2) := by
  simp [scanObjects, href]

variable (MPS_FIX12) (F : Platform w)

theorem objScanLoop_tiles {mem : Heap w} {base limit : BitVec w} {objs : List (ObjS w)}
    (ht : Tiles F mem base objs limit) (ss : φ) {fuel : Nat} (hfuel : objs.length < fuel) :
    ∃ mem' stop, objScanLoop F MPS_FIX12 fuel ss mem base limit =
        some ((scanObjects MPS_FIX12 ss objs).1, (scanObjects MPS_FIX12 ss objs).2.1, mem', stop) ∧
      Tiles F mem' base (scanObjects MPS_FIX12 ss objs).2.2 limit ∧
      ((scanObjects MPS_FIX12 ss objs).1 = .ok → stop = limit) ∧
      ∀ a, mem' a ≠ mem a → base ≤ a ∧ a < limit := by
  induction objs generalizing mem base ss fuel with
  | nil =>
      cases ht
      obtain ⟨fuel, rfl⟩ : ∃ f, fuel = f + 1 := ⟨fuel - 1, by simp at hfuel; omega⟩
      exact ⟨mem, _, objScanLoop_done (by simp [BitVec.lt_def]), .nil _, fun _ => rfl,
        fun _ h => absurd rfl h⟩
  | cons o os ih =>
      obtain ⟨fuel, rfl⟩ : ∃ f, fuel = f + 1 := ⟨fuel - 1, by simp at hfuel; omega⟩
      have hlt := ht.lt_of_cons
      cases ht with
      | @cons _ next _ _ _ hmem hwf hsize htail =>
      subst hmem
      have hbase : base.toNat < next.toNat := by have := objSize_pos hwf; omega
      have hfuel' : os.length < fuel := by simp at hfuel; omega
      by_cases href : (mem base).type = TYPE_REF
      · rcases hfix : MPS_FIX12 ss (mem base).u with ⟨res, p, ss₁⟩
        by_cases hres : res = .ok
        · -- the reference is fixed and written back, and the run goes on at `next`
          subst hres
          have hwf' : WellFormed F { mem base with u := p } := Or.inl href
          have hsize' : base.toNat + objSize F { mem base with u := p } = next.toNat := by
            simpa [objSize, href, TYPE_REF, TYPE_PAD] using hsize
          obtain ⟨mem', stop, heq, ht', hok, hframe⟩ :=
            ih (htail.update_of_lt { mem base with u := p } hbase) ss₁ hfuel'
          have hrun := Tiles.run_from_next hbase hlt (Function.update_same _ _ _) hwf' hsize'
            (fun _ ha => Function.update_noteq ha _ _) ht' hframe
          rw [objScanLoop_fix_ok hlt href hfix,
            objSkip_eq_next (Function.update_same _ _ _) hwf' hsize', scanObjects_fix_ok href hfix]
          exact ⟨mem', stop, heq, hrun.1, hok, hrun.2⟩
        · -- the first failing fix ends the scan at `base`
          rw [objScanLoop_fix_ne hlt href hfix hres, scanObjects_fix_ne href hfix hres]
          exact ⟨mem, base, rfl, .cons rfl hwf hsize htail, fun h => absurd h hres,
            fun _ h => absurd rfl h⟩
      · -- no reference to fix: the run goes on at `next`
        obtain ⟨mem', stop, heq, ht', hok, hframe⟩ := ih htail ss hfuel'
        have hrun := Tiles.run_from_next hbase hlt rfl hwf hsize (fun _ _ => rfl) ht' hframe
        rw [objScanLoop_not_ref hlt href, objSkip_eq_next rfl hwf hsize, scanObjects_not_ref href]
        exact ⟨mem', stop, heq, hrun.1, hok, hrun.2⟩

end Refinement

-- A reference, an eight-byte pad and a forwarded object, tiling `[0, 16)`

section Example

def scanHeap : Heap 8 := fun a =>
  if a = 0 then ⟨TYPE_REF, 40⟩ else if a = 4 then ⟨TYPE_PAD, 8⟩
  else if a = 12 then ⟨TYPE_FWD, 80⟩ else ⟨TYPE_PAD, 0⟩

def scanObjs : List (ObjS 8) := [⟨TYPE_REF, 40⟩, ⟨TYPE_PAD, 8⟩, ⟨TYPE_FWD, 80⟩]

-- A fix that counts its calls and moves each reference up by 64
def countingFix (calls : Nat) (ref : BitVec 8) : Res × BitVec 8 × Nat := (.ok, ref + 64, calls + 1)

theorem scanHeap_tiles : Tiles smallPlatform scanHeap 0 scanObjs 16 :=
  @Tiles.cons _ _ _ 0 4 16 _ _ rfl (by decide) (by decide) <|
    @Tiles.cons _ _ _ 4 12 16 _ _ rfl (by decide) (by decide) <|
      @Tiles.cons _ _ _ 12 16 16 _ _ rfl (by decide) (by decide) (.nil 16)

end Example

theorem objScanLoop_tiles_small :
    Tiles smallPlatform scanHeap 0 scanObjs 16 ∧ scanObjs.length < 4 ∧
      ∃ mem' stop, objScanLoop smallPlatform countingFix 4 0 scanHeap 0 16 =
          some ((scanObjects countingFix 0 scanObjs).1, (scanObjects countingFix 0 scanObjs).2.1,
            mem', stop) ∧
        Tiles smallPlatform mem' 0 (scanObjects countingFix 0 scanObjs).2.2 16 ∧
        ((scanObjects countingFix 0 scanObjs).1 = .ok → stop = 16) ∧
        ∀ a, mem' a ≠ scanHeap a → 0 ≤ a ∧ a < 16 :=
  ⟨scanHeap_tiles, by decide,
    objScanLoop_tiles countingFix smallPlatform scanHeap_tiles 0 (by decide)⟩

example : (objScan smallPlatform countingFix 4 0 scanHeap 0 16).map (·.2.1) = some 1 := by
  decide

theorem objScanLoop_spins (MPS_FIX12 : φ → BitVec w → Res × BitVec w × φ) (F : Platform w)
    {ss : φ} {mem : Heap w} {base limit : BitVec w} (h : base < limit)
    (hpad : (mem base).type = TYPE_PAD) (hzero : ALIGN_UP (mem base).u (ALIGNMENT F) = 0)
    (fuel : Nat) : objScanLoop F MPS_FIX12 fuel ss mem base limit = none := by
  have hskip : objSkip F mem base = base := by
    rw [objSkip, if_pos hpad, hzero, add_zero]
  induction fuel with
  | zero => rfl
  | succ fuel ih => rw [objScanLoop_not_ref h (by rw [hpad]; decide), hskip, ih]

def zeroPads : Heap 8 := fun _ => ⟨TYPE_PAD, 0⟩

theorem objScanLoop_spins_zeroPads :
    (0 : BitVec 8) < 16 ∧ (zeroPads 0).type = TYPE_PAD ∧
      ALIGN_UP (zeroPads 0).u (ALIGNMENT smallPlatform) = 0 ∧
      objScanLoop smallPlatform countingFix 100 0 zeroPads 0 16 = none :=
  ⟨by decide, rfl, by decide,
    objScanLoop_spins countingFix smallPlatform (by decide) rfl (by decide) 100⟩

section Compose

variable {F : Platform w} {MPS_FIX12 : φ → BitVec w → Res × BitVec w × φ}

theorem objSkip_aligned (mem : Heap w) {addr : BitVec w} (h : 2 ^ F.alignLog ∣ addr.toNat) :
    2 ^ F.alignLog ∣ (objSkip F mem addr).toNat := by
  simp only [objSkip]
  rw [BitVec.toNat_add, Nat.dvd_mod_iff (Nat.pow_dvd_pow 2 F.alignLog_lt.le)]
  exact Nat.dvd_add h (by rw [ALIGN_UP_toNat_eq]; exact Nat.dvd_mul_left _ _)

theorem objScanLoop_aligned {fuel : Nat} {ss ss' : φ} {mem mem' : Heap w}
    {base limit stop : BitVec w} {res : Res} (hbase : 2 ^ F.alignLog ∣ base.toNat)
    (h : objScanLoop F MPS_FIX12 fuel ss mem base limit = some (res, ss', mem', stop)) :
    2 ^ F.alignLog ∣ stop.toNat ∧ ∀ a, mem' a ≠ mem a → 2 ^ F.alignLog ∣ a.toNat := by
  induction fuel generalizing ss mem base with
  | zero => cases h
  | succ fuel ih =>
      by_cases hlt : base < limit
      swap
      · -- the loop ends where it is
        rw [objScanLoop_done hlt] at h
        cases h
        exact ⟨hbase, fun _ h => absurd rfl h⟩
      by_cases href : (mem base).type = TYPE_REF
      · rcases hfix : MPS_FIX12 ss (mem base).u with ⟨r, p, ss₁⟩
        by_cases hr : r = .ok
        · -- the fixed reference is written back at `base`, and the loop goes on
          subst hr
          rw [objScanLoop_fix_ok hlt href hfix] at h
          obtain ⟨hstop, hwrites⟩ := ih (objSkip_aligned _ hbase) h
          exact ⟨hstop, fun a ha => if hab : a = base then hab ▸ hbase
            else hwrites a (by rwa [Function.update_noteq hab])⟩
        · rw [objScanLoop_fix_ne hlt href hfix hr] at h
          cases h
          exact ⟨hbase, fun _ h => absurd rfl h⟩
      · rw [objScanLoop_not_ref hlt href] at h
        exact ih (objSkip_aligned _ hbase) h

-- A pad of five bytes, then references to themselves
def oddPad : Heap 8 := fun a => if a = 0 then ⟨TYPE_PAD, 5⟩ else ⟨TYPE_REF, a⟩

theorem objScanLoop_aligned_oddPad :
    2 ^ smallPlatform.alignLog ∣ (0 : BitVec 8).toNat ∧
      ∃ res ss' mem' stop, objScanLoop smallPlatform countingFix 4 0 oddPad 0 16 =
          some (res, ss', mem', stop) ∧
        2 ^ smallPlatform.alignLog ∣ stop.toNat ∧
        ∀ a, mem' a ≠ oddPad a → 2 ^ smallPlatform.alignLog ∣ a.toNat :=
  have hbase : 2 ^ smallPlatform.alignLog ∣ (0 : BitVec 8).toNat := by decide
  ⟨hbase, _, _, _, _, rfl, objScanLoop_aligned hbase
    (show objScanLoop smallPlatform countingFix 4 0 oddPad 0 16 = _ from rfl)⟩

theorem objScanLoop_split {mem : Heap w} {base mid limit : BitVec w} {pre : List (ObjS w)}
    (h : Tiles F mem base pre mid) (hmid : mid ≤ limit) (ss : φ) (fuel : Nat) :
    objScanLoop F MPS_FIX12 (pre.length + fuel) ss mem base limit =
      match objScanLoop F MPS_FIX12 (pre.length + 1) ss mem base mid with
      | some (.ok, ss', mem', _) => objScanLoop F MPS_FIX12 fuel ss' mem' mid limit
      | r => r := by
  induction pre generalizing mem base ss with
  | nil =>
      cases h
      rw [List.length_nil, Nat.zero_add, Nat.zero_add,
        objScanLoop_done (by simp [BitVec.lt_def])]
  | cons o os ih =>
      have hlt := h.lt_of_cons
      have hlim : base < limit := by bv_omega
      cases h with
      | @cons _ next _ _ _ hmem hwf hsize htail =>
      subst hmem
      have hbase : base.toNat < next.toNat := by have := objSize_pos hwf; omega
      rw [List.length_cons, show os.length + 1 + fuel = os.length + fuel + 1 by omega]
      by_cases href : (mem base).type = TYPE_REF
      · rcases hfix : MPS_FIX12 ss (mem base).u with ⟨res, p, ss₁⟩
        by_cases hres : res = .ok
        · -- both scans fix the reference and go on from `next`
          subst hres
          have hwf' : WellFormed F { mem base with u := p } := Or.inl href
          have hsize' : base.toNat + objSize F { mem base with u := p } = next.toNat := by
            simpa [objSize, href, TYPE_REF, TYPE_PAD] using hsize
          have hnext := objSkip_eq_next (Function.update_same _ _ mem) hwf' hsize'
          rw [objScanLoop_fix_ok hlim href hfix, objScanLoop_fix_ok hlt href hfix, hnext]
          exact ih (htail.update_of_lt _ hbase) ss₁
        · -- both stop at the failing fix
          rw [objScanLoop_fix_ne hlim href hfix hres, objScanLoop_fix_ne hlt href hfix hres]
          cases res <;> first | exact absurd rfl hres | rfl
      · rw [objScanLoop_not_ref hlim href, objScanLoop_not_ref hlt href,
          objSkip_eq_next rfl hwf hsize]
        exact ih htail ss

theorem scanHeap_front_tiles :
    Tiles smallPlatform scanHeap 0 [⟨TYPE_REF, 40⟩, ⟨TYPE_PAD, 8⟩] 12 :=
  @Tiles.cons _ _ _ 0 4 12 _ _ rfl (by decide) (by decide) <|
    @Tiles.cons _ _ _ 4 12 12 _ _ rfl (by decide) (by decide) (.nil 12)

theorem objScanLoop_split_scanHeap :
    Tiles smallPlatform scanHeap 0 [⟨TYPE_REF, 40⟩, ⟨TYPE_PAD, 8⟩] 12 ∧ (12 : BitVec 8) ≤ 16 ∧
      objScanLoop smallPlatform countingFix (2 + 2) 0 scanHeap 0 16 =
        match objScanLoop smallPlatform countingFix (2 + 1) 0 scanHeap 0 12 with
        | some (.ok, ss', mem', _) => objScanLoop smallPlatform countingFix 2 ss' mem' 12 16
        | r => r :=
  have hmid : (12 : BitVec 8) ≤ 16 := by decide
  ⟨scanHeap_front_tiles, hmid, objScanLoop_split scanHeap_front_tiles hmid 0 2⟩

end Compose

end Mps
