import Mps.Land.Class

namespace Mps

variable {w : Nat}

namespace BlockSet

def sublist (B : BlockSet w) (bs : List (Range w)) (h : bs.Sublist B.blocks) : BlockSet w :=
  ⟨bs, fun b hb => B.nonempty b (h.subset hb), B.disjoint.sublist h⟩

def erase (B : BlockSet w) (b : Range w) : BlockSet w :=
  B.sublist (B.blocks.erase b) (List.erase_sublist _ _)

@[simp] theorem sublist_blocks (B : BlockSet w) (bs : List (Range w)) (h : bs.Sublist B.blocks) :
    (B.sublist bs h).blocks = bs := rfl

theorem free_erase {B : BlockSet w} {b : Range w} (hb : b ∈ B.blocks) :
    B.free = b.addrs ∪ (B.erase b).free ∧ Disjoint b.addrs (B.erase b).free := by
  have hperm := List.perm_cons_erase hb
  refine ⟨freeOf_perm hperm, disjoint_freeOf fun c hc => ?_⟩
  exact (List.pairwise_cons.1 (B.disjoint.perm hperm fun h => h.symm)).1 c hc

theorem mem_erase {B : BlockSet w} {b c : Range w} : c ∈ (B.erase b).blocks ↔ c ≠ b ∧ c ∈ B.blocks :=
  B.nodup.mem_erase_iff

-- The pieces of `old` on either side of `r`, keeping the non-empty ones
def fragments (old r : Range w) (hn : RangesNest old r = true) : List (Range w) :=
  [⟨old.base, r.base, ((RangesNest_iff _ _).1 hn).1, r.base_lt_two_pow⟩,
    ⟨r.limit, old.limit, ((RangesNest_iff _ _).1 hn).2, old.limit_lt⟩].filter
      fun f => !RangeIsEmpty f

theorem mem_fragments {old r f : Range w} {hn : RangesNest old r = true}
    (hf : f ∈ fragments old r hn) : f.base < f.limit ∧ f.addrs ⊆ old.addrs := by
  have := r.base_le_limit
  rw [RangesNest_iff] at hn
  simp only [fragments, List.mem_filter, List.mem_cons, List.mem_singleton, List.not_mem_nil,
    or_false, Bool.not_eq_true', RangeIsEmpty_eq_false_iff] at hf
  obtain ⟨rfl | rfl, hlt⟩ := hf <;> refine ⟨hlt, fun a ha => ?_⟩ <;>
    simp only [Range.mem_addrs] at ha ⊢ <;> omega

theorem freeOf_fragments (old r : Range w) (hn : RangesNest old r = true) :
    freeOf (fragments old r hn) = old.addrs \ r.addrs := by
  have := r.base_le_limit
  rw [RangesNest_iff] at hn
  ext a
  simp only [mem_freeOf, fragments, List.mem_filter, List.mem_cons, List.mem_singleton,
    List.not_mem_nil, or_false, Bool.not_eq_true', RangeIsEmpty_eq_false_iff]
  simp only [Finset.mem_sdiff, Range.mem_addrs]
  constructor
  · rintro ⟨f, ⟨rfl | rfl, -⟩, hf⟩ <;> simp only [Range.mem_addrs] at hf <;> omega
  · intro ha
    by_cases hl : a < r.base
    · exact ⟨_, ⟨.inl rfl, by dsimp only; omega⟩, by simp only [Range.mem_addrs]; omega⟩
    · exact ⟨_, ⟨.inr rfl, by dsimp only; omega⟩, by simp only [Range.mem_addrs]; omega⟩

theorem fragments_pairwise (old r : Range w) (hn : RangesNest old r = true) :
    (fragments old r hn).Pairwise fun a b => Disjoint a.addrs b.addrs := by
  have := r.base_le_limit
  refine List.Pairwise.sublist (List.filter_sublist _) (List.pairwise_pair.2 ?_)
  rw [Finset.disjoint_left]
  intro a
  simp only [Range.mem_addrs]
  omega

@[simp] theorem fragments_self (old : Range w) (hn : RangesNest old old = true) :
    fragments old old hn = [] := by
  simp [fragments, RangeIsEmpty]

def carve (B : BlockSet w) (old r : Range w) (hold : old ∈ B.blocks)
    (hn : RangesNest old r = true) : BlockSet w where
  blocks := fragments old r hn ++ (B.erase old).blocks
  nonempty := by
    intro b hb
    rcases List.mem_append.1 hb with hb | hb
    · exact (mem_fragments hb).1
    · exact (B.erase old).nonempty b hb
  disjoint := by
    refine List.pairwise_append.2 ⟨fragments_pairwise old r hn, (B.erase old).disjoint,
      fun f hf c hc => ?_⟩
    exact Finset.disjoint_of_subset_left (mem_fragments hf).2
      (B.disjoint_of_ne hold (mem_erase.1 hc).2 (mem_erase.1 hc).1.symm)

theorem carve_free {B : BlockSet w} {old r : Range w} (hold : old ∈ B.blocks)
    (hn : RangesNest old r = true) : (B.carve old r hold hn).free = B.free \ r.addrs := by
  obtain ⟨hB, hd⟩ := free_erase hold
  have hr : Disjoint r.addrs (B.erase old).free :=
    Finset.disjoint_of_subset_left (addrs_subset_of_nest hn) hd
  rw [hB, Finset.union_sdiff_distrib, Finset.sdiff_eq_self_of_disjoint hr.symm]
  simp only [carve, free, freeOf_append, freeOf_fragments]

theorem carve_length_self {B : BlockSet w} {old : Range w} (hold : old ∈ B.blocks)
    (hn : RangesNest old old = true) :
    (B.carve old old hold hn).blocks.length < B.blocks.length := by
  simp only [carve, fragments_self, List.nil_append, erase, sublist_blocks,
    List.length_erase_of_mem hold]
  have := List.length_pos_of_mem hold
  omega

-- What joining `r` with neighbouring blocks keeps
structure Joined (B : BlockSet w) (r r' : Range w) (B' : BlockSet w) : Prop where
  free_eq : r'.addrs ∪ B'.free = r.addrs ∪ B.free
  disjoint : Disjoint r.addrs B.free → Disjoint r'.addrs B'.free
  nest : RangesNest r' r = true
  grows : ∀ c ∈ B.blocks, c ∈ B'.blocks ∨ RangesNest r' c = true

theorem Joined.refl (B : BlockSet w) (r : Range w) : Joined B r r B :=
  ⟨rfl, id, RangesNest_refl r, fun _ hc => .inl hc⟩

theorem Joined.trans {B B₁ B₂ : BlockSet w} {r r₁ r₂ : Range w} (h₁ : Joined B r r₁ B₁)
    (h₂ : Joined B₁ r₁ r₂ B₂) : Joined B r r₂ B₂ where
  free_eq := h₂.free_eq.trans h₁.free_eq
  disjoint := h₂.disjoint ∘ h₁.disjoint
  nest := RangesNest_trans h₂.nest h₁.nest
  grows c hc := (h₁.grows c hc).elim (h₂.grows c) fun h => .inr (RangesNest_trans h₂.nest h)

theorem joined_erase {B : BlockSet w} {b r r' : Range w} (hb : b ∈ B.blocks)
    (haddrs : r'.addrs = b.addrs ∪ r.addrs) (hr : RangesNest r' r = true)
    (hrb : RangesNest r' b = true) : Joined B r r' (B.erase b) := by
  obtain ⟨hB, hd⟩ := free_erase hb
  refine ⟨by rw [haddrs, hB]; ac_rfl, fun hrB => ?_, hr, fun c hc => ?_⟩
  · rw [haddrs, Finset.disjoint_union_left]
    exact ⟨hd, Finset.disjoint_of_subset_right (hB ▸ Finset.subset_union_right) hrB⟩
  · by_cases hcb : c = b
    · exact .inr (hcb ▸ hrb)
    · exact .inl (mem_erase.2 ⟨hcb, hc⟩)

def absorbLeft (B : BlockSet w) (r : Range w) : Range w × BlockSet w :=
  match h : B.blocks.find? (fun b => b.limit == r.base) with
  | none => (r, B)
  | some b =>
      have hb : b.limit = r.base := by simpa using List.find?_some h
      (⟨b.base, r.limit, by have := b.base_le_limit; have := r.base_le_limit; omega, r.limit_lt⟩,
        B.erase b)

def absorbRight (B : BlockSet w) (r : Range w) : Range w × BlockSet w :=
  match h : B.blocks.find? (fun b => b.base == r.limit) with
  | none => (r, B)
  | some b =>
      have hb : b.base = r.limit := by simpa using List.find?_some h
      (⟨r.base, b.limit, by have := b.base_le_limit; have := r.base_le_limit; omega, b.limit_lt⟩,
        B.erase b)

theorem absorbLeft_joined (B : BlockSet w) (r : Range w) :
    Joined B r (absorbLeft B r).1 (absorbLeft B r).2 := by
  unfold absorbLeft
  split
  · exact Joined.refl B r
  · rename_i b h
    have hb : b.limit = r.base := by simpa using List.find?_some h
    have := b.base_le_limit
    have := r.base_le_limit
    refine joined_erase (List.mem_of_find?_eq_some h) ?_ (by simp; omega) (by simp; omega)
    ext a
    simp only [Range.mem_addrs, Finset.mem_union]
    omega

theorem absorbRight_joined (B : BlockSet w) (r : Range w) :
    Joined B r (absorbRight B r).1 (absorbRight B r).2 := by
  unfold absorbRight
  split
  · exact Joined.refl B r
  · rename_i b h
    have hb : b.base = r.limit := by simpa using List.find?_some h
    have := b.base_le_limit
    have := r.base_le_limit
    refine joined_erase (List.mem_of_find?_eq_some h) ?_ (by simp; omega) (by simp; omega)
    ext a
    simp only [Range.mem_addrs, Finset.mem_union]
    omega

-- Join `r` with both neighbours, as a coalescing land does
def coalesce (B : BlockSet w) (r : Range w) : Range w × BlockSet w :=
  absorbRight (absorbLeft B r).2 (absorbLeft B r).1

theorem coalesce_joined (B : BlockSet w) (r : Range w) :
    Joined B r (coalesce B r).1 (coalesce B r).2 :=
  (absorbLeft_joined B r).trans (absorbRight_joined _ _)

def insertCoalesced (B : BlockSet w) (r : Range w) (hr : r.base < r.limit)
    (hd : Disjoint r.addrs B.free) : BlockSet w where
  blocks := (coalesce B r).1 :: (coalesce B r).2.blocks
  nonempty := by
    have hn := (RangesNest_iff _ _).1 (coalesce_joined B r).nest
    intro b hb
    rcases List.mem_cons.1 hb with rfl | hb
    · omega
    · exact (coalesce B r).2.nonempty b hb
  disjoint := List.pairwise_cons.2 ⟨fun c hc => Finset.disjoint_of_subset_right
    (subset_freeOf hc) ((coalesce_joined B r).disjoint hd), (coalesce B r).2.disjoint⟩

theorem insertCoalesced_free {B : BlockSet w} {r : Range w} (hr : r.base < r.limit)
    (hd : Disjoint r.addrs B.free) : (B.insertCoalesced r hr hd).free = B.free ∪ r.addrs := by
  rw [Finset.union_comm, ← (coalesce_joined B r).free_eq]
  rfl

theorem coalesce_mem_insertCoalesced {B : BlockSet w} {r : Range w} (hr : r.base < r.limit)
    (hd : Disjoint r.addrs B.free) : (coalesce B r).1 ∈ (B.insertCoalesced r hr hd).blocks :=
  List.mem_cons_self _ _

theorem insertCoalesced_grows {B : BlockSet w} {r : Range w} (hr : r.base < r.limit)
    (hd : Disjoint r.addrs B.free) :
    ∀ c ∈ r :: B.blocks, ∃ c' ∈ (B.insertCoalesced r hr hd).blocks, RangesNest c' c = true := by
  intro c hc
  rcases List.mem_cons.1 hc with rfl | hc
  · exact ⟨_, coalesce_mem_insertCoalesced hr hd, (coalesce_joined B c).nest⟩
  · rcases (coalesce_joined B r).grows c hc with h | h
    · exact ⟨c, List.mem_cons_of_mem _ h, RangesNest_refl c⟩
    · exact ⟨_, coalesce_mem_insertCoalesced hr hd, h⟩

end BlockSet

end Mps
