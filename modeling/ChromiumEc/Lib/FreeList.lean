import Mathlib.Data.List.Nodup
import Mathlib.Data.List.Pairwise
import Mathlib.Data.List.Perm.Subperm
import Mathlib.Tactic.SplitIfs

/-!
# FreeList — a memory region cut into free and live blocks

Blocks are ranges of addresses.  A heap is a list of free blocks, sorted by address and with no two
of them adjacent, and a list of live blocks; each byte of the region is in exactly one of them.
A live block is carved out of a free one, and comes back by an insertion that joins it with the
blocks it touches.
-/

namespace ChromiumEc.Lib

/-- The addresses `addr`, …, `addr + size - 1`. -/
structure Block where
  addr : Nat
  size : Nat
  deriving DecidableEq, Repr

namespace Block

def top (b : Block) : Nat :=
  b.addr + b.size

def Contains (b : Block) (x : Nat) : Prop :=
  b.addr ≤ x ∧ x < b.top

instance (b : Block) : DecidablePred b.Contains := fun x =>
  inferInstanceAs (Decidable (b.addr ≤ x ∧ x < b.top))

/-- No byte is in both blocks. -/
def Disjoint (b c : Block) : Prop :=
  ∀ x, b.Contains x → ¬ c.Contains x

end Block

/-- How many of the blocks contain the byte at `x`. -/
def cover (l : List Block) (x : Nat) : Nat :=
  l.countP fun b => b.Contains x

/-- Ascending, and with a gap between any two blocks. -/
def Sorted (l : List Block) : Prop :=
  l.Pairwise fun b c => b.top < c.addr

section Cover

variable {b c : Block} {l l₁ l₂ : List Block} {x : Nat}

@[simp] theorem cover_nil : cover [] x = 0 :=
  rfl

@[simp] theorem cover_cons : cover (b :: l) x = (if b.Contains x then 1 else 0) + cover l x := by
  rw [cover, List.countP_cons, Nat.add_comm]
  simp [cover]

@[simp] theorem cover_append : cover (l₁ ++ l₂) x = cover l₁ x + cover l₂ x :=
  List.countP_append

theorem cover_pos (hb : b ∈ l) (hx : b.Contains x) : 0 < cover l x :=
  List.countP_pos_iff.mpr ⟨b, hb, by simpa using hx⟩

theorem exists_of_cover_pos (h : 0 < cover l x) : ∃ b ∈ l, b.Contains x := by
  obtain ⟨b, hb, hx⟩ := List.countP_pos_iff.mp h
  exact ⟨b, hb, by simpa using hx⟩

theorem contains_join (h : b.top = c.addr) :
    (if b.Contains x then 1 else 0) + (if c.Contains x then 1 else 0) =
      if (Block.mk b.addr (b.size + c.size)).Contains x then 1 else 0 := by
  have hiff : (Block.mk b.addr (b.size + c.size)).Contains x ↔ b.Contains x ∨ c.Contains x := by
    simp only [Block.Contains, Block.top] at h ⊢
    omega
  have hexcl : b.Contains x → ¬ c.Contains x := by
    simp only [Block.Contains, Block.top] at h ⊢
    omega
  by_cases hb : b.Contains x
  · simp [hiff, hb, hexcl hb]
  · simp [hiff, hb]

end Cover

/-! ## Coalescing -/

/-- Put a block in front of a list, or join it with the first block if the two touch. -/
def join (b : Block) : List Block → List Block
  | [] => [b]
  | c :: l => if b.top = c.addr then ⟨b.addr, b.size + c.size⟩ :: l else b :: c :: l

/-- Insert a block by address, and join it with the blocks it touches. -/
def insertJoin (b : Block) : List Block → List Block
  | [] => [b]
  | c :: l => if b.addr < c.addr then join b (c :: l) else join c (insertJoin b l)

section Coalescing

variable {b c p : Block} {l l₁ l₂ : List Block} {x hdr : Nat}

theorem cover_join : cover (join b l) x = cover (b :: l) x := by
  cases l with
  | nil => rfl
  | cons c l =>
    rw [join]
    split_ifs with h
    · simp only [cover_cons, ← contains_join h, Nat.add_assoc]
    · rfl

theorem cover_insertJoin : cover (insertJoin b l) x = cover (b :: l) x := by
  induction l with
  | nil => rfl
  | cons c l ih =>
    rw [insertJoin]
    split_ifs
    · exact cover_join
    · rw [cover_join, cover_cons, ih]
      simp only [cover_cons]
      omega

/-- A block of a joined list starts where one of the blocks did, and is at least as large. -/
theorem exists_of_mem_join (h : c ∈ join b l) :
    ∃ d ∈ b :: l, d.addr = c.addr ∧ d.size ≤ c.size := by
  cases l with
  | nil => exact ⟨c, h, rfl, Nat.le_refl _⟩
  | cons d l =>
    rw [join] at h
    split_ifs at h
    · rcases List.mem_cons.mp h with rfl | h
      · exact ⟨b, by simp, rfl, Nat.le_add_right _ _⟩
      · exact ⟨c, by simp [h], rfl, Nat.le_refl _⟩
    · exact ⟨c, h, rfl, Nat.le_refl _⟩

theorem exists_of_mem_insertJoin (h : c ∈ insertJoin b l) :
    ∃ d ∈ b :: l, d.addr = c.addr ∧ d.size ≤ c.size := by
  induction l generalizing c with
  | nil => exact ⟨c, h, rfl, Nat.le_refl _⟩
  | cons p l ih =>
    rw [insertJoin] at h
    split_ifs at h
    · exact exists_of_mem_join h
    · obtain ⟨d, hd, haddr, hsize⟩ := exists_of_mem_join h
      rcases List.mem_cons.mp hd with rfl | hd
      · exact ⟨d, by simp, haddr, hsize⟩
      · obtain ⟨q, hq, hqaddr, hqsize⟩ := ih hd
        refine ⟨q, ?_, hqaddr.trans haddr, Nat.le_trans hqsize hsize⟩
        rcases List.mem_cons.mp hq with rfl | hq
        · simp
        · simp [hq]

theorem join_of_lt (h : ∀ c ∈ l, b.top < c.addr) : join b l = b :: l := by
  cases l with
  | nil => rfl
  | cons c l => exact if_neg (Nat.ne_of_lt (h c List.mem_cons_self))

theorem sorted_join (hl : Sorted l) (h : ∀ c ∈ l, b.top ≤ c.addr) : Sorted (join b l) := by
  cases l with
  | nil => exact List.pairwise_singleton _ _
  | cons c l =>
    obtain ⟨hc, htail⟩ := List.pairwise_cons.mp hl
    rw [join]
    split_ifs with htop
    · refine List.pairwise_cons.mpr ⟨fun d hd => ?_, htail⟩
      have hlt := hc d hd
      simp only [Block.top] at htop hlt ⊢
      omega
    · refine List.pairwise_cons.mpr ⟨fun d hd => ?_, hl⟩
      have hle := h c List.mem_cons_self
      rcases List.mem_cons.mp hd with rfl | hd
      · omega
      · have hlt := hc d hd
        simp only [Block.top] at htop hle hlt ⊢
        omega

theorem sorted_insertJoin (hl : Sorted l) (hb : ∀ c ∈ l, b.top ≤ c.addr ∨ c.top ≤ b.addr)
    (hpos : ∀ c ∈ b :: l, 0 < c.size) : Sorted (insertJoin b l) := by
  induction l with
  | nil => exact List.pairwise_singleton _ _
  | cons c l ih =>
    obtain ⟨hc, htail⟩ := List.pairwise_cons.mp hl
    have hbc := hb c List.mem_cons_self
    have hcpos := hpos c (by simp)
    have hbpos := hpos b (by simp)
    rw [insertJoin]
    split_ifs with hlt
    · refine sorted_join hl fun d hd => ?_
      rcases List.mem_cons.mp hd with rfl | hd
      · simp only [Block.top] at hbc ⊢
        omega
      · have := hc d hd
        simp only [Block.top] at hbc this ⊢
        omega
    · refine sorted_join (ih htail (fun d hd => hb d (by simp [hd])) ?_) fun d hd => ?_
      · intro d hd
        rcases List.mem_cons.mp hd with rfl | hd
        · exact hbpos
        · exact hpos d (by simp [hd])
      · obtain ⟨q, hq, haddr, -⟩ := exists_of_mem_insertJoin hd
        rcases List.mem_cons.mp hq with rfl | hq
        · simp only [Block.top] at hbc ⊢
          omega
        · have := hc q hq
          omega

theorem insertJoin_append (hl : Sorted (l₁ ++ p :: l₂)) (hp : p.addr ≤ b.addr)
    (hb : ∀ c ∈ l₂, b.addr < c.addr) :
    insertJoin b (l₁ ++ p :: l₂) = l₁ ++ join p (join b l₂) := by
  have hfirst (l : List Block) (h : ∀ c ∈ l, b.addr < c.addr) : insertJoin b l = join b l := by
    cases l with
    | nil => rfl
    | cons c l => exact if_pos (h c List.mem_cons_self)
  induction l₁ with
  | nil =>
    rw [List.nil_append, insertJoin, if_neg (Nat.not_lt.mpr hp), hfirst l₂ hb, List.nil_append]
  | cons c l ih =>
    obtain ⟨hc, htail⟩ := List.pairwise_cons.mp hl
    have hcp : c.top < p.addr := hc p (by simp)
    have hcb : ¬ b.addr < c.addr := by
      simp only [Block.top] at hcp
      omega
    rw [List.cons_append, insertJoin, if_neg hcb, ih htail, List.cons_append]
    refine join_of_lt fun d hd => ?_
    rw [← ih htail] at hd
    obtain ⟨q, hq, haddr, -⟩ := exists_of_mem_insertJoin hd
    rcases List.mem_cons.mp hq with rfl | hq
    · omega
    · have := hc q hq
      omega

/-- Sizes that are multiples of `n`. -/
def Multiples (n : Nat) (l : List Block) : Prop :=
  ∀ b ∈ l, n ∣ b.size

theorem Multiples.join {n : Nat} (h : Multiples n (b :: l)) : Multiples n (join b l) := by
  cases l with
  | nil => exact h
  | cons c l =>
    rw [Lib.join]
    split_ifs
    · intro d hd
      rcases List.mem_cons.mp hd with rfl | hd
      · exact Nat.dvd_add (h b (by simp)) (h c (by simp))
      · exact h d (by simp [hd])
    · exact h

theorem Multiples.insertJoin {n : Nat} (h : Multiples n (b :: l)) :
    Multiples n (insertJoin b l) := by
  induction l with
  | nil => exact h
  | cons c l ih =>
    rw [Lib.insertJoin]
    split_ifs
    · exact h.join
    · have hrest : Multiples n (Lib.insertJoin b l) := by
        refine ih fun d hd => h d ?_
        rcases List.mem_cons.mp hd with rfl | hd
        · simp
        · simp [hd]
      refine Multiples.join fun d hd => ?_
      rcases List.mem_cons.mp hd with rfl | hd
      · exact h d (by simp)
      · exact hrest d hd

end Coalescing

/-! ## Heaps -/

/-- The region from `lo` to `hi`, cut into free and live blocks of at least `hdr` bytes.  Each byte
of the region is in exactly one block, and no other byte is in any. -/
structure Heap (lo hi hdr : Nat) where
  free : List Block
  live : List Block
  sorted : Sorted free
  tiles : ∀ x, cover free x + cover live x = if lo ≤ x ∧ x < hi then 1 else 0
  room : ∀ b ∈ free ++ live, hdr ≤ b.size

namespace Heap

variable {lo hi hdr size x : Nat} {b c : Block} {l₁ l₂ : List Block} {h : Heap lo hi hdr}

theorem cover_le_one (h : Heap lo hi hdr) (x : Nat) : cover h.free x + cover h.live x ≤ 1 := by
  rw [h.tiles]
  split_ifs <;> omega

theorem contains_iff (h : Heap lo hi hdr) :
    (∃ b ∈ h.free ++ h.live, b.Contains x) ↔ lo ≤ x ∧ x < hi := by
  have htiles := h.tiles x
  constructor
  · rintro ⟨b, hb, hx⟩
    have hpos := cover_pos hb hx
    rw [cover_append] at hpos
    by_contra hout
    rw [if_neg hout] at htiles
    omega
  · intro hin
    rw [if_pos hin, ← cover_append] at htiles
    exact exists_of_cover_pos (by omega)

theorem bounds (hb : b ∈ h.free ++ h.live) (hpos : 0 < b.size) : lo ≤ b.addr ∧ b.top ≤ hi := by
  have hfirst : b.Contains b.addr := ⟨Nat.le_refl _, by simp only [Block.top]; omega⟩
  have hlast : b.Contains (b.top - 1) := by
    simp only [Block.Contains, Block.top]
    omega
  have h₁ := h.contains_iff.mp ⟨b, hb, hfirst⟩
  have h₂ := h.contains_iff.mp ⟨b, hb, hlast⟩
  omega

theorem disjoint_of_cover {l : List Block} (hl : ∀ x, cover l x ≤ 1) :
    l.Pairwise Block.Disjoint := by
  induction l with
  | nil => exact List.Pairwise.nil
  | cons b l ih =>
    refine List.pairwise_cons.mpr ⟨fun c hc x hb hcx => ?_, ih fun x => ?_⟩
    · have hle := hl x
      have hpos := cover_pos hc hcx
      rw [cover_cons, if_pos hb] at hle
      omega
    · have hle := hl x
      rw [cover_cons] at hle
      omega

theorem pairwise_disjoint (h : Heap lo hi hdr) : (h.free ++ h.live).Pairwise Block.Disjoint :=
  disjoint_of_cover fun x => by
    rw [cover_append]
    exact h.cover_le_one x

theorem disjoint_of_ne (h : Heap lo hi hdr) (hb : b ∈ h.free ++ h.live)
    (hc : c ∈ h.free ++ h.live) (hne : b ≠ c) : b.Disjoint c :=
  have : Std.Symm Block.Disjoint := ⟨fun _ _ hd x hc hb => hd x hb hc⟩
  h.pairwise_disjoint.forall hb hc hne

theorem apart_of_disjoint (hd : b.Disjoint c) (hb : 0 < b.size) (hc : 0 < c.size) :
    b.top ≤ c.addr ∨ c.top ≤ b.addr := by
  by_contra hno
  refine hd (max b.addr c.addr) ?_ ?_
  · simp only [Block.Contains, Block.top] at hno ⊢
    omega
  · simp only [Block.Contains, Block.top] at hno ⊢
    omega

theorem nodup_addr (h : Heap lo hi hdr) (hpos : 0 < hdr) :
    ((h.free ++ h.live).map Block.addr).Nodup := by
  refine List.pairwise_map.mpr ((h.pairwise_disjoint.imp_of_mem ?_))
  intro b c hb hc hd heq
  have hapart := apart_of_disjoint hd (Nat.lt_of_lt_of_le hpos (h.room b hb))
    (Nat.lt_of_lt_of_le hpos (h.room c hc))
  have hbr := h.room b hb
  have hcr := h.room c hc
  simp only [Block.top] at hapart
  omega

theorem length_le (h : Heap lo hi hdr) (hpos : 0 < hdr) : (h.free ++ h.live).length ≤ hi := by
  have hsub : (h.free ++ h.live).map Block.addr ⊆ List.range hi := by
    intro a ha
    obtain ⟨b, hb, rfl⟩ := List.mem_map.mp ha
    have hsize := h.room b hb
    have hbounds := bounds hb (Nat.lt_of_lt_of_le hpos hsize)
    simp only [Block.top] at hbounds
    exact List.mem_range.mpr (by omega)
  have hle := ((h.nodup_addr hpos).subperm hsub).length_le
  rwa [List.length_map, List.length_range] at hle

theorem free_of_live_nil (hlive : h.live = []) (hpos : 0 < hdr) (hlt : lo < hi) :
    h.free = [⟨lo, hi - lo⟩] := by
  have hin (y : Nat) (hy : lo ≤ y ∧ y < hi) : ∃ b ∈ h.free, b.Contains y := by
    simpa [hlive] using h.contains_iff.mpr hy
  have hbounds (b : Block) (hb : b ∈ h.free) : lo ≤ b.addr ∧ b.top ≤ hi ∧ 0 < b.size := by
    have hmem : b ∈ h.free ++ h.live := List.mem_append_left _ hb
    have hsize := Nat.lt_of_lt_of_le hpos (h.room b hmem)
    exact ⟨(bounds hmem hsize).1, (bounds hmem hsize).2, hsize⟩
  have hsorted := h.sorted
  cases hfree : h.free with
  | nil =>
    obtain ⟨b, hb, -⟩ := hin lo ⟨Nat.le_refl _, hlt⟩
    simp [hfree] at hb
  | cons b l =>
    rw [hfree] at hin hbounds hsorted
    obtain ⟨hb, -⟩ := List.pairwise_cons.mp hsorted
    obtain ⟨hlo, htop, hsize⟩ := hbounds b List.mem_cons_self
    -- the byte after the first block is in no block, since the list is sorted with gaps
    have hend : b.top = hi := by
      by_contra hne
      obtain ⟨c, hc, hcx⟩ := hin b.top (by simp only [Block.top] at *; omega)
      rcases List.mem_cons.mp hc with rfl | hc
      · simp only [Block.Contains, Block.top] at hcx
        omega
      · have := hb c hc
        simp only [Block.Contains] at hcx
        omega
    have hstart : b.addr = lo := by
      obtain ⟨c, hc, hcx⟩ := hin lo ⟨Nat.le_refl _, hlt⟩
      rcases List.mem_cons.mp hc with rfl | hc
      · simp only [Block.Contains] at hcx
        omega
      · have := hb c hc
        simp only [Block.Contains, Block.top] at hcx this
        omega
    have hrest : l = [] := by
      cases l with
      | nil => rfl
      | cons c l =>
        have hc := hb c List.mem_cons_self
        obtain ⟨-, hctop, hcsize⟩ := hbounds c (by simp)
        simp only [Block.top] at hc hctop hend
        omega
    have hb : b = ⟨lo, hi - lo⟩ := by
      obtain ⟨addr, size⟩ := b
      simp only [Block.top, Block.mk.injEq] at hend hstart ⊢
      omega
    rw [hrest, hb]

/-! ### Operations -/

/-- One free block. -/
def start (hle : lo + hdr ≤ hi) : Heap lo hi hdr where
  free := [⟨lo, hi - lo⟩]
  live := []
  sorted := List.pairwise_singleton _ _
  tiles := fun x => by
    have heq : lo + (hi - lo) = hi := by omega
    simp [Block.Contains, Block.top, heq]
  room := by
    simp only [List.append_nil, List.mem_singleton, forall_eq]
    omega

/-- A free block becomes live. -/
def takeWhole (h : Heap lo hi hdr) (heq : h.free = l₁ ++ b :: l₂) : Heap lo hi hdr where
  free := l₁ ++ l₂
  live := b :: h.live
  sorted := h.sorted.sublist (heq ▸ (List.sublist_cons_self b l₂).append_left l₁)
  tiles := fun x => by
    rw [← h.tiles, heq]
    simp only [cover_append, cover_cons]
    omega
  room := fun c hc => h.room c (by simp only [heq, List.mem_append, List.mem_cons] at hc ⊢; tauto)

/-- The first `size` bytes of a free block become live. -/
def carve (h : Heap lo hi hdr) (heq : h.free = l₁ ++ b :: l₂) (hsize : hdr ≤ size)
    (hrest : hdr + size ≤ b.size) : Heap lo hi hdr where
  free := l₁ ++ ⟨b.addr + size, b.size - size⟩ :: l₂
  live := ⟨b.addr, size⟩ :: h.live
  sorted := by
    have hsorted := h.sorted
    rw [heq, Sorted, List.pairwise_append, List.pairwise_cons] at hsorted
    obtain ⟨h₁, ⟨hb, h₂⟩, h₁₂⟩ := hsorted
    refine List.pairwise_append.mpr ⟨h₁, List.pairwise_cons.mpr ⟨fun c hc => ?_, h₂⟩, ?_⟩
    · have := hb c hc
      simp only [Block.top] at this ⊢
      omega
    · intro c hc d hd
      rcases List.mem_cons.mp hd with rfl | hd
      · have := h₁₂ c hc b List.mem_cons_self
        simp only
        omega
      · exact h₁₂ c hc d (List.mem_cons_of_mem _ hd)
  tiles := fun x => by
    have hparts := contains_join (b := ⟨b.addr, size⟩) (c := ⟨b.addr + size, b.size - size⟩)
      (x := x) rfl
    have hsum : Block.mk b.addr (size + (b.size - size)) = b := by
      rw [Nat.add_sub_cancel' (Nat.le_of_add_left_le hrest)]
    rw [hsum] at hparts
    rw [← h.tiles, heq]
    simp only [cover_append, cover_cons]
    omega
  room := by
    intro c hc
    simp only [List.mem_append, List.mem_cons] at hc
    rcases hc with (hc | rfl | hc) | rfl | hc
    · exact h.room c (by simp [heq, hc])
    · simp only
      omega
    · exact h.room c (by simp [heq, hc])
    · exact hsize
    · exact h.room c (by simp [hc])

/-- A live block goes back to the free list. -/
def release (h : Heap lo hi hdr) (heq : h.live = l₁ ++ b :: l₂) (hpos : 0 < hdr) :
    Heap lo hi hdr where
  free := insertJoin b h.free
  live := l₁ ++ l₂
  sorted := by
    have hmem : b ∈ h.live := by simp [heq]
    have hb := Nat.lt_of_lt_of_le hpos (h.room b (List.mem_append_right _ hmem))
    have hfree (c : Block) (hc : c ∈ h.free) : 0 < c.size :=
      Nat.lt_of_lt_of_le hpos (h.room c (List.mem_append_left _ hc))
    refine sorted_insertJoin h.sorted (fun c hc => ?_) fun c hc => ?_
    · have hd := (List.pairwise_append.mp h.pairwise_disjoint).2.2 c hc b hmem
      exact (apart_of_disjoint hd (hfree c hc) hb).symm
    · rcases List.mem_cons.mp hc with rfl | hc
      · exact hb
      · exact hfree c hc
  tiles := fun x => by
    rw [← h.tiles, heq, cover_insertJoin]
    simp only [cover_append, cover_cons]
    omega
  room := by
    intro c hc
    rcases List.mem_append.mp hc with hc | hc
    · obtain ⟨d, hd, -, hsize⟩ := exists_of_mem_insertJoin hc
      have hroom : hdr ≤ d.size := by
        rcases List.mem_cons.mp hd with rfl | hd
        · exact h.room d (by simp [heq])
        · exact h.room d (by simp [hd])
      omega
    · refine h.room c ?_
      simp only [heq, List.mem_append, List.mem_cons] at hc ⊢
      tauto

/-! ### Sizes -/

/-- All blocks have sizes that are multiples of `n`. -/
def Granular (h : Heap lo hi hdr) (n : Nat) : Prop :=
  Multiples n (h.free ++ h.live)

section Granular

variable {n : Nat}

theorem granular_one (h : Heap lo hi hdr) : h.Granular 1 :=
  fun b _ => Nat.one_dvd b.size

theorem granular_start (hle : lo + hdr ≤ hi) (hn : n ∣ hi - lo) : (start hle).Granular n := by
  intro b hb
  simp only [start, List.append_nil, List.mem_singleton] at hb
  rw [hb]
  exact hn

theorem Granular.takeWhole (hg : h.Granular n) (heq : h.free = l₁ ++ b :: l₂) :
    (h.takeWhole heq).Granular n := by
  intro c hc
  refine hg c ?_
  simp only [Heap.takeWhole, heq, List.mem_append, List.mem_cons] at hc ⊢
  tauto

theorem Granular.carve (hg : h.Granular n) (heq : h.free = l₁ ++ b :: l₂) (hsize : hdr ≤ size)
    (hrest : hdr + size ≤ b.size) (hn : n ∣ size) : (h.carve heq hsize hrest).Granular n := by
  intro c hc
  simp only [Heap.carve, List.mem_append, List.mem_cons] at hc
  rcases hc with (hc | rfl | hc) | rfl | hc
  · exact hg c (by simp [heq, hc])
  · exact Nat.dvd_sub (hg b (by simp [heq])) hn
  · exact hg c (by simp [heq, hc])
  · exact hn
  · exact hg c (by simp [hc])

theorem Granular.release (hg : h.Granular n) (heq : h.live = l₁ ++ b :: l₂) (hpos : 0 < hdr) :
    (h.release heq hpos).Granular n := by
  intro c hc
  rcases List.mem_append.mp hc with hc | hc
  · refine Multiples.insertJoin (fun d hd => ?_) c hc
    rcases List.mem_cons.mp hd with rfl | hd
    · exact hg d (by simp [heq])
    · exact hg d (by simp [hd])
  · refine hg c ?_
    simp only [Heap.release, heq, List.mem_append, List.mem_cons] at hc ⊢
    tauto

end Granular

end Heap

end ChromiumEc.Lib
