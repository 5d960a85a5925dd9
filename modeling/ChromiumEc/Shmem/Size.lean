import Mathlib.Data.Nat.Find
import ChromiumEc.Shmem.Stray

/-!
# Size — what `shared_mem_size` tells

`shared_mem_size` and `do_acquire` compute independently what can be acquired.  They agree unless
the memory is used up: the header's size is subtracted then, too.
-/

namespace ChromiumEc.Shmem

open Lib

/-- `shared_mem_acquire` succeeds. -/
def Succeeds (s : Shm) (size : Nat) : Prop :=
  ∃ res, sharedMemAcquire false size s = some res ∧ res.rv = .success

/-- Buffers up to the size `n` can be acquired and no larger ones; or `n` is 0 and none can. -/
structure Tells (s : Shm) (n : Int) : Prop where
  nonneg : 0 ≤ n
  exact : (∀ size < 2 ^ 31, Succeeds s size ↔ (size : Int) ≤ n) ∨
    n = 0 ∧ ∀ size < 2 ^ 31, ¬ Succeeds s size

def freeSizes (s : Shm) : Nat → Nat → List Nat
  | 0, _ => []
  | fuel + 1, pfb => if pfb = null then [] else s.size pfb :: freeSizes s fuel (s.next pfb)

/-- Among the headers' size and the sizes of the free buffers, no two that follow each other are
further apart than the headroom that `do_acquire` starts with; and the largest is an `int`. -/
def NoGap (sizes : List Nat) : Prop :=
  ∀ x ∈ sizes, x < 2 ^ 31 + headerSize ∧
    (x < headerSize + 0x10000000 ∨ ∃ y ∈ sizes, y < x ∧ x ≤ y + 0x10000000)

section Walks

variable {s : Shm} {p fuel : Nat}

theorem freeSizes_eq {bs : List Block} (h : Chain s.next s.prev p (bs.map Block.addr) null)
    (hnil : null ∉ bs.map Block.addr) (hsize : ∀ b ∈ bs, s.size b.addr = b.size)
    (hlen : bs.length < fuel) :
    freeSizes s fuel ((bs.map Block.addr).headD null) = bs.map Block.size := by
  induction bs generalizing p fuel with
  | nil =>
    obtain ⟨n, rfl⟩ : ∃ n, fuel = n + 1 := ⟨fuel - 1, by simp at hlen; omega⟩
    rfl
  | cons b bs ih =>
    obtain ⟨n, rfl⟩ : ∃ n, fuel = n + 1 := ⟨fuel - 1, by omega⟩
    obtain ⟨-, hnext, htail⟩ := h
    rw [List.map_cons, List.mem_cons, not_or] at hnil
    have hlt : bs.length < n := by simpa using hlen
    rw [List.map_cons, List.headD_cons, freeSizes, if_neg (Ne.symm hnil.1), hnext,
      hsize b List.mem_cons_self, ih htail hnil.2 (fun c hc => hsize c (by simp [hc])) hlt,
      List.map_cons]

theorem findMax_eq (best : Nat) {bs : List Block}
    (h : Chain s.next s.prev p (bs.map Block.addr) null) (hnil : null ∉ bs.map Block.addr)
    (hsize : ∀ b ∈ bs, s.size b.addr = b.size) (hlen : bs.length < fuel) :
    ∃ m, findMax s fuel ((bs.map Block.addr).headD null) best = some m ∧ best ≤ m ∧
      (∀ b ∈ bs, b.size ≤ m) ∧ (m = best ∨ ∃ b ∈ bs, m = b.size) := by
  induction bs generalizing p best fuel with
  | nil =>
    obtain ⟨n, rfl⟩ : ∃ n, fuel = n + 1 := ⟨fuel - 1, by simp at hlen; omega⟩
    exact ⟨best, rfl, Nat.le_refl _, by simp, .inl rfl⟩
  | cons b bs ih =>
    obtain ⟨n, rfl⟩ : ∃ n, fuel = n + 1 := ⟨fuel - 1, by omega⟩
    obtain ⟨-, hnext, htail⟩ := h
    rw [List.map_cons, List.mem_cons, not_or] at hnil
    have hlt : bs.length < n := by simpa using hlen
    obtain ⟨m, hm, hle, hall, hfrom⟩ := ih (if best < b.size then b.size else best) htail hnil.2
      (fun c hc => hsize c (by simp [hc])) hlt
    refine ⟨m, ?_, ?_, ?_, ?_⟩
    · rw [List.map_cons, List.headD_cons, findMax, if_neg (Ne.symm hnil.1), hnext,
        hsize b List.mem_cons_self, hm]
    · split_ifs at hle <;> omega
    · intro c hc
      rcases List.mem_cons.mp hc with rfl | hc
      · split_ifs at hle <;> omega
      · exact hall c hc
    · rcases hfrom with hm | ⟨c, hc, hm⟩
      · split_ifs at hm
        · exact .inr ⟨b, by simp, hm⟩
        · exact .inl hm
      · exact .inr ⟨c, by simp [hc], hm⟩

end Walks

/-! ## What can be acquired -/

section Acquire

variable {r : Region} {h : Heap r.base r.top headerSize} {s : Shm} {c : Client}
  {mem : Nat → ShmBuffer}

theorem succeeds_iff (hr : Rep s h.free h.live) {size : Nat} (hsize : size < 2 ^ 31) :
    Succeeds s size ↔ ∃ b ∈ h.free, Fits size b := by
  obtain ⟨res, hres, -, hiff⟩ := sharedMemAcquire_rep false hr hsize
  rw [← hiff rfl]
  constructor
  · rintro ⟨res', hres', hrv⟩
    obtain rfl : res = res' := Option.some.inj (hres.symm.trans hres')
    exact hrv
  · intro hrv
    exact ⟨res, hres, hrv⟩

theorem granular_free (hg : h.Granular 4) : ∀ b ∈ h.free, 4 ∣ b.size ∧ headerSize ≤ b.size :=
  fun b hb => ⟨hg b (List.mem_append_left _ hb), h.room b (List.mem_append_left _ hb)⟩

/-- Without a gap between the sizes, a buffer can be acquired when the largest free block has room
for it. -/
theorem fits_of_noGap (hgap : NoGap (h.free.map Block.size)) {b : Block} (hb : b ∈ h.free)
    {size : Nat} (hfit : acquireSize size ≤ b.size)
    (hhead : headerSize ≤ acquireSize size) : ∃ c ∈ h.free, Fits size c := by
  classical
  -- the smallest free block with room
  have hex : ∃ x, ∃ c ∈ h.free, acquireSize size ≤ c.size ∧ c.size = x := ⟨_, b, hb, hfit, rfl⟩
  obtain ⟨c, hc, hroom, hx⟩ := Nat.find_spec hex
  refine ⟨c, hc, hroom, ?_⟩
  obtain ⟨-, hlow | ⟨y, hy, hlt, hnear⟩⟩ := hgap c.size (List.mem_map_of_mem hc)
  · omega
  · obtain ⟨d, hd, rfl⟩ := List.mem_map.mp hy
    have hsmall : ¬ acquireSize size ≤ d.size := by
      intro hroom'
      have := Nat.find_min' hex ⟨d, hd, hroom', rfl⟩
      omega
    omega

theorem noGap_of_fits (hg : h.Granular 4) {n : Nat} (hn : n < 2 ^ 31)
    (hmax : ∀ b ∈ h.free, b.size ≤ n + headerSize)
    (hfits : ∀ size ≤ n, ∃ b ∈ h.free, Fits size b) : NoGap (h.free.map Block.size) := by
  intro x hx
  obtain ⟨b, hb, rfl⟩ := List.mem_map.mp hx
  have hle := hmax b hb
  obtain ⟨⟨k, hk⟩, hroom⟩ := granular_free hg b hb
  refine ⟨by omega, ?_⟩
  by_cases hlow : b.size < headerSize + 0x10000000
  · exact .inl hlow
  · simp only [headerSize] at hlow hle
    obtain ⟨d, hd, hfit, hnear⟩ := hfits (b.size - 0x10000000 - headerSize) (by
      simp only [headerSize]
      omega)
    rw [acquireSize_eq (by omega)] at hfit hnear
    simp only [headerSize] at hfit hnear
    exact .inr ⟨d.size, List.mem_map_of_mem hd, by omega, by omega⟩

/-- The size of the largest free block, less the header, tells what can be acquired if there is no
gap between the sizes. -/
theorem tells_iff_noGap (hr : Rep s h.free h.live) (hg : h.Granular 4) {b : Block}
    (hb : b ∈ h.free) (hmax : ∀ c ∈ h.free, c.size ≤ b.size) :
    Tells s (toInt (b.size - headerSize)) ↔ NoGap (h.free.map Block.size) := by
  obtain ⟨⟨k, hk⟩, hroom⟩ := granular_free hg b hb
  have hmem := List.mem_map_of_mem (f := Block.size) hb
  constructor
  · intro htells
    have hnonneg := htells.nonneg
    have hlt : b.size - headerSize < 2 ^ 31 := by
      by_contra hbig
      have htop := (placed_heap h).top_lt b (List.mem_append_left _ hb)
      simp only [Block.top] at htop
      rw [toInt, if_neg hbig] at hnonneg
      omega
    have hn : toInt (b.size - headerSize) = ((b.size - headerSize : Nat) : Int) := if_pos hlt
    have hall : ∀ c ∈ h.free, c.size ≤ b.size - headerSize + headerSize := by
      intro c hc
      have := hmax c hc
      omega
    rcases htells.exact with hexact | ⟨hzero, -⟩
    · refine noGap_of_fits hg hlt hall fun size hle => ?_
      refine (succeeds_iff hr (by omega)).mp ((hexact size (by omega)).mpr ?_)
      rw [hn]
      exact Int.ofNat_le.mpr hle
    · -- all free blocks are headers only
      intro x hx
      obtain ⟨c, hc, rfl⟩ := List.mem_map.mp hx
      have hle := hall c hc
      have hsmall : b.size - headerSize = 0 := by omega
      exact ⟨by omega, .inl (by omega)⟩
  · intro hgap
    have hlt : b.size - headerSize < 2 ^ 31 := by
      have := (hgap b.size hmem).1
      omega
    have hn : toInt (b.size - headerSize) = ((b.size - headerSize : Nat) : Int) := if_pos hlt
    rw [hn]
    refine ⟨Int.natCast_nonneg _, .inl fun size hsize => ?_⟩
    have ha := acquireSize_eq hsize
    rw [succeeds_iff hr hsize, Int.ofNat_le]
    constructor
    · rintro ⟨c, hc, hfit, -⟩
      have := hmax c hc
      omega
    · intro hle
      simp only [headerSize] at hle hroom ha
      exact fits_of_noGap hgap hb (by omega) (by simp only [headerSize]; omega)

theorem freeSizes_rep (hr : Rep s h.free h.live) :
    freeSizes s maxWalk s.freeBufChain = h.free.map Block.size := by
  have hlen := (placed_heap h).length_lt
  rw [List.length_append] at hlen
  rw [hr.freeChain.head_eq]
  exact freeSizes_eq hr.freeChain.chain hr.freeChain.nil_notMem
    (fun b hb => hr.size_eq b (List.mem_append_left _ hb)) (by omega)

theorem sharedMemSize_rep (hr : Rep s h.free h.live) :
    h.free = [] ∧ sharedMemSize s = some (-12) ∨
      ∃ b ∈ h.free, (∀ c ∈ h.free, c.size ≤ b.size) ∧
        sharedMemSize s = some (toInt (b.size - headerSize)) := by
  have hlen := (placed_heap h).length_lt
  rw [List.length_append] at hlen
  obtain ⟨m, hwalk, -, hmax, hfrom⟩ := findMax_eq 0 hr.freeChain.chain hr.freeChain.nil_notMem
    (fun b hb => hr.size_eq b (List.mem_append_left _ hb)) (show h.free.length < maxWalk by omega)
  rw [← hr.freeChain.head_eq] at hwalk
  have hroom (b : Block) (hb : b ∈ h.free) : headerSize ≤ b.size :=
    h.room b (List.mem_append_left _ hb)
  have hpos := headerSize_pos
  by_cases hfree : h.free = []
  · refine .inl ⟨hfree, ?_⟩
    have hzero : m = 0 := hfrom.resolve_right fun ⟨b, hb, _⟩ => by simp [hfree] at hb
    rw [sharedMemSize, hwalk, hzero]
    rfl
  · obtain ⟨b, hb, rfl⟩ : ∃ b ∈ h.free, m = b.size := by
      refine hfrom.resolve_left fun hzero => ?_
      obtain ⟨b, hb⟩ := List.exists_mem_of_ne_nil _ hfree
      have := hmax b hb
      have := hroom b hb
      omega
    refine .inr ⟨b, hb, hmax, ?_⟩
    have htop := (placed_heap h).top_lt b (List.mem_append_left _ hb)
    have hsize := hroom b hb
    have hsub : addSize b.size (2 ^ 32 - headerSize) = b.size - headerSize := by
      simp only [addSize, headerSize, Block.top] at htop hsize ⊢
      omega
    rw [sharedMemSize, hwalk, Option.map_some, hsub]

theorem noGap_of_small (hsmall : r.top - r.base ≤ 0x10000000) :
    NoGap (h.free.map Block.size) := by
  intro x hx
  obtain ⟨b, hb, rfl⟩ := List.mem_map.mp hx
  have hmem := List.mem_append_left h.live hb
  have hbounds := Heap.bounds hmem (Nat.lt_of_lt_of_le headerSize_pos (h.room b hmem))
  simp only [Block.top] at hbounds
  simp only [headerSize]
  exact ⟨by omega, .inl (by omega)⟩

/-- In every state of a run, what `shared_mem_size` returns tells what can be acquired, exactly when
some memory is free and the sizes of the free buffers leave no gap that is too wide, which a region
of up to 256 MB rules out. -/
theorem sharedMemSize_tells_iff (h4 : 4 ∣ r.top - r.base)
    (hc : Reach step InRange (Client.start r mem) c) (hs : c.shm = some s) :
    ∃ n, sharedMemSize s = some n ∧
      (Tells s n ↔ s.freeBufChain ≠ null ∧ NoGap (freeSizes s maxWalk s.freeBufChain)) ∧
      (r.top - r.base ≤ 0x10000000 → NoGap (freeSizes s maxWalk s.freeBufChain)) := by
  rcases kept_run (Nat.dvd_refl 4) h4 hc with hnone | ⟨s', h, hs', hr, -, hg⟩
  · rw [hnone] at hs
    contradiction
  · obtain rfl : s' = s := Option.some.inj (hs'.symm.trans hs)
    have hempty : s'.freeBufChain = null ↔ h.free = [] :=
      hr.freeChain.eq_nil_iff.trans List.map_eq_nil_iff
    rw [freeSizes_rep hr]
    rcases sharedMemSize_rep hr with ⟨hfree, hsize⟩ | ⟨b, hb, hmax, hsize⟩
    · refine ⟨_, hsize, ⟨?_, ?_⟩, noGap_of_small⟩
      · intro htells
        have := htells.nonneg
        omega
      · intro hstate
        exact absurd (hempty.mpr hfree) hstate.1
    · refine ⟨_, hsize, ?_, noGap_of_small⟩
      rw [tells_iff_noGap hr hg hb hmax]
      refine ⟨fun hgap => ⟨?_, hgap⟩, And.right⟩
      rw [Ne, hempty]
      exact List.ne_nil_of_mem hb

theorem sharedMemSize_tells_start :
    ∃ s n, (Client.start smallRegion fun _ => ⟨0, 0, 0⟩).shm = some s ∧
      sharedMemSize s = some n ∧ Tells s n := by
  have hstart : Reach step InRange (Client.start smallRegion fun _ => ⟨0, 0, 0⟩)
      (Client.start smallRegion fun _ => ⟨0, 0, 0⟩) := .start
  obtain ⟨n, hn, htells, hsmall⟩ := sharedMemSize_tells_iff (by decide) hstart rfl
  exact ⟨_, n, rfl, hn, htells.mpr ⟨by decide, hsmall (by decide)⟩⟩

end Acquire

/-- The whole region is allocated. -/
theorem sharedMemSize_negative :
    let c := [Call.acquire false 244].foldl step (Client.start smallRegion fun _ => ⟨0, 0, 0⟩)
    Reach step InRange (Client.start smallRegion fun _ => ⟨0, 0, 0⟩) c ∧
      c.shm.bind sharedMemSize = some (-12) := by
  refine ⟨.allowed (by decide) .start, ?_⟩
  rfl

end ChromiumEc.Shmem
