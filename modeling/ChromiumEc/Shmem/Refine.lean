import ChromiumEc.Lib.Chain
import ChromiumEc.Lib.FreeList
import ChromiumEc.Lib.Reach
import ChromiumEc.Shmem.Shmalloc

/-!
# Refine — the allocator's chains are a heap of blocks

The free chain and the allocated chain are the free list and the live list of a `Lib.Heap`; each
entry point of `shmalloc.c` performs one of the heap's operations.
-/

namespace ChromiumEc.Shmem

open Lib

/-- The chains and the headers hold the two lists of blocks. -/
structure Rep (s : Shm) (free live : List Block) : Prop where
  freeChain : IsChain s.next s.prev null s.freeBufChain (free.map Block.addr)
  alloccedChain : IsChain s.next s.prev null s.alloccedBufChain (live.map Block.addr)
  size_eq : ∀ b ∈ free ++ live, s.size b.addr = b.size

/-- The blocks are apart from each other and below the end of the address space. -/
structure Placed (free live : List Block) : Prop where
  nodup : ((free ++ live).map Block.addr).Nodup
  length_lt : (free ++ live).length < maxWalk
  top_lt : ∀ b ∈ free ++ live, b.top < 2 ^ 32

section Walks

variable {s : Shm} {ptr p fuel : Nat} {l : List Nat}

theorem inChain_eq (h : Chain s.next s.prev p l null) (hnil : null ∉ l) (hlen : l.length < fuel) :
    inChain ptr s fuel (l.headD null) = some (decide (ptr ∈ l)) := by
  induction l generalizing p fuel with
  | nil =>
    obtain ⟨n, rfl⟩ : ∃ n, fuel = n + 1 := ⟨fuel - 1, by simp at hlen; omega⟩
    simp [inChain]
  | cons a l ih =>
    obtain ⟨n, rfl⟩ : ∃ n, fuel = n + 1 := ⟨fuel - 1, by omega⟩
    obtain ⟨-, hnext, htail⟩ := h
    simp only [List.mem_cons, not_or] at hnil
    have hlt : l.length < n := by simpa using hlen
    rw [List.headD_cons, inChain, if_neg (Ne.symm hnil.1)]
    split_ifs with heq
    · simp [heq]
    · have hne : ptr ≠ a := fun h => heq h.symm
      rw [hnext, ih htail hnil.2 hlt]
      simp [hne]

theorem findSpot_eq (ptr : Nat) {b : Block} {bs : List Block}
    (h : Chain s.next s.prev p ((b :: bs).map Block.addr) null)
    (hnil : null ∉ (b :: bs).map Block.addr) (hlen : bs.length < fuel) :
    ∃ l₁ q l₂, b :: bs = l₁ ++ q :: l₂ ∧ findSpot ptr s fuel b.addr = some q.addr ∧
      (q = b ∨ q.addr < ptr) ∧ ∀ c ∈ l₂.head?, ptr ≤ c.addr := by
  induction bs generalizing p b fuel with
  | nil =>
    obtain ⟨n, rfl⟩ : ∃ n, fuel = n + 1 := ⟨fuel - 1, by simp at hlen; omega⟩
    obtain ⟨-, hnext, -⟩ := h
    refine ⟨[], b, [], rfl, ?_, .inl rfl, by simp⟩
    simp only [List.map_nil, List.headD_nil] at hnext
    rw [findSpot, hnext, if_neg (by simp)]
  | cons c bs ih =>
    obtain ⟨n, rfl⟩ : ∃ n, fuel = n + 1 := ⟨fuel - 1, by omega⟩
    obtain ⟨-, hnext, htail⟩ := h
    simp only [List.map_cons, List.headD_cons] at hnext
    rw [List.map_cons, List.mem_cons, not_or] at hnil
    have hc : c.addr ≠ null := fun h => hnil.2 (by simp [h])
    rw [findSpot, hnext]
    by_cases hlt : c.addr < ptr
    · have hlt' : bs.length < n := by simpa using hlen
      obtain ⟨l₁, q, l₂, hsplit, hspot, hq, habove⟩ := ih htail hnil.2 hlt'
      rw [if_pos ⟨hc, hlt⟩, hspot, hsplit]
      refine ⟨b :: l₁, q, l₂, rfl, rfl, .inr ?_, habove⟩
      rcases hq with rfl | hq
      · exact hlt
      · exact hq
    · rw [if_neg (fun h => hlt h.2)]
      refine ⟨[], b, c :: bs, rfl, rfl, .inl rfl, ?_⟩
      simpa using hlt

/-- The walk finds a block that leaves the least headroom, if one leaves less than what it starts
with. -/
theorem findCandidate_eq (size : Nat) (best : Nat × Nat) {bs : List Block}
    (h : Chain s.next s.prev p (bs.map Block.addr) null) (hnil : null ∉ bs.map Block.addr)
    (hsize : ∀ b ∈ bs, s.size b.addr = b.size) (hlen : bs.length < fuel) :
    ∃ res, findCandidate size s fuel ((bs.map Block.addr).headD null) best = some res ∧
      res.1 ≤ best.1 ∧ (∀ b ∈ bs, size ≤ b.size → res.1 ≤ b.size - size) ∧
      (res = best ∨ res.1 < best.1 ∧ ∃ b ∈ bs, size ≤ b.size ∧ res = (b.size - size, b.addr)) := by
  induction bs generalizing p best fuel with
  | nil =>
    obtain ⟨n, rfl⟩ : ∃ n, fuel = n + 1 := ⟨fuel - 1, by simp at hlen; omega⟩
    exact ⟨best, by simp [findCandidate], Nat.le_refl _, by simp, .inl rfl⟩
  | cons b bs ih =>
    obtain ⟨n, rfl⟩ : ∃ n, fuel = n + 1 := ⟨fuel - 1, by omega⟩
    obtain ⟨-, hnext, htail⟩ := h
    rw [List.map_cons, List.mem_cons, not_or] at hnil
    have hlt : bs.length < n := by simpa using hlen
    have hbs (c : Block) (hc : c ∈ bs) : s.size c.addr = c.size :=
      hsize c (List.mem_cons_of_mem b hc)
    rw [List.map_cons, List.headD_cons, findCandidate, if_neg (Ne.symm hnil.1), hnext,
      hsize b List.mem_cons_self]
    split_ifs with hfit
    · obtain ⟨res, hres, hle, hleast, hfrom⟩ :=
        ih (b.size - size, b.addr) htail hnil.2 hbs hlt
      refine ⟨res, hres, Nat.le_trans hle (Nat.le_of_lt hfit.2), ?_,
        .inr ⟨Nat.lt_of_le_of_lt hle hfit.2, ?_⟩⟩
      · intro c hc hcs
        rcases List.mem_cons.mp hc with rfl | hc
        · exact hle
        · exact hleast c hc hcs
      · rcases hfrom with rfl | ⟨-, c, hc, hcs, rfl⟩
        · exact ⟨b, by simp, hfit.1, rfl⟩
        · exact ⟨c, by simp [hc], hcs, rfl⟩
    · obtain ⟨res, hres, hle, hleast, hfrom⟩ := ih best htail hnil.2 hbs hlt
      refine ⟨res, hres, hle, ?_, ?_⟩
      · intro c hc hcs
        rcases List.mem_cons.mp hc with rfl | hc
        · omega
        · exact hleast c hc hcs
      · rcases hfrom with rfl | ⟨hlow, c, hc, hcs, rfl⟩
        · exact .inl rfl
        · exact .inr ⟨hlow, c, by simp [hc], hcs, rfl⟩

end Walks

/-! ## Taking a buffer out of a chain -/

section TakeOut

variable {s : Shm} {free live l₁ l₂ : List Block} {b : Block}

/-- What taking the buffer `p` out of its chain does to the links. -/
structure Unlinked (p : Nat) (s s' : Shm) : Prop where
  next : ∀ a, a ≠ null → s'.next a = if a = s.prev p then s.next p else s.next a
  prev : ∀ a, a ≠ null → s'.prev a = if a = s.next p then s.prev p else s.prev a

theorem unlinked_first {p : Nat} (hprev : s.prev p = null) : Unlinked p s (unlinkFirst p s) where
  next := fun a ha => by simp [unlinkFirst, hprev, ha]
  prev := fun a ha => by
    by_cases heq : a = s.next p
    · simp [unlinkFirst, hprev, ← heq, ha]
    · simp [unlinkFirst, heq]

theorem unlinked_inner {p : Nat} : Unlinked p s (unlinkInner p s) where
  next := fun a _ => by simp [unlinkInner]
  prev := fun a ha => by
    by_cases heq : a = s.next p
    · simp [unlinkInner, ← heq, ha]
    · simp [unlinkInner, heq]

namespace Unlinked

variable {s' : Shm} {head head' p : Nat} {as bs l l' : List Nat}

theorem remove (h : Unlinked p s s') (hc : IsChain s.next s.prev null head (l ++ p :: l'))
    (hnd : (l ++ p :: l').Nodup) (hhead : head' = if p = head then s.next p else head) :
    IsChain s'.next s'.prev null head' (l ++ l') := by
  have hne (a : Nat) (ha : a ∈ l ++ l') : a ≠ null := by
    rintro rfl
    refine hc.nil_notMem ?_
    simp only [List.mem_append, List.mem_cons] at ha ⊢
    tauto
  exact hc.remove hnd (fun a ha => h.next a (hne a ha)) (fun a ha => h.prev a (hne a ha)) hhead

theorem frame (h : Unlinked p s s') (hc : IsChain s.next s.prev null head as)
    (hp : IsChain s.next s.prev null head' (l ++ p :: l')) (hdisj : ∀ a ∈ as, a ∉ l ++ p :: l') :
    IsChain s'.next s'.prev null head as := by
  obtain ⟨hprev, hnext⟩ := hp.links
  have hne (a : Nat) (ha : a ∈ as) : a ≠ null := fun heq => hc.nil_notMem (heq ▸ ha)
  refine hc.congr rfl (fun a ha => ?_) fun a ha => ?_
  · rw [h.next a (hne a ha), if_neg]
    rw [hprev]
    intro heq
    rcases List.mem_cons.mp (List.getLastD_mem_cons : l.getLastD null ∈ null :: l) with hl | hl
    · exact hne a ha (heq.trans hl)
    · exact hdisj a ha (List.mem_append_left _ (heq ▸ hl))
  · rw [h.prev a (hne a ha), if_neg]
    rw [hnext]
    intro heq
    cases l' with
    | nil => exact hne a ha heq
    | cons c l' => exact hdisj a ha (by simp [heq])

end Unlinked

theorem Placed.disjoint (hp : Placed free live) {a : Nat} (ha : a ∈ free.map Block.addr) :
    a ∉ live.map Block.addr := by
  have hnd := hp.nodup
  rw [List.map_append, List.nodup_append] at hnd
  exact fun hl => hnd.2.2 a ha a hl rfl

theorem Placed.nodup_free (hp : Placed free live) : (free.map Block.addr).Nodup := by
  have hnd := hp.nodup
  rw [List.map_append, List.nodup_append] at hnd
  exact hnd.1

theorem Placed.nodup_live (hp : Placed free live) : (live.map Block.addr).Nodup := by
  have hnd := hp.nodup
  rw [List.map_append, List.nodup_append] at hnd
  exact hnd.2.1

theorem first_or_inner (l l' : List Nat) {p head : Nat}
    (hc : IsChain s.next s.prev null head (l ++ p :: l')) (hnd : (l ++ p :: l').Nodup) :
    p = head ∧ s.prev p = null ∨ p ≠ head ∧ s.prev p ≠ null := by
  have hprev := hc.links.1
  cases l with
  | nil => exact .inl ⟨hc.head_eq.symm, hprev⟩
  | cons c l =>
    refine .inr ⟨fun heq => ?_, fun heq => ?_⟩
    · have hce : p = c := heq.trans hc.head_eq
      exact (List.nodup_append.mp hnd).2.2 c (by simp) p (by simp) hce.symm
    · have hmem : (c :: l).getLastD null ∈ c :: l := by
        rw [List.getLastD_cons]
        exact List.getLastD_mem_cons
      exact hc.nil_notMem (List.mem_append_left _ (heq ▸ hprev ▸ hmem))

theorem takeOutAllocced_rep (hr : Rep s free (l₁ ++ b :: l₂)) (hp : Placed free (l₁ ++ b :: l₂)) :
    ∃ s', takeOutAllocced b.addr s = some (true, s') ∧ Rep s' free (l₁ ++ l₂) ∧
      s'.size b.addr = b.size := by
  have hchain := hr.alloccedChain
  have hnd := hp.nodup_live
  have hdisj (a : Nat) (ha : a ∈ free.map Block.addr) :
      a ∉ l₁.map Block.addr ++ b.addr :: l₂.map Block.addr := by
    simpa using hp.disjoint ha
  rw [List.map_append, List.map_cons] at hchain hnd
  -- the buffer is unlinked by `s'`, whose other variables are those of `s`
  have hrep (s' : Shm) (hu : Unlinked b.addr s s') (hsize : ∀ a, s'.size a = s.size a)
      (hfree : s'.freeBufChain = s.freeBufChain) (hhead : s'.alloccedBufChain =
        if b.addr = s.alloccedBufChain then s.next b.addr else s.alloccedBufChain) :
      Rep s' free (l₁ ++ l₂) ∧ s'.size b.addr = b.size := by
    refine ⟨⟨?_, ?_, fun c hc => ?_⟩, (hsize _).trans (hr.size_eq b (by simp))⟩
    · rw [hfree]
      exact hu.frame hr.freeChain hchain hdisj
    · rw [List.map_append]
      exact hu.remove hchain hnd hhead
    · refine (hsize _).trans (hr.size_eq c ?_)
      simp only [List.mem_append, List.mem_cons] at hc ⊢
      tauto
  rcases first_or_inner _ _ hchain hnd with ⟨hhead, hprev⟩ | ⟨hhead, hprev⟩
  · have hu := unlinked_first hprev
    have hne : b.addr ≠ null := fun heq => hr.alloccedChain.nil_notMem (by simp [heq])
    refine ⟨_, (if_pos hhead).trans (if_neg hne), hrep _ ⟨hu.next, hu.prev⟩ (fun a => ?_) ?_ ?_⟩
    · exact Shm.size_setPrevIf _ _ _ _
    · simp [unlinkFirst]
    · rw [if_pos hhead]
      simp [unlinkFirst]
  · -- the walk meets the buffer
    have hwalk : inChain b.addr s maxWalk (s.next s.alloccedBufChain) = some true := by
      have hlen := hp.length_lt
      have hhd := hr.alloccedChain.head_eq
      have hnil := hr.alloccedChain.nil_notMem
      have hc := hr.alloccedChain.chain
      cases l₁ with
      | nil => exact absurd hhd.symm hhead
      | cons c l =>
        simp only [List.cons_append, List.map_cons, List.headD_cons] at hhd hc hnil
        rw [List.mem_cons, not_or] at hnil
        rw [hhd, hc.2.1, inChain_eq hc.2.2 hnil.2]
        · simp
        · simp only [List.length_append, List.length_map, List.length_cons] at hlen ⊢
          omega
    have hallocced : s.alloccedBufChain ≠ null := by
      intro heq
      have := hchain.eq_nil_iff.mp heq
      simp at this
    refine ⟨unlinkInner b.addr s, ?_, hrep _ unlinked_inner (fun a => ?_) ?_ ?_⟩
    · rw [takeOutAllocced, if_neg hhead, if_neg hallocced, hwalk]
      exact if_neg hprev
    · simp [unlinkInner]
    · simp [unlinkInner]
    · rw [if_neg hhead]
      simp [unlinkInner]

theorem takeAll_rep (hr : Rep s (l₁ ++ b :: l₂) live) (hp : Placed (l₁ ++ b :: l₂) live) :
    ∃ s', takeAll b.addr s = some s' ∧ Rep s' (l₁ ++ l₂) live ∧ s'.size b.addr = b.size := by
  have hchain := hr.freeChain
  have hnd := hp.nodup_free
  have hdisj (a : Nat) (ha : a ∈ live.map Block.addr) :
      a ∉ l₁.map Block.addr ++ b.addr :: l₂.map Block.addr := by
    intro hmem
    refine hp.disjoint ?_ ha
    simpa using hmem
  rw [List.map_append, List.map_cons] at hchain hnd
  have hrep (s' : Shm) (hu : Unlinked b.addr s s') (hsize : ∀ a, s'.size a = s.size a)
      (hallocced : s'.alloccedBufChain = s.alloccedBufChain)
      (hhead : s'.freeBufChain =
        if b.addr = s.freeBufChain then s.next b.addr else s.freeBufChain) :
      Rep s' (l₁ ++ l₂) live ∧ s'.size b.addr = b.size := by
    refine ⟨⟨?_, ?_, fun c hc => ?_⟩, (hsize _).trans (hr.size_eq b (by simp))⟩
    · rw [List.map_append]
      exact hu.remove hchain hnd hhead
    · rw [hallocced]
      exact hu.frame hr.alloccedChain hchain hdisj
    · refine (hsize _).trans (hr.size_eq c ?_)
      simp only [List.mem_append, List.mem_cons] at hc ⊢
      tauto
  rcases first_or_inner _ _ hchain hnd with ⟨hhead, hprev⟩ | ⟨hhead, hprev⟩
  · have hu := unlinked_first (s := { s with freeBufChain := s.next b.addr }) hprev
    refine ⟨_, if_pos hhead, hrep _ ⟨hu.next, hu.prev⟩ (fun a => ?_) ?_ ?_⟩
    · exact Shm.size_setPrevIf _ _ _ _
    · simp [unlinkFirst]
    · rw [if_pos hhead]
      simp [unlinkFirst]
  · refine ⟨unlinkInner b.addr s, ?_, hrep _ unlinked_inner (fun a => ?_) ?_ ?_⟩
    · rw [takeAll, if_neg hhead, if_neg hprev]
    · simp [unlinkInner]
    · simp [unlinkInner]
    · rw [if_neg hhead]
      simp [unlinkInner]

end TakeOut

/-! ## Putting a buffer into a chain -/

section PutIn

variable {s s' : Shm} {free live l₁ l₂ : List Block} {b : Block}

/-- What putting the buffer `q` between `x` and `y` does to the links; either may be `NULL`. -/
structure Tied (x y q : Nat) (s s' : Shm) : Prop where
  next : ∀ a, a ≠ null → a ≠ q → s'.next a = if a = x then q else s.next a
  prev : ∀ a, a ≠ null → a ≠ q → s'.prev a = if a = y then q else s.prev a
  next_new : s'.next q = y
  prev_new : s'.prev q = x

theorem getLastD_notMem (as : List Nat) {l : List Nat} (hnull : null ∉ as) (h : ∀ a ∈ as, a ∉ l) :
    l.getLastD null ∉ as := by
  intro hmem
  rcases List.mem_cons.mp (List.getLastD_mem_cons : l.getLastD null ∈ null :: l) with heq | hl
  · exact hnull (heq ▸ hmem)
  · exact h _ hmem hl

theorem headD_notMem (as : List Nat) {l : List Nat} (hnull : null ∉ as) (h : ∀ a ∈ as, a ∉ l) :
    l.headD null ∉ as := by
  intro hmem
  cases l with
  | nil => exact hnull hmem
  | cons c l => exact h _ hmem List.mem_cons_self

namespace Tied

variable {x y q p e head head' : Nat} {as l l' : List Nat}

theorem isChain (h : Tied x y q s s') (hl : Chain s.next s.prev null l e)
    (hl' : Chain s.next s.prev p l' null) (hx : x = l.getLastD null) (hy : y = l'.headD null)
    (hnd : (l ++ l').Nodup) (hnil : null ∉ l ++ l') (hq : q ≠ null) (hqmem : q ∉ l ++ l')
    (hhead : head' = (l ++ [q]).headD null) :
    IsChain s'.next s'.prev null head' (l ++ q :: l') := by
  obtain ⟨hnd₁, hnd₂, hdisj⟩ := List.nodup_append.mp hnd
  have hne (a : Nat) (ha : a ∈ l ++ l') : a ≠ null ∧ a ≠ q :=
    ⟨ne_of_mem_of_not_mem ha hnil, ne_of_mem_of_not_mem ha hqmem⟩
  have hnil' : null ∉ l ∧ null ∉ l' := by simpa using hnil
  have hxl : x ∉ l' := hx ▸ getLastD_notMem _ hnil'.2 fun a ha hl => hdisj a hl a ha rfl
  have hyl : y ∉ l := hy ▸ headD_notMem _ hnil'.1 fun a ha hl => hdisj a ha a hl rfl
  refine IsChain.tie hl hl' ?_ hnd₁ hnd₂ ?_ ?_ ?_ ?_ (h.next_new.trans hy) (h.prev_new.trans hx)
    hhead
  · simp only [List.mem_append, List.mem_cons, not_or]
    exact ⟨hnil'.1, Ne.symm hq, hnil'.2⟩
  · intro a ha
    obtain ⟨hn, hqa⟩ := hne a (List.mem_append_left _ ha)
    rw [← hx, h.next a hn hqa]
  · intro a ha
    obtain ⟨hn, hqa⟩ := hne a (List.mem_append_left _ ha)
    rw [h.prev a hn hqa, if_neg (ne_of_mem_of_not_mem ha hyl)]
  · intro a ha
    obtain ⟨hn, hqa⟩ := hne a (List.mem_append_right _ ha)
    rw [h.next a hn hqa, if_neg (ne_of_mem_of_not_mem ha hxl)]
  · intro a ha
    obtain ⟨hn, hqa⟩ := hne a (List.mem_append_right _ ha)
    rw [← hy, h.prev a hn hqa]

theorem frame (h : Tied x y q s s') (hc : IsChain s.next s.prev null head as) (hx : x ∉ as)
    (hy : y ∉ as) (hq : q ∉ as) : IsChain s'.next s'.prev null head as := by
  have hne (a : Nat) (ha : a ∈ as) : a ≠ null := ne_of_mem_of_not_mem ha hc.nil_notMem
  refine hc.congr rfl (fun a ha => ?_) fun a ha => ?_
  · rw [h.next a (hne a ha) (ne_of_mem_of_not_mem ha hq), if_neg (ne_of_mem_of_not_mem ha hx)]
  · rw [h.prev a (hne a ha) (ne_of_mem_of_not_mem ha hq), if_neg (ne_of_mem_of_not_mem ha hy)]

end Tied

theorem pushAllocced_rep {size : Nat} (hr : Rep s free live) (hb : b.addr ≠ null)
    (hfree : b.addr ∉ free.map Block.addr) (hlive : b.addr ∉ live.map Block.addr)
    (hnd : (live.map Block.addr).Nodup) (hdisj : ∀ a ∈ free.map Block.addr, a ∉ live.map Block.addr)
    (hsize : s.size b.addr = b.size) : Rep (pushAllocced b.addr size s) free (b :: live) := by
  have hhead := hr.alloccedChain.head_eq
  have hne : b.addr ≠ s.alloccedBufChain := by
    rw [hhead]
    refine fun heq => headD_notMem [b.addr] (l := live.map Block.addr) ?_ ?_ ?_
    · exact fun h => hb (List.mem_singleton.mp h).symm
    · exact fun a ha => List.mem_singleton.mp ha ▸ hlive
    · exact heq ▸ List.mem_singleton_self _
  have htied : Tied null s.alloccedBufChain b.addr s (pushAllocced b.addr size s) := by
    refine ⟨fun a ha hab => ?_, fun a ha hab => ?_, ?_, ?_⟩
    · refine (Shm.next_setPrevIf _ _ _ _).trans ?_
      simp [ha, hab]
    · refine (Shm.prev_setPrevIf _ _ _ _).trans ?_
      by_cases heq : a = s.alloccedBufChain
      · simp [← heq, ha]
      · simp [heq, hab]
    · exact (Shm.next_setPrevIf _ _ _ _).trans (by simp)
    · exact (Shm.prev_setPrevIf _ _ _ _).trans (by simp [hne])
  refine ⟨?_, ?_, ?_⟩
  · have hchain := htied.frame hr.freeChain hr.freeChain.nil_notMem
      (hhead ▸ headD_notMem _ hr.freeChain.nil_notMem hdisj) hfree
    exact hchain.congr (Shm.freeBufChain_setPrevIf _ _ _) (fun _ _ => rfl) fun _ _ => rfl
  · exact htied.isChain (l := []) (e := null) Chain.nil hr.alloccedChain.chain rfl hhead hnd
      hr.alloccedChain.nil_notMem hb hlive rfl
  · intro c hc
    have hold : (pushAllocced b.addr size s).size c.addr = s.size c.addr :=
      (Shm.size_setPrevIf _ _ _ _).trans (by simp)
    rw [hold]
    simp only [List.mem_append, List.mem_cons] at hc
    rcases hc with hc | rfl | hc
    · exact hr.size_eq c (by simp [hc])
    · exact hsize
    · exact hr.size_eq c (by simp [hc])

theorem tied_rep {d : Block} {p e : Nat} (hl : Chain s.next s.prev null (l₁.map Block.addr) e)
    (hl' : Chain s.next s.prev p (l₂.map Block.addr) null)
    (hlive : IsChain s.next s.prev null s.alloccedBufChain (live.map Block.addr))
    (hnd : ((l₁ ++ l₂ ++ live).map Block.addr).Nodup) (hnil : null ∉ (l₁ ++ l₂).map Block.addr)
    (hd : d.addr ≠ null) (hfresh : d.addr ∉ (l₁ ++ l₂ ++ live).map Block.addr)
    (htied : Tied ((l₁.map Block.addr).getLastD null) ((l₂.map Block.addr).headD null) d.addr s s')
    (hhead : s'.freeBufChain = ((l₁ ++ [d]).map Block.addr).headD null)
    (hallocced : s'.alloccedBufChain = s.alloccedBufChain)
    (hsizes : ∀ c ∈ l₁ ++ d :: l₂ ++ live, s'.size c.addr = c.size) :
    Rep s' (l₁ ++ d :: l₂) live := by
  rw [List.map_append, List.nodup_append] at hnd
  obtain ⟨hndfree, -, hdisj⟩ := hnd
  rw [List.map_append, List.mem_append, not_or] at hfresh
  rw [List.map_append] at hdisj hndfree hnil hfresh
  refine ⟨?_, ?_, hsizes⟩
  · rw [List.map_append, List.map_cons]
    refine htied.isChain hl hl' rfl rfl hndfree hnil hd hfresh.1 ?_
    rw [hhead, List.map_append]
    rfl
  · rw [hallocced]
    have happart (a : Nat) (ha : a ∈ live.map Block.addr) :
        a ∉ l₁.map Block.addr ∧ a ∉ l₂.map Block.addr := by
      rw [← not_or, ← List.mem_append]
      exact fun hmem => hdisj a hmem a ha rfl
    exact htied.frame hlive
      (getLastD_notMem _ hlive.nil_notMem fun a ha => (happart a ha).1)
      (headD_notMem _ hlive.nil_notMem fun a ha => (happart a ha).2) hfresh.2

end PutIn

/-! ## The operations -/

section Operations

variable {s : Shm} {free live l₁ l₂ : List Block} {b : Block}

/-- What is known of the free chain around a buffer. -/
structure Around (s : Shm) (l₁ l₂ : List Block) (b : Block) : Prop where
  prev_eq : s.prev b.addr = (l₁.map Block.addr).getLastD null
  next_eq : s.next b.addr = (l₂.map Block.addr).headD null
  left : Chain s.next s.prev null (l₁.map Block.addr) b.addr
  right : Chain s.next s.prev b.addr (l₂.map Block.addr) null

theorem Rep.around (hr : Rep s (l₁ ++ b :: l₂) live) : Around s l₁ l₂ b := by
  have h := hr.freeChain
  rw [List.map_append, List.map_cons] at h
  obtain ⟨hleft, -, -, hright⟩ := Chain.append_iff.mp h.chain
  exact ⟨h.links.1, h.links.2, hleft, hright⟩

theorem Rep.nil_notMem (hr : Rep s (l₁ ++ b :: l₂) live) :
    null ∉ (l₁ ++ l₂).map Block.addr ∧ b.addr ≠ null := by
  have h := hr.freeChain.nil_notMem
  simp only [List.map_append, List.map_cons, List.mem_append, List.mem_cons, not_or] at h ⊢
  exact ⟨⟨h.1, h.2.2⟩, Ne.symm h.2.1⟩

theorem Placed.without (hp : Placed (l₁ ++ b :: l₂) live) :
    ((l₁ ++ l₂ ++ live).map Block.addr).Nodup :=
  hp.nodup.sublist (((List.sublist_cons_self b l₂).append_left l₁).append_right live |>.map _)

theorem Placed.addr_ne (hp : Placed (l₁ ++ b :: l₂) live) {c : Block}
    (hc : c ∈ l₁ ++ l₂ ++ live) : c.addr ≠ b.addr := by
  have hnd := hp.nodup
  simp only [List.append_assoc, List.cons_append] at hnd hc
  have hperm := (@List.perm_middle _ b l₁ (l₂ ++ live)).map Block.addr
  rw [hperm.nodup_iff, List.map_cons, List.nodup_cons] at hnd
  exact fun heq => hnd.1 (heq ▸ List.mem_map_of_mem hc)

section SplitTail

variable {c q size headroom a : Nat}

theorem next_splitTail (hadd : addSize c size = q) :
    (splitTail c size headroom s).next a = if a = q then s.next c else s.next a := by
  simp [splitTail, hadd]

theorem prev_splitTail (hadd : addSize c size = q) (hqn : q ≠ s.next c) :
    (splitTail c size headroom s).prev q = s.prev c := by
  simp [splitTail, hadd, hqn]

theorem prev_splitTail_of_ne (hadd : addSize c size = q) (ha : a ≠ q) (hne : a ≠ null) :
    (splitTail c size headroom s).prev a = if a = s.next c then q else s.prev a := by
  by_cases heq : a = s.next c
  · simp [splitTail, hadd, ← heq, hne]
  · simp [splitTail, hadd, heq, ha]

theorem size_splitTail (hadd : addSize c size = q) :
    (splitTail c size headroom s).size a =
      if a = q then headroom else if a = c then size else s.size a := by
  simp [splitTail, hadd]

theorem freeBufChain_splitTail : (splitTail c size headroom s).freeBufChain = s.freeBufChain := by
  simp [splitTail]

theorem alloccedBufChain_splitTail :
    (splitTail c size headroom s).alloccedBufChain = s.alloccedBufChain := by
  simp [splitTail]

end SplitTail

theorem Around.links_ne {q : Nat} (h : Around s l₁ l₂ b) (hnull : q ≠ null)
    (hleft : q ∉ l₁.map Block.addr) (hright : q ∉ l₂.map Block.addr) :
    q ≠ s.next b.addr ∧ q ≠ s.prev b.addr := by
  have hnil : null ∉ [q] := fun hmem => hnull (List.mem_singleton.mp hmem).symm
  constructor
  · rw [h.next_eq]
    exact fun heq => headD_notMem [q] hnil
      (fun a ha => List.mem_singleton.mp ha ▸ hright) (heq ▸ List.mem_singleton_self _)
  · rw [h.prev_eq]
    exact fun heq => getLastD_notMem [q] hnil
      (fun a ha => List.mem_singleton.mp ha ▸ hleft) (heq ▸ List.mem_singleton_self _)

theorem head_split (d : Block) (hr : Rep s (l₁ ++ b :: l₂) live)
    (hnd : ((l₁ ++ b :: l₂).map Block.addr).Nodup) :
    (if b.addr = s.freeBufChain then d.addr else s.freeBufChain) =
      ((l₁ ++ [d]).map Block.addr).headD null := by
  rw [hr.freeChain.head_eq]
  cases l₁ with
  | nil => simp
  | cons c l =>
    have hcb : b.addr ≠ c.addr := by
      intro heq
      simp [heq] at hnd
    simp [hcb]

theorem size_split {size : Nat} (hr : Rep s (l₁ ++ b :: l₂) live)
    (hp : Placed (l₁ ++ b :: l₂) live) (hadd : addSize b.addr size = b.addr + size)
    (hfresh : b.addr + size ∉ (l₁ ++ l₂ ++ live).map Block.addr) :
    ∀ c ∈ l₁ ++ (⟨b.addr + size, b.size - size⟩ : Block) :: l₂ ++ live,
      (splitTail b.addr size (b.size - size) s).size c.addr = c.size := by
  intro c hc
  rw [size_splitTail hadd]
  have hmem : c = ⟨b.addr + size, b.size - size⟩ ∨ c ∈ l₁ ++ l₂ ++ live := by
    simp only [List.mem_append, List.mem_cons] at hc ⊢
    tauto
  rcases hmem with rfl | hc
  · simp
  · have hcq : c.addr ≠ b.addr + size := fun heq => hfresh (heq ▸ List.mem_map_of_mem hc)
    rw [if_neg hcq, if_neg (hp.addr_ne hc)]
    refine hr.size_eq c ?_
    simp only [List.mem_append, List.mem_cons] at hc ⊢
    tauto

theorem takeHead_rep {size : Nat} (hr : Rep s (l₁ ++ b :: l₂) live)
    (hp : Placed (l₁ ++ b :: l₂) live) (hpos : 0 < size) (hlt : size < b.size)
    (hfresh : b.addr + size ∉ (l₁ ++ b :: l₂ ++ live).map Block.addr) :
    ∃ s', takeHead b.addr size (b.size - size) s = some s' ∧
      Rep s' (l₁ ++ ⟨b.addr + size, b.size - size⟩ :: l₂) live ∧ s'.size b.addr = size := by
  have htop := hp.top_lt b (by simp)
  have hadd : addSize b.addr size = b.addr + size :=
    Nat.mod_eq_of_lt (by simp only [Block.top] at htop; omega)
  have harr := hr.around
  obtain ⟨hnil, hbne⟩ := hr.nil_notMem
  have hhead := first_or_inner (l₁.map Block.addr) (l₂.map Block.addr)
    (by simpa using hr.freeChain) (by simpa using hp.nodup_free)
  have hne : b.addr + size ≠ b.addr := by omega
  have hnull : b.addr + size ≠ null := by simp only [null]; omega
  have hwithout : b.addr + size ∉ (l₁ ++ l₂ ++ live).map Block.addr := by
    simp only [List.map_append, List.map_cons, List.mem_append, List.mem_cons, not_or] at hfresh ⊢
    exact ⟨⟨hfresh.1.1, hfresh.1.2.2⟩, hfresh.2⟩
  have happart : b.addr + size ∉ l₁.map Block.addr ∧ b.addr + size ∉ l₂.map Block.addr := by
    simp only [List.map_append, List.mem_append, not_or] at hwithout
    exact hwithout.1
  obtain ⟨hnextne, hprevne⟩ := harr.links_ne hnull happart.1 happart.2
  -- `s'` differs from the split buffers in the head of the chain or one link only
  have hrep (s' : Shm) (htied : Tied (s.prev b.addr) (s.next b.addr) (b.addr + size) s s')
      (hfree : s'.freeBufChain = if b.addr = s.freeBufChain then b.addr + size else s.freeBufChain)
      (hallocced : s'.alloccedBufChain = s.alloccedBufChain)
      (hsizes : ∀ a, s'.size a = (splitTail b.addr size (b.size - size) s).size a) :
      Rep s' (l₁ ++ ⟨b.addr + size, b.size - size⟩ :: l₂) live ∧ s'.size b.addr = size := by
    rw [harr.prev_eq, harr.next_eq] at htied
    refine ⟨tied_rep harr.left harr.right hr.alloccedChain hp.without hnil hnull hwithout htied
      (hfree.trans (head_split ⟨_, _⟩ hr hp.nodup_free)) hallocced fun c hc => ?_, ?_⟩
    · exact (hsizes _).trans (size_split hr hp hadd hwithout c hc)
    · rw [hsizes, size_splitTail hadd, if_neg hne.symm, if_pos rfl]
  rcases hhead with ⟨hhead, hprev⟩ | ⟨hhead, hprev⟩
  · refine ⟨_, if_pos (hhead.trans freeBufChain_splitTail.symm), hrep _ ⟨?_, ?_, ?_, ?_⟩ ?_ ?_ ?_⟩
    · intro a ha haq
      rw [hprev, if_neg ha]
      exact (next_splitTail hadd).trans (if_neg haq)
    · exact fun a ha haq => prev_splitTail_of_ne hadd haq ha
    · exact (next_splitTail hadd).trans (if_pos rfl)
    · exact prev_splitTail hadd hnextne
    · exact hadd.trans (if_pos hhead).symm
    · exact alloccedBufChain_splitTail
    · exact fun _ => rfl
  · have hinner : (splitTail b.addr size (b.size - size) s).prev (addSize b.addr size) =
        s.prev b.addr := by
      rw [hadd]
      exact prev_splitTail hadd hnextne
    refine ⟨(splitTail b.addr size (b.size - size) s).setNext (s.prev b.addr) (b.addr + size), ?_,
      hrep _ ⟨?_, ?_, ?_, ?_⟩ ?_ ?_ ?_⟩
    · rw [takeHead, freeBufChain_splitTail, if_neg hhead, hinner, if_neg hprev, hadd]
    · intro a ha haq
      rw [Shm.next_setNext, next_splitTail hadd, if_neg haq]
    · intro a ha haq
      rw [Shm.prev_setNext, prev_splitTail_of_ne hadd haq ha]
    · rw [Shm.next_setNext, if_neg hprevne, next_splitTail hadd, if_pos rfl]
    · rw [Shm.prev_setNext, prev_splitTail hadd hnextne]
    · rw [Shm.freeBufChain_setNext, freeBufChain_splitTail, if_neg hhead]
    · rw [Shm.alloccedBufChain_setNext, alloccedBufChain_splitTail]
    · exact fun a => Shm.size_setNext _ _ _ _

/-! ### Release -/

/-- A buffer is out of both chains, apart from the blocks in them. -/
structure Released (s : Shm) (free live : List Block) (b : Block) : Prop where
  rep : Rep s free live
  nodup : ((free ++ live).map Block.addr).Nodup
  fresh : b.addr ∉ (free ++ live).map Block.addr
  length_lt : free.length < maxWalk
  sorted : Sorted free
  top_lt : ∀ c ∈ b :: free, c.top < 2 ^ 32
  addr_ne : b.addr ≠ null
  pos : 0 < b.size
  size_eq : s.size b.addr = b.size

theorem linkAfter_tied {ptr pfb y : Nat} (hne : ptr ≠ pfb) (hy : ptr ≠ y) {s' : Shm}
    (hnext : ∀ a, s'.next a = if a = ptr then y else s.next a)
    (hprev : ∀ a, s'.prev a = s.prev a) : Tied pfb y ptr s (linkAfter ptr pfb s') := by
  have hyn : s'.next ptr = y := by rw [hnext, if_pos rfl]
  refine ⟨fun a ha haq => ?_, fun a ha haq => ?_, ?_, ?_⟩
  · simp [linkAfter, hnext, haq]
  · by_cases heq : a = y
    · simp [linkAfter, hne, hyn, ← heq, ha]
    · simp [linkAfter, hne, hyn, heq, haq, hprev]
  · simp [linkAfter, hne, hyn]
  · simp [linkAfter, hne, hyn, hy]

theorem linkFirst_tied {ptr y : Nat} {s' : Shm}
    (hnext : ∀ a, s'.next a = if a = ptr then y else s.next a)
    (hprev : ∀ a, a ≠ y → s'.prev a = s.prev a) : Tied null y ptr s (linkFirst ptr s') := by
  have hyn : s'.next ptr = y := by rw [hnext, if_pos rfl]
  have hlink (a : Nat) : (linkFirst ptr s').next a = s'.next a ∧ (linkFirst ptr s').prev a =
      ((s'.setPrevIf (s'.next ptr) ptr).setPrev ptr null).prev a :=
    ⟨(Shm.next_setPrev _ _ _ _).trans (Shm.next_setPrevIf _ _ _ _), rfl⟩
  refine ⟨fun a ha haq => ?_, fun a ha haq => ?_, ?_, ?_⟩
  · rw [(hlink a).1, hnext, if_neg haq, if_neg ha]
  · rw [(hlink a).2]
    by_cases heq : a = y
    · simp [hyn, ← heq, ha, haq]
    · simp [hyn, heq, haq, hprev a heq]
  · rw [(hlink ptr).1, hyn]
  · rw [(hlink ptr).2]
    simp

theorem size_linkFirst {ptr a : Nat} : (linkFirst ptr s).size a = s.size a :=
  (Shm.size_setPrev _ _ _ _).trans (Shm.size_setPrevIf _ _ _ _)

theorem alloccedBufChain_linkFirst {ptr : Nat} :
    (linkFirst ptr s).alloccedBufChain = s.alloccedBufChain :=
  Shm.alloccedBufChain_setPrevIf _ _ _

namespace Released

theorem notMem (h : Released s free live b) :
    b.addr ∉ free.map Block.addr ∧ b.addr ∉ live.map Block.addr := by
  have hfresh := h.fresh
  rw [List.map_append, List.mem_append, not_or] at hfresh
  exact hfresh

theorem top_eq (h : Released s free live b) : addSize b.addr b.size = b.top :=
  Nat.mod_eq_of_lt (h.top_lt b List.mem_cons_self)

theorem ne_of_mem (h : Released s free live b) {c : Block} (hc : c ∈ free) : c.addr ≠ b.addr :=
  fun heq => h.notMem.1 (heq ▸ List.mem_map_of_mem hc)

theorem ne_headD (h : Released s free live b) {l : List Block} (hl : ∀ c ∈ l, c ∈ free) :
    b.addr ≠ (l.map Block.addr).headD null := by
  cases l with
  | nil => exact h.addr_ne
  | cons c l => exact (h.ne_of_mem (hl c List.mem_cons_self)).symm

theorem tied_rep (h : Released s free live b) (l₁ l₂ : List Block) {d : Block} {p e : Nat}
    {s' : Shm}
    (hd : d.addr = b.addr) (hl : Chain s.next s.prev null (l₁.map Block.addr) e)
    (hl' : Chain s.next s.prev p (l₂.map Block.addr) null) (hsub : (l₁ ++ l₂).Sublist free)
    (htied : Tied ((l₁.map Block.addr).getLastD null) ((l₂.map Block.addr).headD null) b.addr s s')
    (hhead : s'.freeBufChain = ((l₁ ++ [d]).map Block.addr).headD null)
    (hallocced : s'.alloccedBufChain = s.alloccedBufChain)
    (hsizes : ∀ a, s'.size a = if a = b.addr then d.size else s.size a) :
    Rep s' (l₁ ++ d :: l₂) live := by
  have hfresh : d.addr ∉ (l₁ ++ l₂ ++ live).map Block.addr := by
    rw [hd]
    exact fun hmem => h.fresh (((hsub.append_right live).map Block.addr).subset hmem)
  refine Shmem.tied_rep hl hl' h.rep.alloccedChain
    (h.nodup.sublist ((hsub.append_right live).map _)) ?_ (hd ▸ h.addr_ne) hfresh (hd ▸ htied)
    hhead hallocced ?_
  · exact fun hmem => h.rep.freeChain.nil_notMem ((hsub.map Block.addr).subset hmem)
  · intro c hc
    have hmem : c = d ∨ c ∈ l₁ ++ l₂ ++ live := by
      simp only [List.mem_append, List.mem_cons] at hc ⊢
      tauto
    rw [hsizes]
    rcases hmem with rfl | hmem
    · rw [if_pos hd]
    · have hne : c.addr ≠ b.addr := by
        rw [← hd]
        exact ne_of_mem_of_not_mem (List.mem_map_of_mem hmem) hfresh
      rw [if_neg hne]
      exact h.rep.size_eq c ((hsub.append_right live).subset hmem)

end Released

theorem returnToFree_nil (h : Released s [] live b) :
    ∃ s', returnToFree b.addr s = some s' ∧ Rep s' [b] live := by
  refine ⟨_, if_pos h.rep.freeChain.head_eq, ?_⟩
  refine h.tied_rep [] [] (e := null) (p := null) rfl Chain.nil Chain.nil
    (List.Sublist.refl _) ⟨fun a ha haq => ?_, fun a ha haq => ?_, ?_, ?_⟩ rfl rfl fun a => ?_
  · change (((s.setSize _ _).setNext _ _).setPrev _ _).next a = _
    simp [haq, ha]
  · change (((s.setSize _ _).setNext _ _).setPrev _ _).prev a = _
    simp [haq, ha]
  · change (((s.setSize _ _).setNext _ _).setPrev _ _).next _ = _
    simp
  · change (((s.setSize _ _).setNext _ _).setPrev _ _).prev _ = _
    simp
  · change (((s.setSize _ _).setNext _ _).setPrev _ _).size a = _
    simp [h.size_eq]

theorem returnToFree_below {c : Block} {l : List Block} (h : Released s (c :: l) live b)
    (hlt : b.addr < c.addr) :
    ∃ s', returnToFree b.addr s = some s' ∧ Rep s' (join b (c :: l)) live := by
  have hhead : s.freeBufChain = c.addr := h.rep.freeChain.head_eq
  have hne : s.freeBufChain ≠ null := h.rep.freeChain.head_ne_nil
  have hchain := h.rep.freeChain.chain
  rw [List.map_cons, Chain.cons_iff] at hchain
  obtain ⟨hprev, hnext, htail⟩ := hchain
  have hsize : s.size c.addr = c.size := h.rep.size_eq c (by simp)
  refine ⟨releaseBelow b.addr s, ?_, ?_⟩
  · rw [returnToFree, if_neg hne, hhead, if_pos hlt]
  · rw [join]
    by_cases htop : b.top = c.addr
    · have hadd : addSize b.addr (s.size b.addr) = s.freeBufChain := by
        rw [h.size_eq, h.top_eq, htop, hhead]
      have hsum : addSize c.size b.size = b.size + c.size := by
        have hlt := h.top_lt c (by simp)
        simp only [Block.top] at htop hlt
        rw [addSize, Nat.mod_eq_of_lt (by omega), Nat.add_comm]
      rw [if_pos htop, releaseBelow, if_pos hadd]
      refine h.tied_rep [] _ (e := null) rfl Chain.nil htail (List.sublist_cons_self c l) ?_
        rfl ?_ fun a => ?_
      · rw [← hnext]
        exact linkFirst_tied (fun a => by simp [hhead]) fun a _ => by simp
      · exact alloccedBufChain_linkFirst.trans (by simp)
      · rw [size_linkFirst]
        simp [hhead, hsize, h.size_eq, hsum]
    · have hadd : addSize b.addr (s.size b.addr) ≠ s.freeBufChain := by
        rw [h.size_eq, h.top_eq, hhead]
        exact htop
      rw [if_neg htop, releaseBelow, if_neg hadd]
      refine h.tied_rep [] _ (e := null) rfl Chain.nil h.rep.freeChain.chain
        (List.Sublist.refl _) ?_ rfl ?_ fun a => ?_
      · refine linkFirst_tied (fun a => by simp [hhead]) fun a ha => ?_
        have hac : a ≠ c.addr := ha
        simp [hhead, hac]
      · exact alloccedBufChain_linkFirst.trans (by simp)
      · rw [size_linkFirst]
        simp [h.size_eq]

theorem Released.next_addr_ne {p d : Block} {l₃ : List Block}
    (h : Released s (l₁ ++ p :: d :: l₃) live b) : d.addr ≠ p.addr := by
  intro heq
  have hnd := h.nodup
  simp only [List.map_append, List.map_cons, List.nodup_append, List.nodup_cons] at hnd
  exact hnd.1.2.1.1 (by simp [heq])

theorem linkAbove_rep {p : Block} (h : Released s (l₁ ++ p :: l₂) live b)
    (habove : p.top ≠ b.addr) :
    ∃ s', linkAbove b.addr p.addr s = some s' ∧ Rep s' (l₁ ++ join p (join b l₂)) live := by
  have harr := h.rep.around
  have hpb : b.addr ≠ p.addr := (h.ne_of_mem (by simp)).symm
  have hlast : ((l₁ ++ [p]).map Block.addr).getLastD null = p.addr := by simp
  have hhead (d : Block) : s.freeBufChain = (((l₁ ++ [p]) ++ [d]).map Block.addr).headD null := by
    rw [h.rep.freeChain.head_eq]
    cases l₁ <;> rfl
  have hleft : ∃ e, Chain s.next s.prev null ((l₁ ++ [p]).map Block.addr) e := by
    refine ⟨s.next p.addr, ?_⟩
    rw [List.map_append, Chain.append_iff]
    exact ⟨harr.left, Chain.singleton_iff.mpr ⟨harr.prev_eq, rfl⟩⟩
  obtain ⟨e, hleft⟩ := hleft
  have hjoin (d : Block) (l : List Block) (hd : d.addr = b.addr) :
      l₁ ++ join p (d :: l) = (l₁ ++ [p]) ++ d :: l := by
    rw [join, if_neg (hd ▸ habove)]
    simp
  have hsplit : l₁ ++ p :: l₂ = (l₁ ++ [p]) ++ l₂ := by simp
  rw [linkAbove, h.size_eq, h.top_eq]
  cases l₂ with
  | nil =>
    have hnext : s.next p.addr = null := harr.next_eq
    have hne : b.top ≠ s.next p.addr := by
      have hpos := h.pos
      rw [hnext]
      simp only [Block.top, null]
      omega
    rw [if_neg hne]
    refine ⟨_, rfl, ?_⟩
    rw [join, hjoin b [] rfl]
    refine h.tied_rep _ _ rfl hleft (Chain.nil (p := null)) (hsplit ▸ List.Sublist.refl _) ?_ ?_ ?_
      fun a => ?_
    · rw [hlast]
      exact linkAfter_tied hpb h.addr_ne (fun a => by simp [hnext]) fun a => by simp
    · simpa [linkAfter] using hhead b
    · simp [linkAfter]
    · simp [linkAfter]
  | cons d l₃ =>
    have hnext : s.next p.addr = d.addr := harr.next_eq
    have hbd : b.addr ≠ d.addr := (h.ne_of_mem (by simp)).symm
    have hdne : d.addr ≠ null := fun heq => h.rep.freeChain.nil_notMem (by simp [← heq])
    have hdchain := harr.right
    rw [List.map_cons, Chain.cons_iff] at hdchain
    obtain ⟨-, hdnext, hdtail⟩ := hdchain
    rw [hnext, join]
    by_cases htop : b.top = d.addr
    · have hsum : addSize b.size (s.size d.addr) = b.size + d.size := by
        have hlt := h.top_lt d (by simp)
        rw [h.rep.size_eq d (by simp)]
        simp only [Block.top] at htop hlt
        rw [addSize, Nat.mod_eq_of_lt (by omega)]
      rw [if_pos htop, if_neg hdne, if_pos htop, hjoin ⟨b.addr, b.size + d.size⟩ l₃ rfl]
      refine ⟨_, rfl, ?_⟩
      have hsub : ((l₁ ++ [p]) ++ l₃).Sublist (l₁ ++ p :: d :: l₃) := by
        rw [hsplit]
        exact (List.sublist_cons_self d l₃).append_left _
      refine h.tied_rep _ _ rfl hleft hdtail hsub ?_ ?_ ?_ fun a => ?_
      · rw [hlast, ← hdnext]
        refine linkAfter_tied hpb ?_ (fun a => ?_) fun a => ?_
        · rw [hdnext]
          exact h.ne_headD fun c hc => by simp [hc]
        · simp [hnext]
        · simp
      · simpa [linkAfter] using hhead ⟨b.addr, b.size + d.size⟩
      · simp [linkAfter]
      · simp [linkAfter, hsum]
    · rw [if_neg htop, if_neg htop, hjoin b (d :: l₃) rfl]
      refine ⟨_, rfl, ?_⟩
      refine h.tied_rep _ _ rfl hleft harr.right (hsplit ▸ List.Sublist.refl _) ?_ ?_ ?_ fun a => ?_
      · rw [hlast]
        exact linkAfter_tied hpb hbd (fun a => by simp) fun a => by simp
      · simpa [linkAfter] using hhead b
      · simp [linkAfter]
      · simp [linkAfter]

theorem Released.sizes_grown {p : Block} {n : Nat} {l : List Block} {s' : Shm}
    (h : Released s (l₁ ++ p :: l₂) live b) (hsub : l.Sublist l₂)
    (hsizes : ∀ a, s'.size a = if a = p.addr then n else s.size a) :
    ∀ c ∈ l₁ ++ ⟨p.addr, n⟩ :: l ++ live, s'.size c.addr = c.size := by
  intro c hc
  have hmem : c = ⟨p.addr, n⟩ ∨ c ∈ l₁ ++ l₂ ++ live := by
    simp only [List.mem_append, List.mem_cons] at hc ⊢
    have := fun h => hsub.subset (a := c) h
    tauto
  rw [hsizes]
  rcases hmem with rfl | hmem
  · simp
  · have hperm := (@List.perm_middle _ p l₁ (l₂ ++ live)).map Block.addr
    have hnd := h.nodup
    rw [List.append_assoc] at hmem
    rw [List.append_assoc, List.cons_append, hperm.nodup_iff, List.map_cons, List.nodup_cons] at hnd
    have hne : c.addr ≠ p.addr := fun heq => hnd.1 (heq ▸ List.mem_map_of_mem hmem)
    rw [if_neg hne]
    refine h.rep.size_eq c ?_
    simp only [List.mem_append, List.mem_cons] at hmem ⊢
    tauto

theorem join_below {p : Block} (hbelow : p.top = b.addr) (n : Nat) (l : List Block) :
    l₁ ++ join p (⟨b.addr, n⟩ :: l) = l₁ ++ ⟨p.addr, p.size + n⟩ :: l := by
  rw [join, if_pos hbelow]

theorem Released.addSize_below {p : Block} (h : Released s (l₁ ++ p :: l₂) live b)
    (hbelow : p.top = b.addr) : addSize p.size b.size = p.size + b.size := by
  have hlt := h.top_lt b (by simp)
  simp only [Block.top] at hbelow hlt
  rw [addSize, Nat.mod_eq_of_lt (by omega)]

theorem mergeBelow_keep_rep {p : Block} (h : Released s (l₁ ++ p :: l₂) live b)
    (hbelow : p.top = b.addr) (hne : b.top ≠ s.next p.addr) :
    ∃ s', mergeBelow b.addr p.addr s = some s' ∧
      Rep s' (l₁ ++ ⟨p.addr, p.size + b.size⟩ :: l₂) live := by
  have hpsize : s.size p.addr = p.size := h.rep.size_eq p (by simp)
  refine ⟨_, by
    rw [mergeBelow, h.size_eq, h.top_eq]
    exact if_neg (by rwa [Shm.next_setSize]), ?_, ?_, ?_⟩
  · have hc := h.rep.freeChain
    simp only [List.map_append, List.map_cons] at hc ⊢
    exact hc.congr rfl (fun a _ => by simp) fun a _ => by simp
  · exact h.rep.alloccedChain.congr rfl (fun a _ => by simp) fun a _ => by simp
  · exact h.sizes_grown (List.Sublist.refl _) fun a => by
      simp [hpsize, h.addSize_below hbelow]

theorem mergeBelow_next_rep {p d : Block} {l₃ : List Block}
    (h : Released s (l₁ ++ p :: d :: l₃) live b) (hbelow : p.top = b.addr)
    (htop : b.top = d.addr) :
    ∃ s', mergeBelow b.addr p.addr s = some s' ∧
      Rep s' (l₁ ++ ⟨p.addr, p.size + (b.size + d.size)⟩ :: l₃) live := by
  have hnext : s.next p.addr = d.addr := h.rep.around.next_eq
  have hpsize : s.size p.addr = p.size := h.rep.size_eq p (by simp)
  have hdsize : s.size d.addr = d.size := h.rep.size_eq d (by simp)
  have hsum := h.addSize_below hbelow
  have hsum' : addSize (p.size + b.size) d.size = p.size + (b.size + d.size) := by
    have hlt := h.top_lt d (by simp)
    simp only [Block.top] at hbelow htop hlt
    rw [addSize, Nat.mod_eq_of_lt (by omega), Nat.add_assoc]
  have hdne : d.addr ≠ null := fun heq => h.rep.freeChain.nil_notMem (by simp [← heq])
  have hpd := h.next_addr_ne
  have hc := h.rep.freeChain
  rw [show l₁ ++ p :: d :: l₃ = (l₁ ++ [p]) ++ d :: l₃ by simp, List.map_append,
    List.map_cons] at hc
  have hnd : ((l₁ ++ [p]).map Block.addr ++ d.addr :: l₃.map Block.addr).Nodup := by
    have hnd := h.nodup
    rw [List.map_append, List.nodup_append] at hnd
    simpa using hnd.1
  have hdprev : s.prev d.addr = p.addr := by
    rw [hc.links.1]
    simp
  refine ⟨((((s.setSize p.addr (p.size + b.size)).setSize p.addr
    (p.size + (b.size + d.size))).setNext p.addr (s.next d.addr)).setPrevIf (s.next d.addr)
    p.addr), ?_, ?_⟩
  · rw [mergeBelow, h.size_eq, h.top_eq]
    simp [hnext, htop, hdne, hpsize, hsum, hdsize, hpd, hsum']
  · have hu : Unlinked d.addr s ((((s.setSize p.addr (p.size + b.size)).setSize p.addr
        (p.size + (b.size + d.size))).setNext p.addr (s.next d.addr)).setPrevIf
        (s.next d.addr) p.addr) := by
      refine ⟨fun a ha => ?_, fun a ha => ?_⟩
      · simp [hdprev]
      · by_cases heq : a = s.next d.addr
        · simp [hdprev, ← heq, ha]
        · simp [heq]
    have hdhead : d.addr ≠ s.freeBufChain := by
      rw [hc.head_eq]
      cases l₁ with
      | nil => exact hpd
      | cons c l =>
        simp only [List.cons_append, List.map_cons, List.nodup_cons] at hnd
        exact fun heq => hnd.1 (by simp [← show d.addr = c.addr from heq])
    refine ⟨?_, ?_, ?_⟩
    · have hfree := hu.remove hc hnd (if_neg hdhead).symm
      simp only [List.map_append, List.map_cons, List.map_nil, List.append_assoc,
        List.singleton_append] at hfree ⊢
      exact hfree.congr (by simp) (fun _ _ => rfl) fun _ _ => rfl
    · refine (hu.frame h.rep.alloccedChain hc fun a ha hmem => ?_).congr (by simp)
        (fun _ _ => rfl) fun _ _ => rfl
      have hdisj := h.nodup
      rw [List.map_append, List.nodup_append] at hdisj
      exact hdisj.2.2 a (by simpa using hmem) a ha rfl
    · exact h.sizes_grown (List.sublist_cons_self d l₃) fun a => by
        by_cases heq : a = p.addr
        · simp [heq]
        · simp [heq]

theorem mergeBelow_rep {p : Block} (h : Released s (l₁ ++ p :: l₂) live b)
    (hbelow : p.top = b.addr) :
    ∃ s', mergeBelow b.addr p.addr s = some s' ∧ Rep s' (l₁ ++ join p (join b l₂)) live := by
  have hnext := h.rep.around.next_eq
  cases l₂ with
  | nil =>
    have hne : b.top ≠ s.next p.addr := by
      have hpos := h.pos
      rw [hnext]
      simp only [Block.top, List.map_nil, List.headD_nil, null]
      omega
    rw [join, join_below hbelow b.size []]
    exact mergeBelow_keep_rep h hbelow hne
  | cons d l₃ =>
    by_cases htop : b.top = d.addr
    · rw [join, if_pos htop, join_below hbelow (b.size + d.size) l₃]
      exact mergeBelow_next_rep h hbelow htop
    · rw [join, if_neg htop, join_below hbelow b.size (d :: l₃)]
      exact mergeBelow_keep_rep h hbelow (hnext ▸ htop)

theorem returnToFree_rep (h : Released s free live b) :
    ∃ s', returnToFree b.addr s = some s' ∧ Rep s' (insertJoin b free) live := by
  cases free with
  | nil => exact returnToFree_nil h
  | cons c l =>
    rw [insertJoin]
    by_cases hlt : b.addr < c.addr
    · rw [if_pos hlt]
      exact returnToFree_below h hlt
    · have hne : s.freeBufChain ≠ null := h.rep.freeChain.head_ne_nil
      have hhead : s.freeBufChain = c.addr := h.rep.freeChain.head_eq
      have hcb : c.addr ≤ b.addr := Nat.le_of_not_lt hlt
      have hlen : l.length < maxWalk := Nat.lt_of_succ_lt h.length_lt
      obtain ⟨l₁, q, l₂, hsplit, hspot, hq, habove⟩ :=
        findSpot_eq b.addr h.rep.freeChain.chain h.rep.freeChain.nil_notMem hlen
      have hsorted := h.sorted
      have hqb : q.addr ≤ b.addr := by
        rcases hq with rfl | hq
        · exact hcb
        · exact Nat.le_of_lt hq
      have hmem (d : Block) (hd : d ∈ l₁ ++ q :: l₂) : d ∈ c :: l := hsplit ▸ hd
      have hl₂ (d : Block) (hd : d ∈ l₂) : b.addr < d.addr := by
        have hdb := h.ne_of_mem (hmem d (by simp [hd]))
        rw [hsplit] at hsorted
        have htail := (List.pairwise_cons.mp (List.pairwise_append.mp hsorted).2.1).2
        cases l₂ with
        | nil => simp at hd
        | cons e l₂ =>
          have he : b.addr ≤ e.addr := habove e rfl
          rcases List.mem_cons.mp hd with rfl | hd
          · omega
          · have hed := (List.pairwise_cons.mp htail).1 d hd
            simp only [Block.top] at hed
            omega
      have hinsert : join c (insertJoin b l) = l₁ ++ join q (join b l₂) := by
        have hstep : insertJoin b (c :: l) = join c (insertJoin b l) := if_neg hlt
        rw [hsplit] at hsorted hstep
        rw [← hstep]
        exact insertJoin_append hsorted hqb hl₂
      have hqsize : s.size q.addr = q.size :=
        h.rep.size_eq q (List.mem_append_left _ (hmem q (by simp)))
      have hqtop : addSize q.addr (s.size q.addr) = q.top := by
        rw [hqsize]
        exact Nat.mod_eq_of_lt (h.top_lt q (List.mem_cons_of_mem b (hmem q (by simp))))
      rw [if_neg hlt, hinsert, returnToFree, if_neg hne, hhead, if_neg hlt, hspot]
      simp only [hqtop]
      rw [hsplit] at h
      split_ifs with htop
      · exact mergeBelow_rep h htop
      · exact linkAbove_rep h htop

end Operations

/-! ## The heap of a region -/

section Regions

variable {r : Region} {h : Heap r.base r.top headerSize} {s : Shm} {l₁ l₂ : List Block} {b : Block}

theorem headerSize_pos : 0 < headerSize := by
  decide

theorem placed_heap (h : Heap r.base r.top headerSize) : Placed h.free h.live where
  nodup := h.nodup_addr headerSize_pos
  length_lt := Nat.lt_of_le_of_lt (h.length_le headerSize_pos) r.top_lt
  top_lt := fun b hb =>
    Nat.lt_of_le_of_lt (Heap.bounds hb (Nat.lt_of_lt_of_le headerSize_pos (h.room b hb))).2 r.top_lt

theorem doRelease_rep (hr : Rep s h.free h.live) (heq : h.live = l₁ ++ b :: l₂) :
    ∃ s', doRelease b.addr s = some s' ∧
      Rep s' (h.release heq headerSize_pos).free (h.release heq headerSize_pos).live := by
  have hp := placed_heap h
  have hmem : b ∈ h.free ++ h.live := by simp [heq]
  have hpos : 0 < b.size := Nat.lt_of_lt_of_le headerSize_pos (h.room b hmem)
  rw [heq] at hr hp
  obtain ⟨s', htake, hrep, hsize⟩ := takeOutAllocced_rep hr hp
  have hperm : (h.free ++ (l₁ ++ b :: l₂)).Perm (b :: (h.free ++ (l₁ ++ l₂))) := by
    rw [← List.append_assoc, ← List.append_assoc]
    exact List.perm_middle
  have hnd := hp.nodup
  rw [(hperm.map Block.addr).nodup_iff, List.map_cons, List.nodup_cons] at hnd
  have hreleased : Released s' h.free (l₁ ++ l₂) b := by
    refine ⟨hrep, hnd.2, hnd.1, ?_, h.sorted, fun c hc => ?_, ?_, hpos, hsize⟩
    · have hlen := hp.length_lt
      rw [List.length_append] at hlen
      omega
    · refine hp.top_lt c ?_
      rcases List.mem_cons.mp hc with rfl | hc
      · simp
      · simp [hc]
    · have hlo := (Heap.bounds hmem hpos).1
      have hbase := r.base_pos
      exact Nat.ne_of_gt (Nat.lt_of_lt_of_le hbase hlo)
  obtain ⟨s'', hreturn, hrep'⟩ := returnToFree_rep hreleased
  refine ⟨s'', ?_, hrep'⟩
  rw [doRelease, htake]
  exact hreturn

theorem acquireSize_eq {size : Nat} (hsize : size < 2 ^ 31) :
    acquireSize size = (size + 3) / 4 * 4 + headerSize := by
  have h₁ : addSize size 3 = size + 3 := Nat.mod_eq_of_lt (by omega)
  rw [acquireSize, h₁, addSize, Nat.mod_eq_of_lt]
  simp only [headerSize]
  omega

/-- A free block that the walk can take as its candidate. -/
def Fits (size : Nat) (b : Block) : Prop :=
  acquireSize size ≤ b.size ∧ b.size - acquireSize size < 0x10000000

theorem dvd_acquireSize {size n : Nat} (hsize : size < 2 ^ 31) (hn : n ∣ 4) :
    n ∣ acquireSize size := by
  rw [acquireSize_eq hsize]
  exact Nat.dvd_add (Nat.dvd_mul_left_of_dvd hn _) (Nat.dvd_trans hn (by decide))

theorem findCandidate_fits (size : Nat) (hr : Rep s h.free h.live) :
    ∃ res, findCandidate (acquireSize size) s maxWalk s.freeBufChain (0x10000000, null) = some res ∧
      (res = (0x10000000, null) ∧ (∀ b ∈ h.free, ¬ Fits size b) ∨
        ∃ b ∈ h.free, Fits size b ∧ res = (b.size - acquireSize size, b.addr)) := by
  have hlen := (placed_heap h).length_lt
  rw [List.length_append] at hlen
  obtain ⟨res, hwalk, -, hleast, hfrom⟩ := findCandidate_eq (acquireSize size)
    (0x10000000, null) hr.freeChain.chain hr.freeChain.nil_notMem
    (fun b hb => hr.size_eq b (List.mem_append_left _ hb)) (show h.free.length < maxWalk by omega)
  rw [← hr.freeChain.head_eq] at hwalk
  refine ⟨res, hwalk, ?_⟩
  rcases hfrom with rfl | ⟨hlow, b, hb, hfit, rfl⟩
  · refine .inl ⟨rfl, fun b hb hfits => ?_⟩
    have hle := hleast b hb hfits.1
    have hlt := hfits.2
    simp only at hle
    omega
  · exact .inr ⟨b, hb, ⟨hfit, hlow⟩, rfl⟩

theorem doAcquire_rep {size : Nat} (hr : Rep s h.free h.live) (hsize : size < 2 ^ 31) :
    doAcquire size s = some (none, s) ∧ (∀ b ∈ h.free, ¬ Fits size b) ∨
      (∃ b ∈ h.free, Fits size b) ∧
      ∃ s' b, ∃ h' : Heap r.base r.top headerSize, doAcquire size s = some (some b.addr, s') ∧
        h'.live = b :: h.live ∧ acquireSize size ≤ b.size ∧ Rep s' h'.free h.live ∧
        s'.size b.addr = b.size ∧ ∀ n, n ∣ 4 → h.Granular n → h'.Granular n := by
  have hp := placed_heap h
  have hn := acquireSize_eq hsize
  obtain ⟨res, hwalk, ⟨rfl, hnone⟩ | ⟨b, hb, hfits, rfl⟩⟩ := findCandidate_fits size hr
  · refine .inl ⟨?_, hnone⟩
    simp [doAcquire, hwalk]
  · obtain ⟨l₁, l₂, heq⟩ := List.append_of_mem hb
    refine .inr ⟨⟨b, hb, hfits⟩, ?_⟩
    have hbne : b.addr ≠ null := fun hnull =>
      hr.freeChain.nil_notMem (hnull ▸ List.mem_map_of_mem hb)
    rw [heq] at hr hp
    by_cases hall : b.size - acquireSize size ≤ headerSize
    · obtain ⟨s', htake, hrep, hbs⟩ := takeAll_rep hr hp
      refine ⟨s', b, h.takeWhole heq, ?_, rfl, hfits.1, hrep, hbs, fun n _ hg => hg.takeWhole heq⟩
      simp [doAcquire, hwalk, hbne, hall, htake]
    · have hpos : 0 < acquireSize size := by
        rw [hn]
        exact Nat.add_pos_right _ headerSize_pos
      have hhead : headerSize ≤ acquireSize size := by
        rw [hn]
        exact Nat.le_add_left _ _
      let h' := h.carve heq hhead (by omega)
      have hfresh : b.addr + acquireSize size ∉ (l₁ ++ b :: l₂ ++ h.live).map Block.addr := by
        rw [← heq]
        intro hmem
        obtain ⟨c, hc, hca⟩ := List.mem_map.mp hmem
        have hbc : b ≠ c := by
          rintro rfl
          omega
        -- the first byte of the tail belongs to the free buffer
        refine h.disjoint_of_ne (List.mem_append_left _ hb) hc hbc c.addr ?_ ?_
        · simp only [Block.Contains, Block.top]
          omega
        · have hroom := h.room c hc
          simp only [Block.Contains, Block.top, headerSize] at hroom ⊢
          omega
      obtain ⟨s', htake, hrep, hbs⟩ := takeHead_rep hr hp hpos (by omega) hfresh
      refine ⟨s', ⟨b.addr, acquireSize size⟩, h', ?_, rfl, Nat.le_refl _, hrep, hbs, ?_⟩
      · simp [doAcquire, hwalk, hbne, hall, htake]
      · intro n hn4 hg
        exact hg.carve heq hhead _ (dvd_acquireSize hsize hn4)

end Regions

/-! ## Every sequence of calls -/

/-- The allocator, and the pointers that were acquired and not released, with the sizes asked for. -/
structure Client where
  shm : Option Shm
  held : List (Nat × Nat)

/-- A call, perhaps in interrupt context; the size is a nonnegative `int`. -/
inductive Call
  | acquire (inInterrupt : Bool) (size : Fin (2 ^ 31))
  | release (inInterrupt : Bool) (ptr : Nat)

/-- The state after `shared_mem_init`. -/
def Client.start (r : Region) (mem : Nat → ShmBuffer) : Client where
  shm := some (sharedMemInit r mem)
  held := []

def step (c : Client) : Call → Client
  | .acquire inInterrupt size =>
    match c.shm.bind (sharedMemAcquire inInterrupt size.val) with
    | none => { c with shm := none }
    | some res =>
      { shm := some res.shm
        held := if res.rv = .success then (res.destPtr, size.val) :: c.held else c.held }
  | .release inInterrupt ptr =>
    { shm := c.shm.bind (sharedMemRelease inInterrupt ptr)
      held := if inInterrupt then c.held else c.held.eraseP fun p => p.1 = ptr }

/-- Only `NULL` and pointers that are currently allocated are released. -/
def Paired (c : Client) : Call → Prop
  | .acquire _ _ => True
  | .release _ ptr => ptr = null ∨ ptr ∈ c.held.map Prod.fst

instance (c : Client) : DecidablePred (Paired c)
  | .acquire _ _ => inferInstanceAs (Decidable True)
  | .release _ ptr => inferInstanceAs (Decidable (ptr = null ∨ ptr ∈ c.held.map Prod.fst))

/-- A pointer is to the bytes of a block after its header, and those are enough. -/
def Holds (p : Nat × Nat) (b : Block) : Prop :=
  p.1 = b.addr + headerSize ∧ p.2 + headerSize ≤ b.size

section Calls

variable {r : Region} {h : Heap r.base r.top headerSize} {s : Shm} {held : List (Nat × Nat)}

theorem holds_split {live : List Block} {ptr : Nat} (hh : List.Forall₂ Holds held live)
    (hptr : ptr ∈ held.map Prod.fst) :
    ∃ l₁ b l₂, live = l₁ ++ b :: l₂ ∧ ptr = b.addr + headerSize ∧
      List.Forall₂ Holds (held.eraseP fun p => p.1 = ptr) (l₁ ++ l₂) := by
  induction hh with
  | nil => simp at hptr
  | @cons p b held live hpb hh ih =>
    by_cases heq : p.1 = ptr
    · refine ⟨[], b, live, rfl, heq ▸ hpb.1, ?_⟩
      rw [List.eraseP_cons_of_pos (by simpa using heq)]
      exact hh
    · have hmem : ptr ∈ held.map Prod.fst := by
        rw [List.map_cons, List.mem_cons] at hptr
        exact hptr.resolve_left fun h => heq h.symm
      obtain ⟨l₁, c, l₂, rfl, hptr, hrest⟩ := ih hmem
      refine ⟨b :: l₁, c, l₂, rfl, hptr, ?_⟩
      rw [List.eraseP_cons_of_neg (by simpa using heq)]
      exact List.Forall₂.cons hpb hrest

/-- A call of `shared_mem_acquire` succeeds with a block of its own, or changes nothing. -/
structure Acquires (s : Shm) (h : Heap r.base r.top headerSize) (size : Nat) (res : AcquireResult) :
    Prop where
  success : res.rv = .success → ∃ b : Block, ∃ h' : Heap r.base r.top headerSize,
    h'.live = b :: h.live ∧ Rep res.shm h'.free h'.live ∧ Holds (res.destPtr, size) b ∧
    ∀ n, n ∣ 4 → h.Granular n → h'.Granular n
  failure : res.rv ≠ .success → res.shm = s ∧ res.destPtr = null

theorem sharedMemAcquire_rep (inInterrupt : Bool) {size : Nat} (hr : Rep s h.free h.live)
    (hsize : size < 2 ^ 31) :
    ∃ res, sharedMemAcquire inInterrupt size s = some res ∧ Acquires s h size res ∧
      (inInterrupt = false → (res.rv = .success ↔ ∃ b ∈ h.free, Fits size b)) := by
  have hfail (rv : EcError) (hrv : rv ≠ .success) : Acquires s h size ⟨rv, null, s⟩ :=
    ⟨fun h => absurd h hrv, fun _ => ⟨rfl, rfl⟩⟩
  have hbusy (hnone : ∀ b ∈ h.free, ¬ Fits size b) :
      EcError.busy = .success ↔ ∃ b ∈ h.free, Fits size b :=
    ⟨nofun, fun ⟨b, hb, hfits⟩ => absurd hfits (hnone b hb)⟩
  unfold sharedMemAcquire
  split_ifs with hirq hfree
  · exact ⟨_, rfl, hfail .inval (by decide), fun hno => absurd (hirq.symm.trans hno) (by decide)⟩
  · refine ⟨_, rfl, hfail .busy (by decide), fun _ => hbusy fun b hb => ?_⟩
    rw [List.map_eq_nil_iff.mp (hr.freeChain.eq_nil_iff.mp hfree)] at hb
    exact absurd hb List.not_mem_nil
  · rcases doAcquire_rep hr hsize with
      ⟨hnone, hno⟩ | ⟨hfits, s', b, h', hsome, hlive, hfit, hrep, hbs, hgran⟩
    · rw [hnone]
      exact ⟨_, rfl, hfail .busy (by decide), fun _ => hbusy hno⟩
    · rw [hsome]
      refine ⟨_, rfl, ⟨fun _ => ⟨b, h', hlive, ?_, ⟨?_, ?_⟩, hgran⟩, fun hno => absurd rfl hno⟩,
        fun _ => ⟨fun _ => hfits, fun _ => rfl⟩⟩
      · have hp := placed_heap h'
        rw [hlive] at hp ⊢
        have hlnd := hp.nodup_live
        rw [List.map_cons, List.nodup_cons] at hlnd
        have hmem : b ∈ h'.free ++ h'.live := by simp [hlive]
        have hlo := (Heap.bounds hmem (Nat.lt_of_lt_of_le headerSize_pos (h'.room b hmem))).1
        refine pushAllocced_rep hrep (Nat.ne_of_gt (Nat.lt_of_lt_of_le r.base_pos hlo)) ?_ hlnd.1
          hlnd.2 ?_ hbs
        · exact fun hb => hp.disjoint hb (by simp)
        · exact fun a ha hl => hp.disjoint ha (by simp only [List.map_cons, List.mem_cons, hl, or_true])
      · have htop := (placed_heap h').top_lt b (by simp [hlive])
        have hn := acquireSize_eq hsize
        simp only [Block.top] at htop
        exact Nat.mod_eq_of_lt (by omega)
      · have hn := acquireSize_eq hsize
        simp only
        omega

theorem sharedMemRelease_rep {ptr : Nat} (hr : Rep s h.free h.live)
    (hh : List.Forall₂ Holds held h.live) (inInterrupt : Bool)
    (hptr : ptr = null ∨ ptr ∈ held.map Prod.fst) :
    ∃ s', ∃ h' : Heap r.base r.top headerSize,
      sharedMemRelease inInterrupt ptr s = some s' ∧ Rep s' h'.free h'.live ∧
      List.Forall₂ Holds (if inInterrupt then held else held.eraseP fun p => p.1 = ptr) h'.live ∧
      ∀ n, h.Granular n → h'.Granular n := by
  have hnonnull (p : Nat × Nat) (hp : p ∈ held) : p.1 ≠ null := by
    obtain ⟨i, hi, rfl⟩ := List.getElem_of_mem hp
    have hpb := (List.forall₂_iff_get.mp hh).2 i hi (hh.length_eq ▸ hi)
    rw [List.get_eq_getElem] at hpb
    rw [hpb.1]
    exact Nat.ne_of_gt (Nat.add_pos_right _ headerSize_pos)
  have hkeep : (held.eraseP fun p => p.1 = null) = held :=
    List.eraseP_of_forall_not fun p hp => by simpa using hnonnull p hp
  cases inInterrupt with
  | true => exact ⟨s, h, rfl, hr, hh, fun _ hg => hg⟩
  | false =>
    rcases Decidable.em (ptr = null) with rfl | hne
    · refine ⟨s, h, rfl, hr, ?_, fun _ hg => hg⟩
      simpa [hkeep] using hh
    · obtain ⟨l₁, b, l₂, heq, hb, hrest⟩ := holds_split hh (hptr.resolve_left hne)
      obtain ⟨s', hrelease, hrep⟩ := doRelease_rep hr heq
      refine ⟨s', h.release heq headerSize_pos, ?_, hrep, hrest,
        fun _ hg => hg.release heq headerSize_pos⟩
      have hmem : b ∈ h.free ++ h.live := by simp [heq]
      have htop := (placed_heap h).top_lt b hmem
      have hroom := h.room b hmem
      have haddr : addSize ptr (2 ^ 32 - headerSize) = b.addr := by
        simp only [Block.top, headerSize] at htop hroom hb ⊢
        rw [addSize]
        omega
      rw [sharedMemRelease, if_neg Bool.false_ne_true, if_neg hne, haddr]
      exact hrelease

theorem rep_init (r : Region) (mem : Nat → ShmBuffer) :
    Rep (sharedMemInit r mem) (Heap.start r.room).free (Heap.start r.room).live where
  freeChain := by
    refine ⟨rfl, ?_, ?_, ?_, trivial⟩
    · exact fun hmem => Nat.ne_of_lt r.base_pos (List.mem_singleton.mp hmem)
    · simp [sharedMemInit]
    · simp [sharedMemInit]
  alloccedChain := ⟨rfl, List.not_mem_nil, trivial⟩
  size_eq := by
    simp [Heap.start, sharedMemInit]

/-- The allocator is in order: its chains hold the blocks of a heap over the whole region, and the
client holds the live ones. -/
def Client.Ok (r : Region) (c : Client) : Prop :=
  ∃ s, ∃ h : Heap r.base r.top headerSize, c.shm = some s ∧ Rep s h.free h.live ∧
    List.Forall₂ Holds c.held h.live

/-- The allocator is in order, with blocks whose sizes are multiples of `n`. -/
def Client.Kept (r : Region) (n : Nat) (c : Client) : Prop :=
  ∃ s, ∃ h : Heap r.base r.top headerSize, c.shm = some s ∧ Rep s h.free h.live ∧
    List.Forall₂ Holds c.held h.live ∧ h.Granular n

theorem Client.kept_one {c : Client} : c.Kept r 1 ↔ c.Ok r := by
  constructor
  · rintro ⟨s, h, hs, hr, hh, -⟩
    exact ⟨s, h, hs, hr, hh⟩
  · rintro ⟨s, h, hs, hr, hh⟩
    exact ⟨s, h, hs, hr, hh, h.granular_one⟩

/-- A call of the client keeps the allocator in order, and the sizes multiples of what divides the
size of a word. -/
theorem Client.Kept.step {c : Client} {n : Nat} (hn : n ∣ 4) (hc : c.Kept r n) {call : Call}
    (hcall : Paired c call) : (Shmem.step c call).Kept r n := by
  obtain ⟨s, h, hs, hr, hh, hg⟩ := hc
  cases call with
  | acquire inInterrupt size =>
    obtain ⟨res, hres, hacq, -⟩ := sharedMemAcquire_rep inInterrupt hr size.isLt
    have hstep : Shmem.step c (.acquire inInterrupt size) =
        { shm := some res.shm
          held := if res.rv = .success then (res.destPtr, size.val) :: c.held else c.held } := by
      simp [Shmem.step, hs, hres]
    rw [hstep]
    by_cases hrv : res.rv = .success
    · obtain ⟨b, h', hlive, hrep, hb, hgran⟩ := hacq.success hrv
      refine ⟨res.shm, h', rfl, hrep, ?_, hgran n hn hg⟩
      rw [if_pos hrv, hlive]
      exact List.Forall₂.cons hb hh
    · obtain ⟨hshm, -⟩ := hacq.failure hrv
      refine ⟨s, h, by rw [hshm], hr, ?_, hg⟩
      rw [if_neg hrv]
      exact hh
  | release inInterrupt ptr =>
    obtain ⟨s', h', hrel, hrep, hheld, hgran⟩ := sharedMemRelease_rep hr hh inInterrupt hcall
    refine ⟨s', h', ?_, hrep, hheld, hgran n hg⟩
    simp [Shmem.step, hs, hrel]

theorem Client.Ok.step {c : Client} (hc : c.Ok r) {call : Call} (hcall : Paired c call) :
    (Shmem.step c call).Ok r :=
  Client.kept_one.mp ((Client.kept_one.mpr hc).step (Nat.one_dvd 4) hcall)

/-- What is said of the allocator in a state `s` with the free blocks `free` and the live ones. -/
structure AllocatorOk (r : Region) (s : Shm) (held : List (Nat × Nat)) (free live : List Block) :
    Prop where
  rep : Rep s free live
  sorted : Sorted free
  disjoint : (free ++ live).Pairwise Block.Disjoint
  tiles : ∀ x, cover (free ++ live) x = if r.base ≤ x ∧ x < r.top then 1 else 0
  holds : List.Forall₂ Holds held live
  initial : held = [] → free = [⟨r.base, r.top - r.base⟩]

/-- What is said of a call of `shared_mem_acquire` there: the blocks it leaves are those of before
and a block for the caller, or nothing is changed. -/
structure AcquireOk (r : Region) (s : Shm) (live : List Block) (size : Nat) (res : AcquireResult) :
    Prop where
  success : res.rv = .success → ∃ b : Block, res.destPtr = b.addr + headerSize ∧
    size + headerSize ≤ b.size ∧ (r.base ≤ b.addr ∧ b.top ≤ r.top) ∧ ∀ c ∈ live, b.Disjoint c
  failure : res.rv ≠ .success → res.shm = s ∧ res.destPtr = null

/-- In every run of paired calls the allocator is in order, and the next call of
`shared_mem_acquire` returns. -/
theorem shmem_ok {mem : Nat → ShmBuffer} {c : Client}
    (hc : Reach Shmem.step Paired (Client.start r mem) c) :
    ∃ s free live, c.shm = some s ∧ AllocatorOk r s c.held free live ∧
      ∀ inInterrupt, ∀ size < 2 ^ 31, ∃ res,
        sharedMemAcquire inInterrupt size s = some res ∧ AcquireOk r s live size res := by
  have hok : c.Ok r := by
    refine hc.invariant ⟨_, Heap.start r.room, rfl, rep_init r mem, List.Forall₂.nil⟩ ?_
    exact fun c call hok hcall => hok.step hcall
  obtain ⟨s, h, hs, hr, hh⟩ := hok
  refine ⟨s, h.free, h.live, hs, ⟨hr, h.sorted, h.pairwise_disjoint, fun x => ?_, hh, ?_⟩, ?_⟩
  · rw [cover_append, h.tiles]
  · intro hheld
    rw [hheld, List.forall₂_nil_left_iff] at hh
    have hroom := r.room
    exact Heap.free_of_live_nil hh headerSize_pos (by simp only [headerSize] at hroom; omega)
  · intro inInterrupt size hsize
    obtain ⟨res, hres, hacq, -⟩ := sharedMemAcquire_rep inInterrupt hr hsize
    refine ⟨res, hres, fun hrv => ?_, hacq.failure⟩
    obtain ⟨b, h', hlive, -, hb, -⟩ := hacq.success hrv
    have hmem : b ∈ h'.free ++ h'.live := by simp [hlive]
    have hpos := Nat.lt_of_lt_of_le headerSize_pos (h'.room b hmem)
    refine ⟨b, hb.1, hb.2, Heap.bounds hmem hpos, ?_⟩
    have hpair := (List.pairwise_append.mp h'.pairwise_disjoint).2.1
    rw [hlive] at hpair
    exact (List.pairwise_cons.mp hpair).1

end Calls

def smallRegion : Region where
  base := 0x1000
  top := 0x1100
  base_pos := by decide
  room := by decide
  top_lt := by decide

theorem shmem_ok_released :
    ∃ s free live,
      ([Call.acquire false 40, .acquire false 30, .release false 0x100C].foldl Shmem.step
        (Client.start smallRegion fun _ => ⟨0, 0, 0⟩)).shm = some s ∧
      AllocatorOk smallRegion s
        ([Call.acquire false 40, .acquire false 30, .release false 0x100C].foldl Shmem.step
          (Client.start smallRegion fun _ => ⟨0, 0, 0⟩)).held free live ∧
      ∀ inInterrupt, ∀ size < 2 ^ 31, ∃ res, sharedMemAcquire inInterrupt size s = some res ∧
        AcquireOk smallRegion s live size res :=
  shmem_ok (.allowed (by decide) .start)

end ChromiumEc.Shmem
