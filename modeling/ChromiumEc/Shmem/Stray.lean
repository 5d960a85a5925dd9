import ChromiumEc.Shmem.Refine

/-!
# Stray — release of a pointer that is not allocated

`do_release` looks for the buffer in the allocated chain before it touches it.  The walk starts
behind the head of the chain, which must be there for that: without an allocated block, the release
of a pointer that is not allocated reads through `NULL`.
-/

namespace ChromiumEc.Shmem

open Lib

def InRange (_ : Client) : Call → Prop
  | .acquire _ _ => True
  | .release _ ptr => ptr < 2 ^ 32

instance (c : Client) : DecidablePred (InRange c)
  | .acquire _ _ => inferInstanceAs (Decidable True)
  | .release _ ptr => inferInstanceAs (Decidable (ptr < 2 ^ 32))

section Stray

variable {r : Region} {s : Shm} {c : Client} {held : List (Nat × Nat)} {free live : List Block}
  {ptr n : Nat} {mem : Nat → ShmBuffer}

/-- The walk along the allocated chain does not meet a header that is not in it, and there is no
walk along the empty chain. -/
theorem takeOutAllocced_stray (hr : Rep s free live) (hp : Placed free live)
    (hptr : ptr ∉ live.map Block.addr) :
    takeOutAllocced ptr s = if live = [] then none else some (false, s) := by
  have hhead := hr.alloccedChain.head_eq
  have hnil := hr.alloccedChain.nil_notMem
  have hchain := hr.alloccedChain.chain
  have hlen := hp.length_lt
  rw [takeOutAllocced]
  cases live with
  | nil =>
    have hempty : s.alloccedBufChain = null := hhead
    rw [hempty, if_pos (rfl : ([] : List Block) = [])]
    by_cases hnull : ptr = null
    · rw [if_pos hnull, if_pos hnull]
    · rw [if_neg hnull, if_pos rfl]
  | cons b l =>
    simp only [List.map_cons, List.headD_cons, List.mem_cons, not_or] at hhead hnil hchain hptr
    obtain ⟨-, hnext, htail⟩ := hchain
    have hwalk : inChain ptr s maxWalk (s.next s.alloccedBufChain) = some false := by
      have hlt : (l.map Block.addr).length < maxWalk := by
        simp only [List.length_append, List.length_cons] at hlen
        rw [List.length_map]
        omega
      rw [hhead, hnext, inChain_eq htail hnil.2 hlt, decide_eq_false hptr.2]
    rw [if_neg (by rw [hhead]; exact hptr.1), if_neg (by rw [hhead]; exact Ne.symm hnil.1), hwalk,
      if_neg (List.cons_ne_nil b l)]

theorem held_eq (hh : List.Forall₂ Holds held live) :
    held.map Prod.fst = live.map fun b => b.addr + headerSize := by
  induction hh with
  | nil => rfl
  | cons hpb _ ih => rw [List.map_cons, List.map_cons, ih, hpb.1]

theorem header_notMem (hp : Placed free live) (hh : List.Forall₂ Holds held live)
    (hroom : ∀ b ∈ live, headerSize ≤ b.size) (hptr : ptr < 2 ^ 32)
    (hstray : ptr ∉ held.map Prod.fst) :
    addSize ptr (2 ^ 32 - headerSize) ∉ live.map Block.addr := by
  rw [held_eq hh] at hstray
  intro hmem
  obtain ⟨b, hb, haddr⟩ := List.mem_map.mp hmem
  have htop := hp.top_lt b (List.mem_append_right _ hb)
  have hsize := hroom b hb
  refine hstray (List.mem_map.mpr ⟨b, hb, ?_⟩)
  simp only [addSize, headerSize, Block.top] at haddr htop hsize ⊢
  omega

/-- Without an allocated block the release of a stray pointer reads through `NULL`, and else it
changes nothing. -/
theorem sharedMemRelease_stray {h : Heap r.base r.top headerSize} (hr : Rep s h.free h.live)
    (hh : List.Forall₂ Holds held h.live) (hptr : ptr < 2 ^ 32) (hstray : ptr ∉ held.map Prod.fst)
    (hne : ptr ≠ null) :
    sharedMemRelease false ptr s = if held = [] then none else some s := by
  have hp := placed_heap h
  have hout := header_notMem hp hh (fun b hb => h.room b (List.mem_append_right _ hb)) hptr hstray
  have hempty : held = [] ↔ h.live = [] := by
    rw [← List.length_eq_zero_iff, ← List.length_eq_zero_iff, hh.length_eq]
  rw [sharedMemRelease, if_neg Bool.false_ne_true, if_neg hne, doRelease,
    takeOutAllocced_stray hr hp hout]
  by_cases hlive : h.live = []
  · rw [if_pos hlive, if_pos (hempty.mpr hlive)]
  · rw [if_neg hlive, if_neg (mt hempty.mp hlive)]

theorem kept_step (hn : n ∣ 4) {call : Call} (hc : c.shm = none ∨ c.Kept r n)
    (hcall : InRange c call) :
    (step c call).shm = none ∨ (step c call).Kept r n := by
  rcases hc with hnone | hkept
  · refine .inl ?_
    cases call <;> simp [step, hnone]
  · cases call with
    | acquire inInterrupt size => exact .inr (hkept.step hn trivial)
    | release inInterrupt ptr =>
      by_cases hpaired : Paired c (.release inInterrupt ptr)
      · exact .inr (hkept.step hn hpaired)
      · obtain ⟨hne, hstray⟩ := not_or.mp hpaired
        obtain ⟨s, h, hs, hr, hh, hg⟩ := hkept
        have hheld : (c.held.eraseP fun p => p.1 = ptr) = c.held := by
          refine List.eraseP_of_forall_not fun p hp => ?_
          have : p.1 ≠ ptr := fun heq => hstray (heq ▸ List.mem_map_of_mem hp)
          simpa using this
        cases inInterrupt with
        | true => exact .inr ⟨s, h, by simp [step, hs, sharedMemRelease], hr, hh, hg⟩
        | false =>
          have hrelease := sharedMemRelease_stray hr hh hcall hstray hne
          by_cases hempty : c.held = []
          · refine .inl ?_
            simp [step, hs, hrelease, hempty]
          · refine .inr ⟨s, h, ?_, hr, ?_, hg⟩
            · simp [step, hs, hrelease, hempty]
            · simp only [step, hheld]
              exact hh

theorem kept_run (hn : n ∣ 4) (hregion : n ∣ r.top - r.base)
    (hc : Reach step InRange (Client.start r mem) c) : c.shm = none ∨ c.Kept r n := by
  refine Reach.invariant (I := fun c => c.shm = none ∨ c.Kept r n) ?_
    (fun c call hc hcall => kept_step hn hc hcall) hc
  exact .inr ⟨_, Heap.start r.room, rfl, rep_init r mem, List.Forall₂.nil,
    Heap.granular_start r.room hregion⟩

/-- The release of a pointer that is not allocated leaves everything as it is, exactly when it
returns at once or some block is allocated. -/
theorem strayRelease_harmless_iff (hc : Reach step InRange (Client.start r mem) c)
    (hs : c.shm = some s) (hptr : ptr < 2 ^ 32) (hstray : ptr ∉ c.held.map Prod.fst)
    (inInterrupt : Bool) :
    sharedMemRelease inInterrupt ptr s = some s ↔
      inInterrupt = true ∨ ptr = null ∨ c.held ≠ [] := by
  rcases kept_run (Nat.one_dvd 4) (Nat.one_dvd _) hc with hnone | ⟨s', h, hs', hr, hh, -⟩
  · rw [hnone] at hs
    contradiction
  · obtain rfl : s' = s := Option.some.inj (hs'.symm.trans hs)
    cases inInterrupt with
    | true => exact ⟨fun _ => .inl rfl, fun _ => rfl⟩
    | false =>
      by_cases hne : ptr = null
      · refine ⟨fun _ => .inr (.inl hne), fun _ => ?_⟩
        rw [sharedMemRelease, if_neg Bool.false_ne_true, if_pos hne]
      · rw [sharedMemRelease_stray hr hh hptr hstray hne]
        simp [hne]

theorem strayRelease_harmless_doubleFree :
    let c := [Call.acquire false 40, .acquire false 30, .release false 0x100C].foldl step
      (Client.start smallRegion fun _ => ⟨0, 0, 0⟩)
    ∃ s, c.shm = some s ∧ sharedMemRelease false 0x100C s = some s := by
  intro c
  have hsome : c.shm.isSome = true := by decide
  obtain ⟨s, hs⟩ := Option.isSome_iff_exists.mp hsome
  refine ⟨s, hs, ?_⟩
  exact (strayRelease_harmless_iff (.allowed (by decide) .start) hs (by decide) (by decide) false).mpr
    (.inr (.inr (by decide)))

end Stray

/-- The only block is released twice. -/
theorem doubleFree_reads_null :
    let c := [Call.acquire false 40, .release false 0x100C].foldl step
      (Client.start smallRegion fun _ => ⟨0, 0, 0⟩)
    Reach step InRange (Client.start smallRegion fun _ => ⟨0, 0, 0⟩) c ∧
      0x100C ∉ c.held.map Prod.fst ∧ c.shm.isSome = true ∧
      c.shm.bind (sharedMemRelease false 0x100C) = none := by
  refine ⟨.allowed (by decide) .start, by decide, by decide, ?_⟩
  rfl

end ChromiumEc.Shmem
