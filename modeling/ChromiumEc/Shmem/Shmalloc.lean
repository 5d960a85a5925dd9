import Mathlib.Logic.Function.Basic
import Mathlib.Algebra.Group.Int.Defs
import Mathlib.Algebra.Group.Nat.Defs

/-!
# Shmalloc — the shared memory allocator

`shmalloc.c` on a 32-bit target.  Addresses and `size_t` are numbers below 2 ^ 32, `NULL` is 0, and
the memory maps an address to the buffer header there.  A result `none` stands for an access to
`NULL` or a walk along a chain that does not come to an end.
-/

namespace ChromiumEc.Shmem

/-! ## Memory -/

/-- `struct shm_buffer`. -/
structure ShmBuffer where
  nextBuffer : Nat
  prevBuffer : Nat
  bufferSize : Nat
  deriving DecidableEq, Repr

def null : Nat :=
  0

/-- `sizeof(struct shm_buffer)`. -/
def headerSize : Nat :=
  12

def maxWalk : Nat :=
  2 ^ 32

/-- `size_t` addition. -/
def addSize (a b : Nat) : Nat :=
  (a + b) % 2 ^ 32

inductive EcError
  | success
  | inval
  | busy
  deriving DecidableEq, Repr

/-- The static variables of the allocator, and the memory. -/
structure Shm where
  mem : Nat → ShmBuffer
  freeBufChain : Nat
  alloccedBufChain : Nat
  maxAllocatedSize : Nat

namespace Shm

def next (s : Shm) (p : Nat) : Nat :=
  (s.mem p).nextBuffer

def prev (s : Shm) (p : Nat) : Nat :=
  (s.mem p).prevBuffer

def size (s : Shm) (p : Nat) : Nat :=
  (s.mem p).bufferSize

def setNext (p v : Nat) (s : Shm) : Shm :=
  { s with mem := Function.update s.mem p { s.mem p with nextBuffer := v } }

def setPrev (p v : Nat) (s : Shm) : Shm :=
  { s with mem := Function.update s.mem p { s.mem p with prevBuffer := v } }

def setSize (p v : Nat) (s : Shm) : Shm :=
  { s with mem := Function.update s.mem p { s.mem p with bufferSize := v } }

/-- `if (p) p->prev_buffer = v`. -/
def setPrevIf (p v : Nat) (s : Shm) : Shm :=
  if p = null then s else s.setPrev p v

section Lemmas

variable (s : Shm) (p v x : Nat)

@[simp] theorem next_setNext : (s.setNext p v).next x = if x = p then v else s.next x := by
  by_cases h : x = p
  · simp [next, setNext, h]
  · simp [next, setNext, h]

@[simp] theorem prev_setNext : (s.setNext p v).prev x = s.prev x := by
  by_cases h : x = p
  · simp [prev, setNext, h]
  · simp [prev, setNext, h]

@[simp] theorem size_setNext : (s.setNext p v).size x = s.size x := by
  by_cases h : x = p
  · simp [size, setNext, h]
  · simp [size, setNext, h]

@[simp] theorem next_setPrev : (s.setPrev p v).next x = s.next x := by
  by_cases h : x = p
  · simp [next, setPrev, h]
  · simp [next, setPrev, h]

@[simp] theorem prev_setPrev : (s.setPrev p v).prev x = if x = p then v else s.prev x := by
  by_cases h : x = p
  · simp [prev, setPrev, h]
  · simp [prev, setPrev, h]

@[simp] theorem size_setPrev : (s.setPrev p v).size x = s.size x := by
  by_cases h : x = p
  · simp [size, setPrev, h]
  · simp [size, setPrev, h]

@[simp] theorem next_setSize : (s.setSize p v).next x = s.next x := by
  by_cases h : x = p
  · simp [next, setSize, h]
  · simp [next, setSize, h]

@[simp] theorem prev_setSize : (s.setSize p v).prev x = s.prev x := by
  by_cases h : x = p
  · simp [prev, setSize, h]
  · simp [prev, setSize, h]

@[simp] theorem size_setSize : (s.setSize p v).size x = if x = p then v else s.size x := by
  by_cases h : x = p
  · simp [size, setSize, h]
  · simp [size, setSize, h]

@[simp] theorem next_setPrevIf : (s.setPrevIf p v).next x = s.next x := by
  unfold setPrevIf
  split <;> simp

@[simp] theorem prev_setPrevIf :
    (s.setPrevIf p v).prev x = if x = p ∧ p ≠ null then v else s.prev x := by
  unfold setPrevIf
  split <;> simp [*]

@[simp] theorem size_setPrevIf : (s.setPrevIf p v).size x = s.size x := by
  unfold setPrevIf
  split <;> simp

@[simp] theorem freeBufChain_setNext : (s.setNext p v).freeBufChain = s.freeBufChain :=
  rfl

@[simp] theorem freeBufChain_setPrev : (s.setPrev p v).freeBufChain = s.freeBufChain :=
  rfl

@[simp] theorem freeBufChain_setSize : (s.setSize p v).freeBufChain = s.freeBufChain :=
  rfl

@[simp] theorem freeBufChain_setPrevIf : (s.setPrevIf p v).freeBufChain = s.freeBufChain := by
  unfold setPrevIf
  split <;> simp

@[simp] theorem alloccedBufChain_setNext :
    (s.setNext p v).alloccedBufChain = s.alloccedBufChain :=
  rfl

@[simp] theorem alloccedBufChain_setPrev :
    (s.setPrev p v).alloccedBufChain = s.alloccedBufChain :=
  rfl

@[simp] theorem alloccedBufChain_setSize :
    (s.setSize p v).alloccedBufChain = s.alloccedBufChain :=
  rfl

@[simp] theorem alloccedBufChain_setPrevIf :
    (s.setPrevIf p v).alloccedBufChain = s.alloccedBufChain := by
  unfold setPrevIf
  split <;> simp

end Lemmas

end Shm

/-- The RAM behind the firmware's data, from `__shared_mem_buf` to `system_usable_ram_end()`: it
has room for a header, and its end is an address. -/
structure Region where
  base : Nat
  top : Nat
  base_pos : null < base
  room : base + headerSize ≤ top
  top_lt : top < 2 ^ 32

/-- `shared_mem_init`: the whole region is one free buffer. -/
def sharedMemInit (r : Region) (mem : Nat → ShmBuffer) : Shm :=
  ((({ mem := mem, freeBufChain := r.base, alloccedBufChain := null, maxAllocatedSize := 0 } :
    Shm).setNext r.base null).setPrev r.base null).setSize r.base (r.top - r.base)

/-- Take the first buffer out of a chain, but for the chain's head. -/
def unlinkFirst (p : Nat) (s : Shm) : Shm :=
  s.setPrevIf (s.next p) null

/-- Take a buffer that is not the first out of its chain. -/
def unlinkInner (p : Nat) (s : Shm) : Shm :=
  let s := s.setNext (s.prev p) (s.next p)
  s.setPrevIf (s.next p) (s.prev p)

/-! ## Release -/

/-- Whether the walk from `pfb` on meets `ptr`. -/
def inChain (ptr : Nat) (s : Shm) : Nat → Nat → Option Bool
  | 0, _ => none
  | fuel + 1, pfb =>
    if pfb = null then some false
    else if pfb = ptr then some true
    else inChain ptr s fuel (s.next pfb)

/-- The first step of `do_release`: take the buffer out of the allocated chain, if it is there. -/
def takeOutAllocced (ptr : Nat) (s : Shm) : Option (Bool × Shm) :=
  if ptr = s.alloccedBufChain then
    if ptr = null then none
    else
      let s := unlinkFirst ptr s
      some (true, { s with alloccedBufChain := s.next ptr })
  else if s.alloccedBufChain = null then none
  else
    match inChain ptr s maxWalk (s.next s.alloccedBufChain) with
    | none => none
    | some false => some (false, s)
    | some true =>
      if s.prev ptr = null then none
      else some (true, unlinkInner ptr s)

/-- Put the released buffer, which has its `next_buffer` already, in front of the free chain. -/
def linkFirst (ptr : Nat) (s : Shm) : Shm :=
  let s := (s.setPrevIf (s.next ptr) ptr).setPrev ptr null
  { s with freeBufChain := ptr }

/-- The released buffer is below all free ones, and may touch the first of them. -/
def releaseBelow (ptr : Nat) (s : Shm) : Shm :=
  let releasedSize := s.size ptr
  if addSize ptr releasedSize = s.freeBufChain then
    linkFirst ptr ((s.setSize ptr (addSize (s.size s.freeBufChain) releasedSize)).setNext ptr
      (s.next s.freeBufChain))
  else
    linkFirst ptr (((s.setSize ptr releasedSize).setNext ptr s.freeBufChain).setPrev
      s.freeBufChain ptr)

/-- The walk to the highest free buffer that is still below `ptr`. -/
def findSpot (ptr : Nat) (s : Shm) : Nat → Nat → Option Nat
  | 0, _ => none
  | fuel + 1, pfb =>
    if s.next pfb ≠ null ∧ s.next pfb < ptr then findSpot ptr s fuel (s.next pfb)
    else some pfb

/-- The released buffer touches `pfb`, the free buffer below it: merge the two, and also the one
above if the released buffer is the exact gap. -/
def mergeBelow (ptr pfb : Nat) (s : Shm) : Option Shm :=
  let releasedSize := s.size ptr
  let s := s.setSize pfb (addSize (s.size pfb) releasedSize)
  if addSize ptr releasedSize = s.next pfb then
    if s.next pfb = null then none
    else
      let s := s.setSize pfb (addSize (s.size pfb) (s.size (s.next pfb)))
      let s := s.setNext pfb (s.next (s.next pfb))
      some (s.setPrevIf (s.next pfb) pfb)
  else some s

/-- Put the released buffer, which has its `next_buffer` already, behind `pfb`. -/
def linkAfter (ptr pfb : Nat) (s : Shm) : Shm :=
  let s := (s.setPrev ptr pfb).setNext pfb ptr
  s.setPrevIf (s.next ptr) ptr

/-- The released buffer comes after `pfb` in the free chain, and may touch the one above it. -/
def linkAbove (ptr pfb : Nat) (s : Shm) : Option Shm :=
  let releasedSize := s.size ptr
  if addSize ptr releasedSize = s.next pfb then
    if s.next pfb = null then none
    else
      let s := s.setSize ptr (addSize releasedSize (s.size (s.next pfb)))
      some (linkAfter ptr pfb (s.setNext ptr (s.next (s.next pfb))))
  else some (linkAfter ptr pfb ((s.setNext ptr (s.next pfb)).setSize ptr releasedSize))

/-- The second step of `do_release`: bring the buffer back into the free chain. -/
def returnToFree (ptr : Nat) (s : Shm) : Option Shm :=
  if s.freeBufChain = null then
    let s := ((s.setSize ptr (s.size ptr)).setNext ptr null).setPrev ptr null
    some { s with freeBufChain := ptr }
  else if ptr < s.freeBufChain then some (releaseBelow ptr s)
  else
    match findSpot ptr s maxWalk s.freeBufChain with
    | none => none
    | some pfb =>
      if addSize pfb (s.size pfb) = ptr then mergeBelow ptr pfb s
      else linkAbove ptr pfb s

def doRelease (ptr : Nat) (s : Shm) : Option Shm :=
  match takeOutAllocced ptr s with
  | none => none
  | some (false, s) => some s
  | some (true, s) => returnToFree ptr s

/-! ## Acquire -/

/-- The size to look for: aligned to `sizeof(int)`, and with room for the header. -/
def acquireSize (size : Nat) : Nat :=
  -- `int` and `size_t` have the same 32 bits, and the comparisons with `buffer_size` are unsigned
  addSize (addSize size 3 / 4 * 4) headerSize

/-- The walk for the best fit: the headroom that is left in it, and the buffer. -/
def findCandidate (size : Nat) (s : Shm) : Nat → Nat → Nat × Nat → Option (Nat × Nat)
  | 0, _, _ => none
  | fuel + 1, pfb, best =>
    if pfb = null then some best
    else if size ≤ s.size pfb ∧ s.size pfb - size < best.1 then
      findCandidate size s fuel (s.next pfb) (s.size pfb - size, pfb)
    else findCandidate size s fuel (s.next pfb) best

def takeAll (candidate : Nat) (s : Shm) : Option Shm :=
  if candidate = s.freeBufChain then
    some (unlinkFirst candidate { s with freeBufChain := s.next candidate })
  else if s.prev candidate = null then none
  else some (unlinkInner candidate s)

/-- The candidate's tail becomes a new free buffer, with the candidate's links. -/
def splitTail (candidate size headroom : Nat) (s : Shm) : Shm :=
  let s := s.setSize candidate size
  let pfb := addSize candidate size
  let s := s.setSize pfb headroom
  let s := s.setNext pfb (s.next candidate)
  let s := s.setPrev pfb (s.prev candidate)
  s.setPrevIf (s.next pfb) pfb

def takeHead (candidate size headroom : Nat) (s : Shm) : Option Shm :=
  let s := splitTail candidate size headroom s
  let pfb := addSize candidate size
  if candidate = s.freeBufChain then some { s with freeBufChain := pfb }
  else if s.prev pfb = null then none
  else some (s.setNext (s.prev pfb) pfb)

/-- `do_acquire`: the buffer, or nothing for `EC_ERROR_BUSY`. -/
def doAcquire (size : Nat) (s : Shm) : Option (Option Nat × Shm) :=
  let size := acquireSize size
  match findCandidate size s maxWalk s.freeBufChain (0x10000000, null) with
  | none => none
  | some (headroom, candidate) =>
    if candidate = null then some (none, s)
    else if headroom ≤ headerSize then (takeAll candidate s).map fun s => (some candidate, s)
    else (takeHead candidate size headroom s).map fun s => (some candidate, s)

def findMax (s : Shm) : Nat → Nat → Nat → Option Nat
  | 0, _, _ => none
  | fuel + 1, pfb, maxAvailable =>
    if pfb = null then some maxAvailable
    else findMax s fuel (s.next pfb)
      (if maxAvailable < s.size pfb then s.size pfb else maxAvailable)

/-- A `size_t` that is returned as an `int`. -/
def toInt (x : Nat) : Int :=
  if x < 2 ^ 31 then x else (x : Int) - 2 ^ 32

def sharedMemSize (s : Shm) : Option Int :=
  -- the header's size is subtracted from an unsigned number
  (findMax s maxWalk s.freeBufChain 0).map fun n => toInt (addSize n (2 ^ 32 - headerSize))

/-- What `shared_mem_acquire` returns: its code, `*dest_ptr`, and the state. -/
structure AcquireResult where
  rv : EcError
  destPtr : Nat
  shm : Shm

/-- The new buffer becomes the head of the allocated chain. -/
def pushAllocced (newBuf size : Nat) (s : Shm) : Shm :=
  let s := (s.setNext newBuf s.alloccedBufChain).setPrev newBuf null
  let s := s.setPrevIf s.alloccedBufChain newBuf
  { s with
    alloccedBufChain := newBuf
    maxAllocatedSize := max s.maxAllocatedSize size }

def sharedMemAcquire (inInterrupt : Bool) (size : Nat) (s : Shm) : Option AcquireResult :=
  if inInterrupt then some ⟨.inval, null, s⟩
  else if s.freeBufChain = null then some ⟨.busy, null, s⟩
  else
    match doAcquire size s with
    | none => none
    | some (none, s) => some ⟨.busy, null, s⟩
    | some (some newBuf, s) =>
      some ⟨.success, addSize newBuf headerSize, pushAllocced newBuf size s⟩

/-- `shared_mem_release`; pointers are below 2 ^ 32. -/
def sharedMemRelease (inInterrupt : Bool) (ptr : Nat) (s : Shm) : Option Shm :=
  if inInterrupt then some s
  else if ptr = null then some s
  else doRelease (addSize ptr (2 ^ 32 - headerSize)) s

end ChromiumEc.Shmem
