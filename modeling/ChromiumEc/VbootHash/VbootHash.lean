import ChromiumEc.Lib.Memory
import ChromiumEc.VbootHash.Sha256

/-!
# VbootHash — the verified-boot hash of the flash

`vboot_hash.c`, for a chip whose flash is not mapped into memory, with the two functions of
`flash.c` that change the flash.  A hash is computed chunk by chunk, in deferred calls or at once.
What `shared_mem_acquire` and `crec_flash_read` return for a chunk is an input.
-/

namespace ChromiumEc.VbootHash

/-- `enum ec_error_list`, as far as it is returned here -/
inductive EcError
  | success
  | inval
  | busy
  deriving DecidableEq

/-- The flash, and the offsets of the images in it. -/
structure FlashConfig where
  /-- `CONFIG_FLASH_SIZE_BYTES` -/
  flashSize : Nat
  /-- Offsets are an `int`, and the length of a hashed message in bits is a word. -/
  flashSize_le : flashSize ≤ 2 ^ 28
  /-- `CONFIG_FLASH_WRITE_SIZE` -/
  writeSize : Nat
  /-- `CONFIG_FLASH_ERASE_SIZE` -/
  eraseSize : Nat
  roOffset : BitVec 32
  activeOffset : BitVec 32
  updateOffset : BitVec 32

/-- `nonce_data` of `struct ec_params_vboot_hash`, up to its size -/
abbrev Nonce :=
  { nonce : List UInt8 // nonce.length ≤ 64 }

theorem length_noNonce : ([] : List UInt8).length ≤ 64 :=
  Nat.zero_le 64

/-- The variables of the module, the flash, and whether `vboot_hash_next_chunk` is to be called. -/
structure State where
  dataOffset : BitVec 32
  dataSize : BitVec 32
  currPos : BitVec 32
  /-- The pointer `hash` is to the digest in `ctx`, or it is null. -/
  hash : Bool
  wantAbort : Bool
  inProgress : Bool
  ctx : Sha256Ctx
  deferred : Bool
  flash : Nat → UInt8
  /-- The nonce of the last start -/
  nonce : List UInt8

/-- What `shared_mem_acquire` and `crec_flash_read` return for a chunk. -/
inductive ChunkOutcome
  | hashed
  | readError
  | busy
  | error
  deriving DecidableEq

abbrev chunkSize : Nat :=
  1024

/-! ## Hashing -/

def vbootHashAbort (s : State) : State :=
  if s.inProgress then { s with wantAbort := true }
  else { s with wantAbort := false, dataSize := 0, hash := false }

def readAndHashChunk (outcome : ChunkOutcome) (offset : BitVec 32) (size : Nat) (s : State) :
    State :=
  if size = 0 then s
  else match outcome with
    -- the chunk is to be tried again later
    | .busy => { s with deferred := true }
    | .error => vbootHashAbort s
    | .hashed => { s with ctx := sha256Update s.ctx (Lib.load s.flash offset.toNat size) }
    | .readError => vbootHashAbort s

def hashNextChunk (outcome : ChunkOutcome) (size : Nat) (s : State) : State :=
  readAndHashChunk outcome (s.dataOffset + s.currPos) size s

def State.nextSize (s : State) : Nat :=
  min chunkSize (s.dataSize - s.currPos).toNat

def State.chunk (outcome : ChunkOutcome) (s : State) : State :=
  let size := s.nextSize
  let s := hashNextChunk outcome size s
  { s with currPos := s.currPos + BitVec.ofNat 32 size }

def State.finish (s : State) : State :=
  { s with ctx := sha256Final s.ctx, hash := true, inProgress := false }

/-- The loop of `vboot_hash_all_chunks`, from the chunk `k` on. -/
def allChunks (chunks : Nat → ChunkOutcome) : Nat → Nat → State → State
  | 0, _, s => s
  | fuel + 1, k, s =>
    let s := s.chunk (chunks k)
    if s.currPos < s.dataSize then allChunks chunks fuel (k + 1) s else s

def vbootHashAllChunks (chunks : Nat → ChunkOutcome) (s : State) : State :=
  (allChunks chunks (s.dataSize.toNat / chunkSize + 1) 0 s).finish

def vbootHashNextChunk (outcome : ChunkOutcome) (s : State) : State :=
  if s.wantAbort then vbootHashAbort { s with inProgress := false }
  else
    let s := s.chunk outcome
    if s.dataSize ≤ s.currPos then
      let s := s.finish
      if s.wantAbort then vbootHashAbort s else s
    else { s with deferred := true }

/-- How a hash is computed; for a blocking one, what every chunk meets. -/
inductive Mode
  | deferred
  | blocking (chunks : Nat → ChunkOutcome)

/-- The checks of `vboot_hash_start`. -/
def startCheck (cfg : FlashConfig) (offset size : BitVec 32) (s : State) : EcError :=
  if s.inProgress then .busy
  else if cfg.flashSize < offset.toNat ∨ cfg.flashSize < size.toNat ∨
      cfg.flashSize < (offset + size).toNat then .inval
  else .success

def vbootHashStart (cfg : FlashConfig) (offset size : BitVec 32) (nonce : Nonce) (mode : Mode)
    (s : State) : EcError × State :=
  match startCheck cfg offset size s with
  | .success =>
    let s :=
      { s with
        dataOffset := offset
        dataSize := size
        currPos := 0
        hash := false
        wantAbort := false
        inProgress := true
        ctx := sha256Init s.ctx
        nonce := nonce.val }
    let s := if nonce.val.length ≠ 0 then { s with ctx := sha256Update s.ctx nonce.val } else s
    (.success, match mode with
      | .deferred => { s with deferred := true }
      | .blocking chunks => vbootHashAllChunks chunks s)
  | e => (e, s)

def vbootHashInvalidate (offset size : Int) (s : State) : State :=
  if offset < 0 ∨ size ≤ 0 ∨ offset + size < 0 then s
  else if ¬ s.hash then s
  else if 0 < s.dataSize.toNat ∧ (offset + size ≤ s.dataOffset.toNat ∨
      (s.dataOffset + s.dataSize).toNat ≤ offset) then s
  else vbootHashAbort s

/-- `vboot_get_rw_hash` and `vboot_get_ro_hash`, by the offset and the size of their image: what is
returned, and the digest that the pointer is to. -/
def vbootGetHash (cfg : FlashConfig) (offset size : BitVec 32) (chunks : Nat → ChunkOutcome)
    (s : State) : (EcError × Option (List UInt8)) × State :=
  let r := vbootHashStart cfg offset size ⟨[], Nat.zero_le _⟩ (.blocking chunks) s
  ((r.1, if r.2.hash then some r.2.ctx.buf else none), r.2)

def getOffset (cfg : FlashConfig) (offset : BitVec 32) : BitVec 32 :=
  if offset = 0xfffffffe then cfg.roOffset
  else if offset = 0xfffffffd then cfg.activeOffset
  else if offset = 0xfffffffc then cfg.updateOffset
  else offset

/-- `struct ec_response_vboot_hash`, by its status -/
inductive Response
  | none
  | done (offset size : BitVec 32) (hashDigest : List UInt8)
  | busy
  deriving DecidableEq

def fillResponse (cfg : FlashConfig) (requestOffset : BitVec 32) (s : State) : Response :=
  if s.inProgress then .busy
  else if getOffset cfg requestOffset = s.dataOffset ∧ s.hash = true ∧ s.wantAbort = false then
    .done s.dataOffset s.dataSize s.ctx.buf
  else .none

def flashRangeOk (cfg : FlashConfig) (offset sizeReq : Int) (align : Nat) : Prop :=
  ¬ (offset < 0 ∨ sizeReq < 0 ∨ cfg.flashSize < offset ∨ cfg.flashSize < sizeReq ∨
    cfg.flashSize < offset + sizeReq ∨ (offset.toNat ||| sizeReq.toNat) &&& (align - 1) ≠ 0)

instance (cfg : FlashConfig) (offset sizeReq : Int) (align : Nat) :
    Decidable (flashRangeOk cfg offset sizeReq align) :=
  inferInstanceAs (Decidable (¬ _))

def flashAbortOrInvalidateHash (offset size : Int) (s : State) : State :=
  if s.inProgress then vbootHashAbort s else vbootHashInvalidate offset size s

/-- `crec_flash_physical_write` and `crec_flash_physical_erase`: the bytes of the range become
`contents`, whatever it is when they fail. -/
def physicalChange (offset size : Int) (contents : Nat → UInt8) (s : State) : State :=
  { s with flash := fun a => if offset ≤ a ∧ a < offset + size then contents a else s.flash a }

def changeFlash (cfg : FlashConfig) (align : Nat) (offset size : Int) (contents : Nat → UInt8)
    (s : State) : State :=
  if flashRangeOk cfg offset size align then
    physicalChange offset size contents (flashAbortOrInvalidateHash offset size s)
  else s

def crecFlashWrite (cfg : FlashConfig) : Int → Int → (Nat → UInt8) → State → State :=
  changeFlash cfg cfg.writeSize

def crecFlashErase (cfg : FlashConfig) : Int → Int → (Nat → UInt8) → State → State :=
  changeFlash cfg cfg.eraseSize

/-- What happens: a start, a deferred call, an abort, and changes of the flash. -/
inductive Event
  | start (offset size : BitVec 32) (nonce : Nonce) (mode : Mode)
  | nextChunk (outcome : ChunkOutcome)
  | abort
  | write (offset size : Int) (contents : Nat → UInt8)
  | erase (offset size : Int) (contents : Nat → UInt8)

def step (cfg : FlashConfig) (s : State) : Event → State
  | .start offset size nonce mode => (vbootHashStart cfg offset size nonce mode s).2
  | .nextChunk outcome =>
    if s.deferred then vbootHashNextChunk outcome { s with deferred := false } else s
  | .abort => vbootHashAbort s
  | .write offset size contents => crecFlashWrite cfg offset size contents s
  | .erase offset size contents => crecFlashErase cfg offset size contents s

def State.boot (flash : Nat → UInt8) : State where
  dataOffset := 0
  dataSize := 0
  currPos := 0
  hash := false
  wantAbort := false
  inProgress := false
  ctx := ⟨⟨0, 0, 0, 0, 0, 0, 0, 0⟩, 0, 0, List.replicate 128 0, List.replicate 32 0⟩
  deferred := false
  flash := flash
  nonce := []

end ChromiumEc.VbootHash
