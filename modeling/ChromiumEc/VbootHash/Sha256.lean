import ChromiumEc.Lib.Blocks
import ChromiumEc.Lib.Ring
import Mathlib.Algebra.Group.Nat.Defs

/-!
# Sha256 — the software SHA-256

`SHA256_init`, `SHA256_update` and `SHA256_final` of `sha256.c`, and the digest of a message as the
standard has it: the padded message, block by block.  Data that is taken in piece by piece is
hashed as one message.

The context holds the blocks of what it has taken in, folded, and the rest of it as bytes.  An
update takes in its data after that, and the final digest is that of the whole message.
-/

namespace ChromiumEc.VbootHash

abbrev Word :=
  BitVec 32

/-! ## Compression -/

def rotr (x : Word) (n : Nat) : Word :=
  (x >>> n) ||| (x <<< (32 - n))

def ch (x y z : Word) : Word :=
  (x &&& y) ^^^ (~~~x &&& z)

def maj (x y z : Word) : Word :=
  (x &&& y) ^^^ (x &&& z) ^^^ (y &&& z)

def sha256F1 (x : Word) : Word :=
  rotr x 2 ^^^ rotr x 13 ^^^ rotr x 22

def sha256F2 (x : Word) : Word :=
  rotr x 6 ^^^ rotr x 11 ^^^ rotr x 25

def sha256F3 (x : Word) : Word :=
  rotr x 7 ^^^ rotr x 18 ^^^ (x >>> 3)

def sha256F4 (x : Word) : Word :=
  rotr x 17 ^^^ rotr x 19 ^^^ (x >>> 10)

def unpack32 (x : Word) : List UInt8 :=
  [⟨(x >>> 24).setWidth 8⟩, ⟨(x >>> 16).setWidth 8⟩, ⟨(x >>> 8).setWidth 8⟩, ⟨x.setWidth 8⟩]

/-- `PACK32` at the byte `i` -/
def pack32 (str : List UInt8) (i : Nat) : Word :=
  (str.getD (i + 3) 0).toBitVec.setWidth 32 |||
    ((str.getD (i + 2) 0).toBitVec.setWidth 32 <<< 8) |||
    ((str.getD (i + 1) 0).toBitVec.setWidth 32 <<< 16) |||
    ((str.getD i 0).toBitVec.setWidth 32 <<< 24)

def sha256K : List Word :=
  [0x428a2f98, 0x71374491, 0xb5c0fbcf, 0xe9b5dba5, 0x3956c25b, 0x59f111f1, 0x923f82a4, 0xab1c5ed5,
    0xd807aa98, 0x12835b01, 0x243185be, 0x550c7dc3, 0x72be5d74, 0x80deb1fe, 0x9bdc06a7, 0xc19bf174,
    0xe49b69c1, 0xefbe4786, 0x0fc19dc6, 0x240ca1cc, 0x2de92c6f, 0x4a7484aa, 0x5cb0a9dc, 0x76f988da,
    0x983e5152, 0xa831c66d, 0xb00327c8, 0xbf597fc7, 0xc6e00bf3, 0xd5a79147, 0x06ca6351, 0x14292967,
    0x27b70a85, 0x2e1b2138, 0x4d2c6dfc, 0x53380d13, 0x650a7354, 0x766a0abb, 0x81c2c92e, 0x92722c85,
    0xa2bfe8a1, 0xa81a664b, 0xc24b8b70, 0xc76c51a3, 0xd192e819, 0xd6990624, 0xf40e3585, 0x106aa070,
    0x19a4c116, 0x1e376c08, 0x2748774c, 0x34b0bcb5, 0x391c0cb3, 0x4ed8aa4a, 0x5b9cca4f, 0x682e6ff3,
    0x748f82ee, 0x78a5636f, 0x84c87814, 0x8cc70208, 0x90befffa, 0xa4506ceb, 0xbef9a3f7, 0xc67178f2]

/-- The eight words `h` of the context, and the variables `wv` of the rounds. -/
structure Words where
  a : Word
  b : Word
  c : Word
  d : Word
  e : Word
  f : Word
  g : Word
  h : Word
  deriving DecidableEq

def sha256H0 : Words :=
  ⟨0x6a09e667, 0xbb67ae85, 0x3c6ef372, 0xa54ff53a, 0x510e527f, 0x9b05688c, 0x1f83d9ab, 0x5be0cd19⟩

/-- `SHA256_SCR`: the word `i` of the schedule from the words before it -/
def sha256Scr (w : List Word) (i : Nat) : List Word :=
  w ++ [sha256F4 (w.getD (i - 2) 0) + w.getD (i - 7) 0 + sha256F3 (w.getD (i - 15) 0) +
    w.getD (i - 16) 0]

/-- The words of a block, and the 48 that follow from them. -/
def schedule (block : List UInt8) : List Word :=
  (List.range' 16 48).foldl sha256Scr ((List.range 16).map fun j => pack32 block (4 * j))

def sha256Exp (w : List Word) (v : Words) (j : Nat) : Words :=
  let t1 := v.h + sha256F2 v.e + ch v.e v.f v.g + sha256K.getD j 0 + w.getD j 0
  let t2 := sha256F1 v.a + maj v.a v.b v.c
  ⟨t1 + t2, v.a, v.b, v.c, v.d + t1, v.e, v.f, v.g⟩

/-- `SHA256_transform` of one block -/
def transformBlock (h : Words) (block : List UInt8) : Words :=
  let v := (List.range 64).foldl (sha256Exp (schedule block)) h
  ⟨h.a + v.a, h.b + v.b, h.c + v.c, h.d + v.d, h.e + v.e, h.f + v.f, h.g + v.g, h.h + v.h⟩

abbrev sha256BlockSize : Nat :=
  64

def sha256Transform (h : Words) (message : List UInt8) (blockNb : Nat) : Words :=
  Lib.foldBlocks transformBlock sha256BlockSize blockNb h message

def Words.unpack (h : Words) : List UInt8 :=
  unpack32 h.a ++ unpack32 h.b ++ unpack32 h.c ++ unpack32 h.d ++ unpack32 h.e ++ unpack32 h.f ++
    unpack32 h.g ++ unpack32 h.h

/-! ## The context -/

/-- `struct sha256_ctx` -/
structure Sha256Ctx where
  h : Words
  totLen : Word
  len : Nat
  block : List UInt8
  buf : List UInt8

def sha256Init (ctx : Sha256Ctx) : Sha256Ctx :=
  { ctx with h := sha256H0, len := 0, totLen := 0 }

def sha256Update (ctx : Sha256Ctx) (data : List UInt8) : Sha256Ctx :=
  let tmpLen := sha256BlockSize - ctx.len
  let remLen := if data.length < tmpLen then data.length else tmpLen
  let block := Lib.overwrite ctx.block ctx.len (data.take remLen)
  if ctx.len + data.length < sha256BlockSize then
    { ctx with block := block, len := ctx.len + data.length }
  else
    let newLen := data.length - remLen
    let blockNb := newLen / sha256BlockSize
    let shifted := data.drop remLen
    let h := sha256Transform (sha256Transform ctx.h block 1) shifted blockNb
    let rest := newLen % sha256BlockSize
    { ctx with
      h := h
      block := Lib.overwrite block 0 ((shifted.drop (blockNb * sha256BlockSize)).take rest)
      len := rest
      totLen := ctx.totLen + BitVec.ofNat 32 ((blockNb + 1) * sha256BlockSize) }

/-- `SHA256_final`; what it returns points to `buf` -/
def sha256Final (ctx : Sha256Ctx) : Sha256Ctx :=
  let blockNb := if sha256BlockSize - 9 < ctx.len % sha256BlockSize then 2 else 1
  let lenB := (ctx.totLen + BitVec.ofNat 32 ctx.len) <<< 3
  let pmLen := blockNb * sha256BlockSize
  let block := Lib.overwrite ctx.block ctx.len (List.replicate (pmLen - ctx.len) 0)
  let block := block.set ctx.len 0x80
  let block := Lib.overwrite block (pmLen - 4) (unpack32 lenB)
  let h := sha256Transform ctx.h block blockNb
  { ctx with h := h, block := block, buf := h.unpack }

/-- The message with the closing bit, zeros and its length in bits, in whole blocks. -/
def pad (m : List UInt8) : List UInt8 :=
  m ++ 0x80 :: List.replicate ((119 - m.length % 64) % 64) 0 ++
    (unpack32 (BitVec.ofNat 32 (8 * m.length / 2 ^ 32)) ++
      unpack32 (BitVec.ofNat 32 (8 * m.length)))

def sha256 (m : List UInt8) : List UInt8 :=
  (sha256Transform sha256H0 (pad m) ((pad m).length / sha256BlockSize)).unpack

/-! ## Data taken in piece by piece -/

variable {ctx : Sha256Ctx} {m data full rest : List UInt8} {q : Nat}

/-- The context has folded the `q` blocks of `full` and put by the bytes of `rest`. -/
structure Holds (ctx : Sha256Ctx) (full rest : List UInt8) (q : Nat) : Prop where
  length : full.length = q * 64
  short : rest.length < 64
  len : ctx.len = rest.length
  h : ctx.h = sha256Transform sha256H0 full q
  totLen : ctx.totLen = BitVec.ofNat 32 (q * 64)
  block : ctx.block.take rest.length = rest
  size : ctx.block.length = 128

def Absorbs (ctx : Sha256Ctx) (m : List UInt8) : Prop :=
  ∃ full rest q, m = full ++ rest ∧ Holds ctx full rest q

theorem sha256Init_absorbs (h : ctx.block.length = 128) : Absorbs (sha256Init ctx) [] :=
  ⟨[], [], 0, rfl, rfl, by decide, rfl, rfl, rfl, rfl, h⟩

theorem size_overwrite {block : List UInt8} {off : Nat} (hsize : block.length = 128)
    (h : off + data.length ≤ 128) : (Lib.overwrite block off data).length = 128 := by
  rw [Lib.length_overwrite (by rw [hsize]; exact h), hsize]

theorem take_overwrite {block : List UInt8} {off : Nat} (h : off ≤ block.length)
    (data : List UInt8) :
    (Lib.overwrite block off data).take (off + data.length) = block.take off ++ data := by
  have hlen : (block.take off ++ data).length = off + data.length := by
    rw [List.length_append, List.length_take_of_le h]
  rw [Lib.overwrite, ← hlen, List.take_left]

theorem Holds.update_of_lt (h : Holds ctx full rest q) (hlt : rest.length + data.length < 64) :
    Holds (sha256Update ctx data) full (rest ++ data) q := by
  have hlen := h.len
  have hsize := h.size
  have hfits : ctx.len + data.length < sha256BlockSize := by
    rw [hlen]
    exact hlt
  have hall : data.length < sha256BlockSize - ctx.len := Nat.lt_sub_of_add_lt (by omega)
  have hupdate : sha256Update ctx data =
      { ctx with
        block := Lib.overwrite ctx.block ctx.len data
        len := ctx.len + data.length } := by
    simp only [sha256Update, if_pos hfits, if_pos hall, List.take_length]
  rw [hupdate]
  constructor
  case length => exact h.length
  case short => rw [List.length_append]; exact hlt
  case len => rw [List.length_append, hlen]
  case h => exact h.h
  case totLen => exact h.totLen
  case block =>
    rw [List.length_append, hlen, take_overwrite (by omega) data, h.block]
  case size => exact size_overwrite hsize (by omega)

theorem Holds.update_of_eq {first blocks last : List UInt8} {nb : Nat} (h : Holds ctx full rest q)
    (hfirst : (rest ++ first).length = 1 * 64) (hblocks : blocks.length = nb * 64)
    (hlast : last.length < 64) :
    Holds (sha256Update ctx (first ++ (blocks ++ last)))
      (full ++ ((rest ++ first) ++ blocks)) last (q + (1 + nb)) := by
  have hlen := h.len
  have hsize := h.size
  rw [List.length_append] at hfirst
  have hdata : (first ++ (blocks ++ last)).length = first.length + (nb * 64 + last.length) := by
    rw [List.length_append, List.length_append, hblocks]
  have hnot : ¬ ctx.len + (first ++ (blocks ++ last)).length < sha256BlockSize := by
    rw [hdata, hlen]
    show ¬ rest.length + _ < 64
    omega
  have hrem : (if (first ++ (blocks ++ last)).length < sha256BlockSize - ctx.len then
      (first ++ (blocks ++ last)).length else sha256BlockSize - ctx.len) = first.length := by
    have hgap : 64 - ctx.len = first.length := by omega
    rw [hgap, hdata, if_neg (by omega)]
  have hnew : (first ++ (blocks ++ last)).length - first.length = nb * 64 + last.length := by
    rw [hdata, Nat.add_sub_cancel_left]
  have hnb : (nb * 64 + last.length) / sha256BlockSize = nb := by
    rw [Nat.add_comm, Nat.add_mul_div_right _ _ (by decide), Nat.div_eq_of_lt hlast, Nat.zero_add]
  have hmod : (nb * 64 + last.length) % sha256BlockSize = last.length := by
    rw [Nat.add_comm, Nat.add_mul_mod_self_right, Nat.mod_eq_of_lt hlast]
  have hdrop : (blocks ++ last).drop (nb * sha256BlockSize) = last := by
    rw [← hblocks, List.drop_left]
  set block := Lib.overwrite ctx.block ctx.len first with hblock
  have hblockSize : block.length = 128 := size_overwrite hsize (by omega)
  have hupdate : sha256Update ctx (first ++ (blocks ++ last)) =
      { ctx with
        h := sha256Transform (sha256Transform ctx.h block 1) (blocks ++ last) nb
        block := Lib.overwrite block 0 last
        len := last.length
        totLen := ctx.totLen + BitVec.ofNat 32 ((nb + 1) * 64) } := by
    simp only [sha256Update, if_neg hnot, hrem, hnew, hnb, hmod, List.drop_left, List.take_left,
      hdrop, List.take_length, ← hblock]
  -- the block that is folded first: what was put by, and the first of the data
  have hread : block.take 64 = rest ++ first := by
    have hend : ctx.len + first.length = 64 := by omega
    rw [← hend, hblock, take_overwrite (by omega) first, hlen, h.block]
  have hone : sha256Transform ctx.h block 1 = sha256Transform ctx.h (rest ++ first) 1 := by
    have hfull : 1 * 64 ≤ (rest ++ first).length := by
      rw [List.length_append]
      exact Nat.le_of_eq hfirst.symm
    rw [sha256Transform, sha256Transform, ← List.take_append_drop 64 block, hread,
      Lib.foldBlocks_append hfull]
  have hrest : sha256Transform (sha256Transform ctx.h (rest ++ first) 1) (blocks ++ last) nb =
      sha256Transform (sha256Transform ctx.h (rest ++ first) 1) blocks nb :=
    Lib.foldBlocks_append (Nat.le_of_eq hblocks.symm) _ _
  rw [hupdate]
  constructor
  case length => simp only [List.length_append, h.length, hblocks]; omega
  case short => exact hlast
  case len => rfl
  case h =>
    have hjoin : (rest ++ first).length = 1 * 64 := by rw [List.length_append, hfirst]
    show sha256Transform (sha256Transform ctx.h block 1) (blocks ++ last) nb = _
    rw [hone, hrest, h.h]
    simp only [sha256Transform]
    rw [Lib.foldBlocks_append_add h.length, Lib.foldBlocks_append_add hjoin]
  case totLen =>
    show ctx.totLen + BitVec.ofNat 32 ((nb + 1) * 64) = _
    rw [h.totLen, ← BitVec.ofNat_add]
    congr 1
    omega
  case block =>
    have hzero := take_overwrite (Nat.zero_le block.length) last
    rw [Nat.zero_add] at hzero
    exact hzero
  case size => exact size_overwrite hblockSize (by omega)

theorem Absorbs.update (h : Absorbs ctx m) (data : List UInt8) :
    Absorbs (sha256Update ctx data) (m ++ data) := by
  obtain ⟨full, rest, q, rfl, h⟩ := h
  have hshort := h.short
  rcases Nat.lt_or_ge (rest.length + data.length) 64 with hlt | hle
  · exact ⟨full, rest ++ data, q, List.append_assoc _ _ _, h.update_of_lt hlt⟩
  -- the data is what fills the block, whole blocks, and the rest
  · set first := data.take (64 - rest.length) with hfirst
    set more := data.drop (64 - rest.length) with hmore
    have hdata : data = first ++ (more.take (more.length / 64 * 64) ++
        more.drop (more.length / 64 * 64)) := by
      rw [List.take_append_drop, List.take_append_drop]
    have hlen : (rest ++ first).length = 1 * 64 := by
      rw [List.length_append, hfirst, List.length_take_of_le (by omega)]
      omega
    have hblocks : (more.take (more.length / 64 * 64)).length = more.length / 64 * 64 :=
      List.length_take_of_le (Nat.div_mul_le_self _ _)
    have hlast : (more.drop (more.length / 64 * 64)).length < 64 := by
      rw [List.length_drop]
      omega
    have hnext := h.update_of_eq hlen hblocks hlast
    rw [← hdata] at hnext
    refine ⟨_, _, _, ?_, hnext⟩
    conv_lhs => rw [hdata]
    simp only [List.append_assoc]

/-! ## The final digest -/

theorem sha256Transform_congr {k : Nat} {l l' : List UInt8} (h : l.take (k * 64) = l'.take (k * 64))
    (hl : k * 64 ≤ l.length) (hl' : k * 64 ≤ l'.length) (w : Words) :
    sha256Transform w l k = sha256Transform w l' k := by
  have htake : k * 64 ≤ (l.take (k * 64)).length := Nat.le_of_eq (List.length_take_of_le hl).symm
  have htake' : k * 64 ≤ (l'.take (k * 64)).length :=
    Nat.le_of_eq (List.length_take_of_le hl').symm
  calc sha256Transform w l k
      = sha256Transform w (l.take (k * 64) ++ l.drop (k * 64)) k := by rw [List.take_append_drop]
    _ = sha256Transform w (l.take (k * 64)) k := Lib.foldBlocks_append htake w _
    _ = sha256Transform w (l'.take (k * 64)) k := by rw [h]
    _ = sha256Transform w (l'.take (k * 64) ++ l'.drop (k * 64)) k :=
        (Lib.foldBlocks_append htake' w _).symm
    _ = sha256Transform w l' k := by rw [List.take_append_drop]

theorem length_unpack32 (x : Word) : (unpack32 x).length = 4 :=
  rfl

/-- The number of the blocks that are left at the end. -/
def lastBlocks (rest : List UInt8) : Nat :=
  if 55 < rest.length then 2 else 1

/-- The last blocks: what was put by, the closing bit, zeros and the length. -/
def lastPart (rest : List UInt8) (lenB : Word) : List UInt8 :=
  rest ++ 0x80 :: List.replicate (lastBlocks rest * 64 - rest.length - 5) 0 ++ unpack32 lenB

theorem lastBlocks_spec (h : rest.length < 64) :
    rest.length + 9 ≤ lastBlocks rest * 64 ∧ lastBlocks rest * 64 ≤ 128 ∧
      (119 - rest.length) % 64 + 4 = lastBlocks rest * 64 - rest.length - 5 := by
  unfold lastBlocks
  split <;> omega

theorem length_lastPart (h : rest.length < 64) (lenB : Word) :
    (lastPart rest lenB).length = lastBlocks rest * 64 := by
  have hspec := lastBlocks_spec h
  rw [lastPart, List.length_append, List.length_append, List.length_cons, List.length_replicate,
    length_unpack32]
  omega

theorem Holds.lastBlock (h : Holds ctx full rest q) (lenB : Word) :
    (Lib.overwrite
      ((Lib.overwrite ctx.block ctx.len
        (List.replicate (lastBlocks rest * 64 - ctx.len) 0)).set ctx.len 0x80)
      (lastBlocks rest * 64 - 4) (unpack32 lenB)).take (lastBlocks rest * 64) =
      lastPart rest lenB := by
  have hspec := lastBlocks_spec h.short
  have hsize := h.size
  rw [h.len]
  set pm := lastBlocks rest * 64 with hpm
  have hzeros : (List.replicate (pm - rest.length) (0 : UInt8)).length = pm - rest.length :=
    List.length_replicate
  set b := Lib.overwrite ctx.block rest.length (List.replicate (pm - rest.length) 0) with hb
  have hbSize : b.length = 128 := size_overwrite hsize (by omega)
  have hbTake : b.take pm = rest ++ List.replicate (pm - rest.length) 0 := by
    have hread := take_overwrite (by omega : rest.length ≤ ctx.block.length)
      (List.replicate (pm - rest.length) 0)
    rw [hzeros, Nat.add_sub_of_le (by omega), h.block] at hread
    exact hread
  have hset : (b.set rest.length 0x80).take pm =
      rest ++ 0x80 :: List.replicate (pm - rest.length - 1) 0 := by
    have hrep : List.replicate (pm - rest.length) (0 : UInt8) =
        0 :: List.replicate (pm - rest.length - 1) 0 := by
      rw [← List.replicate_succ, Nat.sub_add_cancel (by omega)]
    rw [List.take_set, hbTake, hrep, List.set_append_right _ _ (Nat.le_refl _), Nat.sub_self,
      List.set_cons_zero]
  have hcut : (b.set rest.length 0x80).take (pm - 4) =
      rest ++ 0x80 :: List.replicate (pm - rest.length - 5) 0 := by
    have hmin : pm - 4 = rest.length + (pm - rest.length - 5 + 1) := by omega
    have hfewer : min (pm - rest.length - 5) (pm - rest.length - 1) = pm - rest.length - 5 := by
      omega
    calc (b.set rest.length 0x80).take (pm - 4)
        = ((b.set rest.length 0x80).take pm).take (pm - 4) := by
          rw [List.take_take, Nat.min_eq_left (Nat.sub_le _ _)]
      _ = rest ++ 0x80 :: List.replicate (pm - rest.length - 5) 0 := by
          rw [hset, hmin, List.take_length_add_append, List.take_succ_cons, List.take_replicate,
            hfewer]
  have hend : pm - 4 + (unpack32 lenB).length = pm := by
    rw [length_unpack32]
    omega
  have hread := take_overwrite
    (by rw [List.length_set]; omega : pm - 4 ≤ (b.set rest.length 0x80).length) (unpack32 lenB)
  rw [hend, hcut] at hread
  exact hread

theorem Holds.pad (h : Holds ctx full rest q) (hlt : (full ++ rest).length < 2 ^ 29) :
    pad (full ++ rest) =
      full ++ lastPart rest ((ctx.totLen + BitVec.ofNat 32 ctx.len) <<< 3) := by
  have hspec := lastBlocks_spec h.short
  have hshort := h.short
  have hlen : (full ++ rest).length = q * 64 + rest.length := by
    rw [List.length_append, h.length]
  have hmod : (full ++ rest).length % 64 = rest.length := by
    rw [hlen]
    omega
  have hhigh : unpack32 (BitVec.ofNat 32 (8 * (full ++ rest).length / 2 ^ 32)) =
      List.replicate 4 0 := by
    have hzero : 8 * (full ++ rest).length / 2 ^ 32 = 0 := Nat.div_eq_of_lt (by omega)
    rw [hzero]
    rfl
  have hlow : BitVec.ofNat 32 (8 * (full ++ rest).length) =
      (ctx.totLen + BitVec.ofNat 32 ctx.len) <<< 3 := by
    rw [h.totLen, h.len, ← BitVec.ofNat_add, hlen]
    apply BitVec.eq_of_toNat_eq
    rw [BitVec.toNat_shiftLeft, BitVec.toNat_ofNat, BitVec.toNat_ofNat, Nat.shiftLeft_eq]
    omega
  rw [VbootHash.pad, hmod, hhigh, hlow, lastPart, ← hspec.2.2, List.replicate_add]
  simp only [List.append_assoc, List.cons_append]

theorem Absorbs.final (h : Absorbs ctx m) (hlt : m.length < 2 ^ 29) :
    (sha256Final ctx).buf = sha256 m := by
  obtain ⟨full, rest, q, rfl, h⟩ := h
  have hspec := lastBlocks_spec h.short
  have hpad := h.pad hlt
  set lenB := (ctx.totLen + BitVec.ofNat 32 ctx.len) <<< 3 with hlenB
  have hnb : (if sha256BlockSize - 9 < ctx.len % sha256BlockSize then 2 else 1) =
      lastBlocks rest := by
    show (if 55 < ctx.len % 64 then 2 else 1) = _
    rw [lastBlocks, h.len, Nat.mod_eq_of_lt h.short]
  have hlast := h.lastBlock lenB
  set block := Lib.overwrite
      ((Lib.overwrite ctx.block ctx.len
        (List.replicate (lastBlocks rest * 64 - ctx.len) 0)).set ctx.len 0x80)
      (lastBlocks rest * 64 - 4) (unpack32 lenB) with hblock
  have hfinal : (sha256Final ctx).buf =
      (sha256Transform ctx.h block (lastBlocks rest)).unpack := by
    simp only [sha256Final, hnb, hblock, hlenB]
  have hlen := length_lastPart h.short lenB
  have hcount : (VbootHash.pad (full ++ rest)).length / sha256BlockSize = q + lastBlocks rest := by
    rw [hpad, List.length_append, h.length, hlen, ← Nat.add_mul, Nat.mul_div_cancel _ (by decide)]
  have hsize : lastBlocks rest * 64 ≤ block.length := by
    have htake := congrArg List.length hlast
    rw [hlen, List.length_take] at htake
    omega
  have hblocks : sha256Transform ctx.h block (lastBlocks rest) =
      sha256Transform ctx.h (lastPart rest lenB) (lastBlocks rest) := by
    refine sha256Transform_congr ?_ hsize (Nat.le_of_eq hlen.symm) ctx.h
    rw [hlast, ← hlen, List.take_length]
  rw [hfinal, sha256, hcount, hpad, hblocks, h.h]
  simp only [sha256Transform]
  rw [Lib.foldBlocks_append_add h.length]

/-- The bytes that are put by fit in a block, and the buffer holds two. -/
structure Sha256Ctx.Valid (ctx : Sha256Ctx) : Prop where
  len : ctx.len < 64
  size : ctx.block.length = 128

theorem Absorbs.valid (h : Absorbs ctx m) : ctx.Valid := by
  obtain ⟨full, rest, q, -, h⟩ := h
  exact ⟨by rw [h.len]; exact h.short, h.size⟩

theorem Sha256Ctx.Valid.final (h : ctx.Valid) : (sha256Final ctx).Valid := by
  have hlen := h.len
  have hsize := h.size
  refine ⟨hlen, ?_⟩
  have hnb : ∀ nb, nb = 1 ∨ nb = 2 → ∀ x : Word, (Lib.overwrite
      ((Lib.overwrite ctx.block ctx.len (List.replicate (nb * 64 - ctx.len) 0)).set ctx.len 0x80)
      (nb * 64 - 4) (unpack32 x)).length = 128 := by
    intro nb hnb x
    apply size_overwrite
    · rw [List.length_set]
      apply size_overwrite hsize
      rw [List.length_replicate]
      omega
    · rw [length_unpack32]
      omega
  apply hnb
  split
  · exact Or.inr rfl
  · exact Or.inl rfl

def strayCtx : Sha256Ctx :=
  ⟨sha256H0, 5, 7, List.replicate 128 0xa5, []⟩

/-- The loop that adds the key to `key_pad` -/
def xorKey : List UInt8 → List UInt8 → List UInt8
  | p :: pad, k :: key => (p ^^^ k) :: xorKey pad key
  | pad, _ => pad

def sha256Init1b (ctx : Sha256Ctx) (data : List UInt8) : Sha256Ctx :=
  { ctx with h := sha256Transform sha256H0 data 1, len := 0, totLen := 64 }

/-- `hmac_SHA256_step`, with the context that it finds on the stack -/
def hmacSha256Step (ctx : Sha256Ctx) (mask : UInt8) (key data : List UInt8) : List UInt8 :=
  let keyPad := xorKey (Lib.overwrite ctx.block 0 (List.replicate sha256BlockSize mask)) key
  (sha256Final (sha256Update (sha256Init1b { ctx with block := keyPad } keyPad) data)).buf

/-- `hmac_SHA256`; a longer key fails its `ASSERT`. -/
def hmacSha256 (ctx ctx' : Sha256Ctx) (key message : List UInt8) : Option (List UInt8) :=
  if key.length ≤ sha256BlockSize then
    some (hmacSha256Step ctx' 0x5c key (hmacSha256Step ctx 0x36 key message))
  else none

def paddedKey (mask : UInt8) (key : List UInt8) : List UInt8 :=
  (key ++ List.replicate (64 - key.length) 0).map (mask ^^^ ·)

theorem xorKey_replicate {mask : UInt8} {key : List UInt8} {n : Nat} (h : key.length ≤ n) :
    xorKey (List.replicate n mask ++ rest) key =
      (key ++ List.replicate (n - key.length) 0).map (mask ^^^ ·) ++ rest := by
  induction key generalizing n with
  | nil =>
    rw [xorKey.eq_def]
    simp
  | cons k key ih =>
    obtain ⟨n, rfl⟩ := Nat.exists_eq_add_of_le' (Nat.one_le_of_lt h)
    rw [List.replicate_succ, List.cons_append, xorKey, ih (Nat.le_of_succ_le_succ h),
      List.length_cons, Nat.add_sub_add_right]
    rfl

theorem hmacSha256Step_eq (hsize : ctx.block.length = 128) (mask : UInt8) {key : List UInt8}
    (hkey : key.length ≤ 64) (hdata : data.length + 64 < 2 ^ 29) :
    hmacSha256Step ctx mask key data = sha256 (paddedKey mask key ++ data) := by
  have hlength : (paddedKey mask key).length = 1 * 64 := by
    rw [paddedKey, List.length_map, List.length_append, List.length_replicate]
    omega
  have hpad : xorKey (Lib.overwrite ctx.block 0 (List.replicate sha256BlockSize mask)) key =
      paddedKey mask key ++ ctx.block.drop 64 := by
    rw [Lib.overwrite, List.take_zero, List.nil_append, List.length_replicate, Nat.zero_add]
    exact xorKey_replicate hkey
  -- the key is the first block, which is folded at once
  have habsorbs : Absorbs (sha256Init1b { ctx with block := paddedKey mask key ++ ctx.block.drop 64 }
      (paddedKey mask key ++ ctx.block.drop 64)) (paddedKey mask key) :=
    ⟨_, [], 1, (List.append_nil _).symm, hlength, by decide, rfl,
      show sha256Transform sha256H0 (paddedKey mask key ++ ctx.block.drop 64) 1 = _ from
        Lib.foldBlocks_append hlength.ge _ _, rfl, rfl, by
        show (paddedKey mask key ++ ctx.block.drop 64).length = 128
        rw [List.length_append, List.length_drop, hlength, hsize]⟩
  unfold hmacSha256Step
  rw [hpad]
  exact (habsorbs.update data).final (by rw [List.length_append, hlength]; omega)

/-- `hmac_SHA256` is HMAC over SHA-256, whatever is on the stack. -/
theorem hmacSha256_eq {ctx' : Sha256Ctx} (hsize : ctx.block.length = 128)
    (hsize' : ctx'.block.length = 128) {key : List UInt8} (hkey : key.length ≤ 64)
    (hm : m.length + 64 < 2 ^ 29) :
    hmacSha256 ctx ctx' key m =
      some (sha256 (paddedKey 0x5c key ++ sha256 (paddedKey 0x36 key ++ m))) := by
  rw [hmacSha256, if_pos hkey, hmacSha256Step_eq hsize 0x36 hkey hm,
    hmacSha256Step_eq hsize' 0x5c hkey]
  show 32 + 64 < 2 ^ 29
  decide

theorem hmacSha256_eq_oneByte : hmacSha256 strayCtx strayCtx [1] [2] =
    some (sha256 (paddedKey 0x5c [1] ++ sha256 (paddedKey 0x36 [1] ++ [2]))) :=
  hmacSha256_eq List.length_replicate List.length_replicate (by decide) (by decide)

end ChromiumEc.VbootHash
