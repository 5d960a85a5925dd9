import ChromiumEc.Base32.RoundTrip

/-!
# Buffers — what is read and written

The indices that the encoder reads of its source, and those that the two functions write of their
destination.  A symbol that starts behind the fourth bit of a byte takes the next byte as soon as it
has a second bit, although the bits may end with the byte.
-/

namespace ChromiumEc.Base32

variable {src src' dest : Nat → UInt8} {n k i q a sym sbits out : Nat} {c : Char} {d d' : Decoder}

/-! ## The encoder -/

/-- The bytes that are read for the symbol at `i` -/
def symReads (srclenBits i : Nat) : List Nat :=
  if i % 8 ≤ 3 then [i / 8]
  else if i + 1 < srclenBits then [i / 8, i / 8 + 1]
  else [i / 8]

/-- The bytes that are read from the symbol at `i` on -/
def loopReads (srclenBits i : Nat) : List Nat :=
  if i < srclenBits then symReads srclenBits i ++ loopReads srclenBits (i + 5) else []
termination_by srclenBits - i

/-- The bytes of the source that `base32_encode` reads -/
def encodeReads (destlenChars : Nat) (src : Nat → UInt8) (srclenBits addCrcEvery : Nat) :
    List Nat :=
  match base32Encode destlenChars src srclenBits addCrcEvery with
  | (.success, _) => loopReads srclenBits 0
  | (.errorInval, _) => []

/-- The characters of the destination that `base32_encode` writes: the empty string before anything
is checked, then the symbols one after the other, and the terminator -/
def encodeWrites (destlenChars : Nat) (src : Nat → UInt8) (srclenBits addCrcEvery : Nat) :
    List Nat :=
  match base32Encode destlenChars src srclenBits addCrcEvery with
  | (.success, enc) => 0 :: List.range (enc.length + 1)
  | (.errorInval, _) => [0]

/-- The reads are in the bytes that hold the bits, and the writes in the destination. -/
def EncodeInBounds (destlenChars : Nat) (src : Nat → UInt8) (srclenBits addCrcEvery : Nat) : Prop :=
  (∀ a ∈ encodeReads destlenChars src srclenBits addCrcEvery, a < (srclenBits + 7) / 8) ∧
    ∀ a ∈ encodeWrites destlenChars src srclenBits addCrcEvery, a < destlenChars

theorem symReads_inBounds_iff (hi : i < n) :
    (∀ a ∈ symReads n i, a < (n + 7) / 8) ↔
      ¬ (4 ≤ i % 8 ∧ i + 1 < n ∧ n ≤ 8 * (i / 8 + 1)) := by
  unfold symReads
  by_cases hfits : i % 8 ≤ 3
  · rw [if_pos hfits, List.forall_mem_singleton]
    omega
  · rw [if_neg hfits]
    by_cases hnext : i + 1 < n
    · rw [if_pos hnext, List.forall_mem_cons, List.forall_mem_singleton]
      omega
    · rw [if_neg hnext, List.forall_mem_singleton]
      omega

theorem mem_loopReads : a ∈ loopReads n i ↔ ∃ t, i + 5 * t < n ∧ a ∈ symReads n (i + 5 * t) := by
  -- the loop goes up by a symbol: the first one is number 0, the rest are counted from there
  induction i using loopReads.induct n with
  | case1 i hlt ih =>
    rw [loopReads, if_pos hlt, List.mem_append, ih]
    constructor
    · rintro (hmem | ⟨t, ht, hmem⟩)
      · exact ⟨0, hlt, hmem⟩
      · have hnext : i + 5 * (t + 1) = i + 5 + 5 * t := by omega
        exact ⟨t + 1, by rw [hnext]; exact ht, by rw [hnext]; exact hmem⟩
    · rintro ⟨t, ht, hmem⟩
      cases t with
      | zero => exact .inl hmem
      | succ t =>
        have hnext : i + 5 * (t + 1) = i + 5 + 5 * t := by omega
        rw [hnext] at ht hmem
        exact .inr ⟨t, ht, hmem⟩
  | case2 i hge =>
    rw [loopReads, if_neg hge]
    constructor
    · exact nofun
    · rintro ⟨t, ht, -⟩
      omega

/-- The reads of the loop, by the number of bits: the last symbol is the only one that can read too
far, and where it starts in its byte is known from the remainder modulo 40. -/
theorem loopReads_inBounds_iff :
    (∀ a ∈ loopReads n 0, a < (n + 7) / 8) ↔ n % 40 ∉ [7, 8, 22, 23, 24, 32] := by
  have hsyms : (∀ a ∈ loopReads n 0, a < (n + 7) / 8) ↔
      ∀ t, 5 * t < n → ¬ (4 ≤ 5 * t % 8 ∧ 5 * t + 1 < n ∧ n ≤ 8 * (5 * t / 8 + 1)) := by
    constructor
    · intro h t ht
      refine (symReads_inBounds_iff ht).mp ?_
      intro a ha
      refine h a (mem_loopReads.mpr ⟨t, ?_⟩)
      rw [Nat.zero_add]
      exact ⟨ht, ha⟩
    · intro h a ha
      obtain ⟨t, ht, hmem⟩ := mem_loopReads.mp ha
      rw [Nat.zero_add] at ht hmem
      exact (symReads_inBounds_iff ht).mpr (h t ht) a hmem
  rw [hsyms]
  simp only [List.mem_cons, List.not_mem_nil, or_false, not_or]
  constructor
  · intro h
    have hlast := h ((n - 1) / 5)
    omega
  · rintro h t ht ⟨hoffs, hsecond, hbyte⟩
    -- eight symbols are five bytes, so where a symbol starts in its byte is known from `v`
    obtain ⟨u, v, hv, rfl⟩ : ∃ u v, v < 8 ∧ t = 8 * u + v :=
      ⟨t / 8, t % 8, Nat.mod_lt _ (by decide), by omega⟩
    -- the symbols of eight that start behind the fourth bit of their byte
    have hstart : v = 1 ∨ v = 3 ∨ v = 4 ∨ v = 6 := by omega
    rcases hstart with rfl | rfl | rfl | rfl
    · omega
    · omega
    · omega
    · omega

theorem base32Encode_length {destlenChars : Nat} {enc : List Char}
    (h : base32Encode destlenChars src n k = (.success, enc)) : enc.length + 1 ≤ destlenChars := by
  obtain ⟨d, hfollows⟩ := follows_encodeLoop src src n k
  have hlength := hfollows.length
  have hnone : ¬ k ≠ 0 → symbolCount n / k = 0 := by
    intro hzero
    rw [not_not.mp hzero, Nat.div_zero]
  unfold base32Encode at h
  by_cases hgroups : k ≠ 0 ∧ symbolCount n % k ≠ 0
  · rw [if_pos hgroups] at h
    cases h
  · rw [if_neg hgroups] at h
    dsimp only at h
    by_cases hroom : destlenChars <
        (if k ≠ 0 then symbolCount n + symbolCount n / k else symbolCount n) + 1
    · rw [if_pos hroom] at h
      cases h
    · rw [if_neg hroom] at h
      cases h
      -- the check counts a CRC for each whole group, and so does the loop
      split at hroom
      · omega
      · rename_i hzero
        have hcrcs := hnone hzero
        omega

theorem encodeWrites_inBounds_iff {destlenChars : Nat} :
    (∀ a ∈ encodeWrites destlenChars src n k, a < destlenChars) ↔ 1 ≤ destlenChars := by
  constructor
  · intro h
    -- the terminator is written first of all, before the size is checked
    refine h 0 ?_
    unfold encodeWrites
    split
    · exact List.mem_cons_self
    · exact List.mem_cons_self
  · intro hpos a ha
    unfold encodeWrites at ha
    split at ha
    · rename_i enc henc
      have hroom := base32Encode_length henc
      rcases List.mem_cons.mp ha with rfl | hmem
      · exact hpos
      · have hlt := List.mem_range.mp hmem
        omega
    · rw [List.mem_singleton.mp ha]
      exact hpos

/-! ## The decoder -/

/-- The bytes that `putBits` writes: the one that is filled, cleared first if it is new, and the
next one, if it is started -/
def putBitsWrites (sbits outBits : Nat) : List Nat :=
  let dbits := 8 - outBits % 8
  let b := min dbits sbits
  (if dbits = 8 then [outBits / 8] else []) ++ [outBits / 8] ++
    (if 0 < sbits - b then [(outBits + b) / 8] else [])

def takeSymWrites (destlenBits : Nat) (d : Decoder) : List Nat :=
  if destlenBits ≤ d.outBits then []
  else putBitsWrites (min 5 (destlenBits - d.outBits)) d.outBits

/-- The bytes that an iteration of `base32_decode` writes -/
def charWrites (destlenBits crcAfterEvery : Nat) (c : Char) (d : Decoder) : List Nat :=
  if isspace c ∨ c = '-' then []
  else
    match decodeSym c with
    | none => []
    | some _ =>
      if crcAfterEvery = 0 then takeSymWrites destlenBits d
      else if d.crcCount = crcAfterEvery then []
      else takeSymWrites destlenBits d

def decodeWrites (destlenBits crcAfterEvery : Nat) : List Char → Decoder → List Nat
  | [], _ => []
  | c :: src, d =>
    charWrites destlenBits crcAfterEvery c d ++
      match decodeChar destlenBits crcAfterEvery c d with
      | .next d => decodeWrites destlenBits crcAfterEvery src d
      | _ => []

/-- The writes are in the bytes of the destination, and the result is not above its length. -/
def DecodeInBounds (old : Nat → UInt8) (destlenBits : Nat) (s : List Char) (crcAfterEvery : Nat) :
    Prop :=
  (∀ a ∈ decodeWrites destlenBits crcAfterEvery s ⟨0, 0, 0, old⟩, a < (destlenBits + 7) / 8) ∧
    ∀ bits, (base32Decode old destlenBits s crcAfterEvery).1 = some bits → bits ≤ destlenBits

def Flow.decoder : Flow → Decoder
  | .next d => d
  | .stop d => d
  | .bad d => d

theorem takeSymWrites_lt (h : a ∈ takeSymWrites n d) : a < (n + 7) / 8 := by
  unfold takeSymWrites at h
  by_cases hspace : n ≤ d.outBits
  · rw [if_pos hspace] at h
    cases h
  · rw [if_neg hspace, putBitsWrites] at h
    simp only [List.mem_append, List.mem_singleton] at h
    rcases h with (hclear | rfl) | hnext
    · split at hclear
      · have heq := List.mem_singleton.mp hclear
        omega
      · cases hclear
    · omega
    · split at hnext
      · have heq := List.mem_singleton.mp hnext
        omega
      · cases hnext

theorem takeSym_outBits_le (hout : d.outBits ≤ n) : (takeSym n sym d).decoder.outBits ≤ n := by
  unfold takeSym
  by_cases hspace : n ≤ d.outBits
  · rw [if_pos hspace]
    exact hout
  · rw [if_neg hspace]
    show d.outBits + min 5 (n - d.outBits) ≤ n
    omega

theorem charWrites_lt (h : a ∈ charWrites n k c d) : a < (n + 7) / 8 := by
  unfold charWrites at h
  split at h
  · cases h
  · split at h
    · cases h
    · split at h
      · exact takeSymWrites_lt h
      · split at h
        · cases h
        · exact takeSymWrites_lt h

theorem decodeChar_outBits_le (hout : d.outBits ≤ n) :
    (decodeChar n k c d).decoder.outBits ≤ n := by
  unfold decodeChar
  split
  · exact hout
  · split
    · exact hout
    · split
      · exact takeSym_outBits_le hout
      · split
        · split
          · exact hout
          · exact hout
        · exact takeSym_outBits_le hout

theorem decodeLoop_inBounds {s : List Char} (hout : d.outBits ≤ n) :
    (∀ a ∈ decodeWrites n k s d, a < (n + 7) / 8) ∧ (decodeLoop n k s d).decoder.outBits ≤ n := by
  induction s generalizing d with
  | nil => exact ⟨nofun, hout⟩
  | cons c s ih =>
    have hnext := @decodeChar_outBits_le n k c d hout
    rw [decodeWrites, decodeLoop]
    cases hflow : decodeChar n k c d with
    | next d' =>
      rw [hflow] at hnext
      refine ⟨fun a ha => ?_, (ih hnext).2⟩
      rcases List.mem_append.mp ha with hchar | hrest
      · exact charWrites_lt hchar
      · exact (ih hnext).1 a hrest
    | stop d' =>
      rw [hflow] at hnext
      refine ⟨fun a ha => ?_, hnext⟩
      rw [List.append_nil] at ha
      exact charWrites_lt ha
    | bad d' =>
      rw [hflow] at hnext
      refine ⟨fun a ha => ?_, hnext⟩
      rw [List.append_nil] at ha
      exact charWrites_lt ha

theorem base32Decode_inBounds (old : Nat → UInt8) (n : Nat) (s : List Char) (k : Nat) :
    DecodeInBounds old n s k := by
  obtain ⟨hwrites, hout⟩ := @decodeLoop_inBounds n k ⟨0, 0, 0, old⟩ s (Nat.zero_le n)
  refine ⟨hwrites, ?_⟩
  have hend : ∀ {d : Decoder} {bits : Nat}, d.outBits ≤ n → (decodeEnd k d).1 = some bits →
      bits ≤ n := by
    intro d bits hle h
    unfold decodeEnd at h
    split at h
    · cases h
    · cases h
      exact hle
  intro bits hbits
  unfold base32Decode at hbits
  cases hflow : decodeLoop n k s ⟨0, 0, 0, old⟩ with
  | next d =>
    rw [hflow] at hbits hout
    exact hend hout hbits
  | stop d =>
    rw [hflow] at hbits hout
    exact hend hout hbits
  | bad d =>
    rw [hflow] at hbits
    cases hbits

/-! ## The buffers -/

/-- Both functions keep to their buffers: all decoding does, and encoding exactly if there is a
destination, and if what is encoded does not end so that its last symbol reads too far. -/
theorem base32_buffers_iff (destlenChars : Nat) (src : Nat → UInt8) (n k : Nat) :
    (EncodeInBounds destlenChars src n k ∧
      ∀ old destlenBits s crcAfterEvery, DecodeInBounds old destlenBits s crcAfterEvery) ↔
    1 ≤ destlenChars ∧
      (n % 40 ∉ [7, 8, 22, 23, 24, 32] ∨ k ≠ 0 ∧ symbolCount n % k ≠ 0 ∨
        destlenChars < symbolCount n + (if k = 0 then 0 else symbolCount n / k) + 1) := by
  have hreads : (∀ a ∈ encodeReads destlenChars src n k, a < (n + 7) / 8) ↔
      (n % 40 ∉ [7, 8, 22, 23, 24, 32] ∨ k ≠ 0 ∧ symbolCount n % k ≠ 0 ∨
        destlenChars < symbolCount n + (if k = 0 then 0 else symbolCount n / k) + 1) := by
    unfold encodeReads base32Encode
    -- the two checks come before the loop: where one of them fails, nothing is read
    by_cases hgroups : k ≠ 0 ∧ symbolCount n % k ≠ 0
    · rw [if_pos hgroups]
      exact ⟨fun _ => .inr (.inl hgroups), fun _ => nofun⟩
    · have hneeded : (if k ≠ 0 then symbolCount n + symbolCount n / k else symbolCount n) =
          symbolCount n + (if k = 0 then 0 else symbolCount n / k) := by
        by_cases hk : k = 0
        · rw [if_neg (not_not.mpr hk), if_pos hk, Nat.add_zero]
        · rw [if_pos hk, if_neg hk]
      rw [if_neg hgroups]
      dsimp only
      rw [hneeded]
      by_cases hroom : destlenChars < symbolCount n + (if k = 0 then 0 else symbolCount n / k) + 1
      · rw [if_pos hroom]
        exact ⟨fun _ => .inr (.inr hroom), fun _ => nofun⟩
      · rw [if_neg hroom]
        show (∀ a ∈ loopReads n 0, a < (n + 7) / 8) ↔ _
        rw [loopReads_inBounds_iff]
        constructor
        · exact fun h => .inl h
        · rintro (h | h | h)
          · exact h
          · exact absurd h hgroups
          · exact absurd h hroom
  constructor
  · rintro ⟨⟨hread, hwrite⟩, -⟩
    exact ⟨encodeWrites_inBounds_iff.mp hwrite, hreads.mp hread⟩
  · rintro ⟨hpos, hread⟩
    exact ⟨⟨hreads.mpr hread, encodeWrites_inBounds_iff.mpr hpos⟩, base32Decode_inBounds⟩

/-- One byte is encoded in two symbols, and the second of them reads the byte behind it. -/
theorem base32_encode_reads_behind :
    base32Encode 3 (fun _ => 0xff) 8 0 = (.success, ['9', '6']) ∧
      ¬ EncodeInBounds 3 (fun _ => 0xff) 8 0 := by
  have henc : base32Encode 3 (fun _ => 0xff) 8 0 = (.success, ['9', '6']) := by
    simp [base32Encode, symbolCount, encodeLoop]
    decide
  refine ⟨henc, ?_⟩
  rintro ⟨hreads, -⟩
  rw [encodeReads, henc] at hreads
  have hread : 1 ∈ loopReads 8 0 := mem_loopReads.mpr ⟨1, by decide, by decide⟩
  exact absurd (hreads 1 hread) (by decide)

end ChromiumEc.Base32
