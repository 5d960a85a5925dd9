import ChromiumEc.Base32.Codec
import ChromiumEc.Lib.Bytes

/-!
# RoundTrip — what is encoded is decoded

The bits of each symbol are those of the source, and are stored where they were read.  The decoder
follows the encoder: behind each symbol and its CRC, both have the same CRC and the same count.
-/

namespace ChromiumEc.Base32

open Lib (bitAt)

variable {src dest : Nat → UInt8} {n k i j m sym sbits out : Nat}

/-! ## The bits of a symbol -/

theorem testBit_31 {p : Nat} (h : p < 5) : (0x1f : Nat).testBit p = true := by
  have hmask := @Lib.testBit_mask 5 p
  rw [decide_eq_true h] at hmask
  exact hmask

theorem encodeSym_lt (src : Nat → UInt8) (n i : Nat) : encodeSym src n i < 32 := by
  have hmask : ∀ x : Nat, x &&& 0x1f < 32 := fun x => Nat.lt_succ_of_le Nat.and_le_right
  unfold encodeSym
  dsimp only
  split
  · exact lt_of_le_of_lt Nat.and_le_left (hmask _)
  · exact hmask _

theorem testBit_encodeSym (hi : i < n) (hj : j < 5) :
    (encodeSym src n i).testBit (4 - j) = (decide (i + j < n) && bitAt src (i + j)) := by
  have hraw : i + j < n →
      (if i % 8 ≤ 3 then (src (i / 8)).toNat >>> (3 - i % 8)
        else if i + 1 < n then
          ((src (i / 8)).toNat <<< (i % 8 - 3)) ||| ((src (i / 8 + 1)).toNat >>> (11 - i % 8))
        else (src (i / 8)).toNat <<< (i % 8 - 3)).testBit (4 - j) = bitAt src (i + j) := by
    intro hlt
    unfold bitAt
    by_cases hfits : i % 8 ≤ 3
    · -- all bits are of one byte
      have hbyte : (i + j) / 8 = i / 8 := by omega
      have hbit : 3 - i % 8 + (4 - j) = 7 - (i + j) % 8 := by omega
      rw [if_pos hfits, Nat.testBit_shiftRight, hbyte, hbit]
    · rw [if_neg hfits]
      by_cases hleft : i % 8 + j < 8
      · -- a bit that is left in the byte; the next byte ends below it
        have hbyte : (i + j) / 8 = i / 8 := by omega
        have hbit : 4 - j - (i % 8 - 3) = 7 - (i + j) % 8 := by omega
        have hge : i % 8 - 3 ≤ 4 - j := by omega
        have hnext : (src (i / 8 + 1)).toNat.testBit (11 - i % 8 + (4 - j)) = false :=
          Lib.testBit_toNat_eq_false _ (by omega)
        have hshift : ((src (i / 8)).toNat <<< (i % 8 - 3)).testBit (4 - j) =
            (src ((i + j) / 8)).toNat.testBit (7 - (i + j) % 8) := by
          rw [Nat.testBit_shiftLeft, decide_eq_true hge, Bool.true_and, hbyte, hbit]
        split
        · rw [Nat.testBit_or, Nat.testBit_shiftRight, hnext, Bool.or_false, hshift]
        · exact hshift
      · -- a bit of the next byte
        have hbyte : (i + j) / 8 = i / 8 + 1 := by omega
        have hbit : 11 - i % 8 + (4 - j) = 7 - (i + j) % 8 := by omega
        have hlow : ¬ 4 - j ≥ i % 8 - 3 := by omega
        rw [if_pos (by omega), Nat.testBit_or, Nat.testBit_shiftLeft, decide_eq_false hlow,
          Bool.false_and, Bool.false_or, Nat.testBit_shiftRight, hbyte, hbit]
  unfold encodeSym
  dsimp only
  by_cases hpad : n - i < 5
  · rw [if_pos hpad, Nat.testBit_and, Nat.testBit_and, Nat.testBit_shiftLeft,
      testBit_31 (show 4 - j < 5 by omega), testBit_31 (show 4 - j - (5 + i - n) < 5 by omega),
      Bool.and_true, Bool.and_true]
    by_cases hlt : i + j < n
    · rw [hraw hlt, decide_eq_true hlt, decide_eq_true (show 4 - j ≥ 5 + i - n by omega),
        Bool.and_true, Bool.true_and]
    · rw [decide_eq_false hlt, decide_eq_false (show ¬ 4 - j ≥ 5 + i - n by omega),
        Bool.and_false, Bool.false_and]
  · have hlt : i + j < n := by omega
    rw [if_neg hpad, Nat.testBit_and, testBit_31 (show 4 - j < 5 by omega), Bool.and_true,
      hraw hlt, decide_eq_true hlt, Bool.true_and]

/-! ## The bits in the destination -/

theorem putBits_apply_of_ne {q : Nat} (hne : q ≠ out / 8)
    (hne' : 8 < out % 8 + sbits → q ≠ out / 8 + 1) : putBits sym sbits out dest q = dest q := by
  have hfirst :
      (if 8 - out % 8 = 8 then Function.update dest (out / 8) 0 else dest) q = dest q := by
    split
    · exact Function.update_of_ne hne _ _
    · rfl
  unfold putBits
  split
  · rename_i hnext
    have hq : q ≠ (out + min (8 - out % 8) sbits) / 8 := by
      have h := hne' (by omega)
      omega
    rw [Function.update_of_ne hq, Function.update_of_ne hne, hfirst]
  · rw [Function.update_of_ne hne, hfirst]

theorem putBits_first (sym : Nat) (dest : Nat → UInt8) :
    putBits sym sbits out dest (out / 8) =
      UInt8.ofNat ((if out % 8 = 0 then 0 else dest (out / 8)).toNat |||
        ((sym <<< (8 - out % 8 - min (8 - out % 8) sbits)) >>>
          (sbits - min (8 - out % 8) sbits))) := by
  have hfirst : (if 8 - out % 8 = 8 then Function.update dest (out / 8) 0 else dest) (out / 8) =
      if out % 8 = 0 then 0 else dest (out / 8) := by
    by_cases hzero : out % 8 = 0
    · rw [if_pos (by omega), if_pos hzero, Function.update_self]
    · rw [if_neg (by omega), if_neg hzero]
  unfold putBits
  rw [← hfirst]
  split
  · have hq : out / 8 ≠ (out + min (8 - out % 8) sbits) / 8 := by omega
    rw [Function.update_of_ne hq, Function.update_self]
  · rw [Function.update_self]

theorem putBits_second (sym : Nat) (dest : Nat → UInt8) (h : 8 < out % 8 + sbits) :
    putBits sym sbits out dest (out / 8 + 1) =
      UInt8.ofNat (sym <<< (8 - (sbits - (8 - out % 8)))) := by
  have hmin : min (8 - out % 8) sbits = 8 - out % 8 := by omega
  have hq : (out + (8 - out % 8)) / 8 = out / 8 + 1 := by omega
  unfold putBits
  rw [hmin, if_pos (by omega), hq, Function.update_self]

theorem bitAt_putBits (hsym : sym < 2 ^ sbits) (hle : sbits ≤ 5)
    (hzero : ∀ m, out ≤ m → m < 8 * ((out + 7) / 8) → bitAt dest m = false)
    (hm : m < 8 * ((out + sbits + 7) / 8)) :
    bitAt (putBits sym sbits out dest) m =
      if m < out then bitAt dest m
      else decide (m < out + sbits) && sym.testBit (out + sbits - 1 - m) := by
  unfold bitAt
  rcases Nat.lt_trichotomy (m / 8) (out / 8) with hlt | heq | hgt
  · rw [putBits_apply_of_ne (by omega) (by omega), if_pos (by omega)]
  · rw [heq, putBits_first, Lib.testBit_ofNat (by omega), Nat.testBit_or, Nat.testBit_shiftRight,
      Nat.testBit_shiftLeft]
    by_cases hold : m < out
    · -- the bits before are in the byte already
      have hnone : sym.testBit (sbits - min (8 - out % 8) sbits + (7 - m % 8) -
          (8 - out % 8 - min (8 - out % 8) sbits)) = false := by
        refine Nat.testBit_lt_two_pow (lt_of_lt_of_le hsym ?_)
        exact Nat.pow_le_pow_right (by decide) (by omega)
      rw [if_pos hold, if_neg (by omega), hnone, Bool.and_false, Bool.or_false]
    · have hclear : (if out % 8 = 0 then 0 else dest (out / 8)).toNat.testBit (7 - m % 8) =
          false := by
        split
        · exact Nat.zero_testBit _
        · rw [← heq]
          exact hzero m (by omega) (by omega)
      rw [if_neg hold, hclear, Bool.false_or]
      by_cases hin : m < out + sbits
      · have hbit : sbits - min (8 - out % 8) sbits + (7 - m % 8) -
            (8 - out % 8 - min (8 - out % 8) sbits) = out + sbits - 1 - m := by
          omega
        rw [decide_eq_true hin, hbit, decide_eq_true (by omega)]
      · rw [decide_eq_false hin, decide_eq_false (by omega)]
        rfl
  · have hnext : m / 8 = out / 8 + 1 := by omega
    rw [hnext, putBits_second _ _ (by omega), Lib.testBit_ofNat (by omega),
      Nat.testBit_shiftLeft, if_neg (by omega)]
    by_cases hin : m < out + sbits
    · have hbit : 7 - m % 8 - (8 - (sbits - (8 - out % 8))) = out + sbits - 1 - m := by omega
      rw [decide_eq_true hin, hbit, decide_eq_true (by omega)]
    · rw [decide_eq_false hin, decide_eq_false (by omega)]
      rfl

theorem crc5Sym_lt (sym previousCrc : Nat) : crc5Sym sym previousCrc < 32 := by
  have htable1 : ∀ i, i < 16 → crc5Table1.getD i 0 < 2 ^ 5 := by decide
  have htable0 : ∀ i, i < 16 → crc5Table0.getD i 0 < 2 ^ 5 := by decide
  have hindex : ∀ x : Nat, x &&& 0x0F < 16 := fun x => Nat.lt_succ_of_le Nat.and_le_right
  exact Nat.xor_lt_two_pow (htable1 _ (hindex _)) (htable0 _ (hindex _))

theorem mapSym_spec (h : sym < 32) : mapSym sym ∈ base32Map ∧ decodeSym (mapSym sym) = some sym ∧
    ¬ (isspace (mapSym sym) = true ∨ mapSym sym = '-') := by
  revert sym
  decide

theorem decodeChar_mapSym (h : sym < 32) (d : Decoder) :
    decodeChar n k (mapSym sym) d =
      if k = 0 then takeSym n sym d
      else if d.crcCount = k then
        if d.crc ≠ sym then .bad d else .next { d with crc := 0, crcCount := 0 }
      else takeSym n sym { d with crc := crc5Sym sym d.crc, crcCount := d.crcCount + 1 } := by
  obtain ⟨-, hdecode, hkept⟩ := mapSym_spec h
  unfold decodeChar
  rw [if_neg hkept, hdecode]

/-! ## The decoder follows the encoder -/

theorem decodeLoop_append {l l' : List Char} {d d' : Decoder}
    (h : decodeLoop n k l d = .next d') : decodeLoop n k (l ++ l') d = decodeLoop n k l' d' := by
  induction l generalizing d with
  | nil =>
    cases h
    rfl
  | cons c l ih =>
    rw [List.cons_append, decodeLoop]
    rw [decodeLoop] at h
    cases hchar : decodeChar n k c d with
    | next d₁ =>
      rw [hchar] at h
      exact ih h
    | stop d₁ =>
      rw [hchar] at h
      cases h
    | bad d₁ =>
      rw [hchar] at h
      cases h

/-- The first `out` bits of the source are in the destination, and the rest of the last byte is 0.
The bytes behind it are those of `old`. -/
structure Stored (src old : Nat → UInt8) (out : Nat) (dest : Nat → UInt8) : Prop where
  bits : ∀ m, m < 8 * ((out + 7) / 8) → bitAt dest m = (decide (m < out) && bitAt src m)
  frame : ∀ q, (out + 7) / 8 ≤ q → dest q = old q

/-- The state behind `t` symbols of the data -/
structure Follows (src old : Nat → UInt8) (n k t : Nat) (e : Encoder) (d : Decoder) : Prop where
  decoded : decodeLoop n k e.dest ⟨0, 0, 0, old⟩ = .next d
  crc : d.crc = e.crc
  count : d.crcCount = e.crcCount
  group : k ≠ 0 → e.crcCount = t % k
  length : e.dest.length = t + t / k
  symbols : ∀ c ∈ e.dest, c ∈ base32Map
  outBits : d.outBits = min (5 * t) n
  stored : Stored src old d.outBits d.dest

theorem takeSym_stored {old : Nat → UInt8} {d : Decoder} {t : Nat} (ht : 5 * t < n)
    (hout : d.outBits = min (5 * t) n) (h : Stored src old d.outBits d.dest) :
    ∃ out dest,
      takeSym n (encodeSym src n (5 * t)) d = .next { d with outBits := out, dest := dest } ∧
        out = min (5 * (t + 1)) n ∧ Stored src old out dest := by
  have hbegin : d.outBits = 5 * t := by omega
  have hsym : encodeSym src n (5 * t) >>> (5 - min 5 (n - 5 * t)) < 2 ^ min 5 (n - 5 * t) := by
    have hlt : encodeSym src n (5 * t) < 2 ^ 5 := encodeSym_lt src n (5 * t)
    have hsum : min 5 (n - 5 * t) + (5 - min 5 (n - 5 * t)) = 5 := by omega
    rw [Nat.shiftRight_eq_div_pow, Nat.div_lt_iff_lt_mul (Nat.two_pow_pos _), ← Nat.pow_add, hsum]
    exact hlt
  refine ⟨5 * t + min 5 (n - 5 * t),
    putBits (encodeSym src n (5 * t) >>> (5 - min 5 (n - 5 * t))) (min 5 (n - 5 * t)) (5 * t)
      d.dest,
    ?_, by omega, ?_, ?_⟩
  · unfold takeSym
    rw [hbegin, if_neg (by omega)]
  · intro m hm
    have hzero : ∀ m, 5 * t ≤ m → m < 8 * ((5 * t + 7) / 8) → bitAt d.dest m = false := by
      intro m hge hlt
      rw [h.bits m (by rw [hbegin]; exact hlt), hbegin, decide_eq_false (by omega)]
      rfl
    rw [bitAt_putBits hsym (by omega) hzero hm]
    by_cases hold : m < 5 * t
    · rw [if_pos hold, h.bits m (by omega), hbegin, decide_eq_true hold,
        decide_eq_true (by omega)]
    · rw [if_neg hold]
      by_cases hin : m < 5 * t + min 5 (n - 5 * t)
      · have hbit : 5 - min 5 (n - 5 * t) + (5 * t + min 5 (n - 5 * t) - 1 - m) =
            4 - (m - 5 * t) := by
          omega
        have hm' : 5 * t + (m - 5 * t) = m := by omega
        rw [Nat.testBit_shiftRight, hbit, testBit_encodeSym ht (by omega), hm',
          decide_eq_true (show m < n by omega), Bool.true_and]
      · rw [decide_eq_false hin]
        rfl
  · intro q hq
    rw [putBits_apply_of_ne (by omega) (by omega)]
    exact h.frame q (by omega)

theorem Follows.putSym {old : Nat → UInt8} {e : Encoder} {d : Decoder} {t : Nat}
    (h : Follows src old n k t e d) (ht : 5 * t < n) :
    ∃ d', Follows src old n k (t + 1) (putSym k (encodeSym src n (5 * t)) e) d' := by
  have hlt := encodeSym_lt src n (5 * t)
  have hmem := (mapSym_spec hlt).1
  have hsymbols : ∀ c ∈ e.dest ++ [mapSym (encodeSym src n (5 * t))], c ∈ base32Map := by
    intro c hc
    rcases List.mem_append.mp hc with hc | hc
    · exact h.symbols c hc
    · rw [List.mem_singleton.mp hc]
      exact hmem
  unfold Base32.putSym
  by_cases hk : k = 0
  · obtain ⟨out, dest, htake, hout, hstored⟩ := takeSym_stored ht h.outBits h.stored
    rw [if_pos hk]
    refine ⟨{ d with outBits := out, dest := dest }, ?_, h.crc, h.count,
      fun hne => absurd hk hne, ?_, hsymbols, hout, hstored⟩
    · rw [decodeLoop_append h.decoded, decodeLoop, decodeChar_mapSym hlt, if_pos hk, htake]
      rfl
    · rw [List.length_append, h.length, hk, Nat.div_zero, Nat.div_zero]
      rfl
  · have hpos : 0 < k := Nat.pos_of_ne_zero hk
    have hcount := h.group hk
    have hmod := Nat.mod_lt t hpos
    have hopen : d.crcCount ≠ k := by
      rw [h.count]
      omega
    obtain ⟨out, dest, htake, hout, hstored⟩ :=
      @takeSym_stored src n old ⟨crc5Sym (encodeSym src n (5 * t)) d.crc, d.crcCount + 1,
        d.outBits, d.dest⟩ t ht h.outBits h.stored
    have hdecoded : decodeLoop n k (e.dest ++ [mapSym (encodeSym src n (5 * t))])
        ⟨0, 0, 0, old⟩ =
          .next ⟨crc5Sym (encodeSym src n (5 * t)) d.crc, d.crcCount + 1, out, dest⟩ := by
      rw [decodeLoop_append h.decoded, decodeLoop, decodeChar_mapSym hlt, if_neg hk,
        if_neg hopen, htake]
      rfl
    have hdiv := @Nat.succ_div t k
    rw [if_neg hk]
    by_cases hfull : e.crcCount + 1 = k
    · have hdvd : k ∣ t + 1 := by
        have hsum := Nat.div_add_mod t k
        exact ⟨t / k + 1, by rw [Nat.mul_add]; omega⟩
      have hcrc := crc5Sym_lt (encodeSym src n (5 * t)) e.crc
      rw [if_pos hfull]
      refine ⟨⟨0, 0, out, dest⟩, ?_, rfl, rfl, ?_, ?_, ?_, hout, hstored⟩
      · rw [decodeLoop_append hdecoded, decodeLoop, decodeChar_mapSym hcrc, if_neg hk,
          if_pos (by rw [h.count]; exact hfull), h.crc, if_neg (not_not.mpr rfl)]
        rfl
      · exact fun _ => (Nat.mod_eq_zero_of_dvd hdvd).symm
      · rw [if_pos hdvd] at hdiv
        rw [hdiv, List.length_append, List.length_append, h.length]
        simp only [List.length_cons, List.length_nil]
        omega
      · intro c hc
        rcases List.mem_append.mp hc with hc | hc
        · exact hsymbols c hc
        · rw [List.mem_singleton.mp hc]
          exact (mapSym_spec hcrc).1
    · have hdvd : ¬ k ∣ t + 1 := by
        intro hdvd
        have hzero := Nat.mod_eq_zero_of_dvd hdvd
        rw [Nat.add_mod, Nat.mod_eq_of_lt (show 1 < k by omega)] at hzero
        rw [Nat.mod_eq_of_lt (show t % k + 1 < k by omega)] at hzero
        omega
      rw [if_neg hfull]
      refine ⟨_, hdecoded, ?_, ?_, ?_, ?_, hsymbols, hout, hstored⟩
      · rw [h.crc]
      · rw [h.count]
      · intro _
        rw [Nat.add_mod, Nat.mod_eq_of_lt (show 1 < k by omega),
          Nat.mod_eq_of_lt (show t % k + 1 < k by omega), hcount]
      · rw [if_neg hdvd] at hdiv
        rw [hdiv, List.length_append, h.length]
        simp only [List.length_cons, List.length_nil]
        omega

theorem Follows.encodeLoop {old : Nat → UInt8} {e : Encoder} {d : Decoder} {t : Nat}
    (h : Follows src old n k t e d) (ht : t ≤ symbolCount n) :
    ∃ d', Follows src old n k (symbolCount n) (encodeLoop src n k (5 * t) e) d' := by
  have hcount : symbolCount n = (n + 4) / 5 := rfl
  obtain ⟨r, hr⟩ : ∃ r, t + r = symbolCount n := ⟨symbolCount n - t, by omega⟩
  induction r generalizing t e d with
  | zero =>
    have hend : ¬ 5 * t < n := by omega
    rw [Base32.encodeLoop, if_neg hend]
    exact ⟨d, by rw [← hr]; exact h⟩
  | succ r ih =>
    have hlt : 5 * t < n := by omega
    obtain ⟨d', hnext⟩ := h.putSym hlt
    rw [Base32.encodeLoop, if_pos hlt]
    exact ih hnext (by omega) (by omega)

theorem follows_encodeLoop (src old : Nat → UInt8) (n k : Nat) :
    ∃ d, Follows src old n k (symbolCount n) (encodeLoop src n k 0 ⟨0, 0, []⟩) d := by
  have hstored : Stored src old 0 old := by
    refine ⟨fun m hm => ?_, fun _ _ => rfl⟩
    omega
  have hinit : Follows src old n k 0 ⟨0, 0, []⟩ ⟨0, 0, 0, old⟩ :=
    ⟨rfl, rfl, rfl, fun _ => (Nat.zero_mod k).symm, by simp, nofun, by simp, hstored⟩
  exact hinit.encodeLoop (Nat.zero_le _)

/-! ## The round trip -/

/-- `spaced` is `enc` with blanks and dashes anywhere. -/
inductive Spaced : List Char → List Char → Prop
  | nil : Spaced [] []
  | symbol {c : Char} {enc spaced : List Char} : Spaced enc spaced →
      Spaced (c :: enc) (c :: spaced)
  | skip {c : Char} {enc spaced : List Char} : isspace c = true ∨ c = '-' → Spaced enc spaced →
      Spaced enc (c :: spaced)

theorem decodeLoop_spaced {enc spaced : List Char} (h : Spaced enc spaced) (d : Decoder) :
    decodeLoop n k spaced d = decodeLoop n k enc d := by
  induction h generalizing d with
  | nil => rfl
  | symbol _ ih =>
    rw [decodeLoop, decodeLoop]
    split
    · exact ih _
    · rfl
  | skip hskip _ ih =>
    rw [decodeLoop, decodeChar, if_pos hskip]
    exact ih d

/-- Encoding succeeds, with the symbols of the map, and with a CRC for each group of `k` symbols, of
which there are none for `k = 0`.  Decoding returns the bits of the source. -/
theorem base32_round_trip (src : Nat → UInt8) {n k destlenChars : Nat}
    (hk : k = 0 ∨ k ∣ symbolCount n)
    (hdest : symbolCount n + symbolCount n / k < destlenChars) :
    ∃ enc, base32Encode destlenChars src n k = (.success, enc) ∧
      (∀ c ∈ enc, c ∈ base32Map) ∧ enc.length = symbolCount n + symbolCount n / k ∧
      ∀ spaced old, Spaced enc spaced → ∃ dest,
        base32Decode old n spaced k = (some n, dest) ∧ Stored src old n dest := by
  have hloop := fun old => follows_encodeLoop src old n k
  have hgroups : ¬ (k ≠ 0 ∧ symbolCount n % k ≠ 0) := by
    rintro ⟨hne, hmod⟩
    exact hmod (Nat.mod_eq_zero_of_dvd (hk.resolve_left hne))
  refine ⟨(encodeLoop src n k 0 ⟨0, 0, []⟩).dest, ?_, ?_, ?_, ?_⟩
  · unfold base32Encode
    rw [if_neg hgroups]
    have hneeded : (if k ≠ 0 then symbolCount n + symbolCount n / k else symbolCount n) =
        symbolCount n + symbolCount n / k := by
      by_cases hzero : k = 0
      · rw [if_neg (not_not.mpr hzero), hzero, Nat.div_zero, Nat.add_zero]
      · rw [if_pos hzero]
    dsimp only
    rw [hneeded, if_neg (by omega)]
  · obtain ⟨d, h⟩ := hloop fun _ => 0
    exact h.symbols
  · obtain ⟨d, h⟩ := hloop fun _ => 0
    exact h.length
  · intro spaced old hspaced
    obtain ⟨d, h⟩ := hloop old
    have hout : d.outBits = n := by
      have hcount : symbolCount n = (n + 4) / 5 := rfl
      rw [h.outBits]
      omega
    have hfull : ¬ (k ≠ 0 ∧ d.crcCount ≠ 0) := by
      rintro ⟨hne, hcount⟩
      rw [h.count, h.group hne] at hcount
      exact hgroups ⟨hne, hcount⟩
    refine ⟨d.dest, ?_, ?_⟩
    · unfold base32Decode
      rw [decodeLoop_spaced hspaced, h.decoded]
      show decodeEnd k d = _
      rw [decodeEnd, if_neg hfull, hout]
    · rw [← hout]
      exact h.stored

/-- Five bytes, with a CRC for each four symbols -/
theorem base32_round_trip_forty :
    ∃ enc, base32Encode 11 (fun i => if i % 2 = 0 then 0xff else 0) 40 4 = (.success, enc) ∧
      (∀ c ∈ enc, c ∈ base32Map) ∧ enc.length = 10 ∧
      ∀ spaced old, Spaced enc spaced → ∃ dest,
        base32Decode old 40 spaced 4 = (some 40, dest) ∧
          Stored (fun i => if i % 2 = 0 then 0xff else 0) old 40 dest :=
  base32_round_trip _ (.inr (by decide)) (by decide)

end ChromiumEc.Base32
