import ChromiumEc.Usbc.Tcpc.RoundTrip

/-!
# Accepted — which symbol streams are taken for messages

`decode_short` looks up each symbol in `dec4b5b` and or-s the values, four bits apart.  A symbol that
is no data symbol has a value with bit 4, which goes into the next value, or out of the half word, so
other symbols than those of a message may have its values; and a packet with a wrong end is answered
with an offset that is no error.
-/

namespace ChromiumEc.Usbc.Tcpc

variable {Tx Rx γ : Type} {L : BitLayer Tx Rx} {crc : Crc γ} {cfg : Config}

/-! ## The lock -/

/-- `pd_analyze_rx` from the header on, with `pd_crc_lock` beside the result -/
def analyzeMessage (L : BitLayer Tx Rx) (crc : Crc γ) (cfg : Config) (val : BitVec 32) (bit : Int)
    (r : Rx) (payload : Nat → BitVec 32) : Int × (Nat → BitVec 32) × Bool :=
  let (bit, header, r) := decodeShort L r bit
  -- mutex_lock
  let lock := true
  let c := crc.crc32Hash16 crc.crc32Init header
  match addressOf cfg val with
  | none => (bit, payload, lock)
  | some address =>
    let (bit, c, payload, r) :=
      readPayload L crc (pdHeaderCnt header.toNat) 0 bit c payload r
    -- mutex_unlock
    let lock := false
    if bit < 0 then (bit, payload, lock)
    else (checkTrailer L (header.setWidth 32 ||| BitVec.ofNat 32 address) (crc.crc32Result c) bit r,
      payload, lock)

/-- `pd_analyze_rx` with `pd_crc_lock`, which is free before -/
def pdAnalyzeRxLocked (L : BitLayer Tx Rx) (crc : Crc γ) (cfg : Config) (fuel : Nat) (r : Rx)
    (payload : Nat → BitVec 32) : Option (Int × (Nat → BitVec 32) × Bool) :=
  let (bit, r) := L.pdFindPreamble (L.pdInitDequeue r)
  if bit = pdRxErrHardReset ∨ bit = pdRxErrCableReset then some (bit, payload, false)
  else if bit < 0 then some (bit, payload, false)
  else
    (findStart L cfg fuel bit 0 r).map fun
      | .error ret => (ret, payload, false)
      | .ok (bit, val, r) =>
        if bit < 0 then (bit, payload, false) else analyzeMessage L crc cfg val bit r payload

theorem pdAnalyzeRxLocked_eq (fuel : Nat) (r : Rx) (payload : Nat → BitVec 32) :
    (pdAnalyzeRxLocked L crc cfg fuel r payload).map (fun x => (x.1, x.2.1)) =
      pdAnalyzeRx L crc cfg fuel r payload := by
  unfold pdAnalyzeRxLocked pdAnalyzeRx
  dsimp only
  split_ifs
  · rfl
  · rfl
  · rw [Option.map_map]
    refine congrArg (Option.map · _) (funext fun found => ?_)
    match found with
    | .error ret => rfl
    | .ok (bit, val, r) =>
      dsimp only [Function.comp_apply]
      by_cases hbit : bit < 0
      · rw [if_pos hbit, if_pos hbit]
      · rw [if_neg hbit, if_neg hbit]
        unfold analyzeMessage
        dsimp only
        cases addressOf cfg val with
        | none => rfl
        | some address =>
          dsimp only
          split_ifs
          · rfl
          · rfl

/-- What is received behind the preamble: whole symbols, and four more bits, if there are so many -/
structure Stream where
  syms : List (BitVec 5)
  tail : Option (BitVec 4)
  deriving DecidableEq, Repr

def Stream.nextFour (s : Stream) : Option (BitVec 4) :=
  match s.syms with
  | sym :: _ => some (sym.setWidth 4)
  | [] => s.tail

/-- The layer returns the bits of a stream in their order, and fails at its end.  `rest r bit s` says
that at offset `bit` the stream `s` is still to come. -/
structure BitLayer.Reads (L : BitLayer Tx Rx) (rest : Rx → Int → Stream → Prop) : Prop where
  symbols : ∀ {r bit s0 s1 s2 s3 syms tail}, rest r bit ⟨s0 :: s1 :: s2 :: s3 :: syms, tail⟩ →
    ∃ bit' r', L.pdDequeueBits r bit 20 = (bit', packed [s0, s1, s2, s3], r') ∧ 0 < bit' ∧
      rest r' bit' ⟨syms, tail⟩
  short : ∀ {r bit s}, rest r bit s → s.syms.length < 4 → (L.pdDequeueBits r bit 20).1 < 0
  lastBits : ∀ {r bit s b}, rest r bit s → s.nextFour = some b →
    ∃ bit' r', L.pdDequeueBits r bit 4 = (bit', b.setWidth 32, r') ∧ 0 < bit'
  noBits : ∀ {r bit s}, rest r bit s → s.nextFour = none → (L.pdDequeueBits r bit 4).1 < 0

/-- A read from before the buffer, which `decode_word` makes when the first half of a word is missing,
fails. -/
def BitLayer.FailsBefore (L : BitLayer Tx Rx) : Prop :=
  ∀ r bit n, bit < 0 → (L.pdDequeueBits r bit n).1 < 0

/-! ## Values -/

def decSymbol (s : BitVec 5) : BitVec 16 :=
  (dec4b5b.getD s.toNat 0).setWidth 16

def halfOf (s0 s1 s2 s3 : BitVec 5) : BitVec 16 :=
  decSymbol s0 ||| decSymbol s1 <<< 4 ||| decSymbol s2 <<< 8 ||| decSymbol s3 <<< 12

def halves : List (BitVec 5) → List (BitVec 16)
  | s0 :: s1 :: s2 :: s3 :: syms => halfOf s0 s1 s2 s3 :: halves syms
  | _ => []

def wordHalves (val32 : BitVec 32) : List (BitVec 16) :=
  [((val32 >>> 0) &&& 0xFFFF).setWidth 16, ((val32 >>> 16) &&& 0xFFFF).setWidth 16]

def dataHalves (data : Nat → BitVec 32) (is : List Nat) : List (BitVec 16) :=
  is.flatMap fun i => wordHalves (data i)

/-- The half words of a message: header, objects and CRC -/
def messageHalves (crc : Crc γ) (header : BitVec 16) (data : Nat → BitVec 32) :
    List (BitVec 16) :=
  let cnt := pdHeaderCnt header.toNat
  header :: (dataHalves data (List.range' 0 cnt) ++
    wordHalves (messageCrc crc header data cnt))

/-- The symbols that `prepare_message` writes for half words -/
def symbolsOf (vs : List (BitVec 16)) : List (BitVec 5) :=
  vs.flatMap shortSymbols

@[simp] theorem length_wordHalves (val32 : BitVec 32) : (wordHalves val32).length = 2 := rfl

theorem length_dataHalves (data : Nat → BitVec 32) (is : List Nat) :
    (dataHalves data is).length = 2 * is.length := by
  rw [dataHalves, List.length_flatMap]
  simp [Nat.mul_comm]

theorem length_messageHalves {header : BitVec 16} {data : Nat → BitVec 32} :
    (messageHalves crc header data).length = 2 * pdHeaderCnt header.toNat + 3 := by
  simp only [messageHalves, List.length_cons, List.length_append, length_dataHalves,
    List.length_range', length_wordHalves]

theorem length_symbolsOf (vs : List (BitVec 16)) : (symbolsOf vs).length = 4 * vs.length := by
  induction vs with
  | nil => rfl
  | cons v vs ih =>
    rw [symbolsOf, List.flatMap_cons, List.length_append, ← symbolsOf, ih, List.length_cons]
    exact Nat.add_comm 4 _

theorem halves_symbolsOf (vs : List (BitVec 16)) : halves (symbolsOf vs) = vs := by
  have hdec : ∀ v k, decSymbol (symbolOf (nibble v k)) = nibble v k := by
    intro v k
    refine dec_symbolOf ?_
    rw [nibble_toNat]
    exact Nat.mod_lt _ (by decide)
  induction vs with
  | nil => rfl
  | cons v vs ih =>
    have hcons : symbolsOf (v :: vs) = symbolOf (nibble v 0) :: symbolOf (nibble v 4) ::
        symbolOf (nibble v 8) :: symbolOf (nibble v 12) :: symbolsOf vs := List.flatMap_cons
    rw [hcons, halves, ih, halfOf, hdec, hdec, hdec, hdec, nibbles_eq]

theorem exists_four {l : List (BitVec 5)} (h : 4 ≤ l.length) :
    ∃ s0 s1 s2 s3 l', l = s0 :: s1 :: s2 :: s3 :: l' := by
  match l, h with
  | s0 :: s1 :: s2 :: s3 :: l', _ => exact ⟨s0, s1, s2, s3, l', rfl⟩

theorem halves_append {a b : List (BitVec 5)} {n : Nat} (h : a.length = 4 * n) :
    halves (a ++ b) = halves a ++ halves b := by
  induction n generalizing a with
  | zero =>
    rw [List.length_eq_zero_iff.mp h]
    rfl
  | succ n ih =>
    match a, h with
    | s0 :: s1 :: s2 :: s3 :: a, h =>
      simp only [List.length_cons] at h
      rw [List.cons_append, List.cons_append, List.cons_append, List.cons_append, halves, halves,
        ih (by omega)]
      rfl

/-! ## Half words and words of a stream -/

section Receive

variable {rest : Rx → Int → Stream → Prop} {r : Rx} {bit : Int} {tail : Option (BitVec 4)}
  {syms more : List (BitVec 5)} {s : Stream}

theorem decodeShort_symbols (hL : L.Reads rest) {s0 s1 s2 s3 : BitVec 5}
    (h : rest r bit ⟨s0 :: s1 :: s2 :: s3 :: syms, tail⟩) :
    ∃ bit' r', decodeShort L r bit = (bit', halfOf s0 s1 s2 s3, r') ∧ 0 < bit' ∧
      rest r' bit' ⟨syms, tail⟩ := by
  obtain ⟨bit', r', hdequeue, hpos, hrest⟩ := hL.symbols h
  refine ⟨bit', r', ?_, hpos, hrest⟩
  have hpacked := packed_four s0 s1 s2 s3
  have h0 := s0.isLt
  have h1 := s1.isLt
  have h2 := s2.isLt
  have h3 := s3.isLt
  have hfield : ∀ (x : BitVec 5) k, (packed [s0, s1, s2, s3]).toNat / 2 ^ k % 32 = x.toNat →
      (dec4b5b.getD ((packed [s0, s1, s2, s3] >>> k) &&& 0x1f).toNat 0).setWidth 16 =
        decSymbol x := by
    intro x k hx
    rw [toNat_field, hx, decSymbol]
  unfold decodeShort
  rw [hdequeue]
  simp only
  rw [hfield s0 0 (by rw [hpacked]; omega), hfield s1 5 (by rw [hpacked]; omega),
    hfield s2 10 (by rw [hpacked]; omega), hfield s3 15 (by rw [hpacked]; omega), halfOf]

theorem decodeShort_short (hL : L.Reads rest) (h : rest r bit s) (hlen : s.syms.length < 4) :
    (decodeShort L r bit).1 < 0 :=
  hL.short h hlen

theorem wordHalves_append (low high : BitVec 16) :
    wordHalves (high ++ low) = [low, high] := by
  have hlow := low.isLt
  have hhigh := high.isLt
  have happend : (high ++ low : BitVec 32).toNat = high.toNat * 2 ^ 16 + low.toNat := by
    rw [BitVec.toNat_append, ← Nat.shiftLeft_add_eq_or_of_lt low.isLt, Nat.shiftLeft_eq]
  have hmask : (0xFFFF : BitVec 32).toNat = 2 ^ 16 - 1 := rfl
  have hhalf : ∀ k, ((((high ++ low : BitVec 32) >>> k) &&& 0xFFFF).setWidth 16).toNat =
      (high.toNat * 2 ^ 16 + low.toNat) / 2 ^ k % 65536 := by
    intro k
    rw [BitVec.toNat_setWidth, BitVec.toNat_and, BitVec.toNat_ushiftRight, happend,
      Nat.shiftRight_eq_div_pow, hmask, Nat.and_two_pow_sub_one_eq_mod, Nat.mod_mod]
  have h0 : (((high ++ low : BitVec 32) >>> 0) &&& 0xFFFF).setWidth 16 = low :=
    BitVec.eq_of_toNat_eq (by rw [hhalf]; omega)
  have h16 : (((high ++ low : BitVec 32) >>> 16) &&& 0xFFFF).setWidth 16 = high :=
    BitVec.eq_of_toNat_eq (by rw [hhalf]; omega)
  rw [wordHalves, h0, h16]

theorem decodeWord_symbols (hL : L.Reads rest) (hlen : syms.length = 8)
    (h : rest r bit ⟨syms ++ more, tail⟩) :
    ∃ bit' val r', decodeWord L r bit = (bit', val, r') ∧ halves syms = wordHalves val ∧ 0 < bit' ∧
      rest r' bit' ⟨more, tail⟩ := by
  match syms, hlen with
  | [s0, s1, s2, s3, s4, s5, s6, s7], _ =>
    obtain ⟨bit1, r1, hlow, _, hrest1⟩ := decodeShort_symbols hL h
    obtain ⟨bit2, r2, hhigh, hpos, hrest2⟩ := decodeShort_symbols hL hrest1
    refine ⟨bit2, halfOf s4 s5 s6 s7 ++ halfOf s0 s1 s2 s3, r2, ?_, ?_, hpos, hrest2⟩
    · unfold decodeWord
      rw [hlow]
      simp only
      rw [hhigh]
    · rw [wordHalves_append]
      rfl

theorem decodeWord_end {bit1 : Int} {low : BitVec 16} {r1 : Rx}
    (h : decodeShort L r bit = (bit1, low, r1)) :
    (decodeWord L r bit).1 = (decodeShort L r1 bit1).1 := by
  simp only [decodeWord, h]

/-- Without its second half a word is an error; without its first half too, if the read that follows
fails. -/
theorem decodeWord_short (hL : L.Reads rest) (h : rest r bit s) (hlen : s.syms.length < 8)
    (hcut : s.syms.length < 4 → L.FailsBefore) : (decodeWord L r bit).1 < 0 := by
  by_cases hfour : s.syms.length < 4
  · exact hcut hfour _ _ _ (decodeShort_short hL h hfour)
  · obtain ⟨syms, tail⟩ := s
    obtain ⟨s0, s1, s2, s3, syms, rfl⟩ := exists_four (Nat.not_lt.mp hfour)
    obtain ⟨bit1, r1, hlow, _, hrest1⟩ := decodeShort_symbols hL h
    rw [decodeWord_end hlow]
    refine decodeShort_short hL hrest1 ?_
    simp only [List.length_cons] at hlen ⊢
    omega

/-! ## The objects -/

theorem readPayload_stopped {left p : Nat} {c : γ} {payload : Nat → BitVec 32} (hbit : bit < 0) :
    (readPayload L crc left p bit c payload r).1 < 0 := by
  cases left with
  | zero => exact hbit
  | succ left =>
    rw [readPayload, if_neg (Int.not_lt.mpr (Int.le_of_lt hbit))]
    exact hbit

theorem readPayload_short (hL : L.Reads rest) {left p : Nat} {c : γ} {payload : Nat → BitVec 32}
    (h : rest r bit s) (hbit : 0 < bit) (hlen : s.syms.length < 8 * left)
    (hcut : s.syms.length % 8 < 4 → L.FailsBefore) :
    (readPayload L crc left p bit c payload r).1 < 0 := by
  induction left generalizing p bit c payload r s with
  | zero => exact absurd hlen (Nat.not_lt_zero _)
  | succ left ih =>
    rw [readPayload, if_pos hbit]
    -- the stream ends in this object, or in a later one
    by_cases hword : s.syms.length < 8
    · refine readPayload_stopped (decodeWord_short hL h hword fun hfour => hcut ?_)
      rwa [Nat.mod_eq_of_lt hword]
    · obtain ⟨syms, tail⟩ := s
      rw [← List.take_append_drop 8 syms] at h
      simp only at hword hlen hcut
      obtain ⟨bit1, val, r1, hdecode, -, hpos, hrest⟩ :=
        decodeWord_symbols hL (List.length_take_of_le (Nat.not_lt.mp hword)) h
      rw [hdecode]
      refine ih hrest hpos ?_ fun hfour => hcut ?_
      · simp only [List.length_drop]
        omega
      · simp only [List.length_drop] at hfour
        omega

theorem readPayload_symbols (hL : L.Reads rest) {left : Nat} (p : Nat) (c : γ)
    (payload : Nat → BitVec 32) (hlen : syms.length = 8 * left)
    (h : rest r bit ⟨syms ++ more, tail⟩) (hbit : 0 < bit) :
    ∃ bit' payload' r', readPayload L crc left p bit c payload r =
        (bit', hashed crc payload' c (List.range' p left), payload', r') ∧
      halves syms = dataHalves payload' (List.range' p left) ∧
      (∀ i, i < p → payload' i = payload i) ∧ 0 < bit' ∧ rest r' bit' ⟨more, tail⟩ := by
  induction left generalizing p bit c payload r syms with
  | zero =>
    rw [List.length_eq_zero_iff.mp hlen] at h ⊢
    exact ⟨bit, payload, r, rfl, rfl, fun _ _ => rfl, hbit, h⟩
  | succ left ih =>
    have hfirst : (syms.take 8).length = 8 := List.length_take_of_le (by omega)
    rw [← List.take_append_drop 8 syms, List.append_assoc] at h
    obtain ⟨bit1, val, r1, hdecode, hval, hpos1, hrest1⟩ := decodeWord_symbols hL hfirst h
    have hdrop : (syms.drop 8).length = 8 * left := by
      rw [List.length_drop]
      omega
    obtain ⟨bit2, payload', r2, hread, hhalves, hkeep, hpos2, hrest2⟩ :=
      @ih r1 bit1 (syms.drop 8) (p + 1) (crc.crc32Hash32 c val) (Function.update payload p val)
        hdrop hrest1 hpos1
    -- the later objects are stored behind this one
    have hp : payload' p = val := by
      rw [hkeep p (Nat.lt_succ_self p), Function.update_self]
    refine ⟨bit2, payload', r2, ?_, ?_, ?_, hpos2, hrest2⟩
    · rw [readPayload, if_pos hbit, hdecode, List.range'_succ]
      simp only
      rw [hread, hashed, hashed, List.foldl_cons, hp]
    · have hsplit : halves syms = halves (syms.take 8) ++ halves (syms.drop 8) := by
        rw [← halves_append (n := 2) hfirst, List.take_append_drop]
      rw [hsplit, hval, hhalves, List.range'_succ, dataHalves, dataHalves, List.flatMap_cons, hp]
    · intro i hi
      rw [hkeep i (Nat.lt_succ_of_lt hi), Function.update_of_ne (Nat.ne_of_lt hi)]

/-! ## The CRC and the end -/

def eopBits : BitVec 4 :=
  pdEop.setWidth 4

/-- What is returned for a right CRC: the header, or an offset if other bits than those of the end
follow -/
def Answers (head ret : Int) (e : BitVec 4) : Prop :=
  if e = eopBits then ret = head else 0 < ret

theorem setWidth_eq_eop : ∀ e : BitVec 4, e.setWidth 32 = pdEop.setWidth 32 ↔ e = eopBits := by
  decide

theorem checkTrailer_short (hL : L.Reads rest) {head ccrc : BitVec 32} (h : rest r bit s)
    (hlen : s.syms.length < 8) (hcut : s.syms.length < 4 → L.FailsBefore) :
    checkTrailer L head ccrc bit r < 0 := by
  have hneg := decodeWord_short hL h hlen hcut
  unfold checkTrailer
  generalize decodeWord L r bit = d at hneg
  obtain ⟨bit', pcrc, r'⟩ := d
  simp only at hneg ⊢
  rw [if_pos (.inl hneg)]
  -- both ways to fail are errors, so the value of the CRC that was read does not matter
  by_cases hcrc : pcrc ≠ ccrc
  · rw [if_pos hcrc]
    decide
  · rw [if_neg hcrc]
    exact hneg

theorem checkTrailer_symbols (hL : L.Reads rest) (head ccrc : BitVec 32) (hlen : syms.length = 8)
    (h : rest r bit ⟨syms ++ more, tail⟩) :
    ∃ val, halves syms = wordHalves val ∧
      (val ≠ ccrc ∨ (Stream.mk more tail).nextFour = none →
        checkTrailer L head ccrc bit r < 0) ∧
      ∀ e, val = ccrc → (Stream.mk more tail).nextFour = some e →
        Answers head.toInt (checkTrailer L head ccrc bit r) e := by
  obtain ⟨bit1, val, r1, hdecode, hval, hpos, hrest⟩ := decodeWord_symbols hL hlen h
  refine ⟨val, hval, ?_, ?_⟩
  · intro hbad
    unfold checkTrailer
    rw [hdecode]
    dsimp only
    by_cases hcrc : val = ccrc
    · have hpass : ¬ (bit1 < 0 ∨ val ≠ ccrc) := by
        rintro (hneg | hne)
        · omega
        · exact hne hcrc
      -- with a right CRC only the end is missing
      have hnone := hL.noBits hrest (hbad.resolve_left (not_not_intro hcrc))
      rw [if_neg hpass, if_pos (.inl hnone)]
      exact hnone
    · rw [if_pos (.inr hcrc), if_pos hcrc]
      decide
  · rintro e rfl hfour
    obtain ⟨bit2, r2, hbits, hpos2⟩ := hL.lastBits hrest hfour
    have hpass : ¬ (bit1 < 0 ∨ val ≠ val) := by
      rintro (hneg | hne)
      · omega
      · exact hne rfl
    have hcheck : checkTrailer L head val bit r =
        if bit2 < 0 ∨ e.setWidth 32 ≠ pdEop.setWidth 32 then bit2 else head.toInt := by
      unfold checkTrailer
      rw [hdecode]
      refine (if_neg hpass).trans ?_
      show (if (L.pdDequeueBits r1 bit1 4).1 < 0 ∨ (L.pdDequeueBits r1 bit1 4).2.1 ≠ _ then
        (L.pdDequeueBits r1 bit1 4).1 else _) = _
      rw [hbits]
    rw [hcheck, Answers]
    by_cases he : e = eopBits
    · have hend : ¬ (bit2 < 0 ∨ e.setWidth 32 ≠ pdEop.setWidth 32) := by
        rintro (hneg | hne)
        · omega
        · exact hne ((setWidth_eq_eop e).mpr he)
      rw [if_pos he, if_neg hend]
    · rw [if_neg he, if_pos (.inr fun heq => he ((setWidth_eq_eop e).mp heq))]
      exact hpos2

/-! ## Messages in a stream -/

/-- Behind the start, the symbols `body` have the values of a message, and the bits `e` follow. -/
structure Spells (crc : Crc γ) (s : Stream) (body : List (BitVec 5)) (header : BitVec 16)
    (data : Nat → BitVec 32) (e : BitVec 4) : Prop where
  length : body.length = 4 * (messageHalves crc header data).length
  values : halves body = messageHalves crc header data
  symbols : ∃ more, s.syms = body ++ more ∧ (Stream.mk more s.tail).nextFour = some e

variable {body body' : List (BitVec 5)} {header header' : BitVec 16}
  {data data' payload : Nat → BitVec 32} {e e' : BitVec 4}

theorem Spells.head (h : Spells crc s body header data e) :
    (halves s.syms).head? = some header := by
  obtain ⟨more, hsyms, -⟩ := h.symbols
  rw [hsyms, halves_append h.length, h.values]
  rfl

theorem Spells.le (h : Spells crc s body header data e) :
    4 * (2 * pdHeaderCnt header.toNat + 3) ≤ s.syms.length := by
  obtain ⟨more, hsyms, -⟩ := h.symbols
  have hlen := h.length
  rw [length_messageHalves] at hlen
  rw [hsyms, List.length_append, hlen]
  exact Nat.le_add_right _ _

theorem Spells.unique (h : Spells crc s body header data e)
    (h' : Spells crc s body' header' data' e') :
    body = body' ∧ messageHalves crc header data = messageHalves crc header' data' ∧ e = e' := by
  have hheader : header = header' := Option.some.inj (h.head.symm.trans h'.head)
  obtain ⟨more, hsyms, hfour⟩ := h.symbols
  obtain ⟨more', hsyms', hfour'⟩ := h'.symbols
  have hlen : body.length = body'.length := by
    rw [h.length, h'.length, length_messageHalves, length_messageHalves, hheader]
  obtain ⟨hbody, hmore⟩ := List.append_inj (hsyms.symm.trans hsyms') hlen
  refine ⟨hbody, ?_, ?_⟩
  · rw [← h.values, ← h'.values, hbody]
  · rw [hmore] at hfour
    exact Option.some.inj (hfour.symm.trans hfour')

theorem wordHalves_injective {v v' : BitVec 32} (h : wordHalves v = wordHalves v') : v = v' := by
  simp only [wordHalves, List.cons.injEq, and_true] at h
  rw [← halves_eq v, ← halves_eq v', h.1, h.2]

theorem hashed_congr {c : γ} {is : List Nat} (h : dataHalves data is = dataHalves data' is) :
    hashed crc data c is = hashed crc data' c is := by
  induction is generalizing c with
  | nil => rfl
  | cons i is ih =>
    rw [dataHalves, dataHalves, List.flatMap_cons, List.flatMap_cons] at h
    obtain ⟨hword, hrest⟩ := List.append_inj h rfl
    rw [hashed, hashed, List.foldl_cons, List.foldl_cons, wordHalves_injective hword]
    exact ih hrest

/-! ## Behind the start -/

/-- The stream ends where a word of the message begins, before the first half of it is whole. -/
def Stream.CutOff (s : Stream) : Prop :=
  ∃ header, (halves s.syms).head? = some header ∧
    s.syms.length < 8 * (pdHeaderCnt header.toNat + 1) + 4 ∧ 4 ≤ s.syms.length % 8

/-- What `pd_analyze_rx` does behind the start: an error for a stream that spells no message, and
the answer for the message that it spells -/
def Analyzed (crc : Crc γ) (s : Stream) (address : Nat) (out : Int × (Nat → BitVec 32) × Bool) :
    Prop :=
  (out.1 < 0 ∧ ∀ body header data e, ¬ Spells crc s body header data e) ∨
    ∃ body header e, Spells crc s body header out.2.1 e ∧
      Answers (header.setWidth 32 ||| BitVec.ofNat 32 address : BitVec 32).toInt out.1 e

theorem analyzeMessage_unlocks {val : BitVec 32} {address : Nat}
    (haddress : addressOf cfg val = some address) :
    (analyzeMessage L crc cfg val bit r payload).2.2 = false := by
  unfold analyzeMessage
  dsimp only
  rw [haddress]
  dsimp only
  split_ifs
  · rfl
  · rfl

theorem analyzeMessage_of_read {val : BitVec 32} {address : Nat} {bit1 bit2 : Int} {r1 r2 : Rx}
    {c : γ} {payload' : Nat → BitVec 32} (haddress : addressOf cfg val = some address)
    (hshort : decodeShort L r bit = (bit1, header, r1))
    (hread : readPayload L crc (pdHeaderCnt header.toNat) 0 bit1
      (crc.crc32Hash16 crc.crc32Init header) payload r1 = (bit2, c, payload', r2)) :
    analyzeMessage L crc cfg val bit r payload =
      if bit2 < 0 then (bit2, payload', false)
      else (checkTrailer L (header.setWidth 32 ||| BitVec.ofNat 32 address) (crc.crc32Result c)
        bit2 r2, payload', false) := by
  unfold analyzeMessage
  rw [hshort]
  dsimp only
  rw [haddress]
  dsimp only
  rw [hread]

theorem analyzeMessage_short {val : BitVec 32} {address : Nat} {bit1 : Int} {r1 : Rx}
    (haddress : addressOf cfg val = some address) (hshort : decodeShort L r bit = (bit1, header, r1))
    (hread : (readPayload L crc (pdHeaderCnt header.toNat) 0 bit1
      (crc.crc32Hash16 crc.crc32Init header) payload r1).1 < 0)
    (hnone : ∀ body header data e, ¬ Spells crc s body header data e) :
    Analyzed crc s address (analyzeMessage L crc cfg val bit r payload) := by
  generalize hout : readPayload L crc (pdHeaderCnt header.toNat) 0 bit1
    (crc.crc32Hash16 crc.crc32Init header) payload r1 = out at hread
  obtain ⟨bit2, c, payload', r2⟩ := out
  rw [analyzeMessage_of_read haddress hshort hout, if_pos hread]
  exact .inl ⟨hread, hnone⟩

theorem messageCrc_eq (payload : Nat → BitVec 32) :
    messageCrc crc header payload (pdHeaderCnt header.toNat) = crc.crc32Result
      (hashed crc payload (crc.crc32Hash16 crc.crc32Init header)
        (List.range' 0 (pdHeaderCnt header.toNat))) := rfl

theorem values_of_parts (crc : Crc γ) {hs ds cs : List (BitVec 5)} {val : BitVec 32}
    (hhs : hs.length = 4 ∧ halves hs = [header])
    (hds : ds.length = 8 * pdHeaderCnt header.toNat ∧
      halves ds = dataHalves payload (List.range' 0 (pdHeaderCnt header.toNat)))
    (hcs : cs.length = 8 ∧ halves cs = wordHalves val) :
    (hs ++ (ds ++ cs)).length = 4 * (messageHalves crc header payload).length ∧
      halves (hs ++ (ds ++ cs)) = header :: (dataHalves payload
        (List.range' 0 (pdHeaderCnt header.toNat)) ++ wordHalves val) := by
  constructor
  · simp only [List.length_append, hhs.1, hds.1, hcs.1, length_messageHalves]
    omega
  · have hlen : ds.length = 4 * (2 * pdHeaderCnt header.toNat) := by
      rw [hds.1]
      omega
    rw [halves_append (n := 1) hhs.1, halves_append hlen, hhs.2, hds.2, hcs.2]
    rfl

theorem analyzed_of_trailer (hL : L.Reads rest) {hs ds : List (BitVec 5)} {address : Nat}
    (hhs : hs.length = 4 ∧ halves hs = [header])
    (hds : ds.length = 8 * pdHeaderCnt header.toNat ∧
      halves ds = dataHalves payload (List.range' 0 (pdHeaderCnt header.toNat)))
    (hsyms : s.syms = hs ++ (ds ++ syms)) (h : rest r bit ⟨syms, s.tail⟩)
    (hcut : s.CutOff → L.FailsBefore) :
    Analyzed crc s address
      (checkTrailer L (header.setWidth 32 ||| BitVec.ofNat 32 address)
        (messageCrc crc header payload (pdHeaderCnt header.toNat)) bit r, payload, false) := by
  have hfirst : (halves s.syms).head? = some header := by
    rw [hsyms, halves_append (n := 1) hhs.1, hhs.2]
    rfl
  have hhead : ∀ {body header' data e}, Spells crc s body header' data e → header' = header :=
    fun hspells => Option.some.inj (hspells.head.symm.trans hfirst)
  have hlength : s.syms.length = 4 + 8 * pdHeaderCnt header.toNat + syms.length := by
    rw [hsyms, List.length_append, List.length_append, hhs.1, hds.1, Nat.add_assoc]
  -- the CRC is cut off, and a message with this header would be longer
  by_cases hshort : syms.length < 8
  · have hfour : syms.length < 4 → L.FailsBefore := by
      intro hlt
      exact hcut ⟨header, hfirst, by omega, by omega⟩
    refine .inl ⟨checkTrailer_short hL h hshort hfour, fun body header' data e hspells => ?_⟩
    have hle := hspells.le
    rw [hhead hspells, hlength] at hle
    omega
  have hcs : (syms.take 8).length = 8 := List.length_take_of_le (Nat.not_lt.mp hshort)
  rw [← List.take_append_drop 8 syms] at h
  obtain ⟨val, hval, hbad, hgood⟩ :=
    checkTrailer_symbols hL (header.setWidth 32 ||| BitVec.ofNat 32 address)
      (messageCrc crc header payload (pdHeaderCnt header.toNat)) hcs h
  obtain ⟨hlen, hvalues⟩ := values_of_parts crc hhs hds ⟨hcs, hval⟩
  have hall : s.syms = (hs ++ (ds ++ syms.take 8)) ++ syms.drop 8 := by
    rw [hsyms, List.append_assoc, List.append_assoc, List.take_append_drop]
  -- the CRC is wrong, or there are no bits behind it: no symbols of a message can be there
  by_cases hfail : val ≠ messageCrc crc header payload (pdHeaderCnt header.toNat) ∨
      (Stream.mk (syms.drop 8) s.tail).nextFour = none
  · refine .inl ⟨hbad hfail, fun body header' data e hspells => ?_⟩
    obtain rfl := hhead hspells
    obtain ⟨more, hmore, hfour⟩ := hspells.symbols
    have hsame : body.length = (hs ++ (ds ++ syms.take 8)).length := by
      rw [hspells.length, hlen, length_messageHalves, length_messageHalves]
    obtain ⟨rfl, rfl⟩ := List.append_inj (hmore.symm.trans hall) hsame
    -- symbols with the values of a message would have its CRC
    have hmessage := hspells.values.symm.trans hvalues
    simp only [messageHalves, List.cons.injEq, true_and] at hmessage
    obtain ⟨hdata, hword⟩ := List.append_inj hmessage
      (by rw [length_dataHalves, length_dataHalves])
    rcases hfail with hcrc | hnone
    · refine hcrc ?_
      rw [← wordHalves_injective hword, messageCrc_eq, messageCrc_eq, hashed_congr hdata]
    · rw [hnone] at hfour
      cases hfour
  · obtain ⟨hcrc, hfour⟩ := not_or.mp hfail
    obtain ⟨e, he⟩ := Option.ne_none_iff_exists'.mp hfour
    refine .inr ⟨_, header, e, ⟨hlen, ?_, _, hall, he⟩, hgood e (not_not.mp hcrc) he⟩
    rw [hvalues, not_not.mp hcrc, messageHalves]

theorem analyzeMessage_spec (hL : L.Reads rest) {val : BitVec 32} {address : Nat}
    (h : rest r bit s) (haddress : addressOf cfg val = some address)
    (hcut : s.CutOff → L.FailsBefore) :
    Analyzed crc s address (analyzeMessage L crc cfg val bit r payload) := by
  by_cases hfour : s.syms.length < 4
  · -- no header
    have hneg := decodeShort_short hL h hfour
    generalize hshort : decodeShort L r bit = out at hneg
    obtain ⟨bit1, header, r1⟩ := out
    refine analyzeMessage_short haddress hshort (readPayload_stopped hneg) ?_
    intro body header' data e hspells
    have hle := hspells.le
    omega
  obtain ⟨syms, tail⟩ := s
  obtain ⟨s0, s1, s2, s3, syms, rfl⟩ := exists_four (Nat.not_lt.mp hfour)
  obtain ⟨bit1, r1, hshort, hpos1, hrest1⟩ := decodeShort_symbols hL h
  by_cases hobjects : syms.length < 8 * pdHeaderCnt (halfOf s0 s1 s2 s3).toNat
  · -- not enough objects
    have hwords : syms.length % 8 < 4 → L.FailsBefore := by
      intro hlt
      refine hcut ⟨halfOf s0 s1 s2 s3, rfl, ?_⟩
      simp only [List.length_cons]
      omega
    refine analyzeMessage_short haddress hshort
      (readPayload_short hL hrest1 hpos1 hobjects hwords) ?_
    intro body header' data e hspells
    have hle := hspells.le
    have hheader : header' = halfOf s0 s1 s2 s3 := (Option.some.inj hspells.head).symm
    rw [hheader] at hle
    simp only [List.length_cons] at hle
    omega
  have hds : (syms.take (8 * pdHeaderCnt (halfOf s0 s1 s2 s3).toNat)).length =
      8 * pdHeaderCnt (halfOf s0 s1 s2 s3).toNat := List.length_take_of_le (Nat.not_lt.mp hobjects)
  have hsplit := List.take_append_drop (8 * pdHeaderCnt (halfOf s0 s1 s2 s3).toNat) syms
  rw [← hsplit] at hrest1
  obtain ⟨bit2, payload', r2, hread, hdata, -, hpos2, hrest2⟩ :=
    readPayload_symbols hL 0 (crc.crc32Hash16 crc.crc32Init (halfOf s0 s1 s2 s3)) payload hds
      hrest1 hpos1
  rw [analyzeMessage_of_read haddress hshort hread, if_neg (by omega)]
  have hhs : [s0, s1, s2, s3].length = 4 ∧
      halves [s0, s1, s2, s3] = [halfOf s0 s1 s2 s3] := ⟨rfl, rfl⟩
  refine analyzed_of_trailer hL hhs ⟨hds, hdata⟩ ?_ hrest2 hcut
  rw [hsplit]
  rfl

/-! ## The start -/

/-- Where the search for a start ends in symbols: the value that is found, and the symbols behind it;
nothing if it finds a start that is not supported, or none -/
def seekStart (cfg : Config) : List (BitVec 5) → Option (BitVec 32 × List (BitVec 5))
  | s0 :: s1 :: s2 :: s3 :: syms =>
    match startOf cfg (packed [s0, s1, s2, s3]) with
    | .found => some (packed [s0, s1, s2, s3], syms)
    | .unsupported => none
    | .other => seekStart cfg syms
  | _ => none

theorem findStart_symbols (hL : L.Reads rest) (cfg : Config) (fuel : Nat) (val0 : BitVec 32)
    {s0 s1 s2 s3 : BitVec 5} (h : rest r bit ⟨s0 :: s1 :: s2 :: s3 :: syms, tail⟩)
    (hbit : 0 < bit) :
    ∃ bit' r', 0 < bit' ∧ rest r' bit' ⟨syms, tail⟩ ∧
      findStart L cfg (fuel + 1) bit val0 r =
        match startOf cfg (packed [s0, s1, s2, s3]) with
        | .found => some (.ok (bit', packed [s0, s1, s2, s3], r'))
        | .unsupported => some (.error pdRxErrUnsupportedSop)
        | .other => findStart L cfg fuel bit' (packed [s0, s1, s2, s3]) r' := by
  obtain ⟨bit', r', hdequeue, hpos, hrest⟩ := hL.symbols h
  refine ⟨bit', r', hpos, hrest, ?_⟩
  cases hstart : startOf cfg (packed [s0, s1, s2, s3]) with
  | found => simp only [findStart, if_pos hbit, hdequeue, hstart]
  | unsupported => simp only [findStart, if_pos hbit, hdequeue, hstart]
  | other => simp only [findStart, if_pos hbit, hdequeue, hstart]

theorem findStart_found (hL : L.Reads rest) {fuel : Nat} (val0 : BitVec 32) {val : BitVec 32}
    (h : rest r bit ⟨syms, tail⟩) (hbit : 0 < bit) (hfuel : syms.length < fuel)
    (hseek : seekStart cfg syms = some (val, more)) :
    ∃ bit' r', findStart L cfg fuel bit val0 r = some (.ok (bit', val, r')) ∧ 0 < bit' ∧
      rest r' bit' ⟨more, tail⟩ ∧ startOf cfg val = .found := by
  obtain ⟨fuel, rfl⟩ : ∃ n, fuel = n + 1 := Nat.exists_eq_succ_of_ne_zero (by omega)
  -- the search goes on four symbols at a time, and takes one unit of fuel for each
  induction syms using seekStart.induct cfg generalizing fuel bit r val0 with
  | case1 s0 s1 s2 s3 syms hstart =>
    obtain ⟨bit', r', hpos, hrest, hfind⟩ := findStart_symbols hL cfg fuel val0 h hbit
    simp only [seekStart, hstart, Option.some.injEq, Prod.mk.injEq] at hseek hfind
    obtain ⟨rfl, rfl⟩ := hseek
    exact ⟨bit', r', hfind, hpos, hrest, hstart⟩
  | case2 s0 s1 s2 s3 syms hstart => simp only [seekStart, hstart, reduceCtorEq] at hseek
  | case3 s0 s1 s2 s3 syms hstart ih =>
    simp only [List.length_cons] at hfuel
    obtain ⟨fuel, rfl⟩ : ∃ n, fuel = n + 1 := Nat.exists_eq_succ_of_ne_zero (by omega)
    obtain ⟨bit', r', hpos, hrest, hfind⟩ := findStart_symbols hL cfg (fuel + 1) val0 h hbit
    simp only [seekStart, hstart] at hseek hfind
    rw [hfind]
    exact ih _ hrest hpos hseek fuel (by omega)
  | case4 syms hshort => simp only [seekStart, reduceCtorEq] at hseek

def SearchFails : Except Int (Int × BitVec 32 × Rx) → Prop
  | .error ret => ret < 0
  | .ok (bit, _, _) => bit < 0

theorem findStart_fails (hL : L.Reads rest) {fuel : Nat} (val0 : BitVec 32)
    (h : rest r bit ⟨syms, tail⟩) (hbit : 0 < bit) (hfuel : syms.length + 1 < fuel)
    (hseek : seekStart cfg syms = none) :
    ∃ found, findStart L cfg fuel bit val0 r = some found ∧ SearchFails found := by
  obtain ⟨fuel, rfl⟩ : ∃ n, fuel = n + 2 := Nat.exists_eq_add_of_le' (by omega)
  induction syms using seekStart.induct cfg generalizing fuel bit r val0 with
  | case1 s0 s1 s2 s3 syms hstart => simp only [seekStart, hstart, reduceCtorEq] at hseek
  | case2 s0 s1 s2 s3 syms hstart =>
    obtain ⟨bit', r', hpos, hrest, hfind⟩ := findStart_symbols hL cfg (fuel + 1) val0 h hbit
    simp only [hstart] at hfind
    exact ⟨.error pdRxErrUnsupportedSop, hfind, show pdRxErrUnsupportedSop < 0 by decide⟩
  | case3 s0 s1 s2 s3 syms hstart ih =>
    simp only [List.length_cons] at hfuel
    obtain ⟨fuel, rfl⟩ : ∃ n, fuel = n + 1 := Nat.exists_eq_succ_of_ne_zero (by omega)
    obtain ⟨bit', r', hpos, hrest, hfind⟩ := findStart_symbols hL cfg (fuel + 2) val0 h hbit
    simp only [seekStart, hstart] at hseek hfind
    rw [hfind]
    exact ih _ hrest hpos hseek fuel (by omega)
  | case4 syms hshort =>
    have hfour : syms.length < 4 := by
      by_contra hge
      obtain ⟨s0, s1, s2, s3, l, rfl⟩ := exists_four (Nat.not_lt.mp hge)
      exact hshort s0 s1 s2 s3 l rfl
    have hneg := hL.short h hfour
    rw [findStart, if_pos hbit]
    generalize L.pdDequeueBits r bit 20 = out at hneg
    obtain ⟨bit', val, r'⟩ := out
    -- the value is whatever the layer left
    cases hstart : startOf cfg val with
    | found =>
      refine ⟨.ok (bit', val, r'), ?_, hneg⟩
      simp only [hstart]
    | unsupported =>
      refine ⟨.error pdRxErrUnsupportedSop, ?_, show pdRxErrUnsupportedSop < 0 by decide⟩
      simp only [hstart]
    | other =>
      refine ⟨.ok (bit', val, r'), ?_, hneg⟩
      simp only [hstart]
      rw [findStart, if_neg (Int.not_lt.mpr (Int.le_of_lt hneg))]

theorem addressOf_of_found {val : BitVec 32} (h : startOf cfg val = .found) :
    ∃ k < 8, addressOf cfg val = some (k <<< 28) := by
  -- a build that does not decode the start adds no address
  by_cases hdecode : cfg.decodeSop
  · have hval : val = pdSop ∨ val = pdSopPrime ∨ val = pdSopPrimePrime := by
      unfold startOf at h
      split_ifs at h with _ hprime _ hany
      · exact .inr (.inl hprime)
      · exact hany
    unfold addressOf
    rw [if_pos hdecode]
    rcases hval with rfl | rfl | rfl
    · exact ⟨0, by decide, rfl⟩
    · exact ⟨1, by decide, rfl⟩
    · exact ⟨2, by decide, rfl⟩
  · exact ⟨0, by decide, if_neg hdecode⟩

/-! ## Accepted messages -/

/-- What a receiver may accept: behind the start come the symbols that `prepare_message` writes for
the header and the objects, and the end; the header is returned, with the address of the start. -/
def Genuine (crc : Crc γ) (cfg : Config) (s : Stream) (ret : Int) (payload : Nat → BitVec 32) :
    Prop :=
  ∃ val header address more,
    seekStart cfg s.syms = some (val, symbolsOf (messageHalves crc header payload) ++ more) ∧
      (Stream.mk more s.tail).nextFour = some eopBits ∧
      addressOf cfg val = some address ∧ ret = Int.ofNat (header.toNat + address)

/-- Behind the start, symbols that are not those of a message have its values, or other bits follow
than those of the end. -/
def Collides (crc : Crc γ) (cfg : Config) (s : Stream) : Prop :=
  ∃ val more body header data e, seekStart cfg s.syms = some (val, more) ∧
    Spells crc ⟨more, s.tail⟩ body header data e ∧
    ¬ (body = symbolsOf (messageHalves crc header data) ∧ e = eopBits)

def CutBehind (cfg : Config) (s : Stream) : Prop :=
  ∃ val more, seekStart cfg s.syms = some (val, more) ∧ (Stream.mk more s.tail).CutOff

theorem spells_symbolsOf (h : (Stream.mk more tail).nextFour = some e) :
    Spells crc ⟨symbolsOf (messageHalves crc header data) ++ more, tail⟩
      (symbolsOf (messageHalves crc header data)) header data e where
  length := length_symbolsOf _
  values := halves_symbolsOf _
  symbols := ⟨more, rfl, h⟩

theorem Genuine.eq_of_spells {val : BitVec 32} {ret : Int} (h : Genuine crc cfg s ret payload)
    (hseek : seekStart cfg s.syms = some (val, more))
    (hspells : Spells crc ⟨more, s.tail⟩ body header data e) :
    body = symbolsOf (messageHalves crc header data) ∧ e = eopBits := by
  obtain ⟨_, header', _, more', hseek', hend, -, -⟩ := h
  obtain ⟨-, rfl⟩ := Prod.mk.inj (Option.some.inj (hseek.symm.trans hseek'))
  obtain ⟨hbody, hhalves, he⟩ := hspells.unique (spells_symbolsOf hend)
  exact ⟨hbody.trans (congrArg symbolsOf hhalves.symm), he⟩

theorem Analyzed.genuine_iff {val : BitVec 32} {k : Nat} {out : Int × (Nat → BitVec 32) × Bool}
    (h : Analyzed crc ⟨more, s.tail⟩ (k <<< 28) out) (hk : k < 8)
    (hseek : seekStart cfg s.syms = some (val, more))
    (haddress : addressOf cfg val = some (k <<< 28)) :
    (0 ≤ out.1 → Genuine crc cfg s out.1 out.2.1) ↔ ¬ Collides crc cfg s := by
  -- an error, with nothing behind the start that spells a message; or what is there spells one
  rcases h with ⟨hneg, hnone⟩ | ⟨body, header, e, hspells, hanswer⟩
  · constructor
    · rintro - ⟨val', more', body, header, data, e, hseek', hspells, -⟩
      obtain ⟨-, rfl⟩ := Prod.mk.inj (Option.some.inj (hseek.symm.trans hseek'))
      exact hnone body header data e hspells
    · intro _ hok
      exact absurd hneg (Int.not_lt.mpr hok)
  · rw [toInt_header header hk] at hanswer
    constructor
    · rintro hgenuine ⟨val', more', body', header', data', e', hseek', hspells', hother⟩
      -- both answers to it are no errors: the header, and an offset
      have hok : 0 ≤ out.1 := by
        rw [Answers] at hanswer
        split_ifs at hanswer
        · exact hanswer ▸ Int.natCast_nonneg _
        · exact Int.le_of_lt hanswer
      exact hother ((hgenuine hok).eq_of_spells hseek' hspells')
    · intro hcollides _
      obtain ⟨hbody, he⟩ : body = symbolsOf (messageHalves crc header out.2.1) ∧ e = eopBits := by
        by_contra hother
        exact hcollides ⟨val, more, body, header, out.2.1, e, hseek, hspells, hother⟩
      obtain ⟨tail', hmore, hfour⟩ := hspells.symbols
      rw [Answers, if_pos he] at hanswer
      refine ⟨val, header, k <<< 28, tail', ?_, he ▸ hfour, haddress, hanswer⟩
      rw [hseek, ← hbody, ← hmore]

/-- What is received: the stream behind the preamble, or no preamble -/
def Received (L : BitLayer Tx Rx) (rest : Rx → Int → Stream → Prop) (r : Rx) :
    Option Stream → Prop
  | none => (L.pdFindPreamble (L.pdInitDequeue r)).1 < 0
  | some s => 0 < (L.pdFindPreamble (L.pdInitDequeue r)).1 ∧
      rest (L.pdFindPreamble (L.pdInitDequeue r)).2 (L.pdFindPreamble (L.pdInitDequeue r)).1 s

theorem pdAnalyzeRxLocked_stream {fuel : Nat} {found : Except Int (Int × BitVec 32 × Rx)}
    (hpos : 0 < (L.pdFindPreamble (L.pdInitDequeue r)).1)
    (hfind : findStart L cfg fuel (L.pdFindPreamble (L.pdInitDequeue r)).1 0
      (L.pdFindPreamble (L.pdInitDequeue r)).2 = some found) :
    pdAnalyzeRxLocked L crc cfg fuel r payload = (some found).map fun
      | .error ret => (ret, payload, false)
      | .ok (bit, val, r) =>
        if bit < 0 then (bit, payload, false) else analyzeMessage L crc cfg val bit r payload := by
  unfold pdAnalyzeRxLocked
  generalize L.pdFindPreamble (L.pdInitDequeue r) = start at hpos hfind
  obtain ⟨bit, r'⟩ := start
  simp only at hpos hfind ⊢
  have hreset : ¬ (bit = pdRxErrHardReset ∨ bit = pdRxErrCableReset) := by
    rintro (rfl | rfl)
    · exact absurd hpos (by decide)
    · exact absurd hpos (by decide)
  rw [if_neg hreset, if_neg (Int.not_lt.mpr (Int.le_of_lt hpos)), hfind]

/-- `pd_analyze_rx` ends with the lock free, and a header that it returns is that of a message in the
stream, exactly if the stream has no other symbols with the values of a message. -/
theorem pdAnalyzeRx_genuine_iff (hL : L.Reads rest) {received : Option Stream} {fuel : Nat}
    (hr : Received L rest r received) (hfuel : ∀ s ∈ received, s.syms.length + 1 < fuel) :
    ∃ ret payload', pdAnalyzeRxLocked L crc cfg fuel r payload = some (ret, payload', false) ∧
      ((∀ s ∈ received, CutBehind cfg s → L.FailsBefore) →
        ((0 ≤ ret → ∃ s ∈ received, Genuine crc cfg s ret payload') ↔
          ¬ ∃ s ∈ received, Collides crc cfg s)) := by
  cases received with
  | none =>
    have hneg : (L.pdFindPreamble (L.pdInitDequeue r)).1 < 0 := hr
    refine ⟨_, payload, ?_, fun _ => ⟨fun _ => ?_, fun _ hok => absurd hneg (Int.not_lt.mpr hok)⟩⟩
    · unfold pdAnalyzeRxLocked
      dsimp only
      rw [if_pos hneg, ite_self]
    · rintro ⟨s, hs, -⟩
      cases hs
  | some s =>
    obtain ⟨hpos, hrest⟩ := hr
    have hlen := hfuel s rfl
    have hthis : ∀ {p : Stream → Prop}, (∃ s' ∈ some s, p s') ↔ p s := by simp
    simp only [hthis]
    -- without a start there is an error; behind one, `analyzeMessage` decides
    cases hseek : seekStart cfg s.syms with
    | none =>
      obtain ⟨found, hfind, hfails⟩ := findStart_fails hL 0 hrest hpos hlen hseek
      have hnone : ¬ Collides crc cfg s := by
        rintro ⟨_, _, _, _, _, _, hsome, -⟩
        rw [hseek] at hsome
        cases hsome
      rw [pdAnalyzeRxLocked_stream hpos hfind]
      match found, hfails with
      | .error ret, hneg =>
        exact ⟨ret, payload, rfl, fun _ => ⟨fun _ => hnone, fun _ hok =>
          absurd hneg (Int.not_lt.mpr hok)⟩⟩
      | .ok (bit, val, r'), hneg =>
        exact ⟨bit, payload, congrArg some (if_pos hneg), fun _ => ⟨fun _ => hnone,
          fun _ hok => absurd hneg (Int.not_lt.mpr hok)⟩⟩
    | some found =>
      obtain ⟨val, more⟩ := found
      obtain ⟨bit, r', hfind, hbit, hmore, hstart⟩ :=
        findStart_found hL 0 hrest hpos (Nat.lt_of_succ_lt hlen) hseek
      obtain ⟨k, hk, haddress⟩ := addressOf_of_found hstart
      have hlock : (analyzeMessage L crc cfg val bit r' payload).2.2 = false :=
        analyzeMessage_unlocks haddress
      have hspec : ((Stream.mk more s.tail).CutOff → L.FailsBefore) →
          Analyzed crc ⟨more, s.tail⟩ (k <<< 28) (analyzeMessage L crc cfg val bit r' payload) :=
        analyzeMessage_spec hL hmore haddress
      generalize hout : analyzeMessage L crc cfg val bit r' payload = out at hlock hspec
      obtain ⟨ret, payload', lock⟩ := out
      refine ⟨ret, payload', ?_, fun hcut => ?_⟩
      · rw [pdAnalyzeRxLocked_stream hpos hfind]
        simp only [Option.map_some] at hlock ⊢
        rw [if_neg (Int.not_lt.mpr (Int.le_of_lt hbit)), hout, hlock]
      · exact (hspec fun h => hcut s rfl ⟨val, more, hseek, h⟩).genuine_iff hk hseek haddress

end Receive

def streamLayer : BitLayer Unit Stream where
  pdWritePreamble := fun t => (0, t)
  pdWriteSym := fun t off _ => (off, t)
  pdWriteLastEdge := fun t off => (off, t)
  pdInitDequeue := id
  pdFindPreamble := fun r => (1, r)
  pdDequeueBits := fun r off len =>
    if off < 0 then (-1, 0, r)
    else if len = 4 then
      match r.nextFour with
      | some b => (off + 4, b.setWidth 32, r)
      | none => (-1, 0, r)
    else
      match r.syms with
      | s0 :: s1 :: s2 :: s3 :: syms => (off + 20, packed [s0, s1, s2, s3], ⟨syms, r.tail⟩)
      | _ => (-1, 0, r)

theorem streamLayer_reads : streamLayer.Reads fun r bit s => r = s ∧ 0 < bit := by
  have hoff : ∀ {bit : Int}, 0 < bit → ¬ bit < 0 := fun h => Int.not_lt.mpr (Int.le_of_lt h)
  refine ⟨?_, ?_, ?_, ?_⟩
  · rintro _ bit s0 s1 s2 s3 syms tail ⟨rfl, hbit⟩
    exact ⟨bit + 20, ⟨syms, tail⟩, if_neg (hoff hbit), by omega, rfl, by omega⟩
  · rintro _ bit ⟨syms, tail⟩ ⟨rfl, hbit⟩ hlen
    have hdequeue : (streamLayer.pdDequeueBits ⟨syms, tail⟩ bit 20) = (-1, 0, ⟨syms, tail⟩) := by
      refine (if_neg (hoff hbit)).trans ?_
      match syms, hlen with
      | [], _ => rfl
      | [_], _ => rfl
      | [_, _], _ => rfl
      | [_, _, _], _ => rfl
    rw [hdequeue]
    exact Int.negSucc_lt_zero 0
  · rintro r bit _ b ⟨rfl, hbit⟩ hfour
    refine ⟨bit + 4, r, (if_neg (hoff hbit)).trans ?_, by omega⟩
    rw [if_pos rfl, hfour]
  · rintro r bit _ ⟨rfl, hbit⟩ hfour
    have hdequeue : streamLayer.pdDequeueBits r bit 4 = (-1, 0, r) := by
      refine (if_neg (hoff hbit)).trans ?_
      rw [if_pos rfl, hfour]
    rw [hdequeue]
    exact Int.negSucc_lt_zero 0

/-- A message without objects, between a start and an end -/
def pingStream : Stream :=
  ⟨[pdSync1, pdSync1, pdSync1, pdSync2] ++
    (symbolsOf (messageHalves softwareCrc 0x0041 fun _ => 0) ++ [pdEop]), none⟩

/-- The same stream, with another symbol at an index -/
def pingWith (i : Nat) (sym : BitVec 5) : Stream :=
  ⟨pingStream.syms.set i sym, none⟩

theorem pdAnalyzeRx_genuine_ping :
    ∃ ret payload', pdAnalyzeRxLocked streamLayer softwareCrc ⟨false, false⟩ 32 pingStream
        (fun _ => 0) = some (ret, payload', false) ∧
      ((∀ s ∈ some pingStream, CutBehind ⟨false, false⟩ s → streamLayer.FailsBefore) →
        ((0 ≤ ret → ∃ s ∈ some pingStream, Genuine softwareCrc ⟨false, false⟩ s ret payload') ↔
          ¬ ∃ s ∈ some pingStream, Collides softwareCrc ⟨false, false⟩ s)) := by
  have hping : Received streamLayer (fun r bit s => r = s ∧ 0 < bit) pingStream
      (some pingStream) := ⟨Int.one_pos, rfl, Int.one_pos⟩
  refine pdAnalyzeRx_genuine_iff streamLayer_reads hping ?_
  rintro _ ⟨rfl⟩
  decide +kernel

/-- The fourth symbol of the header may be the reserved symbol of five zeros, and with other bits than
those of the end an offset is returned, that is no error. -/
theorem reserved_accepted :
    (∃ payload', pdAnalyzeRxLocked streamLayer softwareCrc ⟨false, false⟩ 32 (pingWith 7 0x00)
        (fun _ => 0) = some (0x41, payload', false)) ∧
      (0x00 : BitVec 5) ∉ symbols4b5b ∧
      (∀ ret payload', ¬ Genuine softwareCrc ⟨false, false⟩ (pingWith 7 0x00) ret payload') ∧
      (∃ payload', pdAnalyzeRxLocked streamLayer softwareCrc ⟨false, false⟩ 32 (pingWith 16 0x00)
        (fun _ => 0) = some (85, payload', false)) ∧
      ∀ ret payload', ¬ Genuine softwareCrc ⟨false, false⟩ (pingWith 16 0x00) ret payload' := by
  have hret : ∀ {o : Option (Int × (Nat → BitVec 32) × Bool)} {ret : Int},
      o.map (fun x => (x.1, x.2.2)) = some (ret, false) →
        ∃ payload', o = some (ret, payload', false) := by
    rintro (- | ⟨ret, payload', lock⟩) ret' h
    · cases h
    · cases h
      exact ⟨payload', rfl⟩
  have hspells : ∀ {i sym e}, (((pingWith i sym).syms.drop 4).take 12).length = 12 →
      halves (((pingWith i sym).syms.drop 4).take 12) =
        messageHalves softwareCrc 0x0041 (fun _ => 0) →
      (Stream.mk (((pingWith i sym).syms.drop 4).drop 12) none).nextFour = some e →
      Spells softwareCrc ⟨(pingWith i sym).syms.drop 4, none⟩
        (((pingWith i sym).syms.drop 4).take 12) 0x0041 (fun _ => 0) e :=
    fun hlen hvalues hfour => ⟨hlen, hvalues, _, (List.take_append_drop 12 _).symm, hfour⟩
  have hcrc : (pdAnalyzeRxLocked streamLayer softwareCrc ⟨false, false⟩ 32 (pingWith 7 0x00)
      (fun _ => 0)).map (fun x => (x.1, x.2.2)) = some (0x41, false) := by
    decide +kernel
  have hend : (pdAnalyzeRxLocked streamLayer softwareCrc ⟨false, false⟩ 32 (pingWith 16 0x00)
      (fun _ => 0)).map (fun x => (x.1, x.2.2)) = some (85, false) := by
    decide +kernel
  refine ⟨hret hcrc, by decide, fun ret payload' h => ?_, hret hend, fun ret payload' h => ?_⟩
  · have hping := @hspells 7 0x00 eopBits (by decide +kernel) (by decide +kernel) (by decide +kernel)
    have hseek : seekStart ⟨false, false⟩ (pingWith 7 0x00).syms =
        some (pdSop, (pingWith 7 0x00).syms.drop 4) := by decide +kernel
    have hbody := (h.eq_of_spells hseek hping).1
    revert hbody
    decide +kernel
  · have hping := @hspells 16 0x00 0 (by decide +kernel) (by decide +kernel) (by decide +kernel)
    have hseek : seekStart ⟨false, false⟩ (pingWith 16 0x00).syms =
        some (pdSop, (pingWith 16 0x00).syms.drop 4) := by decide +kernel
    have hend := (h.eq_of_spells hseek hping).2
    revert hend
    decide

end ChromiumEc.Usbc.Tcpc
