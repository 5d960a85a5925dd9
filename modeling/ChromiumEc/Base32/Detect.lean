import ChromiumEc.Base32.RoundTrip

/-!
# Detect — a wrong symbol is rejected

A step of the CRC is injective in the symbol and in the CRC before.  Two decoders that differ in
their CRC only differ up to the end of the group, where one of the two rejects.  The place in the
group is the number of symbols, and does not depend on what they are.
-/

namespace ChromiumEc.Base32

variable {src old : Nat → UInt8} {n m k : Nat} {c : Char} {l : List Char} {d d' d₁ : Decoder}

theorem crc5Sym_eq (sym crc : Nat) : crc5Sym sym crc = crc5Sym (sym ^^^ crc) 0 := by
  unfold crc5Sym
  rw [Nat.xor_zero]

theorem crc5Sym_zero_injOn {x y : Nat} (hx : x < 32) (hy : y < 32)
    (h : crc5Sym x 0 = crc5Sym y 0) : x = y := by
  -- the table has 32 different entries
  have htable : ∀ x, x < 32 → ∀ y, y < 32 → crc5Sym x 0 = crc5Sym y 0 → x = y := by
    decide
  exact htable x hx y hy h

theorem crc5Sym_ne_of_sym {sym sym' crc : Nat} (hs : sym < 32) (hs' : sym' < 32) (hc : crc < 32)
    (hne : sym ≠ sym') : crc5Sym sym crc ≠ crc5Sym sym' crc := by
  intro heq
  rw [crc5Sym_eq sym, crc5Sym_eq sym'] at heq
  have hlt : ∀ {s : Nat}, s < 32 → s ^^^ crc < 32 := fun hs => @Nat.xor_lt_two_pow _ _ 5 hs hc
  exact hne (Nat.xor_left_injective (crc5Sym_zero_injOn (hlt hs) (hlt hs') heq))

theorem crc5Sym_ne_of_crc {sym crc crc' : Nat} (hs : sym < 32) (hc : crc < 32) (hc' : crc' < 32)
    (hne : crc ≠ crc') : crc5Sym sym crc ≠ crc5Sym sym crc' := by
  intro heq
  rw [crc5Sym_eq sym, crc5Sym_eq sym] at heq
  have hlt : ∀ {c : Nat}, c < 32 → sym ^^^ c < 32 := fun hc => @Nat.xor_lt_two_pow _ _ 5 hs hc
  exact hne (Nat.xor_right_injective (crc5Sym_zero_injOn (hlt hc) (hlt hc') heq))

/-! ## Symbols of the map -/

theorem mem_base32Map (h : c ∈ base32Map) : ∃ sym, sym < 32 ∧ c = mapSym sym := by
  obtain ⟨sym, hlt, hget⟩ := List.mem_iff_getElem.mp h
  refine ⟨sym, hlt, ?_⟩
  rw [← hget, mapSym, List.getD_eq_getElem _ _ hlt]

theorem decodeChar_mapSym_next {sym : Nat} (hk : k ≠ 0) (hs : sym < 32)
    (h : decodeChar m k (mapSym sym) d = .next d₁) :
    (d.crcCount = k ∧ d.crc = sym ∧ d₁ = { d with crc := 0, crcCount := 0 }) ∨
      (d.crcCount ≠ k ∧ d.outBits < m ∧ d₁.crc = crc5Sym sym d.crc ∧
        d₁.crcCount = d.crcCount + 1 ∧ d₁.outBits = d.outBits + min 5 (m - d.outBits)) := by
  rw [decodeChar_mapSym hs, if_neg hk] at h
  by_cases hfull : d.crcCount = k
  · rw [if_pos hfull] at h
    by_cases hcrc : d.crc = sym
    · rw [if_neg (not_not.mpr hcrc)] at h
      cases h
      exact .inl ⟨hfull, hcrc, rfl⟩
    · rw [if_pos hcrc] at h
      cases h
  · rw [if_neg hfull, takeSym] at h
    by_cases hspace : m ≤ d.outBits
    · rw [if_pos hspace] at h
      cases h
    · rw [if_neg hspace] at h
      cases h
      exact .inr ⟨hfull, Nat.lt_of_not_le hspace, rfl, rfl, rfl⟩

theorem decodeChar_mapSym_full {sym : Nat} (hk : k ≠ 0) (hs : sym < 32) (hfull : d.crcCount = k) :
    decodeChar m k (mapSym sym) d =
      if d.crc ≠ sym then .bad d else .next { d with crc := 0, crcCount := 0 } := by
  rw [decodeChar_mapSym hs, if_neg hk, if_pos hfull]

theorem decodeChar_mapSym_data {sym : Nat} (hk : k ≠ 0) (hs : sym < 32) (hopen : d.crcCount ≠ k)
    (hspace : d.outBits < m) :
    ∃ dest, decodeChar m k (mapSym sym) d =
      .next ⟨crc5Sym sym d.crc, d.crcCount + 1, d.outBits + min 5 (m - d.outBits), dest⟩ := by
  rw [decodeChar_mapSym hs, if_neg hk, if_neg hopen, takeSym, if_neg (Nat.not_le.mpr hspace)]
  exact ⟨_, rfl⟩

/-! ## The loop -/

theorem decodeLoop_cons_next (h : decodeLoop m k (c :: l) d = .next d₁) :
    ∃ d', decodeChar m k c d = .next d' ∧ decodeLoop m k l d' = .next d₁ := by
  rw [decodeLoop] at h
  cases hchar : decodeChar m k c d with
  | next d' =>
    rw [hchar] at h
    exact ⟨d', rfl, h⟩
  | stop d' =>
    rw [hchar] at h
    cases h
  | bad d' =>
    rw [hchar] at h
    cases h

theorem decodeLoop_append_next {l' : List Char} (h : decodeLoop m k (l ++ l') d = .next d₁) :
    ∃ d', decodeLoop m k l d = .next d' ∧ decodeLoop m k l' d' = .next d₁ := by
  induction l generalizing d with
  | nil => exact ⟨d, rfl, h⟩
  | cons c l ih =>
    obtain ⟨d₂, hchar, hrest⟩ := decodeLoop_cons_next h
    obtain ⟨d', hl, hl'⟩ := ih hrest
    refine ⟨d', ?_, hl'⟩
    rw [decodeLoop, hchar]
    exact hl

theorem decodeLoop_crc_lt (hk : k ≠ 0) (hl : ∀ c ∈ l, c ∈ base32Map) (hd : d.crc < 32)
    (h : decodeLoop m k l d = .next d₁) : d₁.crc < 32 := by
  induction l generalizing d with
  | nil =>
    cases h
    exact hd
  | cons c l ih =>
    obtain ⟨sym, hs, rfl⟩ := mem_base32Map (hl c List.mem_cons_self)
    obtain ⟨d', hchar, hrest⟩ := decodeLoop_cons_next h
    refine ih (fun c hc => hl c (List.mem_cons_of_mem _ hc)) ?_ hrest
    rcases decodeChar_mapSym_next hk hs hchar with ⟨-, -, rfl⟩ | ⟨-, -, hcrc, -, -⟩
    · exact Nat.zero_lt_succ _
    · rw [hcrc]
      exact crc5Sym_lt sym d.crc

theorem decodeLoop_count (hk : k ≠ 0) (hl : ∀ c ∈ l, c ∈ base32Map) (hd : d.crcCount ≤ k)
    (h : decodeLoop m k l d = .next d₁) : d₁.crcCount = (d.crcCount + l.length) % (k + 1) := by
  induction l generalizing d with
  | nil =>
    cases h
    exact (Nat.mod_eq_of_lt (Nat.lt_succ_of_le hd)).symm
  | cons c l ih =>
    obtain ⟨sym, hs, rfl⟩ := mem_base32Map (hl c List.mem_cons_self)
    obtain ⟨d', hchar, hrest⟩ := decodeLoop_cons_next h
    have hl' : ∀ c ∈ l, c ∈ base32Map := fun c hc => hl c (List.mem_cons_of_mem _ hc)
    rw [List.length_cons]
    -- a CRC ends the group and counts from 0 again, and a symbol of the data counts up
    rcases decodeChar_mapSym_next hk hs hchar with ⟨hfull, -, rfl⟩ | ⟨hopen, -, -, hcount, -⟩
    · have hsum : d.crcCount + (l.length + 1) = l.length + (k + 1) := by omega
      rw [ih hl' (Nat.zero_le k) hrest, Nat.zero_add, hsum, Nat.add_mod_right]
    · have hsum : d.crcCount + (l.length + 1) = d.crcCount + 1 + l.length := by omega
      rw [ih hl' (by omega) hrest, hcount, hsum]

theorem decodeLoop_mono (hk : k ≠ 0) (hm : n ≤ m) (hl : ∀ c ∈ l, c ∈ base32Map)
    (hcrc : d'.crc = d.crc) (hcount : d'.crcCount = d.crcCount)
    (hout : d.outBits = min d'.outBits n) (h : decodeLoop n k l d = .next d₁) :
    ∃ d₂, decodeLoop m k l d' = .next d₂ ∧ d₂.crcCount = d₁.crcCount := by
  induction l generalizing d d' with
  | nil =>
    cases h
    exact ⟨d', rfl, hcount⟩
  | cons c l ih =>
    obtain ⟨sym, hs, rfl⟩ := mem_base32Map (hl c List.mem_cons_self)
    obtain ⟨e, hchar, hrest⟩ := decodeLoop_cons_next h
    have hl' : ∀ c ∈ l, c ∈ base32Map := fun c hc => hl c (List.mem_cons_of_mem _ hc)
    -- with more space no symbol is refused, and the CRC and its count do not depend on the space
    rcases decodeChar_mapSym_next hk hs hchar with
      ⟨hfull, hsym, rfl⟩ | ⟨hopen, hspace, hcrc', hcount', hout'⟩
    · rw [decodeLoop, decodeChar_mapSym_full hk hs (hcount.trans hfull),
        if_neg (not_not.mpr (hcrc.trans hsym))]
      refine ih hl' ?_ ?_ ?_ hrest
      · rfl
      · rfl
      · exact hout
    · obtain ⟨dest, hdata⟩ := @decodeChar_mapSym_data m k d' sym hk hs
        (by rw [hcount]; exact hopen) (by omega)
      rw [decodeLoop, hdata]
      refine ih hl' ?_ ?_ ?_ hrest
      · rw [hcrc', hcrc]
      · rw [hcount', hcount]
      · rw [hout']
        show _ = min (d'.outBits + min 5 (m - d'.outBits)) n
        omega

theorem decodeLoop_bad (hk : k ≠ 0) (hl : ∀ c ∈ l, c ∈ base32Map) (hd : d.crc < 32)
    (hd' : d'.crc < 32) (hne : d.crc ≠ d'.crc) (hcount : d'.crcCount = d.crcCount)
    (hout : d'.outBits = d.outBits) (hopen : d.crcCount ≠ 0)
    (h : decodeLoop m k l d = .next d₁) (hend : d₁.crcCount = 0) :
    ∃ b, decodeLoop m k l d' = .bad b := by
  induction l generalizing d d' with
  | nil =>
    cases h
    exact absurd hend hopen
  | cons c l ih =>
    obtain ⟨sym, hs, rfl⟩ := mem_base32Map (hl c List.mem_cons_self)
    obtain ⟨e, hchar, hrest⟩ := decodeLoop_cons_next h
    rcases decodeChar_mapSym_next hk hs hchar with
      ⟨hfull, hsym, -⟩ | ⟨hmore, hspace, hcrc', hcount', hout'⟩
    · -- the end of the group: the symbol is the CRC of the first
      have hbad : d'.crc ≠ sym := fun heq => hne (hsym.trans heq.symm)
      rw [decodeLoop, decodeChar_mapSym_full hk hs (hcount.trans hfull), if_pos hbad]
      exact ⟨d', rfl⟩
    · obtain ⟨dest, hdata⟩ := @decodeChar_mapSym_data m k d' sym hk hs
        (by rw [hcount]; exact hmore) (by rw [hout]; exact hspace)
      rw [decodeLoop, hdata]
      -- the same symbol keeps the CRCs different
      refine ih (fun c hc => hl c (List.mem_cons_of_mem _ hc)) ?_ ?_ ?_ ?_ ?_ ?_ hrest
      · rw [hcrc']
        exact crc5Sym_lt sym d.crc
      · exact crc5Sym_lt sym d'.crc
      · rw [hcrc']
        exact crc5Sym_ne_of_crc hs hd hd' hne
      · rw [hcount', hcount]
      · rw [hout', hout]
      · rw [hcount']
        exact Nat.succ_ne_zero _

/-! ## What is rejected -/

theorem base32Decode_eq_none_of_bad {b : Decoder}
    (h : decodeLoop m k l ⟨0, 0, 0, old⟩ = .bad b) : (base32Decode old m l k).1 = none := by
  unfold base32Decode
  rw [h]

theorem base32Decode_eq_none_of_open (hk : k ≠ 0) (h : decodeLoop m k l ⟨0, 0, 0, old⟩ = .next d)
    (hopen : d.crcCount ≠ 0) : (base32Decode old m l k).1 = none := by
  unfold base32Decode
  rw [h]
  show (decodeEnd k d).1 = none
  rw [decodeEnd, if_pos ⟨hk, hopen⟩]

theorem decodeLoop_of_encode {destlenChars : Nat} {enc : List Char} (hk : k ≠ 0) (hm : n ≤ m)
    (henc : base32Encode destlenChars src n k = (.success, enc)) (old : Nat → UInt8) :
    (∀ c ∈ enc, c ∈ base32Map) ∧
      ∃ d, decodeLoop m k enc ⟨0, 0, 0, old⟩ = .next d ∧ d.crcCount = 0 := by
  obtain ⟨d, hfollows⟩ := follows_encodeLoop src old n k
  unfold base32Encode at henc
  by_cases hgroups : k ≠ 0 ∧ symbolCount n % k ≠ 0
  · rw [if_pos hgroups] at henc
    cases henc
  · rw [if_neg hgroups] at henc
    have hmod : symbolCount n % k = 0 := by
      by_contra hne
      exact hgroups ⟨hk, hne⟩
    dsimp only at henc
    rw [if_pos hk] at henc
    by_cases hroom : destlenChars < symbolCount n + symbolCount n / k + 1
    · rw [if_pos hroom] at henc
      cases henc
    · rw [if_neg hroom] at henc
      cases henc
      obtain ⟨d₂, hloop, hcount⟩ := decodeLoop_mono hk hm hfollows.symbols rfl rfl
        (show 0 = min 0 n by omega) hfollows.decoded
      refine ⟨hfollows.symbols, d₂, hloop, ?_⟩
      rw [hcount, hfollows.count, hfollows.group hk, hmod]

/-- With a CRC for each group, a string with one symbol changed is rejected, and so is one without
its last symbols, unless these are whole groups. -/
theorem base32_detects (src : Nat → UInt8) {n m k destlenChars : Nat} {enc : List Char}
    (hk : 1 ≤ k) (hm : n ≤ m) (henc : base32Encode destlenChars src n k = (.success, enc))
    (old : Nat → UInt8) :
    (∀ p (hp : p < enc.length), ∀ c ∈ base32Map, c ≠ enc[p] →
      (base32Decode old m (enc.set p c) k).1 = none) ∧
    (∀ r, 0 < r → r ≤ enc.length → ¬ (k + 1) ∣ r →
      (base32Decode old m (enc.take (enc.length - r)) k).1 = none) := by
  have hk0 : k ≠ 0 := by omega
  obtain ⟨hmem, d, hloop, hend⟩ := decodeLoop_of_encode hk0 hm henc old
  constructor
  · intro p hp c hc hne
    obtain ⟨sym, hs, rfl⟩ := mem_base32Map hc
    obtain ⟨sym₀, hs₀, hget⟩ := mem_base32Map (hmem enc[p] (List.getElem_mem hp))
    have hsym : sym₀ ≠ sym := by
      rintro rfl
      exact hne hget.symm
    have hsplit : enc = enc.take p ++ mapSym sym₀ :: enc.drop (p + 1) := by
      rw [← hget, ← List.drop_eq_getElem_cons hp, List.take_append_drop]
    have hfront : ∀ c ∈ enc.take p, c ∈ base32Map := fun c hc => hmem c (List.mem_of_mem_take hc)
    have hback : ∀ c ∈ enc.drop (p + 1), c ∈ base32Map :=
      fun c hc => hmem c (List.mem_of_mem_drop hc)
    rw [hsplit] at hloop
    obtain ⟨dp, hpre, hrest⟩ := decodeLoop_append_next hloop
    obtain ⟨d₁, hchar, hpost⟩ := decodeLoop_cons_next hrest
    have hcrc : dp.crc < 32 := decodeLoop_crc_lt hk0 hfront (Nat.zero_lt_succ _) hpre
    -- up to the symbol the two strings are one
    suffices hbad : ∃ b, decodeLoop m k (mapSym sym :: enc.drop (p + 1)) dp = .bad b by
      obtain ⟨b, hb⟩ := hbad
      have hset : enc.set p (mapSym sym) = enc.take p ++ mapSym sym :: enc.drop (p + 1) := by
        rw [List.set_eq_take_append_cons_drop, if_pos hp]
      rw [hset]
      exact base32Decode_eq_none_of_bad ((decodeLoop_append hpre).trans hb)
    rcases decodeChar_mapSym_next hk0 hs₀ hchar with
      ⟨hfull, hsame, -⟩ | ⟨hopen, hspace, hcrc₁, hcount₁, hout₁⟩
    · -- the changed symbol is a CRC
      rw [decodeLoop, decodeChar_mapSym_full hk0 hs hfull, if_pos (by rw [hsame]; exact hsym)]
      exact ⟨dp, rfl⟩
    · obtain ⟨dest, hdata⟩ := @decodeChar_mapSym_data m k dp sym hk0 hs hopen hspace
      rw [decodeLoop, hdata]
      -- the changed symbol is stored, and from here on the CRCs differ
      refine decodeLoop_bad hk0 hback ?_ ?_ ?_ ?_ ?_ ?_ hpost hend
      · rw [hcrc₁]
        exact crc5Sym_lt sym₀ dp.crc
      · exact crc5Sym_lt sym dp.crc
      · rw [hcrc₁]
        exact crc5Sym_ne_of_sym hs₀ hs hcrc hsym
      · exact hcount₁.symm
      · exact hout₁.symm
      · rw [hcount₁]
        exact Nat.succ_ne_zero _
  · intro r hr hle hgroups
    -- whole groups are of `k + 1` characters, so what is left is none of them
    have hwhole : (k + 1) ∣ enc.length := by
      have hcount := decodeLoop_count hk0 hmem (Nat.zero_le k) hloop
      rw [hend, Nat.zero_add] at hcount
      exact Nat.dvd_of_mod_eq_zero hcount.symm
    rw [← List.take_append_drop (enc.length - r) enc] at hloop
    obtain ⟨dp, hpre, -⟩ := decodeLoop_append_next hloop
    have hcount := decodeLoop_count hk0
      (fun c hc => hmem c (List.mem_of_mem_take hc)) (Nat.zero_le k) hpre
    rw [Nat.zero_add, List.length_take, Nat.min_eq_left (Nat.sub_le _ _)] at hcount
    refine base32Decode_eq_none_of_open hk0 hpre ?_
    intro hzero
    rw [hcount] at hzero
    exact hgroups ((Nat.dvd_sub_iff_right hle hwhole).mp (Nat.dvd_of_mod_eq_zero hzero))

/-- Ten bits, with a CRC behind each symbol: the string is `7C5R`. -/
theorem base32_detects_ten :
    (∀ p (hp : p < ['7', 'C', '5', 'R'].length), ∀ c ∈ base32Map, c ≠ ['7', 'C', '5', 'R'][p] →
      (base32Decode (fun _ => 0) 10 (['7', 'C', '5', 'R'].set p c) 1).1 = none) ∧
    (∀ r, 0 < r → r ≤ ['7', 'C', '5', 'R'].length → ¬ (1 + 1) ∣ r →
      (base32Decode (fun _ => 0) 10
        (['7', 'C', '5', 'R'].take (['7', 'C', '5', 'R'].length - r)) 1).1 = none) :=
  base32_detects (fun _ => 0xee) (Nat.le_refl 1) (Nat.le_refl 10)
    (show base32Encode 5 (fun _ => 0xee) 10 1 = (.success, ['7', 'C', '5', 'R']) by
      simp [base32Encode, symbolCount, encodeLoop]; decide) _

end ChromiumEc.Base32
