import ChromiumEc.Lib.Reach
import ChromiumEc.VbootHash.VbootHash

/-!
# Honest — a hash that is reported is the hash of what is in flash

As long as a hash is in progress and not to be aborted, the context has taken in the nonce and the
flash up to the position; a digest that is stored is that of the nonce and the whole range.  A chunk
that is skipped breaks this: the position moves on whether the chunk was hashed or not.
-/

namespace ChromiumEc.VbootHash

open Lib (Reach load)

variable {cfg : FlashConfig} {s : State} {outcome : ChunkOutcome} {offset size : BitVec 32}

/-- What is hashed: the nonce, and `n` bytes of the flash. -/
def State.message (s : State) (n : Nat) : List UInt8 :=
  s.nonce ++ load s.flash s.dataOffset.toNat n

structure Hashing (s : State) : Prop where
  inRange : s.currPos.toNat ≤ s.dataSize.toNat
  absorbs : Absorbs s.ctx (s.message s.currPos.toNat)

structure Inv (cfg : FlashConfig) (s : State) : Prop where
  fits : s.dataOffset.toNat + s.dataSize.toNat ≤ cfg.flashSize
  nonce : s.nonce.length ≤ 64
  valid : s.ctx.Valid
  pending : s.deferred = true → s.inProgress = true
  null : s.inProgress = true → s.hash = false
  hashing : s.inProgress = true → s.wantAbort = false → Hashing s
  done : s.hash = true → s.ctx.buf = sha256 (s.message s.dataSize.toNat)

/-- A step that skips no chunk: no chunk of a deferred hash meets shared memory in use, and every
chunk of a blocking hash is read. -/
def Meets (cfg : FlashConfig) (s : State) : Event → Prop
  | .start offset size _ (.blocking chunks) =>
    startCheck cfg offset size s = .success →
      ∀ k, k * chunkSize < size.toNat → chunks k = .hashed
  | .nextChunk outcome =>
    s.deferred = true → s.wantAbort = false → s.currPos < s.dataSize → outcome ≠ .busy
  | _ => True

theorem length_message (s : State) (n : Nat) : (s.message n).length = s.nonce.length + n := by
  rw [State.message, List.length_append, Lib.length_load]

theorem Inv.message_lt (h : Inv cfg s) {n : Nat} (hn : n ≤ s.dataSize.toNat) :
    (s.message n).length < 2 ^ 29 := by
  have hfits := h.fits
  have hnonce := h.nonce
  have hflash := cfg.flashSize_le
  rw [length_message]
  omega

theorem Inv.of_abort (hp : s.inProgress = false) (hd : s.deferred = false)
    (hfits : s.dataOffset.toNat + s.dataSize.toNat ≤ cfg.flashSize) (hnonce : s.nonce.length ≤ 64)
    (hvalid : s.ctx.Valid) : Inv cfg (vbootHashAbort s) := by
  rw [vbootHashAbort, if_neg (ne_true_of_eq_false hp)]
  constructor
  case fits => exact Nat.le_trans (Nat.add_le_add_left (Nat.zero_le _) _) hfits
  case nonce => exact hnonce
  case valid => exact hvalid
  case pending => exact fun hd' => absurd (hd.symm.trans hd') Bool.false_ne_true
  case null => exact fun hp' => absurd (hp.symm.trans hp') Bool.false_ne_true
  case hashing => exact fun hp' => absurd (hp.symm.trans hp') Bool.false_ne_true
  case done => exact nofun

theorem Inv.abort (h : Inv cfg s) : Inv cfg (vbootHashAbort s) := by
  cases hp : s.inProgress with
  | true =>
    rw [vbootHashAbort, if_pos hp]
    constructor
    case fits => exact h.fits
    case nonce => exact h.nonce
    case valid => exact h.valid
    case pending => exact h.pending
    case null => exact h.null
    case hashing => exact fun _ hw => nomatch hw
    case done => exact h.done
  | false =>
    have hd : s.deferred = false := by
      refine eq_false_of_ne_true (fun hd => ?_)
      exact Bool.false_ne_true (hp.symm.trans (h.pending hd))
    exact Inv.of_abort hp hd h.fits h.nonce h.valid

/-! ## Chunks -/

theorem Hashing.nextSize_eq (h : Hashing s) :
    s.nextSize = min 1024 (s.dataSize.toNat - s.currPos.toNat) := by
  rw [State.nextSize, BitVec.toNat_sub_of_le (BitVec.le_def.mpr h.inRange)]

theorem Hashing.nextPos (h : Hashing s) :
    (s.currPos + BitVec.ofNat 32 s.nextSize).toNat = s.currPos.toNat + s.nextSize := by
  have hsize := h.nextSize_eq
  have hrange := h.inRange
  have hlt := s.dataSize.isLt
  rw [BitVec.toNat_add, BitVec.toNat_ofNat]
  omega

theorem chunk_empty (h : s.nextSize = 0) :
    s.chunk outcome = { s with currPos := s.currPos + BitVec.ofNat 32 s.nextSize } := by
  unfold State.chunk hashNextChunk readAndHashChunk
  simp only [if_pos h]

theorem chunk_hashed (h : s.nextSize ≠ 0) :
    s.chunk .hashed =
      { s with
        ctx := sha256Update s.ctx (load s.flash (s.dataOffset + s.currPos).toNat s.nextSize)
        currPos := s.currPos + BitVec.ofNat 32 s.nextSize } := by
  unfold State.chunk hashNextChunk readAndHashChunk
  simp only [if_neg h]

theorem chunk_fails (hp : s.inProgress = true) (h : s.nextSize ≠ 0)
    (ho : outcome = .error ∨ outcome = .readError) :
    s.chunk outcome =
      { s with wantAbort := true, currPos := s.currPos + BitVec.ofNat 32 s.nextSize } := by
  unfold State.chunk hashNextChunk readAndHashChunk
  simp only [if_neg h]
  rcases ho with rfl | rfl
  · simp only [vbootHashAbort, if_pos hp]
  · simp only [vbootHashAbort, if_pos hp]

structure Advances (s s' : State) : Prop where
  dataOffset : s'.dataOffset = s.dataOffset
  dataSize : s'.dataSize = s.dataSize
  hash : s'.hash = s.hash
  wantAbort : s'.wantAbort = s.wantAbort
  inProgress : s'.inProgress = s.inProgress
  deferred : s'.deferred = s.deferred
  flash : s'.flash = s.flash
  nonce : s'.nonce = s.nonce

theorem Advances.refl (s : State) : Advances s s :=
  ⟨rfl, rfl, rfl, rfl, rfl, rfl, rfl, rfl⟩

theorem Advances.trans {s' s'' : State} (h : Advances s s') (h' : Advances s' s'') :
    Advances s s'' :=
  ⟨h'.1.trans h.1, h'.2.trans h.2, h'.3.trans h.3, h'.4.trans h.4, h'.5.trans h.5, h'.6.trans h.6,
    h'.7.trans h.7, h'.8.trans h.8⟩

theorem Advances.finish {s' : State} (h : Advances s s') : Advances s.finish s'.finish :=
  ⟨h.1, h.2, rfl, h.4, rfl, h.6, h.7, h.8⟩

theorem Hashing.chunk (h : Hashing s) (hfits : s.dataOffset.toNat + s.dataSize.toNat ≤ 2 ^ 28)
    (ho : s.nextSize ≠ 0 → outcome = .hashed) :
    Advances s (s.chunk outcome) ∧ Hashing (s.chunk outcome) ∧
      (s.chunk outcome).currPos.toNat = s.currPos.toNat + s.nextSize := by
  have hsize := h.nextSize_eq
  have hrange := h.inRange
  have hpos := h.nextPos
  -- at the end of the data a chunk is empty, and nothing is hashed
  by_cases hzero : s.nextSize = 0
  · have hsame : s.chunk outcome = s := by
      rw [chunk_empty hzero, hzero, BitVec.add_zero]
    rw [hsame, hzero]
    exact ⟨Advances.refl s, h, rfl⟩
  · obtain rfl := ho hzero
    have hoffset : (s.dataOffset + s.currPos).toNat = s.dataOffset.toNat + s.currPos.toNat := by
      rw [BitVec.toNat_add]
      omega
    have hmessage : s.message (s.currPos.toNat + s.nextSize) = s.message s.currPos.toNat ++
        load s.flash (s.dataOffset.toNat + s.currPos.toNat) s.nextSize := by
      rw [State.message, State.message, Lib.load_add, List.append_assoc]
    rw [chunk_hashed hzero]
    refine ⟨⟨rfl, rfl, rfl, rfl, rfl, rfl, rfl, rfl⟩, ⟨?_, ?_⟩, hpos⟩
    · show (s.currPos + BitVec.ofNat 32 s.nextSize).toNat ≤ s.dataSize.toNat
      rw [hpos]
      omega
    · show Absorbs (sha256Update s.ctx _)
        (s.message (s.currPos + BitVec.ofNat 32 s.nextSize).toNat)
      rw [hpos, hmessage, hoffset]
      exact h.absorbs.update _

theorem Inv.finish (h : Inv cfg s) (hd : s.deferred = false) (hh : Hashing s)
    (hend : s.dataSize.toNat ≤ s.currPos.toNat) : Inv cfg s.finish := by
  have hpos : s.currPos.toNat = s.dataSize.toNat := Nat.le_antisymm hh.inRange hend
  have habsorbs := hh.absorbs
  rw [hpos] at habsorbs
  constructor
  case fits => exact h.fits
  case nonce => exact h.nonce
  case valid => exact h.valid.final
  case pending => exact fun hd' => absurd (hd.symm.trans hd') Bool.false_ne_true
  case null => exact fun hp => nomatch hp
  case hashing => exact fun hp => nomatch hp
  case done => exact fun _ => habsorbs.final (h.message_lt (Nat.le_refl _))

theorem Inv.fits_le (h : Inv cfg s) : s.dataOffset.toNat + s.dataSize.toNat ≤ 2 ^ 28 :=
  Nat.le_trans h.fits cfg.flashSize_le

theorem Inv.chunk (h : Inv cfg s) (hp : s.inProgress = true) (hw : s.wantAbort = false)
    (ho : s.nextSize ≠ 0 → outcome = .hashed) : Inv cfg (s.chunk outcome) := by
  obtain ⟨hadv, hnext, -⟩ := (h.hashing hp hw).chunk h.fits_le ho
  constructor
  case fits => rw [hadv.dataOffset, hadv.dataSize]; exact h.fits
  case nonce => rw [hadv.nonce]; exact h.nonce
  case valid => exact hnext.absorbs.valid
  case pending => rw [hadv.deferred, hadv.inProgress]; exact h.pending
  case null => rw [hadv.inProgress, hadv.hash]; exact h.null
  case hashing => exact fun _ _ => hnext
  case done =>
    intro hh
    rw [hadv.hash, h.null hp] at hh
    exact nomatch hh

/-! ## Deferred calls -/

theorem Inv.called (h : Inv cfg s) : Inv cfg { s with deferred := false } where
  fits := h.fits
  nonce := h.nonce
  valid := h.valid
  pending := nofun
  null := h.null
  hashing hp hw := ⟨(h.hashing hp hw).inRange, (h.hashing hp hw).absorbs⟩
  done := h.done

theorem Inv.nextChunk (h : Inv cfg s) (hd : s.deferred = true)
    (ho : s.wantAbort = false → s.currPos < s.dataSize → outcome ≠ .busy) :
    Inv cfg (vbootHashNextChunk outcome { s with deferred := false }) := by
  have hp := h.pending hd
  have hcalled := h.called
  unfold vbootHashNextChunk
  set c : State := { s with deferred := false } with hc
  by_cases hw : s.wantAbort = true
  · rw [if_pos hw]
    exact Inv.of_abort rfl rfl h.fits h.nonce h.valid
  have hw : s.wantAbort = false := eq_false_of_ne_true hw
  rw [if_neg (by rw [hc]; exact ne_true_of_eq_false hw)]
  have hh : Hashing c := hcalled.hashing hp hw
  have hpos := hh.nextPos
  have hsize := hh.nextSize_eq
  by_cases hfail : c.nextSize ≠ 0 ∧ outcome ≠ .hashed
  · -- the hash is to be aborted: at once if this was its last chunk
    obtain ⟨hne, hnot⟩ := hfail
    have hlt : s.currPos < s.dataSize := by
      rw [BitVec.lt_def]
      show c.currPos.toNat < c.dataSize.toNat
      omega
    have ho' : outcome = .error ∨ outcome = .readError := by
      cases outcome with
      | hashed => exact absurd rfl hnot
      | readError => exact Or.inr rfl
      | busy => exact absurd rfl (ho hw hlt)
      | error => exact Or.inl rfl
    rw [chunk_fails (s := c) hp hne ho']
    dsimp only
    split
    · rw [if_pos (by rfl)]
      apply Inv.of_abort
      · rfl
      · rfl
      · exact h.fits
      · exact h.nonce
      · exact h.valid.final
    · exact ⟨h.fits, h.nonce, h.valid, fun _ => hp, h.null, fun _ hw' => (nomatch hw'), h.done⟩
  -- the chunk is hashed, or it is empty
  · have ho' : c.nextSize ≠ 0 → outcome = .hashed := by
      intro hne
      by_contra hnot
      exact hfail ⟨hne, hnot⟩
    have hinv := hcalled.chunk hp hw ho'
    obtain ⟨hadv, hnext, -⟩ := hh.chunk hcalled.fits_le ho'
    have hwant : (c.chunk outcome).wantAbort = false := hadv.wantAbort.trans hw
    dsimp only
    split
    · rename_i hend
      rw [if_neg (by rw [State.finish]; exact ne_true_of_eq_false hwant)]
      exact hinv.finish hadv.deferred hnext (BitVec.le_def.mp hend)
    · exact ⟨hinv.fits, hinv.nonce, hinv.valid, fun _ => hadv.inProgress.trans hp, hinv.null,
        fun _ _ => ⟨hnext.inRange, hnext.absorbs⟩, hinv.done⟩

/-! ## Starts -/

theorem startCheck_fits (h : startCheck cfg offset size s = .success) :
    s.inProgress = false ∧ offset.toNat + size.toNat ≤ cfg.flashSize := by
  have hflash := cfg.flashSize_le
  unfold startCheck at h
  split at h
  · exact nomatch h
  · rename_i hp
    split at h
    · exact nomatch h
    · rename_i hfits
      simp only [not_or, Nat.not_lt] at hfits
      obtain ⟨hoffset, hsize, hsum⟩ := hfits
      rw [BitVec.toNat_add] at hsum
      exact ⟨eq_false_of_ne_true hp, by omega⟩

def State.started (offset size : BitVec 32) (nonce : Nonce) (s : State) : State :=
  { s with
    dataOffset := offset
    dataSize := size
    currPos := 0
    hash := false
    wantAbort := false
    inProgress := true
    ctx := if nonce.val.length ≠ 0 then sha256Update (sha256Init s.ctx) nonce.val
      else sha256Init s.ctx
    nonce := nonce.val }

theorem Inv.started (h : Inv cfg s) (nonce : Nonce)
    (hfits : offset.toNat + size.toNat ≤ cfg.flashSize) :
    Inv cfg (s.started offset size nonce) ∧ Hashing (s.started offset size nonce) := by
  have hinit := sha256Init_absorbs h.valid.size
  have habsorbs : Absorbs (s.started offset size nonce).ctx nonce.val := by
    unfold State.started
    dsimp only
    split
    · exact hinit.update nonce.val
    · rename_i hlen
      rw [List.length_eq_zero_iff.mp (not_not.mp hlen)]
      exact hinit
  have hmessage : (s.started offset size nonce).message 0 = nonce.val :=
    List.append_nil nonce.val
  have hh : Hashing (s.started offset size nonce) :=
    ⟨Nat.zero_le _, by rw [← hmessage] at habsorbs; exact habsorbs⟩
  exact ⟨⟨hfits, nonce.property, habsorbs.valid, fun _ => rfl, fun _ => rfl, fun _ _ => hh, nofun⟩,
    hh⟩

theorem allChunks_spec {chunks : Nat → ChunkOutcome} (fuel k : Nat) (h : Hashing s)
    (hfits : s.dataOffset.toNat + s.dataSize.toNat ≤ 2 ^ 28)
    (hpos : s.currPos.toNat = k * 1024)
    (hfuel : s.dataSize.toNat ≤ s.currPos.toNat + fuel * 1024)
    (hchunks : ∀ k, k * chunkSize < s.dataSize.toNat → chunks k = .hashed) :
    Advances s (allChunks chunks fuel k s) ∧ Hashing (allChunks chunks fuel k s) ∧
      s.dataSize.toNat ≤ (allChunks chunks fuel k s).currPos.toNat := by
  induction fuel generalizing k s with
  | zero =>
    rw [Nat.zero_mul, Nat.add_zero] at hfuel
    exact ⟨Advances.refl s, h, hfuel⟩
  | succ fuel ih =>
    have hsize := h.nextSize_eq
    have hrange := h.inRange
    -- a chunk that is not empty begins inside the data, and can be read
    have hout : s.nextSize ≠ 0 → chunks k = .hashed := by
      intro hne
      apply hchunks
      show k * 1024 < s.dataSize.toNat
      omega
    obtain ⟨hadv, hnext, hmoved⟩ := h.chunk hfits hout
    rw [allChunks]
    split
    · rename_i hlt
      have hlt := BitVec.lt_def.mp hlt
      rw [hadv.dataSize, hmoved] at hlt
      have hrest := ih (k + 1) hnext (by rw [hadv.dataOffset, hadv.dataSize]; exact hfits)
        (by rw [hmoved, hsize, hpos]; omega) (by rw [hadv.dataSize, hmoved]; omega)
        (by rw [hadv.dataSize]; exact hchunks)
      rw [hadv.dataSize] at hrest
      exact ⟨hadv.trans hrest.1, hrest.2⟩
    · rename_i hend
      refine ⟨hadv, hnext, ?_⟩
      rw [← hadv.dataSize]
      exact Nat.not_lt.mp (fun hlt => hend (BitVec.lt_def.mpr hlt))

theorem vbootHashStart_of_success {nonce : Nonce} {mode : Mode}
    (h : startCheck cfg offset size s = .success) :
    vbootHashStart cfg offset size nonce mode s =
      (.success, match mode with
        | .deferred => { s.started offset size nonce with deferred := true }
        | .blocking chunks => vbootHashAllChunks chunks (s.started offset size nonce)) := by
  unfold vbootHashStart State.started
  rw [h]
  cases mode with
  | deferred =>
    by_cases hlen : nonce.val.length ≠ 0
    · simp only [if_pos hlen]
    · simp only [if_neg hlen]
  | blocking chunks =>
    by_cases hlen : nonce.val.length ≠ 0
    · simp only [if_pos hlen]
    · simp only [if_neg hlen]

theorem vbootHashStart_of_ne {nonce : Nonce} {mode : Mode}
    (h : startCheck cfg offset size s ≠ .success) :
    vbootHashStart cfg offset size nonce mode s = (startCheck cfg offset size s, s) := by
  unfold vbootHashStart
  cases hcheck : startCheck cfg offset size s with
  | success => exact absurd hcheck h
  | inval => rfl
  | busy => rfl

theorem Inv.allChunks (h : Inv cfg s) (nonce : Nonce) {chunks : Nat → ChunkOutcome}
    (hcheck : startCheck cfg offset size s = .success)
    (hchunks : ∀ k, k * chunkSize < size.toNat → chunks k = .hashed) :
    Inv cfg (vbootHashAllChunks chunks (s.started offset size nonce)) ∧
      Advances (s.started offset size nonce).finish
        (vbootHashAllChunks chunks (s.started offset size nonce)) := by
  obtain ⟨hp, hfits⟩ := startCheck_fits hcheck
  obtain ⟨hinv, hh⟩ := h.started nonce hfits
  have hd : s.deferred = false := by
    refine eq_false_of_ne_true (fun hd => ?_)
    exact Bool.false_ne_true (hp.symm.trans (h.pending hd))
  -- one chunk more than the data has is enough for the loop to end
  have hfuel : (s.started offset size nonce).dataSize.toNat ≤
      (s.started offset size nonce).currPos.toNat +
        ((s.started offset size nonce).dataSize.toNat / chunkSize + 1) * 1024 := by
    show size.toNat ≤ 0 + (size.toNat / 1024 + 1) * 1024
    omega
  obtain ⟨hadv, hnext, hend⟩ := allChunks_spec _ 0 hh hinv.fits_le rfl hfuel hchunks
  rw [vbootHashAllChunks]
  refine ⟨Inv.finish ?_ (hadv.deferred.trans hd) hnext (by rw [hadv.dataSize]; exact hend), ?_⟩
  · constructor
    case fits => rw [hadv.dataOffset, hadv.dataSize]; exact hinv.fits
    case nonce => rw [hadv.nonce]; exact hinv.nonce
    case valid => exact hnext.absorbs.valid
    case pending => exact fun _ => hadv.inProgress
    case null => exact fun _ => hadv.hash
    case hashing => exact fun _ _ => hnext
    case done => exact fun hh => nomatch hadv.hash.symm.trans hh
  · exact hadv.finish

theorem Inv.start (h : Inv cfg s) (nonce : Nonce) (mode : Mode)
    (hmode : Meets cfg s (.start offset size nonce mode)) :
    Inv cfg (vbootHashStart cfg offset size nonce mode s).2 := by
  by_cases hcheck : startCheck cfg offset size s = .success
  · rw [vbootHashStart_of_success hcheck]
    cases mode with
    | deferred =>
      obtain ⟨hinv, hh⟩ := h.started nonce (startCheck_fits hcheck).2
      exact ⟨hinv.fits, hinv.nonce, hinv.valid, fun _ => rfl, fun _ => rfl,
        fun _ _ => ⟨hh.inRange, hh.absorbs⟩, nofun⟩
    | blocking chunks => exact (h.allChunks nonce hcheck (hmode hcheck)).1
  · rw [vbootHashStart_of_ne hcheck]
    exact h

/-! ## Changes of the flash -/

theorem Inv.physicalChange (h : Inv cfg s) {o n : Int} (contents : Nat → UInt8)
    (hhash : s.hash = true → n ≤ 0 ∨ o + n ≤ s.dataOffset.toNat ∨
      s.dataOffset.toNat + s.dataSize.toNat ≤ o)
    (hwant : s.inProgress = true → s.wantAbort = true) :
    Inv cfg (physicalChange o n contents s) := by
  constructor
  case fits => exact h.fits
  case nonce => exact h.nonce
  case valid => exact h.valid
  case pending => exact h.pending
  case null => exact h.null
  case hashing => exact fun hp hw => absurd ((hwant hp).symm.trans hw) Bool.noConfusion
  case done =>
    intro hh
    -- a hash that is kept is one of bytes that have not changed
    have hload : load (VbootHash.physicalChange o n contents s).flash s.dataOffset.toNat
        s.dataSize.toNat = load s.flash s.dataOffset.toNat s.dataSize.toNat := by
      refine Lib.load_congr (fun x hx hx' => if_neg ?_)
      rcases hhash hh with hempty | hbefore | hafter
      · omega
      · omega
      · omega
    show s.ctx.buf = sha256 (s.nonce ++ load _ s.dataOffset.toNat s.dataSize.toNat)
    rw [hload]
    exact h.done hh

theorem vbootHashInvalidate_spec (h : Inv cfg s) {o n : Int} (ho : 0 ≤ o)
    (hp : s.inProgress = false) :
    Inv cfg (vbootHashInvalidate o n s) ∧ (vbootHashInvalidate o n s).inProgress = false ∧
      ((vbootHashInvalidate o n s).hash = true →
        n ≤ 0 ∨ o + n ≤ (vbootHashInvalidate o n s).dataOffset.toNat ∨
          (vbootHashInvalidate o n s).dataOffset.toNat +
            (vbootHashInvalidate o n s).dataSize.toNat ≤ o) := by
  unfold vbootHashInvalidate
  by_cases hrange : o < 0 ∨ n ≤ 0 ∨ o + n < 0
  · rw [if_pos hrange]
    exact ⟨h, hp, fun _ => by omega⟩
  rw [if_neg hrange]
  by_cases hhash : s.hash = true
  · rw [if_neg (not_not.mpr hhash)]
    have hfits := h.fits_le
    have hsum : (s.dataOffset + s.dataSize).toNat = s.dataOffset.toNat + s.dataSize.toNat := by
      rw [BitVec.toNat_add]
      omega
    -- the hash is kept only if the range is beside the hashed data
    by_cases hoff : 0 < s.dataSize.toNat ∧ (o + n ≤ s.dataOffset.toNat ∨
        (s.dataOffset + s.dataSize).toNat ≤ o)
    · rw [if_pos hoff]
      refine ⟨h, hp, fun _ => Or.inr ?_⟩
      rw [hsum] at hoff
      exact hoff.2
    · rw [if_neg hoff]
      refine ⟨h.abort, ?_, ?_⟩
      · rw [vbootHashAbort, if_neg (ne_true_of_eq_false hp)]
        exact hp
      · rw [vbootHashAbort, if_neg (ne_true_of_eq_false hp)]
        exact fun hh => nomatch hh
  · rw [if_pos hhash]
    exact ⟨h, hp, fun hh => absurd hh hhash⟩

theorem Inv.changeFlash (h : Inv cfg s) (align : Nat) (o n : Int) (contents : Nat → UInt8) :
    Inv cfg (changeFlash cfg align o n contents s) := by
  unfold VbootHash.changeFlash
  split
  · rename_i hok
    unfold flashAbortOrInvalidateHash
    split
    · rename_i hp
      -- a hash under way is aborted before the flash changes
      refine h.abort.physicalChange contents ?_ ?_
      · intro hh
        rw [vbootHashAbort, if_pos hp] at hh
        exact absurd ((h.null hp).symm.trans hh) Bool.false_ne_true
      · intro _
        rw [vbootHashAbort, if_pos hp]
    · rename_i hp
      have hstart : 0 ≤ o := Int.not_lt.mp (fun hneg => hok (Or.inl hneg))
      obtain ⟨hinv, hidle, hkept⟩ :=
        vbootHashInvalidate_spec (n := n) h hstart (eq_false_of_ne_true hp)
      refine hinv.physicalChange contents hkept ?_
      intro hp'
      exact absurd (hidle.symm.trans hp') Bool.false_ne_true
  · exact h

/-! ## Runs -/

theorem Inv.boot (flash : Nat → UInt8) : Inv cfg (State.boot flash) where
  fits := Nat.zero_le _
  nonce := Nat.zero_le _
  valid := ⟨Nat.zero_lt_succ 63, rfl⟩
  pending := nofun
  null := nofun
  hashing := nofun
  done := nofun

theorem Inv.step (h : Inv cfg s) {e : Event} (he : Meets cfg s e) : Inv cfg (step cfg s e) := by
  cases e with
  | start offset size nonce mode => exact h.start nonce mode he
  | nextChunk outcome =>
    rw [VbootHash.step]
    split
    · rename_i hd
      exact h.nextChunk hd (he hd)
    · exact h
  | abort => exact h.abort
  | write o n contents => exact h.changeFlash cfg.writeSize o n contents
  | erase o n contents => exact h.changeFlash cfg.eraseSize o n contents

theorem reach_inv {flash : Nat → UInt8} (hr : Reach (step cfg) (Meets cfg) (State.boot flash) s) :
    Inv cfg s :=
  hr.invariant (Inv.boot flash) fun _ _ h he => h.step he

/-- In a run that skips no chunk, a hash that is reported is the hash of what is in flash: by
`fill_response`, and by a blocking call. -/
theorem hash_honest {flash : Nat → UInt8}
    (hr : Reach (step cfg) (Meets cfg) (State.boot flash) s) :
    (∀ requestOffset offset size digest,
      fillResponse cfg requestOffset s = .done offset size digest →
        digest = sha256 (s.nonce ++ load s.flash offset.toNat size.toNat)) ∧
    (∀ offset size chunks digest s',
      Meets cfg s (.start offset size ⟨[], Nat.zero_le _⟩ (.blocking chunks)) →
      vbootGetHash cfg offset size chunks s = ((.success, some digest), s') →
        digest = sha256 (load s'.flash offset.toNat size.toNat)) := by
  have h := reach_inv hr
  constructor
  · intro requestOffset offset size digest hdone
    unfold fillResponse at hdone
    split at hdone
    · exact nomatch hdone
    · split at hdone
      · rename_i hreport
        obtain ⟨rfl, rfl, rfl⟩ := Response.done.inj hdone
        exact h.done hreport.2.1
      · exact nomatch hdone
  · intro offset size chunks digest s' hmeets hget
    by_cases hcheck : startCheck cfg offset size s = .success
    · obtain ⟨hinv, hadv⟩ := h.allChunks ⟨[], Nat.zero_le _⟩ hcheck (hmeets hcheck)
      rw [vbootGetHash, vbootHashStart_of_success hcheck] at hget
      obtain ⟨hret, rfl⟩ := Prod.mk.inj hget
      have hhash : (vbootHashAllChunks chunks
          (s.started offset size ⟨[], Nat.zero_le _⟩)).hash = true := hadv.hash
      have hptr := (Prod.mk.inj hret).2
      dsimp only at hptr
      rw [if_pos hhash] at hptr
      have hdone := hinv.done hhash
      rw [State.message, hadv.nonce, hadv.dataOffset, hadv.dataSize] at hdone
      exact (Option.some.inj hptr).symm.trans hdone
    · rw [vbootGetHash, vbootHashStart_of_ne hcheck] at hget
      exact absurd (Prod.mk.inj (Prod.mk.inj hget).1).1 hcheck

def smallFlash : FlashConfig where
  flashSize := 4096
  flashSize_le := by decide
  writeSize := 1
  eraseSize := 1024
  roOffset := 0
  activeOffset := 2048
  updateOffset := 2048

def oneByte (outcome : ChunkOutcome) : State :=
  step smallFlash
    (step smallFlash (State.boot fun _ => 0xff) (.start 0 1 ⟨[], length_noNonce⟩ .deferred))
    (.nextChunk outcome)

theorem hash_honest_oneByte :
    Reach (step smallFlash) (Meets smallFlash) (State.boot fun _ => 0xff) (oneByte .hashed) ∧
      ∀ digest, fillResponse smallFlash 0 (oneByte .hashed) = .done 0 1 digest →
        digest = sha256 [0xff] := by
  have hr : Reach (step smallFlash) (Meets smallFlash) (State.boot fun _ => 0xff)
      (oneByte .hashed) := by
    refine .step (.step .start ?_) ?_
    · exact trivial
    · exact fun _ _ _ hbusy => nomatch hbusy
  exact ⟨hr, (hash_honest hr).1 0 0 1⟩

/-- The only chunk of a deferred hash meets shared memory in use: it is skipped, and the digest of
nothing is reported. -/
theorem skipped_chunk_reported :
    ∃ s digest, Reach (step smallFlash) (fun _ _ => True) (State.boot fun _ => 0xff) s ∧
      fillResponse smallFlash 0 s = .done 0 1 digest ∧
      digest ≠ sha256 (s.nonce ++ load s.flash 0 1) := by
  have hempty : (sha256Final (sha256Init (State.boot fun _ => 0xff).ctx)).buf = sha256 [] :=
    (sha256Init_absorbs rfl).final (by decide)
  refine ⟨oneByte .busy, sha256 [], ?_, ?_, ?_⟩
  · exact .step (.step .start trivial) trivial
  · -- nothing was taken in
    rw [← hempty]
    rfl
  · decide +kernel

end ChromiumEc.VbootHash
