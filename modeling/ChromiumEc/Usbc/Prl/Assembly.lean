import ChromiumEc.Usbc.Prl.Buffer

/-!
# Assembly — the bytes of a received message

RCH puts an extended message together in `rx_emsg.buf`, one piece for each chunk.  The length of a
piece comes from the data size of the chunk's extended header and the bytes received so far, never
from the number of data objects the frame carried.  The copy stays inside the buffer in every run;
the bytes are those of the chunk only when the frame carried as many as it announced.
-/

namespace ChromiumEc.Usbc

/-- The bytes of the data objects a message carried. -/
def RxContents.carried (c : RxContents) : List UInt8 :=
  c.chkBuf.take (4 * pdHeaderCnt c.header)

/-- What was copied to `rx_emsg.buf` since the last copy to its start. -/
def assembled : List Obs → List UInt8
  | [] => []
  | .copied off bytes _ :: t => if off = 0 then bytes else assembled t ++ bytes
  | _ :: t => assembled t

/-- Every copy to `rx_emsg.buf + off` satisfies `Q`. -/
def Copies (Q : Nat → List UInt8 → RxContents → Prop) (trace : List Obs) : Prop :=
  ∀ off bytes owed, .copied off bytes owed ∈ trace → Q off bytes owed

/-- A copy that does not go past the end of `rx_emsg.buf`. -/
def CopyInside (off : Nat) (bytes : List UInt8) (_ : RxContents) : Prop :=
  off + bytes.length ≤ extendedBufferSize

/-- A copy of bytes that were carried by the message it is made for. -/
def CopyCarried (_ : Nat) (bytes : List UInt8) (owed : RxContents) : Prop :=
  bytes <:+: owed.carried

/-- A message that is passed up consists of the pieces copied for it. -/
def PassesUpPieces (trace : List Obs) : Prop :=
  ∀ t msg t', trace = t ++ .peMessageReceived msg :: t' →
    msg.len = 0 ∨ msg.buf.take msg.len = assembled t'

theorem assembled_append {t t' : List Obs} (ht : ∀ o ∈ t, o.ofReception = false) :
    assembled (t ++ t') = assembled t' := by
  induction t with
  | nil => rfl
  | cons o t ih =>
    have ho := ht o (by simp)
    have ih' := ih fun o' ho' => ht o' (by simp [ho'])
    cases o with
    | copied off bytes owed => simp [Obs.ofReception] at ho
    | _ => exact ih'

theorem PassesUpPieces.cons {o : Obs} {t : List Obs} (h : PassesUpPieces t)
    (ho : ∀ msg, o = .peMessageReceived msg → msg.len = 0 ∨ msg.buf.take msg.len = assembled t) :
    PassesUpPieces (o :: t) := by
  intro t₁ msg t₂ heq
  cases t₁ with
  | nil =>
    obtain ⟨hmsg, rfl⟩ := List.cons.inj heq
    exact ho msg hmsg
  | cons o' t₁ => exact h t₁ msg t₂ (List.cons.inj heq).2

theorem PassesUpPieces.append {t t' : List Obs} (ht : ∀ o ∈ t, o.ofReception = false)
    (h : PassesUpPieces t') : PassesUpPieces (t ++ t') := by
  induction t with
  | nil => exact h
  | cons o t ih =>
    refine (ih fun o' ho' => ht o' (by simp [ho'])).cons fun msg hmsg => ?_
    have ho := ht o (by simp)
    simp [hmsg, Obs.ofReception] at ho

namespace Prl

variable {s s' : Prl} {react : PeReaction} {Q : Nat → List UInt8 → RxContents → Prop}

/-! ## The invariant -/

def RchChunking (s : Prl) : Prop :=
  s.rch.state = .processingExtendedMessage ∨ s.rch.state = .requestingChunk ∨
    s.rch.state = .waitingChunk

/-- What RCH knows of the message it is putting together. -/
structure Pieces (s : Prl) : Prop where
  count : s.pdmsg.numBytesReceived = 26 * s.pdmsg.chunkNumberExpected
  inside : s.pdmsg.numBytesReceived ≤ extendedBufferSize
  bytes : s.pdmsg.numBytesReceived ≠ 0 →
    s.rxEmsg.buf.take s.pdmsg.numBytesReceived = assembled s.trace

/-- The blocks keep their lengths, and what was copied and passed up is in order. -/
structure Blocks (Q : Nat → List UInt8 → RxContents → Prop) (s : Prl) : Prop where
  txChkBuf : s.pdmsg.txChkBuf.length = chkBufSizeBytes
  rxChkBuf : s.pdmsg.rxChkBuf.length = chkBufSizeBytes
  buf : s.rxEmsg.buf.length = extendedBufferSize
  copies : Copies Q s.trace
  passedUp : PassesUpPieces s.trace

/-- In the middle of a message `rx_emsg.buf` starts with the pieces received so far. -/
structure Assembled (Q : Nat → List UInt8 → RxContents → Prop) (s : Prl) : Prop
    extends Blocks Q s where
  pieces : RchChunking s → Pieces s

theorem RchChunking.of_frame (hf : RxFrame s s') (h : RchChunking s') : RchChunking s := by
  rcases hf.rch with heq | heq
  · simpa only [RchChunking, heq] using h
  · simp [RchChunking, heq] at h

theorem Pieces.frame (hd : RxData s s') (h : Pieces s) : Pieces s' := by
  obtain ⟨t, ht, hq⟩ := hd.trace
  refine ⟨?_, ?_, fun hne => ?_⟩
  · rw [hd.numBytesReceived, hd.chunkNumberExpected]
    exact h.count
  · rw [hd.numBytesReceived]
    exact h.inside
  · rw [hd.numBytesReceived] at hne ⊢
    rw [ht, assembled_append hq, hd.rxEmsg]
    exact h.bytes hne

theorem Blocks.frame (hd : RxData s s') (h : Blocks Q s) : Blocks Q s' := by
  obtain ⟨t, ht, hq⟩ := hd.trace
  refine
    { txChkBuf := hd.txChkBuf h.txChkBuf
      rxChkBuf := by rw [hd.rxChkBuf]; exact h.rxChkBuf
      buf := by rw [hd.rxEmsg]; exact h.buf
      copies := ?_
      passedUp := by rw [ht]; exact h.passedUp.append hq }
  intro off bytes owed hmem
  rw [ht] at hmem
  rcases List.mem_append.mp hmem with hmem | hmem
  · exact absurd (hq _ hmem) (by simp [Obs.ofReception])
  · exact h.copies off bytes owed hmem

theorem Assembled.frame (hf : RxFrame s s') (h : Assembled Q s) : Assembled Q s' :=
  { h.toBlocks.frame hf.toRxData with
    pieces := fun hc => (h.pieces (hc.of_frame hf)).frame hf.toRxData }

theorem Blocks.emit {o : Obs} (ho : ∀ off bytes owed, o ≠ .copied off bytes owed)
    (hmsg : ∀ msg, o = .peMessageReceived msg →
      msg.len = 0 ∨ msg.buf.take msg.len = assembled s.trace)
    (h : Blocks Q s) : Blocks Q (s.emit o) :=
  { h with
    copies := fun off bytes owed hmem =>
      h.copies off bytes owed ((List.mem_cons.mp hmem).resolve_left (ho off bytes owed).symm)
    passedUp := h.passedUp.cons hmsg }

theorem Pieces.emit {o : Obs} (ho : ∀ off bytes owed, o ≠ .copied off bytes owed)
    (h : Pieces s) : Pieces (s.emit o) := by
  have hasm : assembled (o :: s.trace) = assembled s.trace := by
    cases o with
    | copied off bytes owed => exact absurd rfl (ho off bytes owed)
    | _ => rfl
  exact { h with bytes := fun hne => (h.bytes hne).trans hasm.symm }

theorem blocks_copyToRxEmsg {off : Nat} {bytes : List UInt8} {owed : RxContents} (h : Blocks Q s)
    (hfit : off + bytes.length ≤ extendedBufferSize) (hQ : Q off bytes owed) :
    Blocks Q (copyToRxEmsg off bytes owed s) where
  txChkBuf := h.txChkBuf
  rxChkBuf := h.rxChkBuf
  buf := by
    simp only [copyToRxEmsg]
    rw [Lib.length_memcpy (by rw [h.buf]; exact hfit), h.buf]
  copies off' bytes' owed' hmem := by
    rcases List.mem_cons.mp hmem with heq | hmem
    · cases heq
      exact hQ
    · exact h.copies off' bytes' owed' hmem
  passedUp := h.passedUp.cons (by simp)

/-! ## RCH -/

theorem length_take_rxChkBuf (h : Blocks Q s) :
    (s.pdmsg.rxChkBuf.take (pdHeaderCnt s.rxEmsg.header * 4)).length =
      pdHeaderCnt s.rxEmsg.header * 4 := by
  have hcnt := pdHeaderCnt_le s.rxEmsg.header
  rw [List.length_take, h.rxChkBuf, chkBufSizeBytes]
  omega

/-- The copy of `copy_chunk_to_ext` satisfies `Q`. -/
def ExtCopy (Q : Nat → List UInt8 → RxContents → Prop) (s : Prl) : Prop :=
  Q 0 (s.pdmsg.rxChkBuf.take (pdHeaderCnt s.rxEmsg.header * 4)) s.ghost.rchMsg

theorem blocks_copyChunkToExt (h : Blocks Q s) (hext : ExtCopy Q s) : Blocks Q (copyChunkToExt s) := by
  have hcnt := pdHeaderCnt_le s.rxEmsg.header
  have hfit : 0 + (s.pdmsg.rxChkBuf.take (pdHeaderCnt s.rxEmsg.header * 4)).length ≤
      extendedBufferSize := by
    rw [length_take_rxChkBuf h, extendedBufferSize]
    omega
  exact { blocks_copyToRxEmsg h hfit hext with }

theorem copyChunkToExt_pieces (h : Blocks Q s) :
    (copyChunkToExt s).rxEmsg.buf.take (copyChunkToExt s).rxEmsg.len =
      assembled (copyChunkToExt s).trace := by
  have htake := Lib.take_memcpy_zero s.rxEmsg.buf
    (s.pdmsg.rxChkBuf.take (pdHeaderCnt s.rxEmsg.header * 4))
  rw [length_take_rxChkBuf h] at htake
  exact htake

theorem blocks_rchReportErrorEntry (h : Blocks Q s)
    (hext : s.rch.flags.msgReceived = true → ExtCopy Q s) : Blocks Q (rchReportErrorEntry react s) := by
  unfold rchReportErrorEntry
  split_ifs with hr
  · have hread : Blocks Q { s.readFor s.ghost.rchMsg with rch.flags.msgReceived := false } :=
      { h.emit (o := .chkBufRead s.rxContents s.ghost.rchMsg) (by simp) (by simp) with }
    refine Blocks.frame (rxFrame_peReportError react _ _ _).toRxData ?_
    refine (blocks_copyChunkToExt hread (hext hr)).emit (by simp) fun msg hmsg => .inr ?_
    cases hmsg
    exact copyChunkToExt_pieces hread
  · exact h.frame (rxFrame_peReportError react _ _ _).toRxData

theorem notChunking_rchReportErrorEntry (hs : s.rch.state = .reportError) :
    ¬ RchChunking (rchReportErrorEntry react s) := by
  have hrep : ¬ RchChunking s := by simp [RchChunking, hs]
  unfold rchReportErrorEntry
  split_ifs
  all_goals
    intro hc
    have hc' := hc.of_frame (rxFrame_peReportError react _ _ _)
    exact hrep hc'

theorem assembled_setRchWait (h : Blocks Q s) : Assembled Q (setRchWait s) :=
  { h.frame (rxFrame_setRchWait s).toRxData with
    pieces := fun hc => by simp [RchChunking] at hc }

/-- A chunking state is entered with the pieces received so far, and a message is passed up that
consists of its pieces. -/
theorem assembled_setStateRch {new : RchState} (h : Blocks Q s)
    (hext : new = .reportError → s.rch.flags.msgReceived = true → ExtCopy Q s)
    (hp : new = .processingExtendedMessage ∨ new = .requestingChunk ∨ new = .waitingChunk →
      Pieces s)
    (hmsg : new = .passUpMessage →
      s.rxEmsg.len = 0 ∨ s.rxEmsg.buf.take s.rxEmsg.len = assembled s.trace) :
    Assembled Q (setStateRch react new s) := by
  cases new with
  | waitForMessageFromProtocolLayer => exact assembled_setRchWait h
  | passUpMessage =>
    refine setRch_rule (fun hs => { h with pieces := fun hc => by simp [RchChunking, hs] at hc })
      (fun _ => ?_)
    refine Assembled.frame (rxFrame_setRchWait _) ?_
    -- the message that the policy engine gets is what was assembled
    have hemit := h.emit (o := .peMessageReceived s.rxEmsg) (by simp) fun msg heq => by
      cases heq
      exact hmsg rfl
    exact { hemit with pieces := fun hc => by simp [RchChunking, peMessageReceived, emit] at hc }
  | processingExtendedMessage =>
    have hp' := hp (.inl rfl)
    exact setRch_rule (fun _ => { h with pieces := fun _ => hp' })
      (fun _ => { h with pieces := fun _ => { hp' with } })
  | requestingChunk =>
    have hp' := hp (.inr (.inl rfl))
    refine setRch_rule (fun _ => { h with pieces := fun _ => hp' }) (fun _ => ?_)
    have hemit := h.emit (o := .txWaitStarts s.pdmsg.flags.txError) (by simp) (by simp)
    have hpemit := hp'.emit (o := .txWaitStarts s.pdmsg.flags.txError) (by simp)
    refine { hemit with txChkBuf := ?_, pieces := fun _ => { hpemit with } }
    have hfit : 0 + (le32 (pdExtHeader s.pdmsg.chunkNumberExpected 1 0)).length ≤
        s.pdmsg.txChkBuf.length := by
      rw [h.txChkBuf, length_le32]
      decide
    exact (Lib.length_memcpy hfit).trans h.txChkBuf
  | waitingChunk =>
    have hp' := hp (.inr (.inr rfl))
    exact setRch_rule (fun _ => { h with pieces := fun _ => hp' })
      (fun _ => { h with pieces := fun _ => { hp' with } })
  | reportError =>
    refine setRch_rule (fun hs => { h with pieces := fun hc => by simp [RchChunking, hs] at hc })
      (fun _ => ?_)
    have hmove : Blocks Q { s with
        timers := rchExit s.rch.state s.timers, rch.state := .reportError } := { h with }
    refine { blocks_rchReportErrorEntry hmove (hext rfl) with pieces := fun hc => ?_ }
    exact absurd hc (notChunking_rchReportErrorEntry rfl)

theorem assembled_rchFail {e : PeError} (h : Blocks Q s)
    (hext : s.rch.flags.msgReceived = true → ExtCopy Q s) : Assembled Q (rchFail react e s) :=
  assembled_setStateRch { h with } (fun _ => hext) (by simp) (by simp)

theorem Blocks.readFor {owed : RxContents} (h : Blocks Q s) : Blocks Q (s.readFor owed) :=
  h.emit (by simp) (by simp)

theorem assembled_rchWaitForMessageFromProtocolLayerRun (h : Assembled Q s)
    (hext : s.rch.flags.msgReceived = true → ExtCopy Q s) :
    Assembled Q (rchWaitForMessageFromProtocolLayerRun react s) := by
  have hread : Blocks Q { s.readFor s.ghost.rchMsg with rch.flags.msgReceived := false } :=
    { h.toBlocks.readFor with }
  unfold rchWaitForMessageFromProtocolLayerRun
  split_ifs with hr
  · have hcopy := blocks_copyChunkToExt hread (hext hr)
    simp only
    split_ifs
    · refine assembled_setStateRch { hread with } (by simp) (fun _ => ?_) (by simp)
      exact ⟨rfl, Nat.zero_le _, fun hne => absurd rfl hne⟩
    · exact assembled_setStateRch hcopy (by simp) (by simp)
        fun _ => .inr (copyChunkToExt_pieces hread)
    · exact assembled_rchFail hread (by simp)
    · exact assembled_setStateRch hcopy (by simp) (by simp)
        fun _ => .inr (copyChunkToExt_pieces hread)
    · exact assembled_rchFail hread (by simp)
  · exact h

theorem chunkByteNum_eq_min (s : Prl) :
    chunkByteNum s = min pdMaxExtendedMsgChunkLen
      ((pdExtHeaderDataSize (getExtHeader s.pdmsg.rxChkBuf) + 2 ^ 32 - s.pdmsg.numBytesReceived) %
        2 ^ 32) := by
  unfold chunkByteNum
  simp only
  generalize (pdExtHeaderDataSize (getExtHeader s.pdmsg.rxChkBuf) + 2 ^ 32 -
    s.pdmsg.numBytesReceived) % 2 ^ 32 = n
  by_cases hn : n ≥ pdMaxExtendedMsgChunkLen
  · rw [if_pos hn, Nat.min_eq_left hn]
  · rw [if_neg hn, Nat.min_eq_right (Nat.le_of_not_le hn)]

theorem chunkByteNum_le (s : Prl) : chunkByteNum s ≤ 26 := by
  rw [chunkByteNum_eq_min]
  exact Nat.min_le_left _ _

theorem chunkByteNum_eq (hin : s.pdmsg.numBytesReceived ≤ extendedBufferSize)
    (hmore : s.pdmsg.numBytesReceived + chunkByteNum s <
      pdExtHeaderDataSize (getExtHeader s.pdmsg.rxChkBuf)) : chunkByteNum s = 26 := by
  have hsize := pdExtHeaderDataSize_lt (getExtHeader s.pdmsg.rxChkBuf)
  rw [chunkByteNum_eq_min] at hmore ⊢
  rw [pdMaxExtendedMsgChunkLen] at hmore ⊢
  rw [extendedBufferSize] at hin
  omega

theorem length_piece (h : Blocks Q s) :
    ((s.pdmsg.rxChkBuf.drop 2).take (chunkByteNum s)).length = chunkByteNum s := by
  have hle := chunkByteNum_le s
  rw [List.length_take, List.length_drop, h.rxChkBuf, chkBufSizeBytes]
  omega

theorem appendPiece_bytes (h : Blocks Q s) (hp : Pieces s) (bytes : List UInt8)
    (owed : RxContents) :
    (copyToRxEmsg s.pdmsg.numBytesReceived bytes owed s).rxEmsg.buf.take
        (s.pdmsg.numBytesReceived + bytes.length) =
      assembled (copyToRxEmsg s.pdmsg.numBytesReceived bytes owed s).trace := by
  have hoff : s.pdmsg.numBytesReceived ≤ s.rxEmsg.buf.length := by
    rw [h.buf]
    exact hp.inside
  have htake : (copyToRxEmsg s.pdmsg.numBytesReceived bytes owed s).rxEmsg.buf.take
      (s.pdmsg.numBytesReceived + bytes.length) =
        s.rxEmsg.buf.take s.pdmsg.numBytesReceived ++ bytes := Lib.take_memcpy hoff
  rw [htake]
  simp only [copyToRxEmsg, emit, assembled]
  -- the first piece starts a new message
  by_cases hzero : s.pdmsg.numBytesReceived = 0
  · simp [hzero]
  · rw [if_neg hzero, hp.bytes hzero]

theorem appendPiece (h : Blocks Q s) (hp : Pieces s) {bytes : List UInt8} {n : Nat}
    {owed : RxContents} (hlen : bytes.length = n)
    (hfit : s.pdmsg.numBytesReceived + n ≤ extendedBufferSize)
    (hQ : Q s.pdmsg.numBytesReceived bytes owed) :
    Blocks Q (copyToRxEmsg s.pdmsg.numBytesReceived bytes owed s) ∧
      (copyToRxEmsg s.pdmsg.numBytesReceived bytes owed s).rxEmsg.buf.take
          (s.pdmsg.numBytesReceived + n) =
        assembled (copyToRxEmsg s.pdmsg.numBytesReceived bytes owed s).trace := by
  subst hlen
  exact ⟨blocks_copyToRxEmsg h hfit hQ, appendPiece_bytes h hp bytes owed⟩

/-- The copy of `rch_processing_extended_message_run`, where it makes one, satisfies `Q`. -/
def ChunkCopy (Q : Nat → List UInt8 → RxContents → Prop) (s : Prl) : Prop :=
  s.pdmsg.flags.abort = false →
    pdExtHeaderChunkNum (getExtHeader s.pdmsg.rxChkBuf) = s.pdmsg.chunkNumberExpected →
    s.pdmsg.numBytesReceived + chunkByteNum s ≤ extendedBufferSize →
    Q s.pdmsg.numBytesReceived ((s.pdmsg.rxChkBuf.drop 2).take (chunkByteNum s)) s.ghost.rchChunk

theorem assembled_rchProcessingExtendedMessageRun (h : Assembled Q s)
    (hs : s.rch.state = .processingExtendedMessage)
    (hext : s.rch.flags.msgReceived = true → ExtCopy Q s) (hchunk : ChunkCopy Q s) :
    Assembled Q (rchProcessingExtendedMessageRun react s) := by
  have hread : Blocks Q (s.readFor s.ghost.rchChunk) := h.toBlocks.readFor
  have hp : Pieces (s.readFor s.ghost.rchChunk) := (h.pieces (.inl hs)).emit (by simp)
  have hext' : (s.readFor s.ghost.rchChunk).rch.flags.msgReceived = true →
      ExtCopy Q (s.readFor s.ghost.rchChunk) := hext
  have hchunk' : ChunkCopy Q (s.readFor s.ghost.rchChunk) := hchunk
  unfold rchProcessingExtendedMessageRun
  generalize s.readFor s.ghost.rchChunk = r at hread hp hext' hchunk'
  have hlen := length_piece hread
  have hfull := chunkByteNum_eq hp.inside
  unfold ChunkCopy at hchunk'
  simp only
  generalize chunkByteNum r = n at hlen hfull hchunk'
  split_ifs with habort hnum hbig hlast
  · exact assembled_setRchWait hread
  · exact assembled_rchFail hread hext'
  · obtain ⟨hcopy, hbytes⟩ := appendPiece hread hp hlen (not_lt.mp hbig)
      (hchunk' (by simpa using habort) hnum (not_lt.mp hbig))
    exact assembled_setStateRch { hcopy with } (by simp) (by simp) fun _ => .inr hbytes
  · obtain ⟨hcopy, hbytes⟩ := appendPiece hread hp hlen (not_lt.mp hbig)
      (hchunk' (by simpa using habort) hnum (not_lt.mp hbig))
    -- a chunk that is not the last one is full
    have hcount : r.pdmsg.numBytesReceived + n = 26 * (r.pdmsg.chunkNumberExpected + 1) := by
      rw [hfull (not_le.mp hlast), hp.count, Nat.mul_add_one]
    refine assembled_setStateRch { hcopy with } (by simp) (fun _ => ?_) (by simp)
    exact ⟨hcount, not_lt.mp hbig, fun _ => hbytes⟩
  · exact assembled_rchFail hread hext'

theorem assembled_rchRun (h : Assembled Q s)
    (hext : s.rch.flags.msgReceived = true → ExtCopy Q s)
    (hchunk : s.rch.state = .processingExtendedMessage → ChunkCopy Q s) :
    Assembled Q (rchRun react s) := by
  unfold rchRun
  cases hs : s.rch.state with
  | waitForMessageFromProtocolLayer => exact assembled_rchWaitForMessageFromProtocolLayerRun h hext
  | passUpMessage => exact h
  | processingExtendedMessage =>
    exact assembled_rchProcessingExtendedMessageRun h hs hext (hchunk hs)
  | requestingChunk =>
    have hp := h.pieces (.inr (.inl hs))
    simp only [rchRequestingChunkRun]
    split_ifs
    · exact assembled_setStateRch { h.toBlocks with } (by simp) (fun _ => { hp with }) (by simp)
    · exact assembled_rchFail h.toBlocks hext
    · exact assembled_setStateRch h.toBlocks (by simp) (fun _ => hp) (by simp)
    · exact h
  | waitingChunk =>
    have hp := (h.pieces (.inr (.inr hs))).emit
      (o := .chkBufRead s.rxContents s.ghost.rchMsg) (by simp)
    have hread : Blocks Q (s.readFor s.ghost.rchMsg) := h.toBlocks.readFor
    simp only [rchWaitingChunkRun]
    split_ifs
    · exact assembled_rchFail { hread with } hext
    · exact assembled_setStateRch { hread with } (by simp) (fun _ => { hp with }) (by simp)
    · exact { hread with pieces := fun _ => { hp with } }
    · exact assembled_rchFail h.toBlocks hext
    · exact h
  | reportError => exact assembled_setRchWait h.toBlocks

/-! ## Message reception and TCH -/

theorem Assembled.received (hrx : Received s s') (h : Assembled Q s) : Assembled Q s' := by
  -- a frame that is taken from the queue replaces the chunk buffer, and no piece is in it
  have hdeq (frame : Frame) (rest : List Frame) : Assembled Q (rxDequeue frame rest s) :=
    { h with
      rxChkBuf := frame.payload_length
      pieces := fun hc => { h.pieces hc with } }
  cases hrx with
  | nothing => exact h
  | dropped _ _ hf => exact (hdeq _ _).frame hf
  | @ping _ _ s₁ _ _ hk =>
    have h₁ := (hdeq _ _).frame hk.frame
    have hemit : Blocks Q (peMessageReceived { s₁ with rxEmsg.len := 0 }) :=
      Blocks.emit (by simp) (fun msg heq => by cases heq; exact .inl rfl) { h₁.toBlocks with }
    have hpieces (hc : RchChunking s₁) : Pieces (peMessageReceived { s₁ with rxEmsg.len := 0 }) :=
      Pieces.emit (by simp) { h₁.pieces hc with }
    exact { hemit with pieces := hpieces }
  | @toTch _ _ s₁ _ _ hk _ =>
    have h₁ := (hdeq _ _).frame hk.frame
    exact { h₁ with pieces := fun hc => { h₁.pieces hc with } }
  | @toRch _ _ s₁ _ _ hk _ _ =>
    have h₁ := (hdeq _ _).frame hk.frame
    exact { h₁ with pieces := fun hc => { h₁.pieces hc with } }

theorem assembled_setTch {new : TchState} {entry : Prl → Prl} (h : Assembled Q s)
    (he : ∀ s, Assembled Q s → Assembled Q (entry s)) : Assembled Q (setTch new entry s) := by
  refine setTch_rule (fun _ => h) (fun _ => he _ ?_)
  exact { h with pieces := fun hc => { h.pieces hc with } }

theorem Assembled.emit {o : Obs} (ho : o.ofReception = false) (h : Assembled Q s) :
    Assembled Q (s.emit o) :=
  h.frame ((RxFrame.refl s).emit ho)

theorem assembled_setTchMessageReceived (h : Assembled Q s) :
    Assembled Q (setTchMessageReceived s) := by
  refine assembled_setTch h fun s h => ?_
  unfold tchMessageReceivedEntry
  simp only
  split_ifs
  · have hemit := h.emit (o := .peReportDiscard) rfl
    exact { hemit with pieces := fun hc => { hemit.pieces hc with } }
  · exact { h with pieces := fun hc => { h.pieces hc with } }

theorem assembled_tchAfterAnswer (h : Assembled Q s) : Assembled Q (tchAfterAnswer s) := by
  unfold tchAfterAnswer
  split_ifs
  · refine assembled_setTchMessageReceived ?_
    exact { h with pieces := fun hc => { h.pieces hc with } }
  · exact h.frame (rxFrame_setTchWait s)

theorem nextChunkLen_le (s : Prl) : nextChunkLen s ≤ pdMaxExtendedMsgChunkLen := by
  unfold nextChunkLen
  simp only
  generalize (s.txEmsg.len + 2 ^ 32 - s.pdmsg.sendOffset) % 2 ^ 32 % 2 ^ 16 = n
  by_cases hn : n > pdMaxExtendedMsgChunkLen
  · rw [if_pos hn]
  · rw [if_neg hn]
    exact not_lt.mp hn

theorem length_chunkBufs {bufs hdr data : List UInt8} (hbufs : bufs.length = 56)
    (hhdr : hdr.length = 2) (hdata : data.length ≤ pdMaxExtendedMsgChunkLen) :
    (Lib.memcpy (Lib.memset (Lib.memcpy bufs 0 hdr) 2 0 chkBufSizeBytes) 2 data).length = 56 := by
  rw [pdMaxExtendedMsgChunkLen] at hdata
  have h₁ : (Lib.memcpy bufs 0 hdr).length = 56 := by
    rw [Lib.length_memcpy (by omega), hbufs]
  have h₂ : (Lib.memset (Lib.memcpy bufs 0 hdr) 2 0 chkBufSizeBytes).length = 56 := by
    rw [Lib.length_memset (by rw [h₁]; decide), h₁]
  rw [Lib.length_memcpy (by omega), h₂]

theorem Assembled.setChkBufs {txBuf rxBuf : List UInt8} (h : Assembled Q s)
    (htx : txBuf.length = chkBufSizeBytes) (hrx : rxBuf.length = chkBufSizeBytes) :
    Assembled Q { s with pdmsg.txChkBuf := txBuf, pdmsg.rxChkBuf := rxBuf } :=
  { h with txChkBuf := htx, rxChkBuf := hrx, pieces := fun hc => { h.pieces hc with } }

theorem assembled_tchConstructChunkedMessageEntry (h : Assembled Q s) :
    Assembled Q (tchConstructChunkedMessageEntry s) := by
  unfold tchConstructChunkedMessageEntry
  split_ifs
  · refine assembled_setTchMessageReceived ?_
    exact { h with pieces := fun hc => { h.pieces hc with } }
  · have hdata : ((s.txEmsg.buf.drop s.pdmsg.sendOffset).take (nextChunkLen s)).length ≤
        pdMaxExtendedMsgChunkLen :=
      (List.length_take_le _ _).trans (nextChunkLen_le s)
    -- the two chunk buffers are written as one, and cut again
    have hlen : (s.pdmsg.txChkBuf ++ s.pdmsg.rxChkBuf).length = 56 := by
      rw [List.length_append, h.txChkBuf, h.rxChkBuf]
      rfl
    have hbufs := length_chunkBufs hlen
      (length_le16 (pdExtHeader s.pdmsg.chunkNumberToSend 0 s.txEmsg.len)) hdata
    simp only
    generalize Lib.memcpy (Lib.memset (Lib.memcpy (s.pdmsg.txChkBuf ++ s.pdmsg.rxChkBuf) 0
      (le16 (pdExtHeader s.pdmsg.chunkNumberToSend 0 s.txEmsg.len))) 2 0 chkBufSizeBytes) 2
      ((s.txEmsg.buf.drop s.pdmsg.sendOffset).take (nextChunkLen s)) = bufs at hbufs ⊢
    generalize nextChunkLen s = num
    have htx : (bufs.take chkBufSizeBytes).length = chkBufSizeBytes := by
      rw [List.length_take, hbufs]
      rfl
    have hrx : (bufs.drop chkBufSizeBytes).length = chkBufSizeBytes := by
      rw [List.length_drop, hbufs]
      rfl
    have h' := h.setChkBufs htx hrx
    exact { h' with pieces := fun hc => { h'.pieces hc with } }

theorem assembled_setStateTch {new : TchState} (h : Assembled Q s) :
    Assembled Q (setStateTch react new s) := by
  cases new with
  | waitForMessageRequestFromPe => exact h.frame (rxFrame_setTchWait s)
  | messageReceived => exact assembled_setTchMessageReceived h
  | messageSent => exact assembled_setTch h fun _ h => assembled_tchAfterAnswer (h.emit rfl)
  | reportError =>
    refine assembled_setTch h fun s h => assembled_tchAfterAnswer ?_
    exact h.frame (rxFrame_peReportError react _ _ s)
  | constructChunkedMessage =>
    exact assembled_setTch h fun _ h => assembled_tchConstructChunkedMessageEntry h
  | waitForTransmissionComplete | sendingChunkedMessage =>
    exact assembled_setTch h fun _ h => h.emit rfl
  | waitChunkRequest =>
    exact assembled_setTch h fun _ h => { h with pieces := fun hc => { h.pieces hc with } }

theorem assembled_tchRun (h : Assembled Q s) : Assembled Q (tchRun react s) := by
  have hsame {s' : Prl} (hk : RxKept s s') : Assembled Q s' := h.frame hk.frame
  unfold tchRun
  cases s.tch.state with
  | waitForMessageRequestFromPe =>
    have hreq : Assembled Q { s with
        tch.flags.msgXmit := false, ghost.tchSending := s.ghost.tchRequest } :=
      { h with pieces := fun hc => { h.pieces hc with } }
    simp only [tchWaitForMessageRequestFromPeRun]
    split_ifs
    · exact assembled_setStateTch { h with pieces := fun hc => { h.pieces hc with } }
    · exact assembled_setStateTch { h with pieces := fun hc => { h.pieces hc with } }
    · exact assembled_setStateTch { h with pieces := fun hc => { h.pieces hc with } }
    · have hcopy := hreq.frame (rxKept_prlCopyMsgToBuffer _).frame
      exact assembled_setStateTch { hcopy with pieces := fun hc => { hcopy.pieces hc with } }
    · exact h
  | waitForTransmissionComplete =>
    have herr := h.emit (o := .txErrorTaken s.ghost.failed s.ghost.tchSending) rfl
    simp only [tchWaitForTransmissionCompleteRun]
    split_ifs
    · exact assembled_setStateTch { h with pieces := fun hc => { h.pieces hc with } }
    · exact assembled_setStateTch { herr with pieces := fun hc => { herr.pieces hc with } }
    · exact assembled_setStateTch { h with pieces := fun hc => { h.pieces hc with } }
    · exact h
  | constructChunkedMessage =>
    simp only [tchConstructChunkedMessageRun]
    split_ifs
    · exact h.frame (rxFrame_setTchWait s)
    · exact assembled_setStateTch h
  | sendingChunkedMessage =>
    have herr := h.emit (o := .txErrorTaken s.ghost.failed s.ghost.tchSending) rfl
    simp only [tchSendingChunkedMessageRun]
    split_ifs
    · exact assembled_setStateTch { herr with pieces := fun hc => { herr.pieces hc with } }
    · exact assembled_setStateTch { h with pieces := fun hc => { h.pieces hc with } }
    · exact assembled_setStateTch { h with pieces := fun hc => { h.pieces hc with } }
    · exact assembled_setStateTch { h with pieces := fun hc => { h.pieces hc with } }
    · exact h
  | waitChunkRequest =>
    have hread : Assembled Q (s.readFor s.ghost.tchMsg) :=
      { h.toBlocks.readFor with pieces := fun hc => (h.pieces hc).emit (by simp) }
    simp only [tchWaitChunkRequestRun]
    split_ifs
    · exact assembled_setStateTch { hread with pieces := fun hc => { hread.pieces hc with } }
    · exact assembled_setStateTch { hread with pieces := fun hc => { hread.pieces hc with } }
    · exact assembled_setStateTch { hread with pieces := fun hc => { hread.pieces hc with } }
    · exact assembled_setStateTch h
    · exact h
  | messageReceived => exact h.frame (rxFrame_setTchWait s)
  | messageSent | reportError => exact h

theorem assembled_boot (env : PrlEnv) : Assembled Q (boot env) where
  txChkBuf := rfl
  rxChkBuf := rfl
  buf := by simp [boot]
  pieces hc := by simp [RchChunking, boot] at hc
  copies := by simp [Copies, boot]
  passedUp := by simp [PassesUpPieces, boot]

/-! ## Every run -/

/-- The number of bytes the chunk in the receive buffer announces: what is left of the data size
after the full chunks before it, and a full chunk when nothing is left. -/
def announcedBytes (c : RxContents) : Nat :=
  let size := pdExtHeaderDataSize (getExtHeader c.chkBuf)
  let before := 26 * pdExtHeaderChunkNum (getExtHeader c.chkBuf)
  if size < before then 26 else min 26 (size - before)

/-- The data objects of the chunk hold its extended header and the bytes it announces. -/
def FullChunk (c : RxContents) : Prop :=
  2 + announcedBytes c ≤ 4 * pdHeaderCnt c.header

instance : DecidablePred FullChunk := fun c =>
  inferInstanceAs (Decidable (2 + announcedBytes c ≤ 4 * pdHeaderCnt c.header))

/-- The buffer is free whenever a message is dequeued, and a chunk with the expected number that
still fits in `rx_emsg.buf` is full. -/
def chunkGuard : PhaseGuard where
  rx := bufferGuard.rx
  rch s := s.rch.state = .processingExtendedMessage → s.pdmsg.flags.abort = false →
    pdExtHeaderChunkNum (getExtHeader s.pdmsg.rxChkBuf) = s.pdmsg.chunkNumberExpected →
    26 * s.pdmsg.chunkNumberExpected + announcedBytes s.rxContents ≤ extendedBufferSize →
    FullChunk s.rxContents

instance : DecidablePred chunkGuard.rx := inferInstanceAs (DecidablePred bufferGuard.rx)

instance : DecidablePred chunkGuard.rch := fun s =>
  inferInstanceAs (Decidable (s.rch.state = .processingExtendedMessage →
    s.pdmsg.flags.abort = false →
    pdExtHeaderChunkNum (getExtHeader s.pdmsg.rxChkBuf) = s.pdmsg.chunkNumberExpected →
    26 * s.pdmsg.chunkNumberExpected + announcedBytes s.rxContents ≤ extendedBufferSize →
    FullChunk s.rxContents))

instance : DecidablePred chunkGuard.tch := fun _ => .isTrue trivial

instance : DecidablePred chunkGuard.tx := fun _ => .isTrue trivial

theorem chunkByteNum_eq_announced (hp : Pieces s)
    (hnum : pdExtHeaderChunkNum (getExtHeader s.pdmsg.rxChkBuf) = s.pdmsg.chunkNumberExpected) :
    chunkByteNum s = announcedBytes s.rxContents := by
  have hsize := pdExtHeaderDataSize_lt (getExtHeader s.pdmsg.rxChkBuf)
  have hin := hp.inside
  rw [chunkByteNum_eq_min, hp.count, pdMaxExtendedMsgChunkLen]
  rw [hp.count, extendedBufferSize] at hin
  simp only [announcedBytes, rxContents, hnum]
  split_ifs <;> omega

theorem piece_infix {bytes : List UInt8} {n m : Nat} (h : 2 + n ≤ m) :
    (bytes.drop 2).take n <:+: bytes.take m := by
  have hpiece : (bytes.drop 2).take n = (bytes.take (2 + n)).drop 2 := by
    rw [List.drop_take, Nat.add_sub_cancel_left]
  rw [hpiece]
  refine (List.drop_suffix 2 _).isInfix.trans ?_
  exact (List.take_prefix_take_left h).isInfix

theorem chunkCopy_inside (h : Assembled Q s) : ChunkCopy CopyInside s := by
  intro _ _ hfit
  rw [CopyInside, length_piece h.toBlocks]
  exact hfit

theorem extCopy_inside (h : Assembled Q s) : ExtCopy CopyInside s := by
  have hcnt := pdHeaderCnt_le s.rxEmsg.header
  rw [ExtCopy, CopyInside, length_take_rxChkBuf h.toBlocks, extendedBufferSize]
  omega

theorem extCopy_carried (h : Owned s) (hr : s.rch.flags.msgReceived = true) :
    ExtCopy CopyCarried s := by
  rw [ExtCopy, CopyCarried, ← h.rchReceived hr, Nat.mul_comm]
  exact List.infix_refl _

theorem chunkCopy_carried (h : Owned s) (ha : Assembled Q s) (hg : chunkGuard.rch s)
    (hs : s.rch.state = .processingExtendedMessage) : ChunkCopy CopyCarried s := by
  intro habort hnum hfit
  have hp := ha.pieces (.inl hs)
  have hbytes := chunkByteNum_eq_announced hp hnum
  rw [hp.count, hbytes] at hfit
  have hfull : 2 + announcedBytes s.rxContents ≤ 4 * pdHeaderCnt s.rxEmsg.header :=
    hg hs habort hnum hfit
  rw [CopyCarried, ← h.processing hs, hbytes]
  exact piece_infix hfull

theorem assembled_phases : PhaseInvariant {} (Assembled CopyInside) (Assembled CopyInside)
    (Assembled CopyInside) (Assembled CopyInside) :=
  phaseInvariant_of_rxFrame (fun _ _ => Assembled.frame)
    (fun react s h _ _ => h.received (received_prlRxWaitForPhyMessage react s))
    (fun _ _ h _ => assembled_rchRun h (fun _ => extCopy_inside h) fun _ => chunkCopy_inside h)
    (fun _ _ h _ => assembled_tchRun h) (fun _ _ hk h => h.frame hk.frame)
    (fun _ _ h _ => assembled_tchRun h)

theorem carried_phases : PhaseInvariant chunkGuard
    (fun s => (TchAlone s ∧ Owned s) ∧ Assembled CopyCarried s)
    (fun s => ((TchAlone s ∧ RchSettled s) ∧ Owned s) ∧ Assembled CopyCarried s)
    (fun s => ((TchAlone s ∧ RchHanded s) ∧ Owned s) ∧ Assembled CopyCarried s)
    (fun s => ((TchAlone s ∧ RchHanded s) ∧ Owned s) ∧ Assembled CopyCarried s) := by
  have hown : PhaseInvariant chunkGuard _ _ _ _ := owned_phases fun _ hg => hg
  refine phaseInvariant_of_rxFrame ?_ ?_ ?_ ?_ ?_ ?_
  · exact fun _ _ hf h => ⟨⟨h.1.1.frame hf, h.1.2.frame hf⟩, h.2.frame hf⟩
  · exact fun react s h hw hg =>
      ⟨hown.rx react s h.1 hw hg, h.2.received (received_prlRxWaitForPhyMessage react s)⟩
  · exact fun react s h hg =>
      ⟨hown.rch react s h.1 hg, assembled_rchRun h.2 (extCopy_carried h.1.2)
        (chunkCopy_carried h.1.2 h.2 hg)⟩
  · exact fun react s h hg => ⟨hown.tch react s h.1 hg, assembled_tchRun h.2⟩
  · exact fun s s' hk h =>
      ⟨⟨⟨h.1.1.1.frame hk.frame, by simpa only [RchHanded, hk.rch, hk.tch] using h.1.1.2⟩,
        h.1.2.frame hk.frame⟩, h.2.frame hk.frame⟩
  · exact fun react s h hg => ⟨hown.tchAgain react s h.1 hg, assembled_tchRun h.2⟩

/-- In every run the copies stay inside `rx_emsg.buf` and a message that is passed up consists of
its pieces; in every run in which the buffer is free whenever a message is dequeued and every chunk
is full, the pieces are bytes the chunks carried. -/
theorem reception_copies {env : PrlEnv} {s : Prl} :
    (Lib.Reach step (fun _ _ => True) (boot env) s →
      Copies CopyInside s.trace ∧ PassesUpPieces s.trace) ∧
    (Lib.Reach step chunkGuard.ok (boot env) s → Copies CopyCarried s.trace) := by
  constructor
  · intro h
    have hasm := assembled_phases.reach (assembled_boot env)
      (h.mono fun s e _ => PhaseGuard.ok_default s e)
    exact ⟨hasm.copies, hasm.passedUp⟩
  · intro h
    exact (carried_phases.reach ⟨⟨tchAlone_boot env, owned_boot env⟩, assembled_boot env⟩ h).2.copies

/-- A chunk with seven data objects that announces a full piece. -/
theorem reception_copies_firstChunk :
    Copies CopyCarried (after sinkEnv [quietRun, .peCall .setDefaultPdRevision,
      .tcpmEnqueueMessage (chunkFrame 0 7 0 40 []), quietRun, quietRun]).trace :=
  reception_copies.2 (.allowed (by decide) .start)

/-- A chunk with one data object that announces 20 bytes. -/
def shortChunk : List PrlEvent :=
  [quietRun, .peCall .setDefaultPdRevision, .tcpmEnqueueMessage (chunkFrame 0 1 0 20 [1, 2]),
    quietRun, quietRun]

/-- Eighteen bytes the frame did not carry are passed up with the message. -/
theorem shortChunk_passesUp :
    ∃ s, Lib.Reach step (fun _ _ => True) (boot sinkEnv) s ∧ ¬ Copies CopyCarried s.trace ∧
      s.trace.any (fun o => o matches .peMessageReceived ⟨_, 20, _⟩) = true := by
  refine ⟨_, reach_after sinkEnv shortChunk, fun hcopies => ?_, by decide⟩
  have hcopied : Obs.copied 0 ([1, 2] ++ List.replicate 18 0)
      (chunkFrame 0 1 0 20 [1, 2]).contents ∈ (after sinkEnv shortChunk).trace := by decide
  have hle := (hcopies _ _ _ hcopied).length_le
  exact absurd hle (by decide)

end Prl
end ChromiumEc.Usbc
