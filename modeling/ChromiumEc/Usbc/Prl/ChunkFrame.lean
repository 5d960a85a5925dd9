import ChromiumEc.Usbc.Prl.Assembly

/-!
# ChunkFrame — what the construction of a chunk writes

The chunk is cleared and copied from the third byte of `tx_chk_buf` on.  The clear is as long as the
whole buffer, and its last two bytes fall on the first two of `rx_chk_buf`.
-/

namespace ChromiumEc.Usbc.Prl

/-- The payload of the message that is sent in chunks. -/
def txPayload (s : Prl) : List UInt8 :=
  s.txEmsg.buf.take s.txEmsg.len

/-- The bytes of the payload that the next chunk carries. -/
def nextChunk (s : Prl) : List UInt8 :=
  (s.txPayload.drop s.pdmsg.sendOffset).take pdMaxExtendedMsgChunkLen

/-- The extended header, the bytes of the chunk, and zeros up to the end of the buffer. -/
def chunkContents (s : Prl) : List UInt8 :=
  le16 (pdExtHeader s.pdmsg.chunkNumberToSend 0 s.txEmsg.len) ++ s.nextChunk ++
    List.replicate (pdMaxExtendedMsgChunkLen - s.nextChunk.length) 0

/-- Of `struct pd_message`, only the three fields of the chunk are changed; and a chunk that is
constructed is in the transmit buffer. -/
structure ChunkFrame (s s' : Prl) : Prop where
  frame : ∃ tx offset objs,
    s'.pdmsg = { s.pdmsg with txChkBuf := tx, sendOffset := offset, dataObjs := objs }
  contents : s.tch.flags.msgReceived = false → s'.pdmsg.txChkBuf = s.chunkContents

/-- `struct pd_message` and `tx_emsg` have their layout, and the offset is in the payload. -/
structure ChunkLayout (s : Prl) : Prop where
  txChkBuf : s.pdmsg.txChkBuf.length = chkBufSizeBytes
  rxChkBuf : s.pdmsg.rxChkBuf.length = chkBufSizeBytes
  buf : s.txEmsg.buf.length = extendedBufferSize
  len : s.txEmsg.len ≤ extendedBufferSize
  sendOffset : s.pdmsg.sendOffset ≤ s.txEmsg.len

section ChunkFrame

variable {s : Prl}

theorem nextChunkLen_eq (h : ChunkLayout s) :
    nextChunkLen s = min pdMaxExtendedMsgChunkLen (s.txEmsg.len - s.pdmsg.sendOffset) := by
  have hlen := h.len
  have hoff := h.sendOffset
  have hnum : (s.txEmsg.len + 2 ^ 32 - s.pdmsg.sendOffset) % 2 ^ 32 % 2 ^ 16 =
      s.txEmsg.len - s.pdmsg.sendOffset := by
    rw [extendedBufferSize] at hlen
    omega
  rw [nextChunkLen, hnum]
  split_ifs <;> omega

theorem copied_eq (h : ChunkLayout s) :
    (s.txEmsg.buf.drop s.pdmsg.sendOffset).take (nextChunkLen s) = s.nextChunk := by
  have hoff := h.sendOffset
  rw [nextChunk, txPayload, List.drop_take, List.take_take, nextChunkLen_eq h]

/-- A header, a clear that is as long as the first block, and a piece behind the header: two bytes of
the second block are cleared. -/
theorem chunkBufs_eq (rx : List UInt8) {tx hdr data : List UInt8}
    (htx : tx.length = chkBufSizeBytes) (hhdr : hdr.length = 2)
    (hdata : data.length ≤ pdMaxExtendedMsgChunkLen) :
    Lib.memcpy (Lib.memset (Lib.memcpy (tx ++ rx) 0 hdr) 2 0 chkBufSizeBytes) 2 data =
      (hdr ++ data ++ List.replicate (pdMaxExtendedMsgChunkLen - data.length) 0) ++
        ([0, 0] ++ rx.drop 2) := by
  have hcopy : Lib.memcpy (tx ++ rx) 0 hdr = hdr ++ (tx.drop 2 ++ rx) := by
    rw [Lib.memcpy, List.take_zero, List.nil_append, hhdr,
      List.drop_append_of_le_length (by rw [htx]; decide)]
  have hclear : Lib.memset (hdr ++ (tx.drop 2 ++ rx)) 2 0 chkBufSizeBytes =
      hdr ++ (List.replicate chkBufSizeBytes 0 ++ rx.drop 2) := by
    have hrest : (tx.drop 2 ++ rx).drop chkBufSizeBytes = rx.drop 2 := by
      have hlen : (tx.drop 2).length = 26 := by rw [List.length_drop, htx, chkBufSizeBytes]
      have hsplit : chkBufSizeBytes = (tx.drop 2).length + 2 := by rw [hlen, chkBufSizeBytes]
      rw [hsplit, List.drop_length_add_append]
    have hwrite := Lib.memcpy_append hdr (tx.drop 2 ++ rx) (List.replicate chkBufSizeBytes 0)
    rwa [hhdr, List.length_replicate, hrest, List.append_assoc] at hwrite
  have hzeros : (List.replicate chkBufSizeBytes (0 : UInt8)).drop data.length =
      List.replicate (pdMaxExtendedMsgChunkLen - data.length) 0 ++ [0, 0] := by
    have hsum : chkBufSizeBytes - data.length = pdMaxExtendedMsgChunkLen - data.length + 2 := by
      rw [pdMaxExtendedMsgChunkLen] at hdata ⊢
      rw [chkBufSizeBytes]
      omega
    rw [List.drop_replicate, hsum, List.replicate_add]
    rfl
  have hle : data.length ≤ (List.replicate chkBufSizeBytes (0 : UInt8)).length := by
    rw [pdMaxExtendedMsgChunkLen] at hdata
    rw [List.length_replicate, chkBufSizeBytes]
    omega
  rw [hcopy, hclear]
  calc Lib.memcpy (hdr ++ (List.replicate chkBufSizeBytes 0 ++ rx.drop 2)) 2 data
      = hdr ++ data ++ (List.replicate chkBufSizeBytes 0 ++ rx.drop 2).drop data.length := by
        rw [← hhdr, Lib.memcpy_append]
    _ = hdr ++ data ++ ((List.replicate (pdMaxExtendedMsgChunkLen - data.length) 0 ++ [0, 0]) ++
          rx.drop 2) := by
        rw [List.drop_append_of_le_length hle, hzeros]
    _ = _ := by simp only [List.append_assoc]

/-- The construction when no message is pending: the transmit buffer holds the chunk, and the first
two bytes of the receive buffer are cleared. -/
theorem construct_eq (h : ChunkLayout s) (hr : s.tch.flags.msgReceived = false) :
    (tchConstructChunkedMessageEntry s).pdmsg =
      { s.pdmsg with
        txChkBuf := s.chunkContents
        rxChkBuf := [0, 0] ++ s.pdmsg.rxChkBuf.drop 2
        sendOffset := s.pdmsg.sendOffset + nextChunkLen s
        dataObjs := (nextChunkLen s + 2 + 3) >>> 2 } := by
  have hdata : s.nextChunk.length ≤ pdMaxExtendedMsgChunkLen := List.length_take_le _ _
  have hbufs := chunkBufs_eq s.pdmsg.rxChkBuf h.txChkBuf
    (length_le16 (pdExtHeader s.pdmsg.chunkNumberToSend 0 s.txEmsg.len)) hdata
  have hlen : s.chunkContents.length = chkBufSizeBytes := by
    simp only [chunkContents, List.length_append, length_le16, List.length_replicate,
      pdMaxExtendedMsgChunkLen, chkBufSizeBytes] at hdata ⊢
    omega
  rw [tchConstructChunkedMessageEntry, if_neg (by rw [hr]; exact Bool.false_ne_true)]
  simp only [copied_eq h, hbufs]
  rw [← chunkContents, List.take_left' hlen, List.drop_left' hlen]

theorem construct_received (hr : s.tch.flags.msgReceived = true) :
    ∃ objs, (tchConstructChunkedMessageEntry s).pdmsg = { s.pdmsg with dataObjs := objs } := by
  rw [tchConstructChunkedMessageEntry, if_pos hr]
  simp only [setTchMessageReceived, setTch, tchMessageReceivedEntry]
  split_ifs
  · exact ⟨s.pdmsg.dataObjs, rfl⟩
  · exact ⟨0, rfl⟩
  · exact ⟨0, rfl⟩

/-- The construction of a chunk keeps to its own fields exactly when it constructs none, or when the
receive buffer starts with two zeros. -/
theorem chunkFrame_iff (h : ChunkLayout s) :
    ChunkFrame s (tchConstructChunkedMessageEntry s) ↔
      s.tch.flags.msgReceived = true ∨ s.pdmsg.rxChkBuf.take 2 = [0, 0] := by
  cases hr : s.tch.flags.msgReceived with
  | true =>
    refine ⟨fun _ => .inl rfl, fun _ => ⟨?_, ?_⟩⟩
    · obtain ⟨objs, hobjs⟩ := construct_received hr
      exact ⟨s.pdmsg.txChkBuf, s.pdmsg.sendOffset, objs, hobjs⟩
    · intro hno
      exact absurd (hr.symm.trans hno) (by decide)
  | false =>
    have hpdmsg := construct_eq h hr
    have hrx := List.take_append_drop 2 s.pdmsg.rxChkBuf
    constructor
    · rintro ⟨⟨tx, offset, objs, hframe⟩, -⟩
      have hsame : [0, 0] ++ s.pdmsg.rxChkBuf.drop 2 = s.pdmsg.rxChkBuf := by
        rw [hpdmsg] at hframe
        exact congrArg PdMessage.rxChkBuf hframe
      exact .inr (List.append_cancel_right (hrx.trans hsame.symm))
    · intro hzero
      have htake : s.pdmsg.rxChkBuf.take 2 = [0, 0] := hzero.resolve_left (by decide)
      rw [htake] at hrx
      refine ⟨⟨s.chunkContents, s.pdmsg.sendOffset + nextChunkLen s,
        (nextChunkLen s + 2 + 3) >>> 2, ?_⟩, fun _ => ?_⟩
      · rw [hpdmsg, hrx]
      · rw [hpdmsg]

end ChunkFrame

/-- A message of 100 bytes is about to be sent in chunks, and the receive buffer holds `rx`. -/
def chunkedMessage (rx : List UInt8) : Prl :=
  let s := boot sinkEnv
  { s with
    txEmsg := ⟨0, 100, List.replicate extendedBufferSize 0x5A⟩
    pdmsg.rxChkBuf := rx }

theorem chunkedMessage_layout {rx : List UInt8} (hrx : rx.length = chkBufSizeBytes) :
    ChunkLayout (chunkedMessage rx) where
  txChkBuf := List.length_replicate
  rxChkBuf := hrx
  buf := List.length_replicate
  len := show 100 ≤ 260 by decide
  sendOffset := Nat.zero_le _

theorem chunkFrame_iff_emptyRx :
    ChunkFrame (chunkedMessage (List.replicate 28 0))
      (tchConstructChunkedMessageEntry (chunkedMessage (List.replicate 28 0))) :=
  (chunkFrame_iff (chunkedMessage_layout List.length_replicate)).mpr
    (.inr List.take_replicate)

/-- A received message loses its first two bytes. -/
theorem construct_clears_rxChkBuf :
    let s := chunkedMessage (List.replicate 28 0xC3)
    ChunkLayout s ∧ ¬ ChunkFrame s (tchConstructChunkedMessageEntry s) ∧
      (tchConstructChunkedMessageEntry s).pdmsg.rxChkBuf = [0, 0] ++ List.replicate 26 0xC3 := by
  intro s
  have hlayout : ChunkLayout s := chunkedMessage_layout List.length_replicate
  have hrx : (tchConstructChunkedMessageEntry s).pdmsg.rxChkBuf =
      [0, 0] ++ List.replicate 26 0xC3 := by
    rw [construct_eq hlayout rfl]
    simp [s, chunkedMessage]
  refine ⟨hlayout, ?_, hrx⟩
  rintro ⟨⟨tx, offset, objs, hframe⟩, -⟩
  have hsame : (tchConstructChunkedMessageEntry s).pdmsg.rxChkBuf = List.replicate 28 0xC3 :=
    congrArg PdMessage.rxChkBuf hframe
  exact absurd (hrx.symm.trans hsame) (by decide)

end ChromiumEc.Usbc.Prl
