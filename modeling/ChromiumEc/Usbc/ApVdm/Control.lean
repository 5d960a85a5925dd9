import ChromiumEc.Queue.Queue
import ChromiumEc.Usbc.Altmode.Dpm

/-!
# Control — VDMs under the AP's control

`ap_vdm_control.c` for one port, and the way of a received Attention to it.  A build drives the
modes from the AP or from the EC, so a port has one of the two handlers.
-/

namespace ChromiumEc.Usbc.ApVdm

/-! ## Storage -/

/-- `struct attention_queue_entry`.  The words that were not copied are not initialised. -/
structure AttentionQueueEntry where
  objects : Nat
  attention : List UInt32
  deriving DecidableEq, Repr

inductive Notice
  | vdmAttention
  | vdmReqReply
  | vdmReqFailed
  /-- `pd_notify_dp_alt_mode_entry` -/
  | dpAltModeEntry
  deriving DecidableEq, Repr

/-- `ap_storage[port]`, with the queue and its buffer. -/
structure Storage where
  vdmReply : List UInt32
  vdmReplyCnt : Nat
  vdmReplyType : SopType
  queue : Queue.QueueState 32 AttentionQueueEntry
  dpConfigured : Bool
  hpdPending : Bool
  /-- `DPM_FLAG_SEND_VDM_REQ` -/
  sendVdmReq : Bool
  /-- the level of the HPD pin -/
  hpd : Bool
  /-- newest first -/
  notices : List Notice
  deriving DecidableEq

/-- The storage after `init_attention_queue_structs`. -/
def Storage.boot : Storage where
  vdmReply := List.replicate vdoMaxSize 0
  vdmReplyCnt := 0
  vdmReplyType := .sop
  queue := ⟨0, 0, List.replicate 8 ⟨0, []⟩⟩
  dpConfigured := false
  hpdPending := false
  sendVdmReq := false
  hpd := false
  notices := []

theorem attentionQueueDepth_pow : ∃ k < 32, (8 : BitVec 32) = BitVec.twoPow 32 k :=
  ⟨3, by decide, by decide⟩

/-- The queue has `DPM_ATTENTION_QUEUE_DEPTH` entries. -/
def attentionQueue : Queue.QueueConfig 32 :=
  ⟨8, 1, attentionQueueDepth_pow⟩

def Storage.notify (n : Notice) (s : Storage) : Storage :=
  { s with notices := n :: s.notices }

/-- `dp_hpd_gpio_set`, whose result is not looked at. -/
def dpHpdGpioSet (level irq : Bool) (s : Storage) : Storage :=
  if irq && !level then s else { s with hpd := level }

/-- `attention_hpd_process`: a high level waits for the configuration. -/
def attentionHpdProcess (suspended : Bool) (vdo : UInt32) (s : Storage) : Storage :=
  let hpdLevel := pdVdoDpstsHpdLvl vdo
  let hpdIrq := pdVdoDpstsHpdIrq vdo
  let s :=
    if !s.dpConfigured && hpdLevel then { s with hpdPending := true }
    else dpHpdGpioSet hpdLevel hpdIrq s
  if suspended && (hpdIrq || hpdLevel) then s.notify .dpAltModeEntry else s

/-! ## The Attention queue -/

inductive Access
  /-- a word of the message is read -/
  | read (i : Nat)
  /-- a word of `new_entry.attention` is written -/
  | write (i : Nat)
  deriving DecidableEq, Repr

/-- The last part of `ap_vdm_attention_enqueue`: when the queue is full the oldest entry goes. -/
def addEntry (entry : AttentionQueueEntry) (s : Storage) : Storage :=
  let queue :=
    if Queue.queueSpace attentionQueue s.queue = 0 then (Queue.queueAdvanceHead 1 s.queue).2
    else s.queue
  let r := Queue.queueAddUnit attentionQueue [entry] queue
  if r.1 = 0 then { s with queue := r.2 }
  else { s with queue := r.2 }.notify .vdmAttention

/-- `ap_vdm_attention_enqueue`.  A copy past the end of the entry's array leaves no state. -/
def apVdmAttentionEnqueue (suspended : Bool) (length : Nat) (buf : List UInt32) (s : Storage) :
    List Access × Option Storage :=
  let isDp := pdVdoVid (buf.getD 0 0) = usbSidDisplayport ∧ 1 < length
  let s := if isDp then attentionHpdProcess suspended (buf.getD 1 0) s else s
  let copied := (List.range length).flatMap fun i => [.read i, .write i]
  (.read 0 :: (if isDp then [.read 1] else []) ++ copied,
    if pdAttentionMaxVdo < length then none
    else some (addEntry ⟨length, buf.take length⟩ s))

/-- `ap_vdm_attention_pop`: the words that were copied, and the number of items left. -/
def apVdmAttentionPop (s : Storage) : Option ((List UInt32 × Nat) × Storage) :=
  let itemsLeft (queue : Queue.QueueState 32 AttentionQueueEntry) : Nat :=
    (Queue.queueCount queue).toNat % 2 ^ 8
  if Queue.queueIsEmpty s.queue then some (([], itemsLeft s.queue), s)
  else
    let r := Queue.queueRemoveUnit attentionQueue s.queue
    match r.1.2 with
    | [] => none
    | entry :: _ =>
      if pdAttentionMaxVdo < entry.objects then none
      else
        some ((entry.attention.take entry.objects, itemsLeft r.2), { s with queue := r.2 })

/-! ## Replies -/

def apVdmInit (s : Storage) : Storage :=
  dpHpdGpioSet false false
    { s with
      vdmReplyCnt := 0
      queue := { s.queue with head := 0, tail := 0 }
      dpConfigured := false
      hpdPending := false }

/-- A structured DisplayPort VDM with this command. -/
def IsDp (header cmd : UInt32) : Prop :=
  pdVdoVid header = usbSidDisplayport ∧ pdVdoSvdm header ∧ pdVdoCmd header = cmd

instance (header cmd : UInt32) : Decidable (IsDp header cmd) :=
  inferInstanceAs (Decidable
    (pdVdoVid header = usbSidDisplayport ∧ pdVdoSvdm header ∧ pdVdoCmd header = cmd))

/-- The first part of `ap_vdm_acked`: the reply is kept for the AP, and the request is over. -/
def storeReply (type : SopType) (vdm : List UInt32) (s : Storage) : Storage :=
  let s :=
    Storage.notify .vdmReqReply
      { s with
        vdmReplyCnt := vdm.length
        vdmReply := vdm ++ s.vdmReply.drop vdm.length
        vdmReplyType := type }
  { s with sendVdmReq := false }

/-- `ap_vdm_acked`, with its assertions. -/
def apVdmAcked (suspended : Bool) (type : SopType) (vdm : List UInt32) (s : Storage) :
    Option Storage :=
  if vdm.length < 1 ∨ vdoMaxSize < vdm.length then none
  else
    let s := storeReply type vdm s
    let header := vdm.getD 0 0
    if IsDp header cmdDpConfig then
      let s := { s with dpConfigured := true }
      some (if s.hpdPending then dpHpdGpioSet true false s else s)
    else if IsDp header cmdDpStatus ∧ 1 < vdm.length then
      some (attentionHpdProcess suspended (vdm.getD 1 0) s)
    else some s

/-- `ap_vdm_naked`, which does not look at the SVID and the command of the request. -/
def apVdmNaked (type : SopType) (_svid _vdmCmd vdmHeader : UInt32) (s : Storage) : Storage :=
  let s := { s with vdmReplyType := type }
  let s :=
    if vdmHeader ≠ 0 then
      Storage.notify .vdmReqReply
        { s with vdmReplyCnt := 1, vdmReply := vdmHeader :: s.vdmReply.drop 1 }
    else Storage.notify .vdmReqFailed { s with vdmReplyCnt := 0 }
  { s with sendVdmReq := false }

/-- `enum ec_status`, as far as it is used here. -/
inductive EcStatus
  | success
  | invalidParam
  | responseTooBig
  | busy
  | unavailable
  deriving DecidableEq, Repr

/-- `ap_vdm_copy_reply`: the status, and the words and the type of a reply that was copied. -/
def apVdmCopyReply (s : Storage) : EcStatus × Option (List UInt32 × SopType) :=
  if s.sendVdmReq then (.busy, none)
  else if s.vdmReplyCnt = 0 then (.unavailable, none)
  else (.success, some (s.vdmReply.take s.vdmReplyCnt, s.vdmReplyType))

/-- `struct ec_response_typec_vdm_response`.  The words behind the objects are zero or left over. -/
structure VdmResponse where
  vdmDataObjects : Nat
  partnerType : SopType
  vdmResponseErr : EcStatus
  vdmResponse : List UInt32
  vdmAttentionObjects : Nat
  vdmAttentionLeft : Nat
  vdmAttention : List UInt32
  deriving DecidableEq, Repr

/-- The size of `vdm_attention`. -/
def vdmAttentionSize : Nat := 2

/-- The arguments of a host command that its handler checks. -/
structure HostArgs where
  /-- `p->port` is a port -/
  portValid : Bool
  /-- the response fits in `response_max` -/
  responseFits : Bool
  deriving DecidableEq, Repr

/-- `hc_typec_vdm_response`.  The host command task clears the response before. -/
def hcTypecVdmResponse (args : HostArgs) (s : Storage) :
    Option ((EcStatus × Option VdmResponse) × Storage) :=
  if !args.portValid then some ((.invalidParam, none), s)
  else if !args.responseFits then some ((.responseTooBig, none), s)
  else
    let reply := apVdmCopyReply s
    let data := (reply.2.map (·.1)).getD []
    if reply.2.isSome ∧ vdoMaxSize < s.vdmReplyCnt then none
    else
      (apVdmAttentionPop s).bind fun ((attention, left), s) =>
        if vdmAttentionSize < attention.length then none
        else
          some ((.success, some
            { vdmDataObjects := data.length
              partnerType := (reply.2.map (·.2)).getD .sop
              vdmResponseErr := reply.1
              vdmResponse := data
              vdmAttentionObjects := attention.length
              vdmAttentionLeft := left
              vdmAttention := attention }), s)

/-! ## Received messages -/

/-- `rx_emsg[port]` with a data message.  The buffer holds a full message, and words of earlier
messages behind this one. -/
structure RxEmsg where
  /-- `PD_HEADER_CNT` -/
  cnt : Nat
  buf : List UInt32
  cnt_pos : 0 < cnt
  cnt_le : cnt ≤ vdoMaxSize
  buf_le : vdoMaxSize ≤ buf.length

def RxEmsg.objects (m : RxEmsg) : List UInt32 :=
  m.buf.take m.cnt

inductive Handler
  | ap (s : Storage)
  | ec (cfg : Altmode.Config) (s : Altmode.Port)

/-- `dpm_notify_attention`.  With the AP in control `dfp_consume_attention` only looks at the SVID;
with the EC in control `ap_vdm_attention_enqueue` is a stub. -/
def dpmNotifyAttention (suspended : Bool) (vdoObjects : Nat) (buf : List UInt32) :
    Handler → List Access × Option Handler
  | .ap s =>
    let r := apVdmAttentionEnqueue suspended vdoObjects buf s
    (.read 0 :: r.1, r.2.map .ap)
  | .ec cfg s =>
    let header := buf.getD 0 0
    let consumed :=
      cfg.dpMode && pdVdoVid header = usbSidDisplayport && !Altmode.dpIsIdle cfg s
    (.read 0 :: (if consumed then [.read 1] else []),
      some (.ec cfg (Altmode.dfpConsumeAttention cfg header (buf.getD 1 0) s)))

def RxEmsg.IsRequest (m : RxEmsg) : Prop :=
  pdVdoCmdt (m.buf.getD 0 0) = cmdtInit

instance : DecidablePred RxEmsg.IsRequest := fun m =>
  inferInstanceAs (Decidable (pdVdoCmdt (m.buf.getD 0 0) = cmdtInit))

def RxEmsg.IsAttention (m : RxEmsg) : Prop :=
  m.IsRequest ∧ pdVdoCmd (m.buf.getD 0 0) = cmdAttention

instance : DecidablePred RxEmsg.IsAttention := fun m =>
  inferInstanceAs (Decidable (m.IsRequest ∧ pdVdoCmd (m.buf.getD 0 0) = cmdAttention))

/-- `pe_vdm_response_entry` for a structured VDM, which is copied to the transmit buffer first.  The
answers to other requests do not concern the handler. -/
def peVdmResponseEntry (suspended : Bool) (m : RxEmsg) (h : Handler) :
    List Access × Option Handler :=
  if ¬ m.IsRequest then ([.read 0], some h)
  else
    let copied := (List.range m.cnt).map Access.read
    if m.IsAttention then
      let r := dpmNotifyAttention suspended m.cnt m.buf h
      (.read 0 :: copied ++ r.1, r.2)
    else (.read 0 :: copied, some h)

end ChromiumEc.Usbc.ApVdm
