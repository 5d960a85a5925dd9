import ChromiumEc.Queue.Run
import ChromiumEc.Usbc.ApVdm.Control
import Mathlib.Tactic.SplitIfs

/-!
# Attention — from a received Attention to the AP

Seen from the AP, the queue is a box that keeps the newest Attentions in the order of their arrival.
The code is that box as long as no Attention is longer than an entry of the queue, and the words it
reads are then those of the message.
-/

namespace ChromiumEc.Usbc.ApVdm

/-! ## The box -/

/-- The objects of the Attentions that the AP has not fetched, oldest first. -/
abbrev Box := List (List UInt32)

/-- `DPM_ATTENTION_QUEUE_DEPTH` -/
def depth : Nat := 8

def newest (box : Box) : Box :=
  box.drop (box.length - depth)

inductive Event
  /-- the policy engine answers a structured VDM -/
  | received (suspended : Bool) (m : RxEmsg)
  | acked (suspended : Bool) (type : SopType) (m : RxEmsg)
  | naked (type : SopType) (svid vdmCmd vdmHeader : UInt32)
  /-- `pd_request_vdm` takes a request of the AP -/
  | requestVdm (header : UInt32)
  /-- the DPM clears `DPM_FLAG_SEND_VDM_REQ` without a reply -/
  | clearVdmRequest
  /-- `dpm_init` -/
  | init
  | typecVdmResponse (args : HostArgs)

/-- What the AP gets of an Attention: the number of objects, the objects, and how many Attentions
are left. -/
abbrev Popped := Nat × List UInt32 × Nat

/-- The oldest Attention is handed out; there is none in an empty box. -/
def pop (box : Box) : Popped :=
  ((box.headD []).length, box.headD [], box.tail.length)

def boxStep : Event → Box → Option Popped × Box
  | .received _ m, box => (none, if m.IsAttention then newest (box ++ [m.objects]) else box)
  | .init, _ => (none, [])
  | .typecVdmResponse args, box =>
    if args.portValid && args.responseFits then (some (pop box), box.tail) else (none, box)
  | _, box => (none, box)

def boxRun : List Event → Box → List (Option Popped) × Box
  | [], box => ([], box)
  | e :: es, box =>
    let r := boxRun es (boxStep e box).2
    ((boxStep e box).1 :: r.1, r.2)

/-! ## The code -/

abbrev Answer := Option (EcStatus × Option VdmResponse)

/-- One event; `none` when memory is touched out of bounds or an assertion fails. -/
def step : Event → Storage → Option (Answer × Storage)
  | .received suspended m, s =>
    match (peVdmResponseEntry suspended m (.ap s)).2 with
    | some (.ap s) => some (none, s)
    | _ => none
  | .acked suspended type m, s => (apVdmAcked suspended type m.objects s).map (none, ·)
  | .naked type svid vdmCmd vdmHeader, s => some (none, apVdmNaked type svid vdmCmd vdmHeader s)
  | .requestVdm _, s => some (none, { s with sendVdmReq := true })
  | .clearVdmRequest, s => some (none, { s with sendVdmReq := false })
  | .init, s => some (none, apVdmInit { s with sendVdmReq := false })
  | .typecVdmResponse args, s => (hcTypecVdmResponse args s).map fun r => (some r.1, r.2)

def run : List Event → Storage → Option (List Answer × Storage)
  | [], s => some ([], s)
  | e :: es, s => (step e s).bind fun r => (run es r.2).map fun r' => (r.1 :: r'.1, r'.2)

def popped (a : Answer) : Option Popped :=
  (a.bind (·.2)).map fun r => (r.vdmAttentionObjects, r.vdmAttention, r.vdmAttentionLeft)

structure Holds (s : Storage) (box : Box) : Prop where
  queue : ∃ spare, Queue.Refines attentionQueue s.queue
    ⟨box.map fun objects => [⟨objects.length, objects⟩], spare⟩
  size : ∀ objects ∈ box, objects.length ≤ pdAttentionMaxVdo
  reply : s.vdmReplyCnt ≤ vdoMaxSize

/-- The code is the box in a run: nothing is touched out of bounds, the AP gets from the code what it
gets from the box, and the queue holds the box at the end. -/
def Law (es : List Event) (s : Storage) (box : Box) : Prop :=
  ∃ answers s', run es s = some (answers, s') ∧ answers.map popped = (boxRun es box).1 ∧
    Holds s' (boxRun es box).2

/-- Only objects of the message are read, only words of the entry are written, and the handler is left
in a defined state. -/
structure MemorySafe (m : RxEmsg) (r : List Access × Option Handler) : Prop where
  read : ∀ i, Access.read i ∈ r.1 → i < m.cnt
  write : ∀ i, Access.write i ∈ r.1 → i < pdAttentionMaxVdo
  defined : r.2.isSome

/-- The message has the objects that its handler takes for granted: the AP's queue has room for a
header and one VDO, and the DisplayPort module of the EC reads a VDO while a mode is being entered
or is active. -/
def Fits (m : RxEmsg) : Handler → Prop
  | .ap _ => m.cnt ≤ pdAttentionMaxVdo
  | .ec cfg s =>
    cfg.dpMode ∧ pdVdoVid (m.buf.getD 0 0) = usbSidDisplayport ∧ ¬ Altmode.dpIsIdle cfg s →
      1 < m.cnt

def Event.Fits : Event → Prop
  | .received _ m => m.IsAttention → m.cnt ≤ pdAttentionMaxVdo
  | _ => True

/-! ## The words that are touched -/

section Accesses

variable {suspended : Bool} {m : RxEmsg}

theorem RxEmsg.length_objects (m : RxEmsg) : m.objects.length = m.cnt := by
  have hcnt := m.cnt_le
  have hbuf := m.buf_le
  exact List.length_take_of_le (by omega)

theorem peVdmResponseEntry_attention (hm : m.IsAttention) (h : Handler) :
    peVdmResponseEntry suspended m h =
      (.read 0 :: (List.range m.cnt).map .read ++ (dpmNotifyAttention suspended m.cnt m.buf h).1,
        (dpmNotifyAttention suspended m.cnt m.buf h).2) := by
  unfold peVdmResponseEntry
  rw [if_neg (not_not_intro hm.1)]
  simp only [if_pos hm]

theorem memorySafe_iff (hm : m.IsAttention) (h : Handler) :
    MemorySafe m (peVdmResponseEntry suspended m h) ↔
      MemorySafe m (dpmNotifyAttention suspended m.cnt m.buf h) := by
  have hpos := m.cnt_pos
  rw [peVdmResponseEntry_attention hm]
  -- the policy engine reads the header and the `cnt` objects, and writes nothing
  constructor
  · intro hsafe
    refine ⟨fun i hi => hsafe.read i ?_, fun i hi => hsafe.write i ?_, hsafe.defined⟩
    · exact List.mem_append_right _ hi
    · exact List.mem_append_right _ hi
  · intro hsafe
    refine ⟨fun i hi => ?_, fun i hi => ?_, hsafe.defined⟩
    · simp only [List.cons_append, List.mem_cons, Access.read.injEq, List.mem_append, List.mem_map,
        List.mem_range, exists_eq_right] at hi
      rcases hi with rfl | hi | hi
      · exact hpos
      · exact hi
      · exact hsafe.read i hi
    · simp only [List.cons_append, List.mem_cons, reduceCtorEq, List.mem_append, List.mem_map,
        and_false, exists_false, false_or] at hi
      exact hsafe.write i hi

theorem memorySafe_ap (s : Storage) :
    MemorySafe m (dpmNotifyAttention suspended m.cnt m.buf (.ap s)) ↔ m.cnt ≤ pdAttentionMaxVdo := by
  have hpos := m.cnt_pos
  constructor
  · intro hsafe
    have hdefined := hsafe.defined
    simp only [dpmNotifyAttention, apVdmAttentionEnqueue, Option.isSome_map] at hdefined
    -- a message that is too long makes the copy overflow, so no state is left
    by_contra hlong
    rw [if_pos (not_le.mp hlong)] at hdefined
    exact absurd hdefined (by simp)
  · intro hfits
    refine ⟨fun i hi => ?_, fun i hi => ?_, ?_⟩
    · simp only [dpmNotifyAttention, apVdmAttentionEnqueue, List.mem_cons, Access.read.injEq,
        List.cons_append, List.mem_append, List.mem_flatMap, List.mem_range, reduceCtorEq,
        List.not_mem_nil, or_false] at hi
      rcases hi with rfl | rfl | hi | ⟨j, hj, rfl⟩
      · exact hpos
      · exact hpos
      · split_ifs at hi with hdp
        · simp only [List.mem_singleton, Access.read.injEq] at hi
          subst hi
          exact hdp.2
        · exact absurd hi (by simp)
      · exact hj
    · simp only [dpmNotifyAttention, apVdmAttentionEnqueue, List.mem_cons, Access.write.injEq,
        List.cons_append, List.mem_append, List.mem_flatMap, List.mem_range, reduceCtorEq,
        List.not_mem_nil, or_false, false_or] at hi
      rcases hi with hi | ⟨j, hj, rfl⟩
      · split_ifs at hi
        · exact absurd hi (by simp)
        · exact absurd hi (by simp)
      · omega
    · simp only [dpmNotifyAttention, apVdmAttentionEnqueue, Option.isSome_map]
      rw [if_neg (not_lt.mpr hfits)]
      rfl

theorem memorySafe_ec (cfg : Altmode.Config) (s : Altmode.Port) :
    MemorySafe m (dpmNotifyAttention suspended m.cnt m.buf (.ec cfg s)) ↔ Fits m (.ec cfg s) := by
  have hpos := m.cnt_pos
  have hconsumed : (cfg.dpMode && decide (pdVdoVid (m.buf.getD 0 0) = usbSidDisplayport) &&
      !Altmode.dpIsIdle cfg s) = true ↔
      cfg.dpMode ∧ pdVdoVid (m.buf.getD 0 0) = usbSidDisplayport ∧ ¬ Altmode.dpIsIdle cfg s := by
    simp [and_assoc]
  constructor
  · intro hsafe htaken
    -- `dfp_consume_attention` reads the VDO without a look at the count
    refine hsafe.read 1 ?_
    simp only [dpmNotifyAttention, if_pos (hconsumed.mpr htaken)]
    simp
  · intro hfits
    refine ⟨fun i hi => ?_, fun i hi => ?_, rfl⟩
    · simp only [dpmNotifyAttention, List.mem_cons, Access.read.injEq] at hi
      rcases hi with rfl | hi
      · exact hpos
      · split_ifs at hi with htaken
        · simp only [List.mem_singleton, Access.read.injEq] at hi
          subst hi
          exact hfits (hconsumed.mp htaken)
        · exact absurd hi (by simp)
    · simp only [dpmNotifyAttention, List.mem_cons, reduceCtorEq, false_or] at hi
      split_ifs at hi
      · exact absurd hi (by simp)
      · exact absurd hi (by simp)

theorem memorySafe_iff_fits (hm : m.IsAttention) (h : Handler) :
    MemorySafe m (peVdmResponseEntry suspended m h) ↔ Fits m h := by
  rw [memorySafe_iff hm]
  cases h with
  | ap s => exact memorySafe_ap s
  | ec cfg s => exact memorySafe_ec cfg s

end Accesses

/-! ## The queue and the box -/

section Queue

variable {s : Storage} {box : Box}

theorem refines_addUnit {qs : Queue.QueueState 32 AttentionQueueEntry}
    {f : Lib.Fifo (List AttentionQueueEntry)} (h : Queue.Refines attentionQueue qs f)
    (hspare : 0 < f.spare.length) (entry : AttentionQueueEntry) :
    (Queue.queueAddUnit attentionQueue [entry] qs).1 ≠ 0 ∧
      ∃ spare, Queue.Refines attentionQueue (Queue.queueAddUnit attentionQueue [entry] qs).2
        ⟨f.contents ++ [[entry]], spare⟩ := by
  obtain ⟨hanswer, hafter⟩ := Queue.refines_step h (o := .addUnit [entry]) rfl
  have hone : min 1 f.spare.length = 1 := Nat.min_eq_left hspare
  have hadded : (Queue.queueAddUnit attentionQueue [entry] qs).1.toNat = 1 := by
    have hcount := congrArg Prod.fst hanswer
    simp only [Queue.step, Queue.fifoStep, Lib.Fifo.append, List.length_singleton, hone] at hcount
    exact hcount
  constructor
  · intro hzero
    rw [hzero] at hadded
    exact absurd hadded (by decide)
  · simp only [Queue.step, Queue.fifoStep, Lib.Fifo.append, List.length_singleton, hone] at hafter
    exact ⟨_, hafter⟩

theorem refines_makeRoom {spare : List (List AttentionQueueEntry)}
    {contents : List (List AttentionQueueEntry)}
    (h : Queue.Refines attentionQueue s.queue ⟨contents, spare⟩) :
    ∃ spare', 0 < spare'.length ∧
      Queue.Refines attentionQueue
        (if Queue.queueSpace attentionQueue s.queue = 0 then
          (Queue.queueAdvanceHead 1 s.queue).2 else s.queue)
        ⟨contents.drop (contents.length + 1 - depth), spare'⟩ := by
  have hspace : spare.length = (Queue.queueSpace attentionQueue s.queue).toNat := h.length_spare
  have hcapacity : contents.length + spare.length = 8 := h.capacity
  -- one entry is dropped if the queue is full, which is as much as `newest` drops
  by_cases hfull : Queue.queueSpace attentionQueue s.queue = 0
  · rw [if_pos hfull]
    have hspare : spare.length = 0 := by
      rw [hspace, hfull]
      rfl
    have hafter := (Queue.refines_step h (o := .advanceHead 1) trivial).2
    have hdrop : contents.length + 1 - depth = 1 := by
      unfold depth
      omega
    rw [hdrop]
    refine ⟨spare ++ contents.take 1, ?_, hafter⟩
    rw [List.length_append, List.length_take]
    omega
  · rw [if_neg hfull]
    have hpos : spare.length ≠ 0 := by
      intro hzero
      exact hfull (BitVec.eq_of_toNat_eq (hspace.symm.trans hzero))
    have hdrop : contents.length + 1 - depth = 0 := by
      unfold depth
      omega
    rw [hdrop, List.drop_zero]
    exact ⟨spare, Nat.pos_of_ne_zero hpos, h⟩

theorem addEntry_frame (entry : AttentionQueueEntry) (s : Storage) :
    (addEntry entry s).vdmReplyCnt = s.vdmReplyCnt := by
  unfold addEntry
  simp only
  split_ifs <;> rfl

theorem dpHpdGpioSet_frame (level irq : Bool) (s : Storage) :
    (dpHpdGpioSet level irq s).queue = s.queue ∧
      (dpHpdGpioSet level irq s).vdmReplyCnt = s.vdmReplyCnt := by
  unfold dpHpdGpioSet
  split_ifs <;> exact ⟨rfl, rfl⟩

theorem attentionHpdProcess_frame (suspended : Bool) (vdo : UInt32) (s : Storage) :
    (attentionHpdProcess suspended vdo s).queue = s.queue ∧
      (attentionHpdProcess suspended vdo s).vdmReplyCnt = s.vdmReplyCnt := by
  unfold attentionHpdProcess dpHpdGpioSet
  simp only
  split_ifs <;> exact ⟨rfl, rfl⟩

theorem queue_notify (n : Notice) (s : Storage) : (s.notify n).queue = s.queue := rfl

theorem Holds.addEntry (h : Holds s box) {objects : List UInt32}
    (hsize : objects.length ≤ pdAttentionMaxVdo) :
    Holds (addEntry ⟨objects.length, objects⟩ s) (newest (box ++ [objects])) := by
  obtain ⟨spare, hqueue⟩ := h.queue
  obtain ⟨spare', hspare, hroom⟩ := refines_makeRoom hqueue
  obtain ⟨hadded, spare'', hafter⟩ :=
    refines_addUnit hroom hspare ⟨objects.length, objects⟩
  have hbox : (newest (box ++ [objects])).map
      (fun objects => [(⟨objects.length, objects⟩ : AttentionQueueEntry)]) =
      (box.map fun objects => [⟨objects.length, objects⟩]).drop (box.length + 1 - depth) ++
        [[⟨objects.length, objects⟩]] := by
    unfold newest
    rw [List.length_append, List.length_singleton, List.drop_append_of_le_length, List.map_append,
      List.map_drop]
    · rfl
    · unfold depth
      omega
  refine ⟨⟨spare'', ?_⟩, fun o ho => ?_, ?_⟩
  · rw [hbox]
    simp only [List.length_map] at hafter
    unfold ApVdm.addEntry
    simp only [if_neg hadded, queue_notify]
    exact hafter
  · have ho : o ∈ box ++ [objects] := List.mem_of_mem_drop ho
    rcases List.mem_append.mp ho with ho | ho
    · exact h.size o ho
    · rw [List.mem_singleton.mp ho]
      exact hsize
  · rw [addEntry_frame]
    exact h.reply

theorem Holds.congr (h : Holds s box) {s' : Storage} (hqueue : s'.queue = s.queue)
    (hreply : s'.vdmReplyCnt ≤ vdoMaxSize) : Holds s' box :=
  ⟨hqueue ▸ h.queue, h.size, hreply⟩

theorem Holds.pop (h : Holds s box) :
    ∃ s', apVdmAttentionPop s = some ((box.headD [], box.tail.length), s') ∧ Holds s' box.tail := by
  obtain ⟨spare, hqueue⟩ := h.queue
  have hlen : box.length = (Queue.queueCount s.queue).toNat := by
    simpa using hqueue.length
  have hcapacity : box.length + spare.length = attentionQueue.units := by
    simpa [Lib.Fifo.capacity] using hqueue.capacity
  have hunits : attentionQueue.units = 8 := rfl
  have hempty := Queue.queueIsEmpty_iff (s := s.queue)
  unfold apVdmAttentionPop
  cases box with
  | nil =>
    have hzero : (Queue.queueCount s.queue).toNat = 0 := hlen.symm
    simp only [if_pos (hempty.mpr hzero), hzero]
    exact ⟨s, rfl, h⟩
  | cons objects box =>
    have hsome : ¬ Queue.queueIsEmpty s.queue = true := by
      intro hzero
      have hzero := hempty.mp hzero
      simp only [List.length_cons] at hlen
      omega
    obtain ⟨hanswer, hafter⟩ := Queue.refines_step hqueue (o := .removeUnit) trivial
    have hcells : (Queue.queueRemoveUnit attentionQueue s.queue).1.2 =
        [⟨objects.length, objects⟩] := congrArg Prod.snd hanswer
    have hleft : (Queue.queueCount (Queue.queueRemoveUnit attentionQueue s.queue).2).toNat =
        box.length := by
      simpa [Queue.step, Queue.fifoStep, Lib.Fifo.remove] using hafter.length.symm
    -- the entry was written whole, so the assertion and the copy of the pop go through
    have hsize : ¬ pdAttentionMaxVdo < objects.length := not_lt.mpr (h.size objects (by simp))
    -- the number that is left is stored as a byte
    have hfit : box.length % 2 ^ 8 = box.length := by
      simp only [List.length_cons] at hcapacity
      exact Nat.mod_eq_of_lt (by omega)
    have hheld : Queue.Refines attentionQueue (Queue.queueRemoveUnit attentionQueue s.queue).2
        ⟨box.map fun objects => [⟨objects.length, objects⟩],
          spare ++ [[⟨objects.length, objects⟩]]⟩ := hafter
    simp only [if_neg hsome, hcells, if_neg hsize, hleft, hfit, List.take_length]
    refine ⟨_, rfl, ⟨_, hheld⟩, fun o ho => ?_, h.reply⟩
    exact h.size o (List.mem_cons_of_mem _ ho)

end Queue

/-! ## One event -/

section Step

variable {s : Storage} {box : Box}

theorem Holds.received (h : Holds s box) (suspended : Bool) {m : RxEmsg} (hm : m.IsAttention)
    (hfits : m.cnt ≤ pdAttentionMaxVdo) :
    ∃ s', (peVdmResponseEntry suspended m (.ap s)).2 = some (.ap s') ∧
      Holds s' (newest (box ++ [m.objects])) := by
  rw [peVdmResponseEntry_attention hm]
  simp only [dpmNotifyAttention, apVdmAttentionEnqueue, if_neg (not_lt.mpr hfits), Option.map_some]
  have hlen := m.length_objects
  have hhpd : ∀ p : Prop, [Decidable p] →
      Holds (if p then attentionHpdProcess suspended (m.buf.getD 1 0) s else s) box := by
    intro p _
    split_ifs
    · obtain ⟨hqueue, hreply⟩ := attentionHpdProcess_frame suspended (m.buf.getD 1 0) s
      exact h.congr hqueue (hreply ▸ h.reply)
    · exact h
  refine ⟨_, rfl, ?_⟩
  have hsize : m.objects.length ≤ pdAttentionMaxVdo := by omega
  have hadd := (hhpd (pdVdoVid (m.buf.getD 0 0) = usbSidDisplayport ∧ 1 < m.cnt)).addEntry hsize
  rw [hlen] at hadd
  exact hadd

theorem Holds.acked (h : Holds s box) (suspended : Bool) (type : SopType) (m : RxEmsg) :
    ∃ s', apVdmAcked suspended type m.objects s = some s' ∧ Holds s' box := by
  have hlen := m.length_objects
  have hpos := m.cnt_pos
  have hle := m.cnt_le
  have hstored : Holds (storeReply type m.objects s) box :=
    h.congr rfl (by simp only [storeReply, Storage.notify]; omega)
  unfold apVdmAcked
  rw [if_neg (by omega)]
  generalize storeReply type m.objects s = t at hstored
  simp only
  -- configured with a high level that waits or without one, a status, and anything else
  split_ifs
  · refine ⟨_, rfl, hstored.congr (dpHpdGpioSet_frame _ _ _).1 ?_⟩
    rw [(dpHpdGpioSet_frame _ _ _).2]
    exact hstored.reply
  · exact ⟨_, rfl, hstored.congr rfl hstored.reply⟩
  · refine ⟨_, rfl, hstored.congr (attentionHpdProcess_frame _ _ _).1 ?_⟩
    rw [(attentionHpdProcess_frame _ _ _).2]
    exact hstored.reply
  · exact ⟨t, rfl, hstored⟩

theorem Holds.naked (h : Holds s box) (type : SopType) (svid vdmCmd vdmHeader : UInt32) :
    Holds (apVdmNaked type svid vdmCmd vdmHeader s) box := by
  unfold apVdmNaked
  simp only
  split_ifs
  · exact ⟨h.queue, h.size, by simp [Storage.notify, vdoMaxSize]⟩
  · exact ⟨h.queue, h.size, by simp [Storage.notify, vdoMaxSize]⟩

theorem Holds.init (h : Holds s box) (pending : Bool) :
    Holds (apVdmInit { s with sendVdmReq := pending }) [] := by
  obtain ⟨spare, hqueue⟩ := h.queue
  have hbuffer : s.queue.buffer.length = 8 := hqueue.holds.length_buffer
  have hcount (buffer : List AttentionQueueEntry) :
      Queue.queueCount (⟨0, 0, buffer⟩ : Queue.QueueState 32 AttentionQueueEntry) = 0 := by
    simp [Queue.queueCount]
  -- head and tail are zero again, and the cells keep what they held
  obtain ⟨f, hf⟩ := Queue.exists_refines (q := attentionQueue) (s := ⟨0, 0, s.queue.buffer⟩)
    (by rw [hcount]; decide) hbuffer
  have hempty : f.contents = [] := by
    apply List.length_eq_zero_iff.mp
    rw [hf.length, hcount]
    rfl
  refine ⟨⟨f.spare, ?_⟩, by simp, by simp [apVdmInit, dpHpdGpioSet]⟩
  rw [List.map_nil, ← hempty]
  exact hf

theorem Holds.typecVdmResponse (h : Holds s box) (args : HostArgs) :
    ∃ answer s', hcTypecVdmResponse args s = some (answer, s') ∧
      popped (some answer) = (boxStep (.typecVdmResponse args) box).1 ∧
      Holds s' (boxStep (.typecVdmResponse args) box).2 := by
  obtain ⟨portValid, responseFits⟩ := args
  cases portValid with
  | false => exact ⟨_, s, rfl, rfl, h⟩
  | true =>
    cases responseFits with
    | false => exact ⟨_, s, rfl, rfl, h⟩
    | true =>
      obtain ⟨s', hpop, hafter⟩ := h.pop
      have hhead : (box.headD []).length ≤ vdmAttentionSize := by
        cases box with
        | nil => simp
        | cons objects box => exact h.size objects (by simp)
      have hreply : ¬ ((apVdmCopyReply s).2.isSome = true ∧ vdoMaxSize < s.vdmReplyCnt) :=
        fun hlong => not_lt.mpr h.reply hlong.2
      unfold hcTypecVdmResponse
      simp only [Bool.not_true, Bool.false_eq_true, if_false, if_neg hreply, hpop,
        Option.bind_some, if_neg (not_lt.mpr hhead)]
      exact ⟨_, s', rfl, rfl, hafter⟩

theorem step_of_fits (h : Holds s box) {e : Event} (hfits : e.Fits) :
    ∃ a s', step e s = some (a, s') ∧ popped a = (boxStep e box).1 ∧
      Holds s' (boxStep e box).2 := by
  cases e with
  | received suspended m =>
    by_cases hm : m.IsAttention
    · obtain ⟨s', hentry, hafter⟩ := h.received suspended hm (hfits hm)
      simp only [step, hentry, boxStep, if_pos hm]
      exact ⟨none, s', rfl, rfl, hafter⟩
    · have hentry : (peVdmResponseEntry suspended m (.ap s)).2 = some (.ap s) := by
        unfold peVdmResponseEntry
        split_ifs <;> rfl
      simp only [step, hentry, boxStep, if_neg hm]
      exact ⟨none, s, rfl, rfl, h⟩
  | acked suspended type m =>
    obtain ⟨s', hacked, hafter⟩ := h.acked suspended type m
    simp only [step, hacked, Option.map_some]
    exact ⟨none, s', rfl, rfl, hafter⟩
  | naked type svid vdmCmd vdmHeader =>
    exact ⟨none, _, rfl, rfl, h.naked type svid vdmCmd vdmHeader⟩
  | requestVdm header => exact ⟨none, _, rfl, rfl, h.congr rfl h.reply⟩
  | clearVdmRequest => exact ⟨none, _, rfl, rfl, h.congr rfl h.reply⟩
  | init => exact ⟨none, _, rfl, rfl, h.init false⟩
  | typecVdmResponse args =>
    obtain ⟨answer, s', hresponse, hpopped, hafter⟩ := h.typecVdmResponse args
    simp only [step, hresponse, Option.map_some]
    exact ⟨some answer, s', rfl, hpopped, hafter⟩

theorem step_of_not_fits {e : Event} (hfits : ¬ e.Fits) : step e s = none := by
  cases e with
  | received suspended m =>
    obtain ⟨hm, hlong⟩ := Classical.not_imp.mp hfits
    simp only [step, peVdmResponseEntry_attention hm, dpmNotifyAttention, apVdmAttentionEnqueue,
      if_pos (not_le.mp hlong), Option.map_none]
  | _ => exact absurd trivial hfits

/-! ## Runs -/

theorem law_iff (h : Holds s box) (es : List Event) : Law es s box ↔ ∀ e ∈ es, e.Fits := by
  -- `step_of_fits` goes on with the run, and `step_of_not_fits` ends it without a result
  induction es generalizing s box with
  | nil =>
    simp only [List.not_mem_nil, false_imp_iff, implies_true, iff_true]
    exact ⟨[], s, rfl, rfl, h⟩
  | cons e es ih =>
    by_cases hfits : e.Fits
    · obtain ⟨a, s', hstep, hpopped, hafter⟩ := step_of_fits h hfits
      simp only [List.forall_mem_cons, hfits, true_and]
      rw [← ih hafter]
      unfold Law
      simp only [run, hstep, Option.bind_some, Option.map_eq_some_iff, boxRun]
      constructor
      · rintro ⟨_, s'', ⟨⟨answers, t⟩, hrun, heq⟩, hanswers, hend⟩
        cases heq
        exact ⟨answers, t, hrun, (List.cons.inj hanswers).2, hend⟩
      · rintro ⟨answers, t, hrun, hanswers, hend⟩
        exact ⟨a :: answers, t, ⟨_, hrun, rfl⟩, congrArg₂ List.cons hpopped hanswers, hend⟩
    · simp only [List.forall_mem_cons, hfits, false_and, iff_false]
      rintro ⟨answers, t, hrun, -, -⟩
      rw [run, step_of_not_fits hfits] at hrun
      exact absurd hrun (by simp)

theorem holds_boot : Holds .boot [] := by
  refine ⟨⟨List.replicate 8 [⟨0, []⟩], ?_⟩, by simp, by decide⟩
  refine ⟨⟨by decide, rfl, rfl, ?_⟩, ?_, rfl, rfl⟩
  · decide
  · intro u hu
    rw [List.eq_of_mem_replicate (List.mem_append.mp hu |>.resolve_left (by simp))]
    rfl

end Step

/-- The handling of an Attention keeps to the message and to the entry exactly when the message fits
its handler, and a run from any state of the queue is the run of the box exactly when all its
Attentions fit. -/
theorem attention_law {s : Storage} {box : Box} (hs : Holds s box) (es : List Event) :
    (∀ (suspended : Bool) (m : RxEmsg) (h : Handler), m.IsAttention →
      (MemorySafe m (peVdmResponseEntry suspended m h) ↔ Fits m h)) ∧
    (Law es s box ↔ ∀ e ∈ es, e.Fits) :=
  ⟨fun _ _ h hm => memorySafe_iff_fits hm h, law_iff hs es⟩

def shortAttention : RxEmsg where
  cnt := 2
  buf := [0xff018006, 0x80, 0, 0, 0, 0, 0]
  cnt_pos := by decide
  cnt_le := by decide
  buf_le := by decide

theorem attention_law_shortAttention :
    (MemorySafe shortAttention (peVdmResponseEntry false shortAttention (.ap .boot)) ↔
      Fits shortAttention (.ap .boot)) ∧
    (Law [.received false shortAttention, .typecVdmResponse ⟨true, true⟩] .boot [] ↔
      ∀ e ∈ [.received false shortAttention, .typecVdmResponse ⟨true, true⟩], Event.Fits e) :=
  ⟨(attention_law holds_boot []).1 false shortAttention (.ap .boot) (by decide),
    (attention_law holds_boot _).2⟩

def longAttention : RxEmsg where
  cnt := 3
  buf := [0xff018006, 0x80, 0x1234, 0, 0, 0, 0]
  cnt_pos := by decide
  cnt_le := by decide
  buf_le := by decide

/-- The code copies three words to an array of two. -/
theorem not_memorySafe_longAttention :
    longAttention.IsAttention ∧ pdVdoSvdm (longAttention.buf.getD 0 0) = true ∧
      ¬ MemorySafe longAttention (peVdmResponseEntry false longAttention (.ap .boot)) ∧
      Access.write 2 ∈ (peVdmResponseEntry false longAttention (.ap .boot)).1 := by
  refine ⟨by decide, by decide, fun hsafe => ?_, by decide⟩
  exact absurd (hsafe.write 2 (by decide)) (by decide)

end ChromiumEc.Usbc.ApVdm
