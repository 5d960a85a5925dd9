import ChromiumEc.Usbc.ApVdm.Attention

/-!
# Response — what of the memory before the AP finds in a VDM response

`hc_typec_vdm_response` over the response buffer and the array on its stack, whatever they held
before.  The number of VDM objects is left as it was while there is no reply, so the handler alone
tells what was in the buffer.  `host_command_process` clears the buffer before, and then nothing is
told.
-/

namespace ChromiumEc.Usbc.ApVdm

/-! ## Memory -/

/-- An array of `n` words -/
abbrev Words (n : Nat) := { words : List UInt32 // words.length = n }

/-- `memcpy` of `count` words; there is no result if it exceeds its source or its destination. -/
def Words.copy {n : Nat} (count : Nat) (src : List UInt32) (dst : Words n) : Option (Words n) :=
  if h : count ≤ src.length ∧ count ≤ n then
    some ⟨src.take count ++ dst.1.drop count, by
      rw [List.length_append, List.length_take_of_le h.1, List.length_drop, dst.2]
      omega⟩
  else none

def Words.zero (n : Nat) : Words n :=
  ⟨List.replicate n 0, List.length_replicate⟩

/-- `struct ec_response_typec_vdm_response`, where the response buffer is -/
structure ResponseBuffer where
  vdmDataObjects : UInt8
  partnerType : UInt8
  vdmResponseErr : UInt16
  vdmResponse : Words vdoMaxSize
  vdmAttentionObjects : UInt8
  vdmAttentionLeft : UInt8
  reserved1 : UInt16
  vdmAttention : Words vdmAttentionSize

def ResponseBuffer.cleared : ResponseBuffer :=
  ⟨0, 0, 0, .zero vdoMaxSize, 0, 0, 0, .zero vdmAttentionSize⟩

/-- `sizeof(struct ec_response_typec_vdm_response)` -/
def sizeofResponse : Nat := 44

def EcStatus.code : EcStatus → UInt16
  | success => 0
  | invalidParam => 3
  | responseTooBig => 14
  | busy => 16
  | unavailable => 9

/-- `enum tcpci_msg_type` -/
def typeCode : SopType → UInt8
  | .sop => 0
  | .sopPrime => 1
  | .sopPrimePrime => 2

/-! ## The handler -/

/-- `ap_vdm_copy_reply`, with what it leaves in `*type`, `*size` and `buf` -/
def copyReply (s : Storage) (type size : UInt8) (buf : Words vdoMaxSize) :
    Option (EcStatus × UInt8 × UInt8 × Words vdoMaxSize) :=
  if s.sendVdmReq then some (.busy, type, size, buf)
  else if s.vdmReplyCnt = 0 then some (.unavailable, type, size, buf)
  else
    (buf.copy s.vdmReplyCnt s.vdmReply).map fun buf =>
      (.success, typeCode s.vdmReplyType, s.vdmReplyCnt.toUInt8, buf)

/-- `ap_vdm_attention_pop`, with what it leaves in `buf` -/
def attentionPop (s : Storage) (buf : Words vdoMaxSize) :
    Option (UInt8 × UInt8 × Words vdoMaxSize × Storage) :=
  (apVdmAttentionPop s).bind fun ((words, left), s) =>
    (buf.copy words.length words).map fun buf => (words.length.toUInt8, left.toUInt8, buf, s)

structure Handled where
  status : EcStatus
  responseSize : Nat
  response : ResponseBuffer
  storage : Storage

/-- `hc_typec_vdm_response`, over the response buffer and over `data`.  There is no result if a copy
exceeds its source or its destination. -/
def hcTypecVdmResponseIn (args : HostArgs) (responseSize : Nat) (s : Storage) (r : ResponseBuffer)
    (data : Words vdoMaxSize) : Option Handled :=
  if !args.portValid then some ⟨.invalidParam, responseSize, r, s⟩
  else if !args.responseFits then some ⟨.responseTooBig, responseSize, r, s⟩
  else
    (copyReply s r.partnerType r.vdmDataObjects data).bind fun (err, type, objects, data) =>
    (if 0 < objects then r.vdmResponse.copy objects.toNat data.1 else some r.vdmResponse).bind
      fun response =>
    (attentionPop s data).bind fun (attentions, left, data, s) =>
    (if 0 < attentions then r.vdmAttention.copy attentions.toNat data.1
      else some r.vdmAttention).map fun attention =>
    ⟨.success, sizeofResponse,
      { r with
        vdmDataObjects := objects
        partnerType := type
        vdmResponseErr := err.code
        vdmResponse := response
        vdmAttentionObjects := attentions
        vdmAttentionLeft := left
        vdmAttention := attention }, s⟩

/-- `host_command_process` for this command: the response buffer is cleared before. -/
def hostCommandProcess (args : HostArgs) (responseSize : Nat) (s : Storage) (_ : ResponseBuffer)
    (data : Words vdoMaxSize) : Option Handled :=
  hcTypecVdmResponseIn args responseSize s .cleared data

/-- The two agree in all that means something for the AP. -/
structure Handled.Same (o o' : Handled) : Prop where
  status : o.status = o'.status
  responseSize : o.responseSize = o'.responseSize
  storage : o.storage = o'.storage
  err : o.status = .success → o.response.vdmResponseErr = o'.response.vdmResponseErr
  dataObjects : o.status = .success → o.response.vdmDataObjects = o'.response.vdmDataObjects
  partnerType : o.status = .success → 0 < o.response.vdmDataObjects →
    o.response.partnerType = o'.response.partnerType
  response : o.status = .success →
    o.response.vdmResponse.1.take o.response.vdmDataObjects.toNat =
      o'.response.vdmResponse.1.take o.response.vdmDataObjects.toNat
  attentionObjects : o.status = .success →
    o.response.vdmAttentionObjects = o'.response.vdmAttentionObjects
  attentionLeft : o.status = .success → o.response.vdmAttentionLeft = o'.response.vdmAttentionLeft
  attention : o.status = .success →
    o.response.vdmAttention.1.take o.response.vdmAttentionObjects.toNat =
      o'.response.vdmAttention.1.take o.response.vdmAttentionObjects.toNat

/-- The counts are those of the arrays, and there are no objects without a reply. -/
structure Handled.Fits (o : Handled) : Prop where
  dataObjects : o.response.vdmDataObjects.toNat ≤ vdoMaxSize
  attentionObjects : o.response.vdmAttentionObjects.toNat ≤ vdmAttentionSize
  noReply : o.response.vdmResponseErr = EcStatus.busy.code ∨
    o.response.vdmResponseErr = EcStatus.unavailable.code → o.response.vdmDataObjects = 0

/-- Nothing of the memory before is told: for any two contents of the response buffer and of the
array on the stack, both runs end without a copy out of bounds, and agree. -/
def NoLeak (handler : ResponseBuffer → Words vdoMaxSize → Option Handled) : Prop :=
  ∀ r r' data data', ∃ o o', handler r data = some o ∧ handler r' data' = some o' ∧ o.Same o' ∧
    (o.status = .success → o.Fits)

def waiting : Storage :=
  { Storage.boot with sendVdmReq := true }

theorem holds_waiting : Holds waiting [] :=
  holds_boot.congr rfl (Nat.zero_le _)

theorem not_noLeak_hcTypecVdmResponseIn :
    ¬∀ (args : HostArgs) (responseSize : Nat) (s : Storage) (box : Box), Holds s box →
      s.vdmReply.length = vdoMaxSize → NoLeak (hcTypecVdmResponseIn args responseSize s) := by
  intro h
  let left : ResponseBuffer := { ResponseBuffer.cleared with vdmDataObjects := 1 }
  obtain ⟨o, o', ho, ho', hsame, -⟩ := h ⟨true, true⟩ 0 waiting [] holds_waiting rfl
    .cleared left (.zero vdoMaxSize) (.zero vdoMaxSize)
  cases ho
  cases ho'
  exact absurd (hsame.dataObjects rfl) (by decide)

/-! ## The command does not -/

section Command

variable {s : Storage} {box : Box} {args : HostArgs} {responseSize n m : Nat}

theorem copy_copy {count : Nat} {words : List UInt32} (hwords : count ≤ words.length)
    (hn : count ≤ n) (hm : count ≤ m) (dst : Words m) :
    ∃ out : Words m, ∀ data : Words n, ∃ data' : Words n,
      data.copy count words = some data' ∧ dst.copy count data'.1 = some out := by
  have hout : (words.take count ++ dst.1.drop count).length = m := by
    rw [List.length_append, List.length_take_of_le hwords, List.length_drop, dst.2]
    omega
  refine ⟨⟨_, hout⟩, fun data => ?_⟩
  have hdata : (words.take count ++ data.1.drop count).length = n := by
    rw [List.length_append, List.length_take_of_le hwords, List.length_drop, data.2]
    omega
  refine ⟨⟨_, hdata⟩, ?_, ?_⟩
  · rw [Words.copy, dif_pos ⟨hwords, hn⟩]
  · rw [Words.copy, dif_pos ⟨hdata.symm ▸ hn, hm⟩]
    congr 2
    rw [List.take_left' (List.length_take_of_le hwords)]

theorem copy_if_pos (objects : UInt8) (src : List UInt32) (dst : Words m) :
    (if 0 < objects then dst.copy objects.toNat src else some dst) =
      dst.copy objects.toNat src := by
  split
  · rfl
  · next hzero =>
    have hnone : objects.toNat = 0 := by
      simpa [UInt8.lt_iff_toNat_lt] using hzero
    rw [hnone, Words.copy, dif_pos ⟨Nat.zero_le _, Nat.zero_le _⟩]
    rfl

theorem toNat_toUInt8 {count : Nat} (h : count ≤ vdoMaxSize) : count.toUInt8.toNat = count := by
  unfold vdoMaxSize at h
  simp
  omega

theorem copyReply_cleared (h : Holds s box) (hreply : s.vdmReply.length = vdoMaxSize) :
    ∃ err type objects response, objects.toNat ≤ vdoMaxSize ∧ (err = .success ∨ objects = 0) ∧
      ∀ data, ∃ data', copyReply s 0 0 data = some (err, type, objects, data') ∧
        (Words.zero vdoMaxSize).copy objects.toNat data'.1 = some response := by
  have hnone : ∀ data : Words vdoMaxSize,
      (Words.zero vdoMaxSize).copy (0 : UInt8).toNat data.1 = some (.zero vdoMaxSize) := fun data =>
    (copy_if_pos 0 data.1 (.zero vdoMaxSize)).symm
  by_cases hbusy : s.sendVdmReq
  · refine ⟨.busy, 0, 0, .zero vdoMaxSize, by simp, .inr rfl, fun data => ⟨data, ?_, hnone data⟩⟩
    rw [copyReply, if_pos hbusy]
  by_cases hcnt : s.vdmReplyCnt = 0
  · refine ⟨.unavailable, 0, 0, .zero vdoMaxSize, by simp, .inr rfl,
      fun data => ⟨data, ?_, hnone data⟩⟩
    rw [copyReply, if_neg hbusy, if_pos hcnt]
  · have hle := h.reply
    have hobjects := toNat_toUInt8 hle
    obtain ⟨response, hcopy⟩ := copy_copy (n := vdoMaxSize) (hreply.symm ▸ hle) hle hle
      (Words.zero vdoMaxSize)
    refine ⟨.success, typeCode s.vdmReplyType, s.vdmReplyCnt.toUInt8, response,
      hobjects.trans_le hle, .inl rfl, fun data => ?_⟩
    obtain ⟨data', hdata, hresponse⟩ := hcopy data
    refine ⟨data', ?_, hobjects.symm ▸ hresponse⟩
    rw [copyReply, if_neg hbusy, if_neg hcnt, hdata]
    rfl

theorem attentionPop_cleared (h : Holds s box) :
    ∃ attentions left attention s', attentions.toNat ≤ vdmAttentionSize ∧
      ∀ data, ∃ data', attentionPop s data = some (attentions, left, data', s') ∧
        (Words.zero vdmAttentionSize).copy attentions.toNat data'.1 = some attention := by
  obtain ⟨s', hpop, -⟩ := h.pop
  have hle : (box.headD []).length ≤ vdmAttentionSize := by
    cases box with
    | nil => exact Nat.zero_le _
    | cons objects box => exact h.size objects List.mem_cons_self
  have hdata : (box.headD []).length ≤ vdoMaxSize := hle.trans (by decide)
  have hattentions := toNat_toUInt8 hdata
  obtain ⟨attention, hcopy⟩ := copy_copy (le_refl (box.headD []).length) hdata hle
    (Words.zero vdmAttentionSize)
  refine ⟨(box.headD []).length.toUInt8, box.tail.length.toUInt8, attention, s',
    hattentions.trans_le hle, fun data => ?_⟩
  obtain ⟨data', hdata', hattention⟩ := hcopy data
  refine ⟨data', ?_, hattentions.symm ▸ hattention⟩
  rw [attentionPop, hpop, Option.bind_some]
  simp only [hdata', Option.map_some]

variable (args responseSize) in
theorem exists_handled (h : Holds s box) (hreply : s.vdmReply.length = vdoMaxSize) :
    ∃ o, (o.status = .success → o.Fits) ∧
      ∀ data, hcTypecVdmResponseIn args responseSize s .cleared data = some o := by
  by_cases hport : args.portValid
  · by_cases hfits : args.responseFits
    · obtain ⟨err, type, objects, response, hobjects, herr, hcopied⟩ := copyReply_cleared h hreply
      obtain ⟨attentions, left, attention, s', hattentions, hpopped⟩ := attentionPop_cleared h
      refine ⟨⟨.success, sizeofResponse, ⟨objects, type, err.code, response, attentions, left, 0,
        attention⟩, s'⟩, fun _ => ⟨hobjects, hattentions, fun hcode => ?_⟩, fun data => ?_⟩
      · obtain rfl | hnone := herr
        · have hbusy : EcStatus.success.code ≠ EcStatus.busy.code := by decide
          have hunavailable : EcStatus.success.code ≠ EcStatus.unavailable.code := by decide
          exact (hcode.elim hbusy hunavailable).elim
        · exact hnone
      · obtain ⟨data₁, hcopy, hresponse⟩ := hcopied data
        obtain ⟨data₂, hpop, hattention⟩ := hpopped data₁
        rw [hcTypecVdmResponseIn, if_neg (by simp [hport]), if_neg (by simp [hfits])]
        simp only [ResponseBuffer.cleared, hcopy, Option.bind_some, copy_if_pos, hresponse, hpop,
          hattention, Option.map_some]
    · refine ⟨⟨.responseTooBig, responseSize, .cleared, s⟩, nofun, fun data => ?_⟩
      rw [hcTypecVdmResponseIn, if_neg (by simp [hport]), if_pos (by simp [hfits])]
  · refine ⟨⟨.invalidParam, responseSize, .cleared, s⟩, nofun, fun data => ?_⟩
    rw [hcTypecVdmResponseIn, if_pos (by simp [hport])]

/-- The command tells nothing of the memory before, from any storage in which the reply and the
queued Attentions fit their arrays. -/
theorem noLeak_hostCommandProcess (h : Holds s box) (hreply : s.vdmReply.length = vdoMaxSize)
    (args : HostArgs) (responseSize : Nat) : NoLeak (hostCommandProcess args responseSize s) := by
  obtain ⟨o, hfits, ho⟩ := exists_handled args responseSize h hreply
  intro r r' data data'
  exact ⟨o, o, ho data, ho data',
    ⟨rfl, rfl, rfl, fun _ => rfl, fun _ => rfl, fun _ _ => rfl, fun _ => rfl, fun _ => rfl,
      fun _ => rfl, fun _ => rfl⟩, hfits⟩

end Command

/-! ## The storage in a run -/

section Run

variable {s s' : Storage}

theorem vdmReply_attentionHpdProcess (suspended : Bool) (vdo : UInt32) (s : Storage) :
    (attentionHpdProcess suspended vdo s).vdmReply = s.vdmReply := by
  unfold attentionHpdProcess dpHpdGpioSet
  simp only
  split_ifs <;> rfl

theorem vdmReply_apVdmAttentionEnqueue {suspended : Bool} {length : Nat} {buf : List UInt32}
    (h : (apVdmAttentionEnqueue suspended length buf s).2 = some s') :
    s'.vdmReply = s.vdmReply := by
  have hadd : ∀ entry (s : Storage), (addEntry entry s).vdmReply = s.vdmReply := by
    intro entry s
    unfold addEntry
    simp only
    split_ifs <;> rfl
  unfold apVdmAttentionEnqueue at h
  simp only at h
  split at h
  · cases h
  · rw [← Option.some.inj h, hadd]
    split
    · exact vdmReply_attentionHpdProcess suspended _ s
    · rfl

theorem vdmReply_apVdmAttentionPop {words : List UInt32 × Nat}
    (h : apVdmAttentionPop s = some (words, s')) : s'.vdmReply = s.vdmReply := by
  unfold apVdmAttentionPop at h
  split at h
  · cases h
    rfl
  · simp only at h
    split at h
    · cases h
    · split at h
      · cases h
      · cases h
        rfl

theorem length_vdmReply_apVdmAcked {suspended : Bool} {type : SopType} {vdm : List UInt32}
    (h : apVdmAcked suspended type vdm s = some s') (hs : s.vdmReply.length = vdoMaxSize) :
    s'.vdmReply.length = vdoMaxSize := by
  unfold apVdmAcked at h
  split at h
  · cases h
  · next hvdm =>
    have hstored : (storeReply type vdm s).vdmReply.length = vdoMaxSize := by
      simp only [storeReply, Storage.notify, List.length_append, List.length_drop]
      omega
    generalize storeReply type vdm s = t at h hstored
    simp only at h
    split_ifs at h
    · cases h
      unfold dpHpdGpioSet
      split_ifs <;> exact hstored
    · cases h
      exact hstored
    · cases h
      rwa [vdmReply_attentionHpdProcess]
    · cases h
      exact hstored

theorem length_vdmReply_apVdmNaked (type : SopType) (svid vdmCmd vdmHeader : UInt32)
    (hs : s.vdmReply.length = vdoMaxSize) :
    (apVdmNaked type svid vdmCmd vdmHeader s).vdmReply.length = vdoMaxSize := by
  unfold apVdmNaked
  simp only
  split_ifs
  · simp only [Storage.notify, List.length_cons, List.length_drop]
    unfold vdoMaxSize at hs ⊢
    omega
  · exact hs

theorem vdmReply_hcTypecVdmResponse {args : HostArgs} {answer : EcStatus × Option VdmResponse}
    (h : hcTypecVdmResponse args s = some (answer, s')) : s'.vdmReply = s.vdmReply := by
  unfold hcTypecVdmResponse at h
  split at h
  · cases h
    rfl
  split at h
  · cases h
    rfl
  simp only at h
  split at h
  · cases h
  · obtain ⟨⟨words, s₁⟩, hpop, hrest⟩ := Option.bind_eq_some_iff.mp h
    simp only at hrest
    split at hrest
    · cases hrest
    · cases hrest
      exact vdmReply_apVdmAttentionPop hpop

theorem length_vdmReply_step {e : Event} {a : Answer} (h : step e s = some (a, s'))
    (hs : s.vdmReply.length = vdoMaxSize) : s'.vdmReply.length = vdoMaxSize := by
  cases e with
  | received suspended m =>
    simp only [step] at h
    split at h
    · next t ht =>
      cases h
      by_cases hm : m.IsAttention
      · rw [peVdmResponseEntry_attention hm] at ht
        obtain ⟨t', ht', heq⟩ := Option.map_eq_some_iff.mp ht
        cases heq
        rw [vdmReply_apVdmAttentionEnqueue ht']
        exact hs
      · have hentry : (peVdmResponseEntry suspended m (.ap s)).2 = some (.ap s) := by
          unfold peVdmResponseEntry
          split_ifs <;> rfl
        cases hentry.symm.trans ht
        exact hs
    · cases h
  | acked suspended type m =>
    obtain ⟨t, ht, heq⟩ := Option.map_eq_some_iff.mp h
    cases heq
    exact length_vdmReply_apVdmAcked ht hs
  | naked type svid vdmCmd vdmHeader =>
    cases h
    exact length_vdmReply_apVdmNaked type svid vdmCmd vdmHeader hs
  | requestVdm header =>
    cases h
    exact hs
  | clearVdmRequest =>
    cases h
    exact hs
  | init =>
    cases h
    exact hs
  | typecVdmResponse args =>
    obtain ⟨⟨answer, t⟩, ht, heq⟩ := Option.map_eq_some_iff.mp h
    cases heq
    rw [vdmReply_hcTypecVdmResponse ht]
    exact hs

theorem length_vdmReply_run {es : List Event} {answers : List Answer}
    (h : run es s = some (answers, s')) (hs : s.vdmReply.length = vdoMaxSize) :
    s'.vdmReply.length = vdoMaxSize := by
  induction es generalizing s answers with
  | nil =>
    cases h
    exact hs
  | cons e es ih =>
    obtain ⟨⟨a, s₁⟩, hstep, hrest⟩ := Option.bind_eq_some_iff.mp h
    obtain ⟨⟨as, s₂⟩, hes, heq⟩ := Option.map_eq_some_iff.mp hrest
    cases heq
    exact ih hes (length_vdmReply_step hstep hs)

/-- And so it is after every run in which the Attentions fit. -/
theorem noLeak_of_run {es : List Event} {answers : List Answer} (hfits : ∀ e ∈ es, e.Fits)
    (h : run es .boot = some (answers, s)) (args : HostArgs) (responseSize : Nat) :
    NoLeak (hostCommandProcess args responseSize s) := by
  obtain ⟨answers', t, hrun, -, hholds⟩ := (law_iff holds_boot es).mpr hfits
  cases hrun.symm.trans h
  obtain ⟨o, hsizes, ho⟩ := exists_handled args responseSize hholds (length_vdmReply_run h rfl)
  intro r r' data data'
  exact ⟨o, o, ho data, ho data',
    ⟨rfl, rfl, rfl, fun _ => rfl, fun _ => rfl, fun _ _ => rfl, fun _ => rfl, fun _ => rfl,
      fun _ => rfl, fun _ => rfl⟩, hsizes⟩

/-- The reply is there, and the AP has another request under way. -/
theorem noLeak_of_run_busy : ∃ answers s,
    run [.naked .sop 0 0 1, .requestVdm 1] .boot = some (answers, s) ∧
      NoLeak (hostCommandProcess ⟨true, true⟩ 0 s) := by
  obtain ⟨r, hrun⟩ : ∃ r, run [.naked .sop 0 0 1, .requestVdm 1] .boot = some r := ⟨_, rfl⟩
  refine ⟨r.1, r.2, hrun, noLeak_of_run (fun e he => ?_) hrun ⟨true, true⟩ 0⟩
  rcases List.mem_pair.mp he with rfl | rfl
  · trivial
  · trivial

end Run

theorem noLeak_hostCommandProcess_waiting :
    Holds waiting [] ∧ waiting.vdmReply.length = vdoMaxSize ∧
      NoLeak (hostCommandProcess ⟨true, true⟩ 0 waiting) :=
  ⟨holds_waiting, rfl, noLeak_hostCommandProcess holds_waiting rfl ⟨true, true⟩ 0⟩

end ChromiumEc.Usbc.ApVdm
