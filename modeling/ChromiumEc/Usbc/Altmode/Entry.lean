import ChromiumEc.Lib.Reach
import ChromiumEc.Usbc.Altmode.Run

/-!
# Entry — one mode entry with Thunderbolt

The DPM and the mode modules run until mode entry is done.  The partner and the cable answer every
VDM with an ACK or a NAK of the same command from the same SOP*.
-/

namespace ChromiumEc.Usbc.Altmode

/-! ## Thunderbolt messages -/

def enterOrder (env : Env) : List SopType :=
  if tbtSopPrimeNeeded env then
    if tbtSopPrimePrimeNeeded env then [.sopPrime, .sopPrimePrime, .sop] else [.sopPrime, .sop]
  else [.sop]

def exitOrder (env : Env) : List SopType :=
  if tbtSopPrimeNeeded env then
    if tbtSopPrimePrimeNeeded env then [.sop, .sopPrimePrime, .sopPrime] else [.sop, .sopPrime]
  else [.sop]

/-- What comes after `p` in the order. -/
def nextIn (p : SopType) (order : List SopType) : Option SopType :=
  (order.dropWhile (· != p)).tail.head?

def firstMessage (env : Env) : Option (UInt32 × SopType) :=
  (enterOrder env).head?.map fun p => (cmdEnterMode, p)

/-- What may come after a message and its answer: a NAK of Enter Mode makes the exit begin, and the
last Exit Mode is followed by another attempt. -/
def nextMessage (env : Env) (cmd : UInt32) (p : SopType) (ack : Bool) :
    Option (UInt32 × SopType) :=
  if cmd = cmdEnterMode then
    if ack then (nextIn p (enterOrder env)).map fun q => (cmdEnterMode, q)
    else some (cmdExitMode, .sop)
  else
    match nextIn p (exitOrder env) with
    | some q => some (cmdExitMode, q)
    | none => firstMessage env

def expected (env : Env) : List (ModeVdm × Bool) → Option (UInt32 × SopType)
  | [] => firstMessage env
  | (v, ack) :: _ => nextMessage env v.cmd v.txType ack

/-- The messages came in order: Enter Mode to SOP', SOP'' and SOP, each after the ACK of the one
before; Exit Mode to SOP, SOP'' and SOP'. -/
def InOrder (env : Env) : List (ModeVdm × Bool) → Prop
  | [] => True
  | (v, _) :: log => expected env log = some (v.cmd, v.txType) ∧ InOrder env log

def lastEnter (p : SopType) (log : List (ModeVdm × Bool)) : Option Bool :=
  (log.find? fun m => m.1.cmd = cmdEnterMode && m.1.txType = p).map Prod.snd

/-! ## The entry -/

/-- A port, the VDM that waits for its answer, and the VDMs before it with their answers, newest
first. -/
structure Entry where
  port : Port
  outstanding : Option ModeVdm
  answered : List (ModeVdm × Bool)

/-- What happens during an entry: the policy engine gets to its ready state, the DPM runs, Data Reset
completes, or the VDM is answered. -/
inductive EntryEvent
  | peReady
  | run (muxCompleted : Bool)
  | dataReset
  | answer (ack : Bool) (vdo : UInt32)

def sentVdm (s s' : Port) : Option ModeVdm :=
  (newOutputs s s').findSome? fun
    | .vdm _ v => some v
    | _ => none

/-- The answer to `v`: the same SVID, command and SOP*. -/
def answerVdm (cfg : Config) (env : Env) (v : ModeVdm) (ack : Bool) (vdo : UInt32) (s : Port) :
    Port :=
  if ack then dpmVdmAcked cfg env v.txType (vdoHeader v.svid v.cmd cmdtRspAck) vdo s
  else dpmVdmNaked cfg env v.txType v.svid v.cmd s

def InReset (s : Port) : Prop :=
  s.dpmState = .dataReset ∧ s.dataResetDone = false

instance : DecidablePred InReset := fun s =>
  inferInstanceAs (Decidable (s.dpmState = .dataReset ∧ s.dataResetDone = false))

def Entry.step (cfg : Config) (env : Env) (p : Entry) : EntryEvent → Entry
  | .peReady =>
    if p.outstanding.isNone then { p with port := { p.port with peReady := true } } else p
  | .run muxCompleted =>
    let port := dpmRun cfg env true muxCompleted p.port
    { p with port := port, outstanding := p.outstanding.or (sentVdm p.port port) }
  | .dataReset =>
    if InReset p.port then
      { p with
        port := dpmDataResetComplete (pdDfpExitMode cfg (p.port.usbMuxSet .none)) }
    else p
  | .answer ack vdo =>
    match p.outstanding with
    | none => p
    | some v =>
      { port := answerVdm cfg env v ack vdo p.port
        outstanding := none
        answered := (v, ack) :: p.answered }

/-- The entry is not for USB4: the build, the port, the partner or the cable cannot do it, or the
host has not asked for it. -/
def NotUsb4 (cfg : Config) (env : Env) (s : Port) : Prop :=
  cfg.usb4 = false ∨ env.tbtUsb4Port = false ∨ env.partnerRev30 = false ∨
    env.partnerUsb4 = false ∨ enterUsbCableIsCapable env = false ∨
    (cfg.requireApModeEntry = true ∧ s.enterUsb4 = false)

/-- The port is ready for an entry: the Thunderbolt module is at its start, and nothing else is asked
of the DPM. -/
structure EntryStart (cfg : Config) (env : Env) (s : Port) : Prop where
  localState : s.localState = .run
  dpmState : s.dpmState = .waiting ∨ s.dpmState = .dfpReady
  exitRequest : s.exitRequest = false
  sendVdmReq : s.sendVdmReq = false
  vconnSwap : s.vconnSwap = false
  tbtState : s.tbtState = .start
  tbtRetryDone : s.tbtRetryDone = false
  notUsb4 : NotUsb4 cfg env s

def tbtLog (log : List (ModeVdm × Bool)) : List (ModeVdm × Bool) :=
  log.filter fun m => m.1.svid = usbVidIntel

def Entry.messages (p : Entry) : List (ModeVdm × Bool) :=
  (p.outstanding.map fun v => (v, false)).toList ++ p.answered

def enterSopCount (log : List (ModeVdm × Bool)) : Nat :=
  (tbtLog log).countP fun m => m.1.cmd = cmdEnterMode && m.1.txType = .sop

def IsLastExit (env : Env) (v : ModeVdm) : Prop :=
  v.svid = usbVidIntel ∧ v.cmd = cmdExitMode ∧ nextIn v.txType (exitOrder env) = none

def NoRestart (cfg : Config) (env : Env) (p : Entry) : EntryEvent → Prop
  | .answer _ _ =>
    cfg.requireApModeEntry = true → (∃ v, p.outstanding = some v ∧ IsLastExit env v) →
      p.port.tbtRetryDone = false
  | _ => True

/-- The entry can get somewhere: the chipset is on, discovery is complete and the port is a DFP. -/
structure CanEnter (env : Env) : Prop where
  chipsetOn : env.chipsetOn = true
  svidsComplete : env.svidsComplete = true
  modesComplete : env.modesComplete = true
  dataRole : env.dataRole = .dfp

/-- What is next in an entry: the answer, the end of Data Reset, or a run with everything ready. -/
def Entry.turn (cfg : Config) (env : Env) (p : Entry) (answer : Bool × UInt32) : Entry :=
  if p.outstanding.isSome then p.step cfg env (.answer answer.1 answer.2)
  else if InReset p.port then p.step cfg env .dataReset
  else (p.step cfg env .peReady).step cfg env (.run true)

def TurnsAllowed (cfg : Config) (env : Env) : Entry → List (Bool × UInt32) → Prop
  | _, [] => True
  | p, a :: as => NoRestart cfg env p (.answer a.1 a.2) ∧ TurnsAllowed cfg env (p.turn cfg env a) as

structure Bounded (cfg : Config) (env : Env) (p : Entry) : Prop where
  inOrder : InOrder env (tbtLog p.messages)
  enterSop : enterSopCount p.messages ≤ 2
  active : p.port.tbtState = .active →
    ∀ plug ∈ enterOrder env, lastEnter plug (tbtLog p.messages) = some true
  count : p.messages.length ≤ 24
  done : CanEnter env → ∀ as, TurnsAllowed cfg env p as → 300 ≤ as.length →
    ∃ n ≤ 300, ((as.take n).foldl (Entry.turn cfg env) p).port.modeEntryDone = true

section Messages

variable {env : Env} {v : ModeVdm} {ack : Bool} {log : List (ModeVdm × Bool)}

theorem nextIn_mem {p q : SopType} {order : List SopType} (h : nextIn p order = some q) :
    q ∈ order := by
  unfold nextIn at h
  exact (List.dropWhile_sublist _).subset (List.mem_of_mem_tail (List.mem_of_head? h))

theorem mem_exitOrder {p : SopType} : p ∈ exitOrder env ↔ p ∈ enterOrder env := by
  unfold exitOrder enterOrder
  split_ifs <;> cases p <;> simp

theorem sop_mem_enterOrder : .sop ∈ enterOrder env := by
  unfold enterOrder
  split_ifs <;> simp

theorem firstMessage_mem {c : UInt32} {p : SopType} (h : firstMessage env = some (c, p)) :
    p ∈ enterOrder env := by
  unfold firstMessage at h
  simp only [Option.map_eq_some_iff, Prod.mk.injEq] at h
  obtain ⟨q, hq, -, rfl⟩ := h
  exact List.mem_of_head? hq

theorem mem_enterOrder_of_expected {c : UInt32} {p : SopType}
    (h : expected env log = some (c, p)) : p ∈ enterOrder env := by
  cases log with
  | nil => exact firstMessage_mem h
  | cons m log =>
    obtain ⟨v, ack⟩ := m
    simp only [expected, nextMessage] at h
    split_ifs at h
    · simp only [Option.map_eq_some_iff, Prod.mk.injEq] at h
      obtain ⟨q, hq, -, rfl⟩ := h
      exact nextIn_mem hq
    · simp only [Option.some.injEq, Prod.mk.injEq] at h
      exact h.2 ▸ sop_mem_enterOrder
    · cases hnext : nextIn v.txType (exitOrder env) with
      | some q =>
        simp only [hnext, Option.some.injEq, Prod.mk.injEq] at h
        exact h.2 ▸ mem_exitOrder.mp (nextIn_mem hnext)
      | none =>
        simp only [hnext] at h
        exact firstMessage_mem h

theorem takeWhile_nextIn {p q r : SopType} (h : nextIn p (enterOrder env) = some q)
    (hr : r ∈ (enterOrder env).takeWhile (· != q)) :
    r = p ∨ r ∈ (enterOrder env).takeWhile (· != p) := by
  revert h hr
  unfold enterOrder
  split_ifs <;> cases p <;> cases q <;> cases r <;> decide

theorem firstMessage_eq_none : firstMessage env ≠ none := by
  unfold firstMessage enterOrder
  split_ifs <;> simp

theorem takeWhile_firstMessage {c : UInt32} {q : SopType} (h : firstMessage env = some (c, q)) :
    (enterOrder env).takeWhile (· != q) = [] := by
  unfold firstMessage at h
  simp only [Option.map_eq_some_iff, Prod.mk.injEq] at h
  obtain ⟨q, hq, -, rfl⟩ := h
  obtain ⟨rest, hrest⟩ := List.head?_eq_some_iff.mp hq
  rw [hrest]
  simp

theorem cmdExitMode_ne_enter : cmdExitMode ≠ cmdEnterMode := by
  decide

theorem lastEnter_of_expected {q r : SopType} (h : InOrder env log)
    (hnext : expected env log = some (cmdEnterMode, q))
    (hr : r ∈ (enterOrder env).takeWhile (· != q)) : lastEnter r log = some true := by
  induction log generalizing q r with
  | nil =>
    rw [takeWhile_firstMessage hnext] at hr
    simp at hr
  | cons m log ih =>
    obtain ⟨v, ack⟩ := m
    obtain ⟨hexpected, hlog⟩ := h
    simp only [expected, nextMessage] at hnext
    by_cases henter : v.cmd = cmdEnterMode
    · rw [if_pos henter] at hnext
      cases ack with
      | false => simp [cmdExitMode_ne_enter] at hnext
      | true =>
        simp only [if_true, Option.map_eq_some_iff, Prod.mk.injEq, true_and] at hnext
        obtain ⟨q', hq, rfl⟩ := hnext
        rw [henter] at hexpected
        -- the last ACK was that of `r` itself, or of a plug which is asked after `r`
        by_cases hv : v.txType = r
        · simp [lastEnter, henter, hv]
        · have hbefore := (takeWhile_nextIn hq hr).resolve_left fun h => hv h.symm
          simpa [lastEnter, List.find?_cons, henter, hv] using ih hlog hexpected hbefore
    · rw [if_neg henter] at hnext
      cases hexit : nextIn v.txType (exitOrder env) with
      | some p => simp [hexit, cmdExitMode_ne_enter] at hnext
      | none =>
        simp only [hexit] at hnext
        rw [takeWhile_firstMessage hnext] at hr
        simp at hr

theorem lastEnter_of_expected_none {r : SopType} (h : InOrder env log)
    (hnext : expected env log = none) (hr : r ∈ enterOrder env) : lastEnter r log = some true := by
  cases log with
  | nil => exact absurd hnext firstMessage_eq_none
  | cons m log =>
    obtain ⟨v, ack⟩ := m
    obtain ⟨hexpected, hlog⟩ := h
    simp only [expected, nextMessage] at hnext
    by_cases henter : v.cmd = cmdEnterMode
    · rw [if_pos henter] at hnext
      cases ack with
      | false => simp at hnext
      | true =>
        simp only [if_true, Option.map_eq_none_iff] at hnext
        rw [henter] at hexpected
        -- the last ACK was that of the last plug, and all others are before it in the order
        by_cases hv : v.txType = r
        · simp [lastEnter, henter, hv]
        · have hbefore : r ∈ (enterOrder env).takeWhile (· != v.txType) := by
            have hmem := mem_enterOrder_of_expected hexpected
            clear hexpected
            revert hnext hv hr hmem
            generalize v.txType = p
            unfold enterOrder
            split_ifs <;> cases p <;> cases r <;> decide
          simpa [lastEnter, List.find?_cons, henter, hv]
            using lastEnter_of_expected hlog hexpected hbefore
    · rw [if_neg henter] at hnext
      cases hexit : nextIn v.txType (exitOrder env) with
      | some p => simp [hexit] at hnext
      | none =>
        simp only [hexit] at hnext
        exact absurd hnext firstMessage_eq_none

end Messages

/-! ## Runs of the DPM in an entry -/

def AwaitsReset (cfg : Config) (s : Port) : Prop :=
  (cfg.requireApModeEntry && cfg.dataResetMsg && enterAny s && !s.dataResetDone) = true ∨
    InReset s

structure Control (cfg : Config) (env : Env) (s : Port) : Prop where
  localState : s.localState = .run
  exitRequest : s.exitRequest = false
  sendVdmReq : s.sendVdmReq = false
  vconnSwap : s.vconnSwap = false
  ufpReady : s.dpmState = .ufpReady → env.dataRole = .ufp
  notUsb4 : NotUsb4 cfg env s

instance (cfg : Config) : DecidablePred (AwaitsReset cfg) := fun s =>
  inferInstanceAs (Decidable ((cfg.requireApModeEntry && cfg.dataResetMsg && enterAny s &&
    !s.dataResetDone) = true ∨ InReset s))

def DpmState.runs (dataResetDone : Bool) : DpmState → Nat
  | .waiting => 2
  | .dfpReady => 1
  | .ufpReady => 0
  | .dataReset => if dataResetDone then 2 else 0

def phase (cfg : Config) (s : Port) : Nat :=
  (if AwaitsReset cfg s then 3 else 0) + s.dpmState.runs s.dataResetDone

structure Idle (cfg : Config) (env : Env) (muxCompleted : Bool) (s s' : Port) : Prop where
  control : Control cfg env s'
  dpmOnly : DpmOnly s s'
  sent : sentVdm s s' = none
  awaitsReset : AwaitsReset cfg s' → AwaitsReset cfg s
  done : s.modeEntryDone = true → s'.modeEntryDone = true
  progress : s.peReady = true → muxCompleted = true → CanEnter env → ¬ InReset s →
    s'.modeEntryDone = true ∨ phase cfg s' < phase cfg s

structure Enters (cfg : Config) (s : Port) : Prop where
  dpmState : s.dpmState = .dfpReady
  modeEntryDone : s.modeEntryDone = false
  notDone : modeEntryIsDone cfg s = false
  noReset : ¬ AwaitsReset cfg s

/-- What a run of the DPM comes to.  `t` is the state after the output of a completed mux. -/
inductive EntryRun (cfg : Config) (env : Env) (muxCompleted : Bool) (s t : Port) :
    Port → Option ModeVdm → Prop
  | idle {s' : Port} : Idle cfg env muxCompleted s s' →
      EntryRun cfg env muxCompleted s t s' none
  | tbtWait : Enters cfg s → entersTbt cfg env s = true →
      (tbtSetupNextVdm cfg env t).1 = .muxWait →
      EntryRun cfg env muxCompleted s t (tbtSetupNextVdm cfg env t).2 none
  | tbtSend (v : ModeVdm) : Enters cfg s → entersTbt cfg env s = true →
      (tbtSetupNextVdm cfg env t).1 = .success v →
      EntryRun cfg env muxCompleted s t (sendModeVdm false v (tbtSetupNextVdm cfg env t).2) (some v)
  | dpWait : Enters cfg s → (dpSetupNextVdm cfg env t).1 = .muxWait →
      EntryRun cfg env muxCompleted s t (dpSetupNextVdm cfg env t).2 none
  | dpSend (v : ModeVdm) : Enters cfg s → (dpSetupNextVdm cfg env t).1 = .success v →
      EntryRun cfg env muxCompleted s t (sendModeVdm false v (dpSetupNextVdm cfg env t).2) (some v)
  | dpError : Enters cfg s →
      EntryRun cfg env muxCompleted s t (dpmSetModeEntryDone (dpSetupNextVdm cfg env t).2) none

section Runs

variable {cfg : Config} {env : Env} {s s' t : Port} {v : ModeVdm}

theorem entersUsb4_eq_false (h : NotUsb4 cfg env s) : entersUsb4 cfg env s = false := by
  unfold entersUsb4 enterUsbPortPartnerIsCapable dpmModeEntryRequested
  rcases h with h | h | h | h | h | ⟨hap, h⟩
  · simp [h]
  · simp [h]
  · simp [h]
  · simp [h]
  · simp [h]
  · simp [hap, h]

/-! ### The VDM that a run sends -/

theorem sentVdm_of_new {new : List Output} (h : s'.trace = new ++ s.trace) :
    sentVdm s s' = new.findSome? fun
      | .vdm _ v => some v
      | _ => none := by
  rw [sentVdm, newOutputs_eq h]

theorem sentVdm_eq_none (new : List Output) (h : s'.trace = new ++ s.trace)
    (hvdm : ∀ forExit v, .vdm forExit v ∉ new) : sentVdm s s' = none := by
  rw [sentVdm_of_new h, List.findSome?_eq_none_iff]
  intro o ho
  cases o with
  | vdm forExit v => exact absurd ho (hvdm forExit v)
  | _ => rfl

theorem MuxOnly.sentVdm_eq_none (h : MuxOnly (s.emit .muxCompleted) s') : sentVdm s s' = none := by
  obtain ⟨new, hnew, hmux⟩ := h.trace
  refine Altmode.sentVdm_eq_none (new ++ [.muxCompleted]) ?_ fun forExit v hv => ?_
  · rw [hnew]
    simp [Port.emit]
  · rcases List.mem_append.mp hv with hv | hv
    · obtain ⟨m, hm⟩ := hmux _ hv
      cases hm
    · simp at hv

theorem MuxOnly.sentVdm_sendModeVdm (h : MuxOnly (s.emit .muxCompleted) t) :
    sentVdm s (sendModeVdm false v t) = some v := by
  obtain ⟨new, hnew, -⟩ := h.trace
  have htrace : (sendModeVdm false v t).trace =
      (.request .vdm :: .vdm false v :: new ++ [.muxCompleted]) ++ s.trace := by
    show Output.request .vdm :: .vdm false v :: t.trace = _
    rw [hnew]
    simp [Port.emit]
  rw [sentVdm_of_new htrace]
  rfl

/-! ### The cases of a run -/

theorem Control.of_eq (hc : Control cfg env s) (hlocal : s'.localState = s.localState)
    (hexit : s'.exitRequest = s.exitRequest) (hreq : s'.sendVdmReq = s.sendVdmReq)
    (hswap : s'.vconnSwap = s.vconnSwap) (husb4 : s'.enterUsb4 = true → s.enterUsb4 = true)
    (hufp : s'.dpmState = .ufpReady → env.dataRole = .ufp) : Control cfg env s' := by
  refine ⟨hlocal.trans hc.localState, hexit.trans hc.exitRequest, hreq.trans hc.sendVdmReq,
    hswap.trans hc.vconnSwap, hufp, ?_⟩
  unfold NotUsb4
  have hflag : s.enterUsb4 = false → s'.enterUsb4 = false := by
    cases h : s'.enterUsb4 with
    | false => simp
    | true => simp [husb4 h]
  rcases hc.notUsb4 with h | h | h | h | h | ⟨hap, h⟩
  · exact .inl h
  · exact .inr (.inl h)
  · exact .inr (.inr (.inl h))
  · exact .inr (.inr (.inr (.inl h)))
  · exact .inr (.inr (.inr (.inr (.inl h))))
  · exact .inr (.inr (.inr (.inr (.inr ⟨hap, hflag h⟩))))

theorem dpmReadyRest_eq (hreq : s.sendVdmReq = false) (hswap : s.vconnSwap = false) :
    dpmReadyRest s = s := by
  simp [dpmReadyRest, dpmVconnSwapPolicy, hreq, hswap]

structure DpmPart where
  localState : LocalState
  dpmState : DpmState
  modeEntryDone : Bool
  exitRequest : Bool
  enterDp : Bool
  enterTbt : Bool
  enterUsb4 : Bool
  sendVdmReq : Bool
  dataResetDone : Bool
  peReady : Bool
  vconnSwap : Bool

def Port.dpmPart (s : Port) : DpmPart where
  localState := s.localState
  dpmState := s.dpmState
  modeEntryDone := s.modeEntryDone
  exitRequest := s.exitRequest
  enterDp := s.enterDp
  enterTbt := s.enterTbt
  enterUsb4 := s.enterUsb4
  sendVdmReq := s.sendVdmReq
  dataResetDone := s.dataResetDone
  peReady := s.peReady
  vconnSwap := s.vconnSwap

def SameDpm (s s' : Port) : Prop :=
  s'.dpmPart = s.dpmPart

theorem sameDpm_dpSetupNextVdm (cfg : Config) (env : Env) :
    SameDpm s (dpSetupNextVdm cfg env s).2 := by
  rcases dpSetupNextVdm_cases cfg env s with
    h | ⟨-, h⟩ | ⟨-, h⟩ | ⟨-, h⟩ | ⟨-, h⟩ | ⟨-, h⟩ <;> rw [h]
  · rfl
  · simp only [SameDpm, Port.dpmPart, svdmSafeDpMode, Port.ssMuxSet_eq]
  · rfl
  · simp only [SameDpm, Port.dpmPart, Port.ssMuxSet_eq]
  · simp only [SameDpm, Port.dpmPart, dpSetupExit, Port.ssMuxSet_eq]
  · simp only [SameDpm, Port.dpmPart, dpSetupExit, Port.ssMuxSet_eq]

theorem sameDpm_tbtSetupNextVdm (cfg : Config) (env : Env) :
    SameDpm s (tbtSetupNextVdm cfg env s).2 := by
  rcases tbtSetupNextVdm_spec cfg env s with
    h | ⟨-, new, -, h⟩ | ⟨-, h⟩ | ⟨-, h⟩ <;> rw [h]
  · rfl
  · simp only [SameDpm, Port.dpmPart, tbtSafeThen, Port.ssMuxSet_eq]
  · simp only [SameDpm, Port.dpmPart, tbtSafeThen, Port.ssMuxSet_eq]
  · simp only [SameDpm, Port.dpmPart, tbtSafeThen, Port.ssMuxSet_eq]

theorem canSetupVdm_tbt (h : (tbtSetupNextVdm cfg env s).1 = .success v) : CanSetupVdm v.count := by
  unfold tbtSetupNextVdm at h
  cases hstate : s.tbtState with
  | start =>
    by_cases hsupported : tbtModeIsSupported env = true
    · simp [hstate, hsupported] at h
    · simp [hstate, hsupported] at h
  | active | prepareExitMode | inactive => simp [hstate] at h
  | enterSop | enterSopPrime | enterSopPrimePrime | exitSop | exitSopPrime | exitSopPrimePrime =>
    simp only [hstate, MsgSetup.success.injEq] at h
    rw [← h]
    simp [enterTbtCompatMode, exitTbtVdm, CanSetupVdm, vdoMaxSize]

def tbtMessage (env : Env) : TbtState → Option (UInt32 × SopType)
  | .start => firstMessage env
  | .enterSopPrime => some (cmdEnterMode, .sopPrime)
  | .enterSopPrimePrime => some (cmdEnterMode, .sopPrimePrime)
  | .enterSop => some (cmdEnterMode, .sop)
  | .prepareExitMode => some (cmdExitMode, .sop)
  | .exitSop => some (cmdExitMode, .sop)
  | .exitSopPrimePrime => some (cmdExitMode, .sopPrimePrime)
  | .exitSopPrime => some (cmdExitMode, .sopPrime)
  | .active => none
  | .inactive => none

def TbtState.rank (retryDone : Bool) (state : TbtState) : Nat :=
  let again := if retryDone then 0 else 8
  match state with
  | .active | .inactive => 0
  | .exitSopPrime => 1 + again
  | .exitSopPrimePrime => 2 + again
  | .exitSop => 3 + again
  | .prepareExitMode => 4 + again
  | .enterSop => 5 + again
  | .enterSopPrimePrime => 6 + again
  | .enterSopPrime => 7 + again
  | .start => 8 + again

def TbtState.budget (retryDone : Bool) (state : TbtState) : Nat :=
  let again := if retryDone then 0 else 1
  match state with
  | .start | .enterSop | .enterSopPrime | .enterSopPrimePrime => 1 + again
  | .active | .inactive => 0
  | _ => again

def tbtRank (s : Port) : Nat :=
  s.tbtState.rank s.tbtRetryDone

def enterBudget (s : Port) : Nat :=
  s.tbtState.budget s.tbtRetryDone

def dpRank (s : Port) : Nat :=
  match s.dpState with
  | .start => 7
  | .enterNaked => 6
  | .prepareExit => if s.dpRetry then 5 else 1
  | .enterRetry => 4
  | .enterAcked => 3
  | .statusAcked => 2
  | .prepareConfig => 1
  | .active | .inactive => 0

theorem tbtSetupNextVdm_success (h : (tbtSetupNextVdm cfg env s).1 = .success v) :
    (tbtSetupNextVdm cfg env s).2 = s ∧ v.svid = usbVidIntel ∧ s.tbtState ≠ .start ∧
      s.tbtState ≠ .prepareExitMode ∧ tbtMessage env s.tbtState = some (v.cmd, v.txType) := by
  unfold tbtSetupNextVdm at h ⊢
  cases hstate : s.tbtState with
  | start =>
    by_cases hsupported : tbtModeIsSupported env = true
    · simp [hstate, hsupported] at h
    · simp [hstate, hsupported] at h
  | active | prepareExitMode | inactive => simp [hstate] at h
  | enterSop | enterSopPrime | enterSopPrimePrime | exitSop | exitSopPrime | exitSopPrimePrime =>
    simp only [hstate, MsgSetup.success.injEq] at h
    subst h
    simp [tbtMessage, enterTbtCompatMode, exitTbtVdm]

theorem tbtSetupNextVdm_muxWait (hactive : s.tbtState ≠ .active)
    (h : (tbtSetupNextVdm cfg env s).1 = .muxWait) :
    s.tbtState ≠ .inactive ∧
      tbtMessage env (tbtSetupNextVdm cfg env s).2.tbtState = tbtMessage env s.tbtState ∧
      enterBudget (tbtSetupNextVdm cfg env s).2 = enterBudget s ∧
      tbtRank (tbtSetupNextVdm cfg env s).2 < tbtRank s := by
  unfold tbtSetupNextVdm at h ⊢
  cases hstate : s.tbtState with
  -- the mux is set before the first message, so the state moves on but the message is the same
  | start =>
    by_cases hsupported : tbtModeIsSupported env = true
    · by_cases hprime : tbtSopPrimeNeeded env = true
      · simp only [if_pos hsupported, if_pos hprime, Port.ssMuxSet_eq]
        refine ⟨by simp, ?_, ?_, ?_⟩
        · by_cases hpp : tbtSopPrimePrimeNeeded env = true
          · simp [tbtMessage, firstMessage, enterOrder, hprime, hpp]
          · simp [tbtMessage, firstMessage, enterOrder, hprime, hpp]
        · simp [enterBudget, TbtState.budget, hstate]
        · simp [tbtRank, TbtState.rank, hstate]
      · simp only [if_pos hsupported, if_neg hprime, Port.ssMuxSet_eq]
        refine ⟨by simp, ?_, ?_, ?_⟩
        · simp [tbtMessage, firstMessage, enterOrder, hprime]
        · simp [enterBudget, TbtState.budget, hstate]
        · simp [tbtRank, TbtState.rank, hstate]
    · simp [hstate, hsupported] at h
  | active => exact absurd hstate hactive
  | prepareExitMode =>
    simp only [Port.ssMuxSet_eq]
    refine ⟨by simp, rfl, ?_, ?_⟩
    · simp [enterBudget, TbtState.budget, hstate]
    · simp [tbtRank, TbtState.rank, hstate]
  | _ => simp [hstate] at h

theorem dpSetupNextVdm_success (h : (dpSetupNextVdm cfg env s).1 = .success v) :
    cfg.dpMode = true ∧ CanSetupVdm v.count ∧ v.svid = usbSidDisplayport ∧ v.txType = .sop ∧
      v.cmd = (dpSetupNextVdm cfg env s).2.dpState.vdmCmd ∧ v.cmd ≠ 0 := by
  unfold dpSetupNextVdm at h ⊢
  by_cases hmode : (!cfg.dpMode) = true
  · rw [if_pos hmode] at h
    cases h
  rw [if_neg hmode] at h ⊢
  -- each state sets up its own command, with the size that it was given
  have hvdm (cmd : UInt32) (n : Nat) (hn : CanSetupVdm n) (hcmd : cmd ≠ 0)
      (heq : dpVdm cmd n = v) : cfg.dpMode = true ∧ CanSetupVdm v.count ∧
        v.svid = usbSidDisplayport ∧ v.txType = .sop ∧ v.cmd = cmd ∧ v.cmd ≠ 0 := by
    subst heq
    exact ⟨by simpa using hmode, hn, rfl, rfl, rfl, hcmd⟩
  have hconfig (t : Port) (ht : t.dpState = .prepareConfig)
      (h : (dpSetupConfig env t).1 = .success v) :
      cfg.dpMode = true ∧ CanSetupVdm v.count ∧ v.svid = usbSidDisplayport ∧ v.txType = .sop ∧
        v.cmd = (dpSetupConfig env t).2.dpState.vdmCmd ∧ v.cmd ≠ 0 := by
    unfold dpSetupConfig at h ⊢
    by_cases hpin : getDpPinMode env t = 0
    · rw [if_pos hpin] at h
      cases h
    · rw [if_neg hpin] at h ⊢
      simp only [ht]
      exact hvdm cmdDpConfig 2 (by decide) (by decide) (MsgSetup.success.inj h)
  have henter (hstate : s.dpState.vdmCmd = cmdEnterMode)
      (h : (dpSetupEnter cfg env s).1 = .success v) :
      cfg.dpMode = true ∧ CanSetupVdm v.count ∧ v.svid = usbSidDisplayport ∧ v.txType = .sop ∧
        v.cmd = (dpSetupEnter cfg env s).2.dpState.vdmCmd ∧ v.cmd ≠ 0 := by
    unfold dpSetupEnter at h ⊢
    cases hmode : env.dpModeVdo.bind fun modeCaps => svdmEnterDpMode cfg env modeCaps s with
    | none =>
      rw [hmode] at h
      cases h
    | some t =>
      rw [hmode] at h
      obtain ⟨modeCaps, -, hmode⟩ := Option.bind_eq_some_iff.mp hmode
      have ht : t.dpState = s.dpState := by
        rw [svdmEnterDpMode_eq hmode, svdmSafeDpMode, Port.ssMuxSet_eq]
      simp only [ht, hstate]
      exact hvdm cmdEnterMode 1 (by decide) (by decide) (MsgSetup.success.inj h)
  cases hstate : s.dpState with
  | start =>
    simp only [hstate] at h
    exact henter (by rw [hstate]; rfl) h
  | enterRetry =>
    simp only [hstate] at h
    exact henter (by rw [hstate]; rfl) h
  | enterAcked =>
    simp only [hstate] at h ⊢
    exact hvdm cmdDpStatus 2 (by decide) (by decide) (MsgSetup.success.inj h)
  | prepareExit =>
    simp only [hstate] at h ⊢
    exact hvdm cmdExitMode 1 (by decide) (by decide) (MsgSetup.success.inj h)
  | statusAcked =>
    simp only [hstate] at h ⊢
    by_cases hpin : getDpPinMode env s = 0
    · rw [if_pos hpin] at h
      cases h
    · rw [if_neg hpin] at h ⊢
      split_ifs at h ⊢
      exact hconfig _ rfl h
  | prepareConfig =>
    simp only [hstate] at h
    exact hconfig s hstate h
  | enterNaked | active | inactive => simp [hstate, dpSetupExit] at h

theorem svdmSafeDpMode_dp (cfg : Config) :
    (svdmSafeDpMode cfg s).dpState = s.dpState ∧ (svdmSafeDpMode cfg s).dpRetry = s.dpRetry := by
  simp only [svdmSafeDpMode, Port.ssMuxSet_eq, and_self]

theorem dpRank_setup (cfg : Config) (env : Env) (hactive : cfg.dpMode = true → s.dpState ≠ .active) :
    dpRank (dpSetupNextVdm cfg env s).2 ≤ dpRank s ∧
      ((dpSetupNextVdm cfg env s).1 = .muxWait →
        dpRank (dpSetupNextVdm cfg env s).2 < dpRank s) := by
  have hconfig (t : Port) : (dpSetupConfig env t).2 = t ∧ (dpSetupConfig env t).1 ≠ .muxWait := by
    unfold dpSetupConfig
    split <;> simp
  -- an entry that is set up keeps the state and the retry flag
  have henter : dpRank (dpSetupEnter cfg env s).2 = dpRank s ∧
      (dpSetupEnter cfg env s).1 ≠ .muxWait := by
    unfold dpSetupEnter
    cases hmode : env.dpModeVdo.bind fun modeCaps => svdmEnterDpMode cfg env modeCaps s with
    | none => simp
    | some t =>
      obtain ⟨modeCaps, -, hmode⟩ := Option.bind_eq_some_iff.mp hmode
      obtain ⟨hstate, hretry⟩ := svdmSafeDpMode_dp cfg (s := s)
      rw [svdmEnterDpMode_eq hmode]
      simp [dpRank, hstate, hretry]
  unfold dpSetupNextVdm
  by_cases hmode : (!cfg.dpMode) = true
  · rw [if_pos hmode]
    simp
  rw [if_neg hmode]
  cases hstate : s.dpState with
  | start => exact ⟨Nat.le_of_eq henter.1, fun h => absurd h henter.2⟩
  | enterRetry => exact ⟨Nat.le_of_eq henter.1, fun h => absurd h henter.2⟩
  | enterAcked | prepareExit | inactive => simp
  | statusAcked =>
    simp only
    split_ifs
    · simp
    · simp [dpRank, hstate, Port.ssMuxSet_eq]
    · rw [(hconfig _).1]
      exact ⟨by simp [dpRank, hstate], fun h => absurd h (hconfig _).2⟩
  | prepareConfig =>
    simp only
    rw [(hconfig s).1]
    exact ⟨Nat.le_refl _, fun h => absurd h (hconfig s).2⟩
  | enterNaked => simp [dpSetupExit, dpRank, hstate, Port.ssMuxSet_eq]
  | active => exact absurd hstate (hactive (by simpa using hmode))

theorem dpSetupNextVdm_tbt (cfg : Config) (env : Env) :
    (dpSetupNextVdm cfg env s).2.tbtState = s.tbtState ∧
      (dpSetupNextVdm cfg env s).2.tbtRetryDone = s.tbtRetryDone := by
  rcases dpSetupNextVdm_cases cfg env s with
    h | ⟨-, h⟩ | ⟨-, h⟩ | ⟨-, h⟩ | ⟨-, h⟩ | ⟨-, h⟩ <;> rw [h]
  · exact ⟨rfl, rfl⟩
  · simp only [svdmSafeDpMode, Port.ssMuxSet_eq, and_self]
  · exact ⟨rfl, rfl⟩
  · simp only [Port.ssMuxSet_eq, and_self]
  · simp only [dpSetupExit, Port.ssMuxSet_eq, and_self]
  · simp only [dpSetupExit, Port.ssMuxSet_eq, and_self]

theorem tbtSetupNextVdm_dp (cfg : Config) (env : Env) :
    (tbtSetupNextVdm cfg env s).2.dpState = s.dpState ∧
      (tbtSetupNextVdm cfg env s).2.dpRetry = s.dpRetry := by
  rcases tbtSetupNextVdm_spec cfg env s with
    h | ⟨-, new, -, h⟩ | ⟨-, h⟩ | ⟨-, h⟩ <;> rw [h]
  · exact ⟨rfl, rfl⟩
  · simp only [tbtSafeThen, Port.ssMuxSet_eq, and_self]
  · simp only [tbtSafeThen, Port.ssMuxSet_eq, and_self]
  · simp only [tbtSafeThen, Port.ssMuxSet_eq, and_self]

/-! ### The run lemma -/

theorem Idle.of_trace {mc : Bool} (new : List Output) (hc : Control cfg env s')
    (hmodes : s'.modes = s.modes) (hnew : s'.trace = new ++ s.trace)
    (hdpm : ∀ o ∈ new, o = .muxCompleted ∨ ∃ r, o = .request r)
    (hreset : AwaitsReset cfg s' → AwaitsReset cfg s)
    (hdone : s.modeEntryDone = true → s'.modeEntryDone = true)
    (hprogress : s.peReady = true → mc = true → CanEnter env → ¬ InReset s →
      s'.modeEntryDone = true ∨ phase cfg s' < phase cfg s) : Idle cfg env mc s s' := by
  refine ⟨hc, ⟨hmodes, new, hnew, fun o ho => ?_⟩, sentVdm_eq_none new hnew fun forExit v hv => ?_,
    hreset, hdone, hprogress⟩
  · rcases hdpm o ho with rfl | ⟨r, rfl⟩
    · trivial
    · trivial
  · rcases hdpm _ hv with h | ⟨r, h⟩
    · cases h
    · cases h

theorem AwaitsReset.of_eq (h : AwaitsReset cfg s') (hstate : s'.dpmState ≠ .dataReset)
    (hany : enterAny s' = true → enterAny s = true) (hdone : s'.dataResetDone = s.dataResetDone) :
    AwaitsReset cfg s := by
  rcases h with h | ⟨h, -⟩
  · refine .inl ?_
    simp only [Bool.and_eq_true, Bool.not_eq_true', hdone] at h ⊢
    exact ⟨⟨h.1.1, hany h.1.2⟩, h.2⟩
  · exact absurd h hstate

theorem phase_lt (h : AwaitsReset cfg s' → AwaitsReset cfg s)
    (hlt : s'.dpmState.runs s'.dataResetDone < s.dpmState.runs s.dataResetDone) :
    phase cfg s' < phase cfg s := by
  unfold phase
  by_cases hreset : AwaitsReset cfg s'
  · rw [if_pos hreset, if_pos (h hreset)]
    omega
  · rw [if_neg hreset]
    omega

theorem modeEntryIsDone_emit (o : Output) :
    modeEntryIsDone cfg (s.emit o) = modeEntryIsDone cfg s := rfl

theorem tbtSetupNextVdm_unsupported (h : (tbtSetupNextVdm cfg env s).1 = .unsupported) :
    (tbtSetupNextVdm cfg env s).2 = s := by
  unfold tbtSetupNextVdm at h ⊢
  cases hstate : s.tbtState with
  | start =>
    by_cases hsupported : tbtModeIsSupported env = true
    · simp [hstate, hsupported] at h
    · simp [hsupported]
  | _ => simp [hstate] at h ⊢

theorem tbtSetupNextVdm_ne_error : (tbtSetupNextVdm cfg env s).1 ≠ .error := by
  unfold tbtSetupNextVdm
  cases s.tbtState with
  | start =>
    by_cases hsupported : tbtModeIsSupported env = true
    · simp [hsupported]
    · simp [hsupported]
  | _ => simp

theorem setupEnterVdm_cases (cfg : Config) (env : Env) :
    setupEnterVdm cfg env (.unsupported, s) = (.unsupported, s) ∨
      (entersTbt cfg env s = true ∧
        setupEnterVdm cfg env (.unsupported, s) = tbtSetupNextVdm cfg env s) ∨
      setupEnterVdm cfg env (.unsupported, s) = dpSetupNextVdm cfg env s := by
  unfold setupEnterVdm
  by_cases htbt : entersTbt cfg env s = true
  · simp only [if_pos htbt]
    by_cases hdp : (tbtSetupNextVdm cfg env s).1 = .unsupported ∧
        entersDp cfg env (tbtSetupNextVdm cfg env s).2 = true
    · rw [if_pos hdp, tbtSetupNextVdm_unsupported hdp.1]
      exact .inr (.inr rfl)
    · rw [if_neg hdp]
      exact .inr (.inl ⟨htbt, rfl⟩)
  · simp only [if_neg htbt]
    split
    · exact .inr (.inr rfl)
    · exact .inl rfl

theorem entryRun_enterModeMsg {mc : Bool} (hc : Control cfg env s)
    (hstate : s.dpmState = .dfpReady) (hdone : s.modeEntryDone = false) :
    ∃ sent, EntryRun cfg env mc s (s.emit .muxCompleted)
        (dpmDfpEnterModeMsg cfg env (s.emit .muxCompleted)).2 sent ∧
      sentVdm s (dpmDfpEnterModeMsg cfg env (s.emit .muxCompleted)).2 = sent := by
  have hidle {s' : Port} (h : Idle cfg env mc s s') :
      ∃ sent, EntryRun cfg env mc s (s.emit .muxCompleted) s' sent ∧ sentVdm s s' = sent :=
    ⟨none, .idle h, h.sent⟩
  -- the entry is done without another message
  have hend : Idle cfg env mc s (dpmSetModeEntryDone (s.emit .muxCompleted)) := by
    refine .of_trace [.muxCompleted]
      (hc.of_eq rfl rfl rfl rfl (by simp [dpmSetModeEntryDone]) hc.ufpReady) rfl rfl (by simp)
      (fun h => h.of_eq ?_ ?_ rfl) (fun _ => rfl) fun _ _ _ _ => .inl rfl
    · simp [dpmSetModeEntryDone, Port.emit, hstate]
    · simp [dpmSetModeEntryDone, enterAny]
  -- the run is over before it gets to a message
  have hearly (h : ¬ CanEnter env) : Idle cfg env mc s (s.emit .muxCompleted) :=
    .of_trace [.muxCompleted] (hc.of_eq rfl rfl rfl rfl id hc.ufpReady) rfl rfl (by simp)
      id id fun _ _ hcan _ => absurd hcan h
  have husb4 : entersUsb4 cfg env (s.emit .muxCompleted) = false :=
    entersUsb4_eq_false hc.notUsb4
  unfold dpmDfpEnterModeMsg
  by_cases hchipset : (!env.chipsetOn) = true
  · rw [if_pos hchipset]
    exact hidle (hearly fun hcan => by simp [hcan.chipsetOn] at hchipset)
  rw [if_neg hchipset]
  by_cases hdisc : (!env.svidsComplete || !env.modesComplete) = true
  · rw [if_pos hdisc]
    exact hidle (hearly fun hcan => by simp [hcan.svidsComplete, hcan.modesComplete] at hdisc)
  rw [if_neg hdisc]
  by_cases hentered : modeEntryIsDone cfg (s.emit .muxCompleted) = true
  · rw [if_pos hentered]
    exact hidle hend
  rw [if_neg hentered]
  by_cases hreset : (cfg.requireApModeEntry && cfg.dataResetMsg &&
      enterAny (s.emit .muxCompleted) && !(s.emit .muxCompleted).dataResetDone) = true
  · rw [if_pos hreset]
    have hpending : AwaitsReset cfg s := .inl hreset
    have hnotDone : s.dataResetDone = false := by
      simp only [Bool.and_eq_true, Bool.not_eq_true'] at hreset
      exact hreset.2
    refine hidle (.of_trace [.request .dataReset, .muxCompleted]
      (hc.of_eq rfl rfl rfl rfl id (by simp [setStateDpm, Port.emit])) rfl rfl (by simp)
      (fun _ => hpending) id fun _ _ _ _ => .inr (phase_lt (fun _ => hpending) ?_))
    simp [setStateDpm, Port.emit, DpmState.runs, hstate, hnotDone]
  rw [if_neg hreset, husb4]
  simp only [Bool.false_eq_true, if_false]
  have henters : Enters cfg s := by
    refine ⟨hstate, hdone, by simpa [modeEntryIsDone_emit] using hentered, ?_⟩
    rintro (h | ⟨h, -⟩)
    · exact hreset h
    · simp [hstate] at h
  have hmux := muxOnly_tbtSetupNextVdm cfg env (s := s.emit .muxCompleted)
  have hmux' := muxOnly_dpSetupNextVdm cfg env (s := s.emit .muxCompleted)
  rcases setupEnterVdm_cases cfg env (s := s.emit .muxCompleted) with
    h | ⟨htbt, h⟩ | h <;> rw [h]
  · exact hidle hend
  · -- Thunderbolt
    have htbt : entersTbt cfg env s = true := htbt
    cases hr : (tbtSetupNextVdm cfg env (s.emit .muxCompleted)).1 with
    | muxWait =>
      have hfinish : finishEnterMode (tbtSetupNextVdm cfg env (s.emit .muxCompleted)) =
          (false, (tbtSetupNextVdm cfg env (s.emit .muxCompleted)).2) := by
        simp only [finishEnterMode, hr]
      rw [hfinish]
      exact ⟨none, .tbtWait henters htbt hr, hmux.sentVdm_eq_none⟩
    | success v =>
      have hfinish : finishEnterMode (tbtSetupNextVdm cfg env (s.emit .muxCompleted)) =
          (true, sendModeVdm false v (tbtSetupNextVdm cfg env (s.emit .muxCompleted)).2) := by
        simp only [finishEnterMode, hr, if_pos (canSetupVdm_tbt hr)]
      rw [hfinish]
      exact ⟨some v, .tbtSend v henters htbt hr, hmux.sentVdm_sendModeVdm⟩
    | unsupported =>
      have hfinish : finishEnterMode (tbtSetupNextVdm cfg env (s.emit .muxCompleted)) =
          (false, dpmSetModeEntryDone (s.emit .muxCompleted)) := by
        simp only [finishEnterMode, hr, tbtSetupNextVdm_unsupported hr]
      rw [hfinish]
      exact hidle hend
    | error => exact absurd hr tbtSetupNextVdm_ne_error
  · -- DisplayPort
    have herror (h : (finishEnterMode (dpSetupNextVdm cfg env (s.emit .muxCompleted))).2 =
        dpmSetModeEntryDone (dpSetupNextVdm cfg env (s.emit .muxCompleted)).2) :
        ∃ sent, EntryRun cfg env mc s (s.emit .muxCompleted)
            (finishEnterMode (dpSetupNextVdm cfg env (s.emit .muxCompleted))).2 sent ∧
          sentVdm s (finishEnterMode (dpSetupNextVdm cfg env (s.emit .muxCompleted))).2 = sent := by
      rw [h]
      exact ⟨none, .dpError henters,
        MuxOnly.sentVdm_eq_none (hmux'.trans (.of_trace_eq rfl))⟩
    cases hr : (dpSetupNextVdm cfg env (s.emit .muxCompleted)).1 with
    | muxWait =>
      have hfinish : finishEnterMode (dpSetupNextVdm cfg env (s.emit .muxCompleted)) =
          (false, (dpSetupNextVdm cfg env (s.emit .muxCompleted)).2) := by
        simp only [finishEnterMode, hr]
      rw [hfinish]
      exact ⟨none, .dpWait henters hr, hmux'.sentVdm_eq_none⟩
    | success v =>
      have hfinish : finishEnterMode (dpSetupNextVdm cfg env (s.emit .muxCompleted)) =
          (true, sendModeVdm false v (dpSetupNextVdm cfg env (s.emit .muxCompleted)).2) := by
        simp only [finishEnterMode, hr, if_pos (dpSetupNextVdm_success hr).2.1]
      rw [hfinish]
      exact ⟨some v, .dpSend v henters hr, hmux'.sentVdm_sendModeVdm⟩
    | error | unsupported => exact herror (by simp only [finishEnterMode, hr])

theorem Control.of_sameDpm (hc : Control cfg env s) (h : SameDpm s s') : Control cfg env s' := by
  have husb4 : s'.enterUsb4 = s.enterUsb4 := congrArg DpmPart.enterUsb4 h
  have hstate : s'.dpmState = s.dpmState := congrArg DpmPart.dpmState h
  exact hc.of_eq (congrArg DpmPart.localState h) (congrArg DpmPart.exitRequest h)
    (congrArg DpmPart.sendVdmReq h) (congrArg DpmPart.vconnSwap h) (husb4 ▸ id)
    (hstate ▸ hc.ufpReady)

theorem EntryRun.control {mc : Bool} {sent : Option ModeVdm} (hc : Control cfg env s)
    (h : EntryRun cfg env mc s (s.emit .muxCompleted) s' sent) : Control cfg env s' := by
  have hstart : Control cfg env (s.emit .muxCompleted) :=
    hc.of_eq rfl rfl rfl rfl id hc.ufpReady
  have hsend {t : Port} (ht : Control cfg env t) (v : ModeVdm) :
      Control cfg env (sendModeVdm false v t) :=
    ht.of_eq rfl rfl rfl rfl id (by simp [sendModeVdm, setStateDpm])
  cases h with
  | idle h => exact h.control
  | tbtWait => exact hstart.of_sameDpm (sameDpm_tbtSetupNextVdm _ _)
  | tbtSend v => exact hsend (hstart.of_sameDpm (sameDpm_tbtSetupNextVdm _ _)) v
  | dpWait => exact hstart.of_sameDpm (sameDpm_dpSetupNextVdm _ _)
  | dpSend v => exact hsend (hstart.of_sameDpm (sameDpm_dpSetupNextVdm _ _)) v
  | dpError =>
    have hdp : Control cfg env (dpSetupNextVdm cfg env (s.emit .muxCompleted)).2 :=
      hstart.of_sameDpm (sameDpm_dpSetupNextVdm _ _)
    exact hdp.of_eq rfl rfl rfl rfl (by simp [dpmSetModeEntryDone]) hdp.ufpReady

/-- A run of the DPM in an entry leaves the modules alone, sets up a VDM, waits for the mux or is
done. -/
theorem entryRun_dpmRun (hc : Control cfg env s) (mc : Bool) :
    ∃ sent, EntryRun cfg env mc s (s.emit .muxCompleted) (dpmRun cfg env true mc s) sent ∧
      sentVdm s (dpmRun cfg env true mc s) = sent := by
  have hidle {s' : Port} (h : Idle cfg env mc s s') :
      ∃ sent, EntryRun cfg env mc s (s.emit .muxCompleted) s' sent ∧ sentVdm s s' = sent :=
    ⟨none, .idle h, h.sent⟩
  have hrun : dpmRun cfg env true mc s = dpmRunState cfg env mc s := by
    simp [dpmRun, hc.localState]
  rw [hrun]
  unfold dpmRunState
  cases hstate : s.dpmState with
  | waiting =>
    simp only [dpmWaitingRun]
    -- without the policy engine the DPM waits, and as a UFP it sends nothing
    by_cases hready : s.peReady = true
    · rw [if_pos hready]
      cases hrole : env.dataRole with
      | ufp =>
        refine hidle (.of_trace [] (hc.of_eq rfl rfl rfl rfl id fun _ => hrole) rfl rfl
          (by simp) (fun h => h.of_eq (by simp [setStateDpm]) id rfl) id fun _ _ hcan _ => ?_)
        simp [hcan.dataRole] at hrole
      | dfp =>
        have hphase (h : AwaitsReset cfg (setStateDpm .dfpReady s)) : AwaitsReset cfg s :=
          h.of_eq (by simp [setStateDpm]) id rfl
        refine hidle (.of_trace [] (hc.of_eq rfl rfl rfl rfl id (by simp [setStateDpm]))
          rfl rfl (by simp) hphase id fun _ _ _ _ => .inr (phase_lt hphase ?_))
        simp [setStateDpm, DpmState.runs, hstate]
      | disconnected =>
        refine hidle (.of_trace [] hc rfl rfl (by simp) id id fun _ _ hcan _ => ?_)
        simp [hcan.dataRole] at hrole
    · rw [if_neg hready]
      exact hidle (.of_trace [] hc rfl rfl (by simp) id id fun h => absurd h hready)
  | dfpReady =>
    simp only [dpmDfpReadyRun]
    by_cases hready : (!s.peReady) = true
    · rw [if_pos hready]
      refine hidle (.of_trace [] (hc.of_eq rfl rfl rfl rfl id (by simp [setStateDpm])) rfl
        rfl (by simp) (fun h => h.of_eq (by simp [setStateDpm]) id rfl) id fun h => ?_)
      simp [h] at hready
    rw [if_neg hready]
    by_cases hmux : (cfg.usbcSsMux && !mc) = true
    · rw [if_pos hmux]
      refine hidle (.of_trace [] hc rfl rfl (by simp) id id fun _ h => ?_)
      simp [h] at hmux
    rw [if_neg hmux]
    -- the only run that may send: `dpm_dfp_mode_msg` without an exit request
    have hmsg : ∃ sent, EntryRun cfg env mc s (s.emit .muxCompleted)
        (dpmDfpModeMsg cfg env (s.emit .muxCompleted)).2 sent ∧
          sentVdm s (dpmDfpModeMsg cfg env (s.emit .muxCompleted)).2 = sent := by
      have hexit : (s.emit .muxCompleted).exitRequest = false := hc.exitRequest
      unfold dpmDfpModeMsg
      rw [hexit]
      simp only [Bool.false_eq_true, if_false]
      by_cases hdone : (!(s.emit .muxCompleted).modeEntryDone) = true
      · rw [if_pos hdone]
        exact entryRun_enterModeMsg hc hstate (by simpa [Port.emit] using hdone)
      · rw [if_neg hdone]
        refine hidle (.of_trace [.muxCompleted]
          (hc.of_eq rfl rfl rfl rfl id hc.ufpReady) rfl rfl (by simp) id id
          fun _ _ _ _ => .inl (by simpa [Port.emit] using hdone))
    obtain ⟨sent, hentry, hsent⟩ := hmsg
    have hcontrol := hentry.control hc
    by_cases hchanged : (dpmDfpModeMsg cfg env (s.emit .muxCompleted)).1 = true
    · rw [if_pos hchanged]
      exact ⟨sent, hentry, hsent⟩
    · rw [if_neg hchanged, dpmReadyRest_eq hcontrol.sendVdmReq hcontrol.vconnSwap]
      exact ⟨sent, hentry, hsent⟩
  | ufpReady =>
    have hrole := hc.ufpReady hstate
    have hcan (h : CanEnter env) : False := by
      simp [h.dataRole] at hrole
    simp only [dpmUfpReadyRun]
    split_ifs with hready hany
    · refine hidle (.of_trace [] (hc.of_eq rfl rfl rfl rfl id (by simp [setStateDpm])) rfl
        rfl (by simp) (fun h => h.of_eq (by simp [setStateDpm]) id rfl) id
        fun _ _ h _ => (hcan h).elim)
    · refine hidle (.of_trace [] (hc.of_eq rfl rfl rfl rfl (by simp) fun _ => hrole) rfl
        rfl (by simp) (fun h => h.of_eq (by simp [hstate]) (by simp [enterAny]) rfl) id
        fun _ _ h _ => (hcan h).elim)
    · rw [dpmReadyRest_eq hc.sendVdmReq hc.vconnSwap]
      exact hidle (.of_trace [] hc rfl rfl (by simp) id id fun _ _ h _ => (hcan h).elim)
  | dataReset =>
    simp only
    by_cases hreset : s.dataResetDone = true
    · rw [if_pos hreset]
      have hawaits (h : AwaitsReset cfg (setStateDpm .dfpReady s)) : AwaitsReset cfg s :=
        h.of_eq (by simp [setStateDpm]) id rfl
      refine hidle (.of_trace [] (hc.of_eq rfl rfl rfl rfl id (by simp [setStateDpm])) rfl
        rfl (by simp) hawaits id fun _ _ _ _ => .inr (phase_lt hawaits ?_))
      simp [setStateDpm, DpmState.runs, hstate, hreset]
    · rw [if_neg hreset]
      exact hidle (.of_trace [] hc rfl rfl (by simp) id id fun _ _ _ h =>
        absurd ⟨hstate, by simpa using hreset⟩ h)

/-! ### Answers -/

def tbtAfter (cfg : Config) (env : Env) (state : TbtState) (retry ack : Bool) : TbtState × Bool :=
  let exited : TbtState × Bool :=
    if retry then (if cfg.requireApModeEntry then .start else .inactive, false) else (.start, true)
  match state with
  | .enterSopPrime =>
    if ack then (if tbtSopPrimePrimeNeeded env then .enterSopPrimePrime else .enterSop, retry)
    else (.prepareExitMode, retry)
  | .enterSopPrimePrime => if ack then (.enterSop, retry) else (.prepareExitMode, retry)
  | .enterSop => if ack then (.active, true) else (.prepareExitMode, retry)
  | .exitSop =>
    if tbtSopPrimePrimeNeeded env then (.exitSopPrimePrime, retry)
    else if tbtSopPrimeNeeded env then (.exitSopPrime, retry)
    else exited
  | .exitSopPrimePrime => (.exitSopPrime, retry)
  | .exitSopPrime => exited
  | _ => (state, retry)

structure TbtAnswered (s s' : Port) (after : TbtState × Bool) : Prop where
  sameDpm : SameDpm s s'
  dpState : s'.dpState = s.dpState
  dpRetry : s'.dpRetry = s.dpRetry
  after : (s'.tbtState, s'.tbtRetryDone) = after

theorem tbtAnswered_exitOrRetry {after : TbtState × Bool} (hdpm : SameDpm s t)
    (hdp : t.dpState = s.dpState) (hretry : t.dpRetry = s.dpRetry)
    (hafter : (if t.tbtRetryDone then
      (if cfg.requireApModeEntry then TbtState.start else .inactive, false) else (.start, true))
        = after) : TbtAnswered s (tbtExitOrRetry cfg t) after := by
  unfold tbtExitOrRetry
  by_cases hdone : t.tbtRetryDone = true
  · rw [if_pos hdone] at hafter ⊢
    exact ⟨hdpm, hdp, hretry, hafter⟩
  · rw [if_neg hdone] at hafter ⊢
    exact ⟨hdpm, hdp, hretry, hafter⟩

theorem SameDpm.ssMuxSet (h : SameDpm s t) (m : MuxRequest) : SameDpm s (t.ssMuxSet cfg m) := by
  rw [Port.ssMuxSet_eq]
  exact h

theorem tbtAnswered_exitSop {ack : Bool} (hdpm : SameDpm s t)
    (hdp : t.dpState = s.dpState) (hretry : t.dpRetry = s.dpRetry)
    (hdone : t.tbtRetryDone = s.tbtRetryDone) :
    TbtAnswered s (tbtExitSopAnswered cfg env t)
      (tbtAfter cfg env .exitSop s.tbtRetryDone ack) := by
  unfold tbtExitSopAnswered tbtAfter
  simp only
  by_cases hpp : tbtSopPrimePrimeNeeded env = true
  · rw [if_pos hpp, if_pos hpp]
    exact ⟨hdpm, hdp, hretry, by simp [hdone]⟩
  rw [if_neg hpp, if_neg hpp]
  by_cases hprime : tbtSopPrimeNeeded env = true
  · rw [if_pos hprime, if_pos hprime]
    exact ⟨hdpm, hdp, hretry, by simp [hdone]⟩
  · rw [if_neg hprime, if_neg hprime]
    refine tbtAnswered_exitOrRetry (hdpm.ssMuxSet _) ?_ ?_ ?_
    · simpa only [Port.ssMuxSet_eq] using hdp
    · simpa only [Port.ssMuxSet_eq] using hretry
    · simp only [Port.ssMuxSet_eq, hdone]

def TbtSends (s : Port) : Prop :=
  s.tbtState ≠ .start ∧ s.tbtState ≠ .active ∧ s.tbtState ≠ .prepareExitMode ∧
    s.tbtState ≠ .inactive

theorem tbtAnswered_acked {txType : SopType} {header : UInt32} (hsends : TbtSends s)
    (hvalid : TbtResponseValid env txType (pdVdoCmd header) s) :
    TbtAnswered s (intelVdmAcked cfg env txType header s)
      (tbtAfter cfg env s.tbtState s.tbtRetryDone true) := by
  obtain ⟨hstart, hactive, hprepare, hinactive⟩ := hsends
  unfold intelVdmAcked
  rw [if_pos hvalid]
  cases hstate : s.tbtState with
  | enterSopPrime =>
    simp only [tbtAfter, if_true]
    split
    · exact ⟨rfl, rfl, rfl, rfl⟩
    · exact ⟨rfl, rfl, rfl, rfl⟩
  | enterSopPrimePrime => exact ⟨rfl, rfl, rfl, rfl⟩
  | enterSop =>
    refine ⟨?_, ?_, ?_, rfl⟩
    · simp only [SameDpm, Port.dpmPart, setTbtCompatModeReady, Port.ssMuxSet_eq]
    · simp only [setTbtCompatModeReady, Port.ssMuxSet_eq]
    · simp only [setTbtCompatModeReady, Port.ssMuxSet_eq]
  | exitSop => exact tbtAnswered_exitSop rfl rfl rfl rfl
  | exitSopPrimePrime => exact ⟨rfl, rfl, rfl, rfl⟩
  | exitSopPrime =>
    simp only [tbtAfter]
    by_cases hretry : s.tbtRetryDone = true
    · rw [if_pos hretry, if_pos hretry]
      refine ⟨?_, ?_, ?_, ?_⟩
      · simp only [SameDpm, Port.dpmPart, tbtExitDone, Port.ssMuxSet_eq]
      · simp only [tbtExitDone, Port.ssMuxSet_eq]
      · simp only [tbtExitDone, Port.ssMuxSet_eq]
      · simp only [tbtExitDone, Port.ssMuxSet_eq]
    · rw [if_neg hretry, if_neg hretry]
      exact ⟨rfl, rfl, rfl, rfl⟩
  | start => exact absurd hstate hstart
  | active => exact absurd hstate hactive
  | prepareExitMode => exact absurd hstate hprepare
  | inactive => exact absurd hstate hinactive

theorem tbtAnswered_naked {txType : SopType} {cmd : UInt32} (hsends : TbtSends s)
    (hvalid : TbtResponseValid env txType cmd s) :
    TbtAnswered s (intelVdmNaked cfg env txType cmd s)
      (tbtAfter cfg env s.tbtState s.tbtRetryDone false) := by
  obtain ⟨hstart, hactive, hprepare, hinactive⟩ := hsends
  unfold intelVdmNaked
  rw [if_pos hvalid]
  cases hstate : s.tbtState with
  | enterSopPrime | enterSopPrimePrime | enterSop | exitSopPrimePrime => exact ⟨rfl, rfl, rfl, rfl⟩
  | exitSop => exact tbtAnswered_exitSop rfl rfl rfl rfl
  | exitSopPrime =>
    refine tbtAnswered_exitOrRetry (SameDpm.ssMuxSet rfl _) ?_ ?_ ?_
    · simp only [Port.ssMuxSet_eq]
    · simp only [Port.ssMuxSet_eq]
    · simp only [Port.ssMuxSet_eq, tbtAfter]
  | start => exact absurd hstate hstart
  | active => exact absurd hstate hactive
  | prepareExitMode => exact absurd hstate hprepare
  | inactive => exact absurd hstate hinactive

theorem tbtSopPrimeNeeded_of_primePrime (env : Env) (h : tbtSopPrimePrimeNeeded env = true) :
    tbtSopPrimeNeeded env = true := by
  simp only [tbtSopPrimePrimeNeeded, Bool.and_eq_true, decide_eq_true_eq] at h
  simp [tbtSopPrimeNeeded, h.1]

section After

variable {state : TbtState} {retry ack : Bool} {c : UInt32} {p : SopType}

theorem nextIn_exitOrder_sopPrime : nextIn .sopPrime (exitOrder env) = none := by
  unfold exitOrder
  split_ifs <;> decide

theorem nextIn_exitOrder_sop (hprime : tbtSopPrimeNeeded env = false) :
    nextIn .sop (exitOrder env) = none := by
  simp [exitOrder, hprime, nextIn]

theorem nextIn_enterOrder_sop : nextIn .sop (enterOrder env) = none := by
  unfold enterOrder
  split_ifs <;> decide

theorem sopPrimeNeeded_of_mem (h : .sopPrime ∈ enterOrder env) : tbtSopPrimeNeeded env = true := by
  unfold enterOrder at h
  split_ifs at h with hprime
  · exact hprime
  · exact hprime
  · exact absurd h (by decide)

theorem sopPrimePrimeNeeded_of_mem (h : .sopPrimePrime ∈ enterOrder env) :
    tbtSopPrimeNeeded env = true ∧ tbtSopPrimePrimeNeeded env = true := by
  unfold enterOrder at h
  split_ifs at h with hprime hprimePrime
  · exact ⟨hprime, hprimePrime⟩
  · exact absurd h (by decide)
  · exact absurd h (by decide)

/-- An answer that is not the last of an exit after the retry does not make the module start over
in vain. -/
theorem tbtAfter_ne_start (hmsg : tbtMessage env state = some (c, p)) (hstart : state ≠ .start)
    (hok : c = cmdExitMode → nextIn p (exitOrder env) = none → retry = false)
    (hretry : retry = true) : (tbtAfter cfg env state retry ack).1 ≠ .start := by
  subst hretry
  cases state with
  | start => exact absurd rfl hstart
  -- SOP' is the last plug of an exit
  | exitSopPrime =>
    simp only [tbtMessage, Option.some.injEq, Prod.mk.injEq] at hmsg
    exact absurd (hok hmsg.1.symm (hmsg.2 ▸ nextIn_exitOrder_sopPrime)) (by simp)
  | exitSop =>
    simp only [tbtMessage, Option.some.injEq, Prod.mk.injEq] at hmsg
    simp only [tbtAfter]
    cases hpp : tbtSopPrimePrimeNeeded env with
    | true => simp
    | false =>
      cases hprime : tbtSopPrimeNeeded env with
      | true => simp
      | false => exact absurd (hok hmsg.1.symm (hmsg.2 ▸ nextIn_exitOrder_sop hprime)) (by simp)
  | enterSopPrime =>
    simp only [tbtAfter]
    split_ifs <;> simp
  | enterSopPrimePrime | enterSop =>
    simp only [tbtAfter]
    split_ifs <;> simp
  | _ => simp [tbtAfter]

theorem nextMessage_tbtAfter (hmsg : tbtMessage env state = some (c, p)) (hstart : state ≠ .start)
    (hprepare : state ≠ .prepareExitMode) (hmem : p ∈ enterOrder env)
    (hinactive : (tbtAfter cfg env state retry ack).1 ≠ .inactive) :
    nextMessage env c p ack = tbtMessage env (tbtAfter cfg env state retry ack).1 := by
  have hne := cmdExitMode_ne_enter
  have hpp := tbtSopPrimeNeeded_of_primePrime env
  -- the end of an exit leads to the start of an attempt
  have hexited (h : nextIn p (exitOrder env) = none) (hstate : (tbtAfter cfg env state retry ack).1 =
      (if retry then (if cfg.requireApModeEntry then TbtState.start else .inactive, false)
        else (.start, true)).1) (hc : c = cmdExitMode) :
      nextMessage env c p ack = tbtMessage env (tbtAfter cfg env state retry ack).1 := by
    rw [nextMessage, hc, if_neg hne, h]
    rw [hstate] at hinactive ⊢
    split_ifs at hinactive ⊢
    · rfl
    · exact absurd rfl hinactive
    · rfl
  cases state with
  | start => exact absurd rfl hstart
  | prepareExitMode => exact absurd rfl hprepare
  | active | inactive => simp [tbtMessage] at hmsg
  | exitSopPrime =>
    simp only [tbtMessage, Option.some.injEq, Prod.mk.injEq] at hmsg
    exact hexited (hmsg.2 ▸ nextIn_exitOrder_sopPrime) rfl hmsg.1.symm
  | exitSopPrimePrime =>
    simp only [tbtMessage, Option.some.injEq, Prod.mk.injEq] at hmsg
    obtain ⟨rfl, rfl⟩ := hmsg
    obtain ⟨hprime, hprimePrime⟩ := sopPrimePrimeNeeded_of_mem hmem
    simp [nextMessage, hne, tbtAfter, exitOrder, nextIn, tbtMessage, hprime, hprimePrime]
  | exitSop =>
    simp only [tbtMessage, Option.some.injEq, Prod.mk.injEq] at hmsg
    obtain ⟨rfl, rfl⟩ := hmsg
    cases hprime : tbtSopPrimeNeeded env with
    | false =>
      have hprimePrime : tbtSopPrimePrimeNeeded env = false := by
        cases h : tbtSopPrimePrimeNeeded env with
        | false => rfl
        | true => exact absurd (hpp h) (by simp [hprime])
      exact hexited (nextIn_exitOrder_sop hprime) (by simp [tbtAfter, hprime, hprimePrime]) rfl
    | true =>
      cases hprimePrime : tbtSopPrimePrimeNeeded env with
      | _ => simp [nextMessage, hne, tbtAfter, exitOrder, nextIn, tbtMessage, hprime, hprimePrime]
  | enterSopPrime =>
    simp only [tbtMessage, Option.some.injEq, Prod.mk.injEq] at hmsg
    obtain ⟨rfl, rfl⟩ := hmsg
    have hprime := sopPrimeNeeded_of_mem hmem
    cases ack with
    | false => rfl
    | true =>
      cases hprimePrime : tbtSopPrimePrimeNeeded env with
      | _ => simp [nextMessage, tbtAfter, enterOrder, nextIn, tbtMessage, hprime, hprimePrime]
  | enterSopPrimePrime =>
    simp only [tbtMessage, Option.some.injEq, Prod.mk.injEq] at hmsg
    obtain ⟨rfl, rfl⟩ := hmsg
    obtain ⟨hprime, hprimePrime⟩ := sopPrimePrimeNeeded_of_mem hmem
    cases ack with
    | false => rfl
    | true => simp [nextMessage, tbtAfter, enterOrder, nextIn, tbtMessage, hprime, hprimePrime]
  | enterSop =>
    simp only [tbtMessage, Option.some.injEq, Prod.mk.injEq] at hmsg
    obtain ⟨rfl, rfl⟩ := hmsg
    cases ack with
    | false => rfl
    | true => simp [nextMessage, tbtAfter, tbtMessage, nextIn_enterOrder_sop]

theorem rank_exited {after : TbtState × Bool}
    (hafter : after = if retry then
      (if cfg.requireApModeEntry then .start else .inactive, false) else (.start, true))
    (hok : cfg.requireApModeEntry = true → retry = true → after.1 ≠ .start) :
    after.1.rank after.2 ≤ (if retry then 0 else 8) ∧
      after.1.budget after.2 ≤ if retry then 0 else 1 := by
  cases retry with
  | false =>
    subst hafter
    exact ⟨Nat.le_refl _, Nat.le_refl _⟩
  | true =>
    cases hap : cfg.requireApModeEntry with
    | true =>
      rw [hap] at hafter
      exact absurd (congrArg Prod.fst hafter) (hok hap rfl)
    | false =>
      rw [hap] at hafter
      subst hafter
      exact ⟨Nat.le_refl _, Nat.le_refl _⟩

theorem rank_tbtAfter (cfg : Config) (ack : Bool) (retry : Bool)
    (hmsg : tbtMessage env state = some (c, p)) (hstart : state ≠ .start)
    (hprepare : state ≠ .prepareExitMode)
    (hok : cfg.requireApModeEntry = true → retry = true →
      (tbtAfter cfg env state retry ack).1 ≠ .start) :
    (tbtAfter cfg env state retry ack).1.rank (tbtAfter cfg env state retry ack).2 <
        state.rank retry ∧
      (tbtAfter cfg env state retry ack).1.budget (tbtAfter cfg env state retry ack).2 +
        (if c = cmdEnterMode ∧ p = .sop then 1 else 0) ≤ state.budget retry := by
  have hexit (h : cmdExitMode = c) : (if c = cmdEnterMode ∧ p = .sop then 1 else 0) = 0 :=
    if_neg fun henter => cmdExitMode_ne_enter (h.trans henter.1)
  cases state with
  | start => exact absurd rfl hstart
  | prepareExitMode => exact absurd rfl hprepare
  | active | inactive => simp [tbtMessage] at hmsg
  | enterSopPrime =>
    simp only [tbtMessage, Option.some.injEq, Prod.mk.injEq] at hmsg
    obtain ⟨rfl, rfl⟩ := hmsg
    rw [if_neg (by simp), Nat.add_zero]
    cases ack with
    | false => exact ⟨Nat.add_lt_add_right (by decide) _, Nat.le_add_left _ _⟩
    | true =>
      cases hprimePrime : tbtSopPrimePrimeNeeded env with
      | true =>
        simp only [tbtAfter, hprimePrime, if_true]
        exact ⟨Nat.add_lt_add_right (by decide) _, Nat.le_refl _⟩
      | false =>
        simp only [tbtAfter, hprimePrime, if_true, Bool.false_eq_true, if_false]
        exact ⟨Nat.add_lt_add_right (by decide) _, Nat.le_refl _⟩
  | enterSopPrimePrime =>
    simp only [tbtMessage, Option.some.injEq, Prod.mk.injEq] at hmsg
    obtain ⟨rfl, rfl⟩ := hmsg
    rw [if_neg (by simp), Nat.add_zero]
    cases ack with
    | false => exact ⟨Nat.add_lt_add_right (by decide) _, Nat.le_add_left _ _⟩
    | true => exact ⟨Nat.add_lt_add_right (by decide) _, Nat.le_refl _⟩
  | enterSop =>
    simp only [tbtMessage, Option.some.injEq, Prod.mk.injEq] at hmsg
    obtain ⟨rfl, rfl⟩ := hmsg
    rw [if_pos ⟨rfl, rfl⟩]
    cases ack with
    | false => exact ⟨Nat.add_lt_add_right (by decide) _, Nat.le_of_eq (Nat.add_comm _ _)⟩
    | true => exact ⟨Nat.add_pos_left (by decide) _, Nat.le_add_right _ _⟩
  | exitSopPrimePrime =>
    simp only [tbtMessage, Option.some.injEq, Prod.mk.injEq] at hmsg
    rw [hexit hmsg.1, Nat.add_zero]
    exact ⟨Nat.add_lt_add_right (by decide) _, Nat.le_refl _⟩
  -- the cable is the last one to be left, and SOP is if the cable was never asked
  | exitSopPrime =>
    simp only [tbtMessage, Option.some.injEq, Prod.mk.injEq] at hmsg
    rw [hexit hmsg.1, Nat.add_zero]
    obtain ⟨hrank, hbudget⟩ := rank_exited rfl hok
    exact ⟨Nat.lt_of_le_of_lt hrank (Nat.lt_add_of_pos_left Nat.one_pos), hbudget⟩
  | exitSop =>
    simp only [tbtMessage, Option.some.injEq, Prod.mk.injEq] at hmsg
    rw [hexit hmsg.1, Nat.add_zero]
    cases hprimePrime : tbtSopPrimePrimeNeeded env with
    | true =>
      simp only [tbtAfter, hprimePrime, if_true]
      exact ⟨Nat.add_lt_add_right (by decide) _, Nat.le_refl _⟩
    | false =>
      cases hprime : tbtSopPrimeNeeded env with
      | true =>
        simp only [tbtAfter, hprimePrime, hprime, Bool.false_eq_true, if_false, if_true]
        exact ⟨Nat.add_lt_add_right (by decide) _, Nat.le_refl _⟩
      | false =>
        simp only [tbtAfter, hprimePrime, hprime, Bool.false_eq_true, if_false] at hok ⊢
        obtain ⟨hrank, hbudget⟩ := rank_exited rfl hok
        exact ⟨Nat.lt_of_le_of_lt hrank (Nat.lt_add_of_pos_left (by decide)), hbudget⟩

end After

theorem tbtResponseValid {c : UInt32} {p : SopType}
    (hmsg : tbtMessage env s.tbtState = some (c, p)) (hsends : TbtSends s)
    (hmem : p ∈ enterOrder env) : TbtResponseValid env p c s := by
  obtain ⟨hstart, hactive, hprepare, hinactive⟩ := hsends
  refine ⟨.inr ?_, fun hpassive htbt => ?_⟩
  · cases hstate : s.tbtState with
    | start => exact absurd hstate hstart
    | active => exact absurd hstate hactive
    | prepareExitMode => exact absurd hstate hprepare
    | inactive => exact absurd hstate hinactive
    | _ =>
      simp only [hstate, tbtMessage, Option.some.injEq, Prod.mk.injEq] at hmsg
      exact hmsg.1
  · have hprime : tbtSopPrimeNeeded env = false := by
      simp [tbtSopPrimeNeeded, tbtIsLrdActiveCable, hpassive, htbt]
    simpa [enterOrder, hprime] using hmem

theorem tbtMessage_cmd {state : TbtState} {c : UInt32} {p : SopType}
    (hmsg : tbtMessage env state = some (c, p)) : c = cmdEnterMode ∨ c = cmdExitMode := by
  cases state with
  | start =>
    simp only [tbtMessage, firstMessage, Option.map_eq_some_iff, Prod.mk.injEq] at hmsg
    obtain ⟨-, -, hc, -⟩ := hmsg
    exact .inl hc.symm
  | active | inactive => simp [tbtMessage] at hmsg
  | enterSop | enterSopPrime | enterSopPrimePrime =>
    simp only [tbtMessage, Option.some.injEq, Prod.mk.injEq] at hmsg
    exact .inl hmsg.1.symm
  | prepareExitMode | exitSop | exitSopPrime | exitSopPrimePrime =>
    simp only [tbtMessage, Option.some.injEq, Prod.mk.injEq] at hmsg
    exact .inr hmsg.1.symm

theorem vdoHeader_tbt {c : UInt32} (h : c = cmdEnterMode ∨ c = cmdExitMode) :
    pdVdoVid (vdoHeader usbVidIntel c cmdtRspAck) = usbVidIntel ∧
      pdVdoCmd (vdoHeader usbVidIntel c cmdtRspAck) = c := by
  rcases h with rfl | rfl
  · decide
  · decide

theorem intel_ne_displayport : usbVidIntel ≠ usbSidDisplayport := by
  decide

theorem tbtAnswered_answerVdm (ack : Bool) (vdo : UInt32) (hcompat : cfg.tbtCompatMode = true)
    (hsvid : v.svid = usbVidIntel) (hsends : TbtSends s)
    (hmsg : tbtMessage env s.tbtState = some (v.cmd, v.txType))
    (hmem : v.txType ∈ enterOrder env) :
    TbtAnswered s (answerVdm cfg env v ack vdo s)
      (tbtAfter cfg env s.tbtState s.tbtRetryDone ack) := by
  have hvalid := tbtResponseValid hmsg hsends hmem
  unfold answerVdm
  cases ack with
  | true =>
    obtain ⟨hvid, hcmd⟩ := vdoHeader_tbt (tbtMessage_cmd hmsg)
    rw [if_pos rfl, hsvid, dpmVdmAcked, hvid, if_neg intel_ne_displayport,
      if_pos ⟨rfl, hcompat⟩]
    refine tbtAnswered_acked hsends ?_
    rwa [hcmd]
  | false =>
    rw [if_neg (by simp), hsvid, dpmVdmNaked, if_neg intel_ne_displayport,
      if_pos ⟨rfl, hcompat⟩]
    exact tbtAnswered_naked hsends hvalid

/-- An answer to a DisplayPort message changes DisplayPort only, and brings it closer to its end. -/
structure DpAnswered (s s' : Port) : Prop where
  sameDpm : SameDpm s s'
  tbtState : s'.tbtState = s.tbtState
  tbtRetryDone : s'.tbtRetryDone = s.tbtRetryDone
  rank : dpRank s' < dpRank s

theorem dpAnswered_exitToUsbMode (h : s.dpState = .prepareExit) :
    DpAnswered s (dpExitToUsbMode cfg s) := by
  refine ⟨?_, ?_, ?_, ?_⟩
  · simp only [SameDpm, Port.dpmPart, dpExitToUsbMode, dpEnded, svdmExitDpMode, Port.ssMuxSet_eq]
  · simp only [dpExitToUsbMode, dpEnded, svdmExitDpMode, Port.ssMuxSet_eq]
  · simp only [dpExitToUsbMode, dpEnded, svdmExitDpMode, Port.ssMuxSet_eq]
  · simp only [dpRank, dpExitToUsbMode, dpEnded, h]
    split <;> omega

def DpSends (s : Port) : Prop :=
  s.dpState.vdmCmd ≠ 0

theorem dpAnswered_acked {header status : UInt32} (hmode : cfg.dpMode = true)
    (hsends : DpSends s) (hvalid : DpResponseValid .sop (pdVdoCmd header) s) :
    DpAnswered s (dpVdmAcked cfg env .sop header status s) := by
  unfold dpVdmAcked
  rw [if_neg (by simp [hmode]), if_pos hvalid]
  cases hstate : s.dpState with
  | start | enterRetry => exact ⟨rfl, rfl, rfl, by simp [dpRank, hstate]⟩
  | enterAcked =>
    obtain ⟨status', pending, level, heq⟩ := dfpConsumeAttention_eq cfg header status s
    simp only [heq]
    exact ⟨rfl, rfl, rfl, by simp [dpRank, hstate]⟩
  | prepareConfig =>
    obtain ⟨level, heq⟩ := svdmDpPostConfig_eq env s
    simp only [heq]
    exact ⟨rfl, rfl, rfl, by simp [dpRank, hstate]⟩
  | prepareExit =>
    simp only
    split
    · rename_i hretry
      exact ⟨rfl, rfl, rfl, by simp [dpRank, hstate, hretry]⟩
    · exact dpAnswered_exitToUsbMode hstate
  | enterNaked | statusAcked | active | inactive =>
    rw [DpSends, hstate] at hsends
    exact absurd rfl hsends

theorem dpAnswered_naked {cmd : UInt32} (hmode : cfg.dpMode = true) (hsends : DpSends s)
    (hvalid : DpResponseValid .sop cmd s) : DpAnswered s (dpVdmNaked cfg .sop cmd s) := by
  have hfailed (h : 0 < dpRank s) : DpAnswered s (dpEntryFailed s) :=
    ⟨rfl, rfl, rfl, h⟩
  unfold dpVdmNaked
  rw [if_neg (by simp [hmode]), if_pos hvalid]
  cases hstate : s.dpState with
  | start => exact ⟨rfl, rfl, rfl, by simp [dpRank, hstate]⟩
  | prepareExit => exact dpAnswered_exitToUsbMode hstate
  | enterRetry | enterAcked | prepareConfig => exact hfailed (by simp [dpRank, hstate])
  | enterNaked | statusAcked | active | inactive =>
    rw [DpSends, hstate] at hsends
    exact absurd rfl hsends

theorem vdoHeader_dp (state : DpState) :
    pdVdoVid (vdoHeader usbSidDisplayport state.vdmCmd cmdtRspAck) = usbSidDisplayport ∧
      pdVdoCmd (vdoHeader usbSidDisplayport state.vdmCmd cmdtRspAck) = state.vdmCmd := by
  cases state with
  | _ => decide

theorem dpAnswered_answerVdm (env : Env) (ack : Bool) (vdo : UInt32) (hmode : cfg.dpMode = true)
    (hsvid : v.svid = usbSidDisplayport) (htx : v.txType = .sop)
    (hcmd : v.cmd = s.dpState.vdmCmd) (hsends : DpSends s) :
    DpAnswered s (answerVdm cfg env v ack vdo s) := by
  unfold answerVdm
  rw [hsvid, htx, hcmd]
  cases ack with
  | true =>
    obtain ⟨hvid, hheader⟩ := vdoHeader_dp s.dpState
    rw [if_pos rfl, dpmVdmAcked, if_pos hvid]
    exact dpAnswered_acked hmode hsends ⟨rfl, .inr hheader.symm⟩
  | false =>
    rw [if_neg (by simp), dpmVdmNaked, if_pos rfl]
    exact dpAnswered_naked hmode hsends ⟨rfl, .inr rfl⟩

/-! ### The invariant -/

structure Awaits (cfg : Config) (env : Env) (s : Port) (v : ModeVdm) : Prop where
  dpmState : s.dpmState = .waiting
  peReady : s.peReady = false
  modeEntryDone : s.modeEntryDone = false
  noReset : ¬ AwaitsReset cfg s
  message :
    (cfg.tbtCompatMode = true ∧ v.svid = usbVidIntel ∧ TbtSends s ∧
        tbtMessage env s.tbtState = some (v.cmd, v.txType)) ∨
      (cfg.dpMode = true ∧ v.svid = usbSidDisplayport ∧ v.txType = .sop ∧
        v.cmd = s.dpState.vdmCmd ∧ DpSends s)

structure EntryInv (cfg : Config) (env : Env) (p : Entry) : Prop where
  control : Control cfg env p.port
  awaits : ∀ v, p.outstanding = some v → Awaits cfg env p.port v
  fresh : AwaitsReset cfg p.port → p.answered = []
  expects : p.port.tbtState ≠ .inactive →
    expected env (tbtLog p.answered) = tbtMessage env p.port.tbtState
  inOrder : InOrder env (tbtLog p.answered)
  budget : enterSopCount p.answered + enterBudget p.port ≤ 2
  rank : p.answered.length + tbtRank p.port + dpRank p.port ≤ 23

theorem TbtState.rank_le (state : TbtState) (retry : Bool) : state.rank retry ≤ 16 := by
  cases state with
  | _ =>
    cases retry with
    | _ => simp [TbtState.rank]

theorem TbtState.budget_le (state : TbtState) (retry : Bool) : state.budget retry ≤ 2 := by
  cases state with
  | _ =>
    cases retry with
    | _ => simp [TbtState.budget]

theorem dpRank_le : dpRank s ≤ 7 := by
  unfold dpRank
  split
  case h_3 =>
    split <;> omega
  all_goals omega

theorem entryInv_start (h : EntryStart cfg env s) : EntryInv cfg env ⟨s, none, []⟩ where
  control := by
    refine ⟨h.localState, h.exitRequest, h.sendVdmReq, h.vconnSwap, fun hufp => ?_, h.notUsb4⟩
    rcases h.dpmState with hstate | hstate
    · simp [hstate] at hufp
    · simp [hstate] at hufp
  awaits v hv := by
    cases hv
  fresh _ := rfl
  expects _ := by
    simp only [h.tbtState]
    rfl
  inOrder := trivial
  budget := by
    have hbudget := TbtState.budget_le s.tbtState s.tbtRetryDone
    simpa [enterSopCount, tbtLog, enterBudget] using hbudget
  rank := by
    have htbt := TbtState.rank_le s.tbtState s.tbtRetryDone
    have hdp := dpRank_le (s := s)
    simp only [List.length_nil, tbtRank]
    omega

theorem Awaits.run_eq (hc : Control cfg env s) (h : Awaits cfg env s v) (mc : Bool) :
    dpmRun cfg env true mc s = s := by
  simp [dpmRun, hc.localState, dpmRunState, h.dpmState, dpmWaitingRun, h.peReady]

theorem AwaitsReset.of_sameDpm (h : SameDpm s s') : AwaitsReset cfg s' ↔ AwaitsReset cfg s := by
  have hstate : s'.dpmState = s.dpmState := congrArg DpmPart.dpmState h
  have hdone : s'.dataResetDone = s.dataResetDone := congrArg DpmPart.dataResetDone h
  have hdp : s'.enterDp = s.enterDp := congrArg DpmPart.enterDp h
  have htbt : s'.enterTbt = s.enterTbt := congrArg DpmPart.enterTbt h
  have husb4 : s'.enterUsb4 = s.enterUsb4 := congrArg DpmPart.enterUsb4 h
  unfold AwaitsReset InReset enterAny
  rw [hstate, hdone, hdp, htbt, husb4]

theorem EntryInv.of_port {p : Entry} {port : Port} (hp : EntryInv cfg env p)
    (hnone : p.outstanding = none) (hc : Control cfg env port)
    (hreset : AwaitsReset cfg port → AwaitsReset cfg p.port)
    (hmessage : port.tbtState ≠ .inactive → p.port.tbtState ≠ .inactive ∧
      tbtMessage env port.tbtState = tbtMessage env p.port.tbtState)
    (hbudget : enterBudget port ≤ enterBudget p.port)
    (hrank : tbtRank port + dpRank port ≤ tbtRank p.port + dpRank p.port)
    {sent : Option ModeVdm} (hsent : ∀ v, sent = some v → Awaits cfg env port v) :
    EntryInv cfg env { p with port := port, outstanding := p.outstanding.or sent } where
  control := hc
  awaits v hv := by
    rw [hnone] at hv
    exact hsent v hv
  fresh h := hp.fresh (hreset h)
  expects h := by
    obtain ⟨hinactive, hmsg⟩ := hmessage h
    exact (hp.expects hinactive).trans hmsg.symm
  inOrder := hp.inOrder
  budget := Nat.le_trans (Nat.add_le_add_left hbudget _) hp.budget
  rank := by
    have := hp.rank
    simp only
    omega

theorem not_awaitsReset_sendModeVdm (h : ¬ AwaitsReset cfg t) :
    ¬ AwaitsReset cfg (sendModeVdm false v t) := by
  refine fun hawaits => h (hawaits.of_eq ?_ id rfl)
  simp [sendModeVdm, setStateDpm]

theorem awaits_sendModeVdm (env : Env) (hdpm : SameDpm s t) (henters : Enters cfg s)
    (hmessage : (cfg.tbtCompatMode = true ∧ v.svid = usbVidIntel ∧ TbtSends t ∧
        tbtMessage env t.tbtState = some (v.cmd, v.txType)) ∨
      (cfg.dpMode = true ∧ v.svid = usbSidDisplayport ∧ v.txType = .sop ∧
        v.cmd = t.dpState.vdmCmd ∧ DpSends t)) :
    Awaits cfg env (sendModeVdm false v t) v := by
  have hreset : ¬ AwaitsReset cfg t := fun h => henters.noReset ((AwaitsReset.of_sameDpm hdpm).mp h)
  refine ⟨rfl, rfl, ?_, not_awaitsReset_sendModeVdm hreset, hmessage⟩
  exact (congrArg DpmPart.modeEntryDone hdpm).trans henters.modeEntryDone

theorem tbtSends_of_success (h : (tbtSetupNextVdm cfg env s).1 = .success v) : TbtSends s := by
  obtain ⟨-, -, hstart, hprepare, hmsg⟩ := tbtSetupNextVdm_success h
  refine ⟨hstart, fun hactive => ?_, hprepare, fun hinactive => ?_⟩
  · simp [hactive, tbtMessage] at hmsg
  · simp [hinactive, tbtMessage] at hmsg

theorem Enters.not_active (henters : Enters cfg s) :
    (cfg.tbtCompatMode = true → s.tbtState ≠ .active) ∧
      (cfg.dpMode = true → s.dpState ≠ .active) := by
  have hdone := henters.notDone
  refine ⟨fun hcompat hactive => ?_, fun hmode hactive => ?_⟩
  · simp [modeEntryIsDone, tbtEntryIsDone, hcompat, hactive] at hdone
  · simp [modeEntryIsDone, dpEntryIsDone, hmode, hactive] at hdone

theorem tbtCompatMode_of_entersTbt (h : entersTbt cfg env s = true) : cfg.tbtCompatMode = true := by
  simp only [entersTbt, Bool.and_eq_true] at h
  exact h.1.1.1

theorem SameDpm.trans (h : SameDpm s t) (h' : SameDpm t s') : SameDpm s s' :=
  Eq.trans h' h

theorem ranks_eq (s' : Port) (htbt : s'.tbtState = s.tbtState)
    (hretry : s'.tbtRetryDone = s.tbtRetryDone) :
    tbtRank s' = tbtRank s ∧ enterBudget s' = enterBudget s := by
  rw [tbtRank, tbtRank, enterBudget, enterBudget, htbt, hretry]
  exact ⟨rfl, rfl⟩

theorem dpRank_eq (s' : Port) (hdp : s'.dpState = s.dpState) (hretry : s'.dpRetry = s.dpRetry) :
    dpRank s' = dpRank s := by
  rw [dpRank, hdp, hretry, dpRank]

theorem tbtRank_sendModeVdm (forExit : Bool) (v : ModeVdm) (s : Port) :
    tbtRank (sendModeVdm forExit v s) = tbtRank s :=
  (ranks_eq _ rfl rfl).1

theorem dpRank_sendModeVdm (forExit : Bool) (v : ModeVdm) (s : Port) :
    dpRank (sendModeVdm forExit v s) = dpRank s :=
  dpRank_eq _ rfl rfl

theorem entryInv_run {p : Entry} (hp : EntryInv cfg env p) (mc : Bool) :
    EntryInv cfg env (p.step cfg env (.run mc)) := by
  cases hout : p.outstanding with
  | some v =>
    have hrun := (hp.awaits v hout).run_eq hp.control mc
    have hstep : p.step cfg env (.run mc) = p := by
      simp only [Entry.step, hrun, hout]
      cases p
      simp only at hout
      subst hout
      rfl
    rw [hstep]
    exact hp
  | none =>
    obtain ⟨sent, hentry, hsent⟩ := entryRun_dpmRun hp.control mc
    have hcontrol := hentry.control hp.control
    rw [Entry.step, hsent]
    generalize dpmRun cfg env true mc p.port = port at hentry hcontrol
    have hemit : SameDpm p.port (p.port.emit .muxCompleted) := rfl
    cases hentry with
    | idle h =>
      have htbt : port.tbtState = p.port.tbtState := congrArg Modes.tbtState h.dpmOnly.modes
      obtain ⟨hrank, hbudget⟩ := ranks_eq _ htbt (congrArg Modes.tbtRetryDone h.dpmOnly.modes)
      have hdpRank := dpRank_eq _ (congrArg Modes.dpState h.dpmOnly.modes)
        (congrArg Modes.dpRetry h.dpmOnly.modes)
      refine hp.of_port hout hcontrol h.awaitsReset (fun hi => ⟨htbt ▸ hi, by rw [htbt]⟩)
        (Nat.le_of_eq hbudget) (Nat.le_of_eq ?_) (by simp)
      rw [hrank, show dpRank port = dpRank p.port from hdpRank]
    | tbtWait henters htbt hwait =>
      have hactive := henters.not_active.1 (tbtCompatMode_of_entersTbt htbt)
      obtain ⟨hinactive, hmsg, hbudget, hrank⟩ :=
        tbtSetupNextVdm_muxWait (s := p.port.emit .muxCompleted) hactive hwait
      obtain ⟨hdp, hdpRetry⟩ := tbtSetupNextVdm_dp cfg env
        (s := p.port.emit .muxCompleted)
      have hdpRank := dpRank_eq _ (s := p.port) hdp hdpRetry
      refine hp.of_port hout hcontrol
        (AwaitsReset.of_sameDpm (hemit.trans (sameDpm_tbtSetupNextVdm _ _))).mp
        (fun _ => ⟨hinactive, hmsg⟩) (Nat.le_of_eq hbudget) ?_ (by simp)
      rw [hdpRank]
      exact Nat.add_le_add_right (Nat.le_of_lt hrank) _
    | tbtSend v henters htbt hsuccess =>
      obtain ⟨hkeep, hsvid, -, -, hmsg⟩ := tbtSetupNextVdm_success hsuccess
      have hsends := tbtSends_of_success hsuccess
      rw [hkeep] at hcontrol ⊢
      have hstate : (p.port.emit .muxCompleted).tbtState = p.port.tbtState := rfl
      have hretry : (p.port.emit .muxCompleted).tbtRetryDone = p.port.tbtRetryDone := rfl
      have hdpRank : dpRank (p.port.emit .muxCompleted) = dpRank p.port := rfl
      clear hsuccess hkeep
      generalize p.port.emit .muxCompleted = t at *
      obtain ⟨htbtRank, hbudget⟩ := ranks_eq (sendModeVdm false v t) (s := p.port)
        hstate hretry
      have hdpRank' := dpRank_eq (sendModeVdm false v t) (s := t) rfl rfl
      have hawaits := awaits_sendModeVdm env hemit henters
        (.inl ⟨tbtCompatMode_of_entersTbt htbt, hsvid, hsends, hmsg⟩)
      refine hp.of_port hout hcontrol (fun h => absurd h hawaits.noReset)
        (fun hi => ⟨hstate ▸ hi, by rw [← hstate]; rfl⟩) (Nat.le_of_eq hbudget)
        (Nat.le_of_eq ?_) fun w hw => Option.some.inj hw ▸ hawaits
      rw [htbtRank, hdpRank', hdpRank]
    | dpWait henters hwait =>
      obtain ⟨hrank, -⟩ := dpRank_setup cfg env
        (s := p.port.emit .muxCompleted) henters.not_active.2
      obtain ⟨htbt, hretry⟩ := dpSetupNextVdm_tbt cfg env
        (s := p.port.emit .muxCompleted)
      obtain ⟨htbtRank, hbudget⟩ := ranks_eq _ (s := p.port) htbt hretry
      refine hp.of_port hout hcontrol
        (AwaitsReset.of_sameDpm (hemit.trans (sameDpm_dpSetupNextVdm _ _))).mp
        (fun hi => ⟨htbt ▸ hi, by rw [htbt]; rfl⟩) (Nat.le_of_eq hbudget) ?_ (by simp)
      rw [htbtRank]
      exact Nat.add_le_add_left hrank _
    | dpSend v henters hsuccess =>
      obtain ⟨hrank, -⟩ := dpRank_setup cfg env
        (s := p.port.emit .muxCompleted) henters.not_active.2
      have htbt : (dpSetupNextVdm cfg env (p.port.emit .muxCompleted)).2.tbtState =
          p.port.tbtState := (dpSetupNextVdm_tbt _ _).1
      have hretry := (dpSetupNextVdm_tbt cfg env
        (s := p.port.emit .muxCompleted)).2
      obtain ⟨hmode, -, hsvid, htx, hcmd, hne⟩ := dpSetupNextVdm_success hsuccess
      have hdpm := hemit.trans (sameDpm_dpSetupNextVdm cfg env)
      generalize (dpSetupNextVdm cfg env (p.port.emit .muxCompleted)).2 = t at *
      obtain ⟨htbtRank, hbudget⟩ := ranks_eq (sendModeVdm false v t) (s := p.port)
        htbt hretry
      have hdpRank := dpRank_eq (sendModeVdm false v t) (s := t) rfl rfl
      have hawaits := awaits_sendModeVdm env hdpm henters
        (.inr ⟨hmode, hsvid, htx, hcmd, fun h => hne (hcmd.trans h)⟩)
      refine hp.of_port hout hcontrol (fun h => absurd h hawaits.noReset)
        (fun hi => ⟨htbt ▸ hi, by rw [← htbt]; rfl⟩) (Nat.le_of_eq hbudget) ?_
        fun w hw => Option.some.inj hw ▸ hawaits
      rw [htbtRank, hdpRank]
      exact Nat.add_le_add_left hrank _
    | dpError henters =>
      obtain ⟨hrank, -⟩ := dpRank_setup cfg env
        (s := p.port.emit .muxCompleted) henters.not_active.2
      have htbt : (dpSetupNextVdm cfg env (p.port.emit .muxCompleted)).2.tbtState =
          p.port.tbtState := (dpSetupNextVdm_tbt _ _).1
      have hretry := (dpSetupNextVdm_tbt cfg env
        (s := p.port.emit .muxCompleted)).2
      have hdpm := hemit.trans (sameDpm_dpSetupNextVdm cfg env)
      generalize (dpSetupNextVdm cfg env (p.port.emit .muxCompleted)).2 = t at *
      obtain ⟨htbtRank, hbudget⟩ := ranks_eq (dpmSetModeEntryDone t) (s := p.port)
        htbt hretry
      have hdpRank := dpRank_eq (dpmSetModeEntryDone t) (s := t) rfl rfl
      have hstate : t.dpmState ≠ .dataReset := by
        have hstate : t.dpmState = p.port.dpmState := congrArg DpmPart.dpmState hdpm
        simp [hstate, henters.dpmState]
      refine hp.of_port hout hcontrol (fun h => ?_)
        (fun hi => ⟨htbt ▸ hi, by rw [← htbt]; rfl⟩) (Nat.le_of_eq hbudget) ?_ (by simp)
      · exact (AwaitsReset.of_sameDpm hdpm).mp
          (h.of_eq hstate (by simp [dpmSetModeEntryDone, enterAny]) rfl)
      · rw [htbtRank, hdpRank]
        exact Nat.add_le_add_left hrank _

theorem entryInv_peReady {p : Entry} (hp : EntryInv cfg env p) :
    EntryInv cfg env (p.step cfg env .peReady) := by
  rw [Entry.step]
  by_cases hnone : p.outstanding.isNone = true
  · rw [if_pos hnone]
    refine ⟨hp.control.of_eq rfl rfl rfl rfl id hp.control.ufpReady, fun v hv => ?_, hp.fresh,
      hp.expects, hp.inOrder, hp.budget, hp.rank⟩
    have hv : p.outstanding = some v := hv
    simp [hv] at hnone
  · rw [if_neg hnone]
    exact hp

theorem entryInv_dataReset {p : Entry} (hp : EntryInv cfg env p) :
    EntryInv cfg env (p.step cfg env .dataReset) := by
  rw [Entry.step]
  by_cases hreset : InReset p.port
  · rw [if_pos hreset]
    have hanswered := hp.fresh (.inr hreset)
    have hfields : ∃ t, dpmDataResetComplete (pdDfpExitMode cfg (p.port.usbMuxSet .none)) = t ∧
        t.localState = p.port.localState ∧ t.exitRequest = false ∧ t.sendVdmReq = false ∧
        t.vconnSwap = p.port.vconnSwap ∧ t.enterUsb4 = p.port.enterUsb4 ∧
        t.dpmState = p.port.dpmState ∧
        ((t.tbtState = .start ∧ t.tbtRetryDone = false) ∨ t.tbtState = p.port.tbtState) := by
      refine ⟨_, rfl, ?_⟩
      rw [dpmDataResetComplete, pdDfpExitMode, pdDfpModeInit_eq]
      have htbt (t : Port) (ht : t.tbtState = p.port.tbtState) :
          ((if cfg.tbtCompatMode then TbtState.start else t.tbtState) = .start ∧
              (if cfg.tbtCompatMode then false else t.tbtRetryDone) = false) ∨
            (if cfg.tbtCompatMode then TbtState.start else t.tbtState) = p.port.tbtState := by
        cases cfg.tbtCompatMode with
        | true => exact .inl ⟨rfl, rfl⟩
        | false => exact .inr ht
      split
      · exact ⟨rfl, rfl, rfl, rfl, rfl, rfl, htbt _ rfl⟩
      · exact ⟨rfl, rfl, rfl, rfl, rfl, rfl, htbt _ rfl⟩
    obtain ⟨t, ht, hlocal, hexit, hreq, hswap, husb4, hstate, htbt⟩ := hfields
    rw [ht]
    have hmessage : t.tbtState ≠ .inactive → firstMessage env = tbtMessage env t.tbtState := by
      intro hinactive
      rcases htbt with ⟨htbt, -⟩ | htbt
      · rw [htbt]
        rfl
      · have hexpects := hp.expects (htbt ▸ hinactive)
        rw [htbt, ← hexpects, hanswered]
        rfl
    refine ⟨⟨hlocal.trans hp.control.localState, hexit, hreq, hswap.trans hp.control.vconnSwap,
      hstate ▸ hp.control.ufpReady, ?_⟩, fun v hv => ?_, fun _ => hanswered, fun hi => ?_, ?_, ?_, ?_⟩
    · have hnot := hp.control.notUsb4
      unfold NotUsb4 at hnot ⊢
      rwa [husb4]
    · have hawaits := hp.awaits v hv
      exact absurd (hawaits.dpmState.symm.trans hreset.1) (by simp)
    · rw [hanswered]
      exact hmessage hi
    · rw [hanswered]
      trivial
    · have hbudget := TbtState.budget_le t.tbtState t.tbtRetryDone
      rw [hanswered]
      simpa [enterSopCount, tbtLog, enterBudget] using hbudget
    · have hrank := TbtState.rank_le t.tbtState t.tbtRetryDone
      have hdp := dpRank_le (s := t)
      rw [hanswered]
      simp only [List.length_nil, tbtRank]
      omega
  · rw [if_neg hreset]
    exact hp

theorem tbtLog_cons_intel {log : List (ModeVdm × Bool)} {ack : Bool} (h : v.svid = usbVidIntel) :
    tbtLog ((v, ack) :: log) = (v, ack) :: tbtLog log := by
  simp [tbtLog, h]

theorem tbtLog_cons_dp {log : List (ModeVdm × Bool)} {ack : Bool} (h : v.svid = usbSidDisplayport) :
    tbtLog ((v, ack) :: log) = tbtLog log := by
  have hne := intel_ne_displayport
  simp [tbtLog, h, hne.symm]

theorem TbtSends.not_inactive (h : TbtSends s) : s.tbtState ≠ .inactive :=
  h.2.2.2

theorem entryInv_tbtAnswer {p : Entry} {ack : Bool} {vdo : UInt32} (hp : EntryInv cfg env p)
    (hcompat : cfg.tbtCompatMode = true) (hsvid : v.svid = usbVidIntel) (hsends : TbtSends p.port)
    (hmsg : tbtMessage env p.port.tbtState = some (v.cmd, v.txType))
    (hreset : ¬ AwaitsReset cfg p.port)
    (hok : cfg.requireApModeEntry = true → IsLastExit env v → p.port.tbtRetryDone = false) :
    EntryInv cfg env ⟨answerVdm cfg env v ack vdo p.port, none, (v, ack) :: p.answered⟩ := by
  have hexpects := (hp.expects hsends.not_inactive).trans hmsg
  have hmem := mem_enterOrder_of_expected hexpects
  obtain ⟨hdpm, hdp, hdpRetry, hafter⟩ := tbtAnswered_answerVdm ack vdo hcompat
    hsvid hsends hmsg hmem
  generalize answerVdm cfg env v ack vdo p.port = t at *
  have hstate : t.tbtState = (tbtAfter cfg env p.port.tbtState p.port.tbtRetryDone ack).1 :=
    congrArg Prod.fst hafter
  have hretry : t.tbtRetryDone = (tbtAfter cfg env p.port.tbtState p.port.tbtRetryDone ack).2 :=
    congrArg Prod.snd hafter
  obtain ⟨hrank, hbudget⟩ := rank_tbtAfter cfg ack p.port.tbtRetryDone
    hmsg hsends.1 hsends.2.2.1 fun hap hdone => tbtAfter_ne_start hmsg hsends.1
      (fun hc hlast => hok hap ⟨hsvid, hc, hlast⟩) hdone
  have hdpRank := dpRank_eq _ hdp hdpRetry
  refine ⟨hp.control.of_sameDpm hdpm, fun w hw => (by cases hw), fun h => ?_, fun hi => ?_, ?_, ?_, ?_⟩
  · exact absurd ((AwaitsReset.of_sameDpm hdpm).mp h) hreset
  · rw [tbtLog_cons_intel hsvid, hstate]
    exact nextMessage_tbtAfter hmsg hsends.1 hsends.2.2.1 hmem (hstate ▸ hi)
  · rw [tbtLog_cons_intel hsvid]
    exact ⟨hexpects, hp.inOrder⟩
  · have hcount : enterSopCount ((v, ack) :: p.answered) =
        enterSopCount p.answered + if v.cmd = cmdEnterMode ∧ v.txType = .sop then 1 else 0 := by
      simp [enterSopCount, tbtLog_cons_intel hsvid, List.countP_cons]
    have := hp.budget
    rw [hcount, enterBudget, hstate, hretry]
    unfold enterBudget at this
    omega
  · have := hp.rank
    simp only [List.length_cons, tbtRank, hstate, hretry, hdpRank]
    unfold tbtRank at this
    omega

theorem entryInv_dpAnswer {p : Entry} {ack : Bool} {vdo : UInt32} (hp : EntryInv cfg env p)
    (hmode : cfg.dpMode = true) (hsvid : v.svid = usbSidDisplayport) (htx : v.txType = .sop)
    (hcmd : v.cmd = p.port.dpState.vdmCmd) (hsends : DpSends p.port)
    (hreset : ¬ AwaitsReset cfg p.port) :
    EntryInv cfg env ⟨answerVdm cfg env v ack vdo p.port, none, (v, ack) :: p.answered⟩ := by
  obtain ⟨hdpm, htbt, hretry, hrank⟩ := dpAnswered_answerVdm env ack vdo
    hmode hsvid htx hcmd hsends
  generalize answerVdm cfg env v ack vdo p.port = t at *
  obtain ⟨htbtRank, hbudget⟩ := ranks_eq _ htbt hretry
  refine ⟨hp.control.of_sameDpm hdpm, fun w hw => (by cases hw), fun h => ?_, fun hi => ?_, ?_, ?_, ?_⟩
  · exact absurd ((AwaitsReset.of_sameDpm hdpm).mp h) hreset
  · rw [tbtLog_cons_dp hsvid, htbt]
    exact hp.expects (htbt ▸ hi)
  · rw [tbtLog_cons_dp hsvid]
    exact hp.inOrder
  · rw [enterSopCount, tbtLog_cons_dp hsvid, hbudget]
    exact hp.budget
  · have := hp.rank
    simp only [List.length_cons, htbtRank]
    omega

theorem entryInv_answer {p : Entry} {ack : Bool} {vdo : UInt32} (hp : EntryInv cfg env p)
    (hok : NoRestart cfg env p (.answer ack vdo)) :
    EntryInv cfg env (p.step cfg env (.answer ack vdo)) := by
  rw [Entry.step]
  cases hout : p.outstanding with
  | none => exact hp
  | some v =>
    have hawaits := hp.awaits v hout
    rcases hawaits.message with ⟨hcompat, hsvid, hsends, hmsg⟩ | ⟨hmode, hsvid, htx, hcmd, hsends⟩
    · exact entryInv_tbtAnswer hp hcompat hsvid hsends hmsg hawaits.noReset
        fun hap hlast => hok hap ⟨v, hout, hlast⟩
    · exact entryInv_dpAnswer hp hmode hsvid htx hcmd hsends hawaits.noReset

theorem entryInv_step {p : Entry} {e : EntryEvent} (hp : EntryInv cfg env p)
    (hok : NoRestart cfg env p e) : EntryInv cfg env (p.step cfg env e) := by
  cases e with
  | peReady => exact entryInv_peReady hp
  | run mc => exact entryInv_run hp mc
  | dataReset => exact entryInv_dataReset hp
  | answer ack vdo => exact entryInv_answer hp hok

/-! ### The end of the entry -/

def Entry.measure (cfg : Config) (p : Entry) : Nat :=
  (if AwaitsReset cfg p.port then 144 else 0) + 6 * (tbtRank p.port + dpRank p.port) +
    if p.outstanding.isSome then 0 else phase cfg p.port

theorem phase_le (cfg : Config) : phase cfg s ≤ 5 := by
  have hruns : s.dpmState.runs s.dataResetDone ≤ 2 := by
    unfold DpmState.runs
    split
    case h_4 =>
      split <;> omega
    all_goals omega
  unfold phase
  split <;> omega

theorem EntryInv.measure_lt {p : Entry} (hp : EntryInv cfg env p) : p.measure cfg < 300 := by
  have hrank := hp.rank
  have hphase := phase_le cfg (s := p.port)
  unfold Entry.measure
  split <;> split <;> omega

theorem measure_answer {p : Entry} {ack : Bool} {vdo : UInt32} (hp : EntryInv cfg env p)
    (hok : NoRestart cfg env p (.answer ack vdo)) (hout : p.outstanding = some v) :
    (p.step cfg env (.answer ack vdo)).measure cfg < p.measure cfg := by
  have hawaits := hp.awaits v hout
  -- the ranks have become smaller, and Data Reset is not awaited
  have hlower (t : Port) (hdpm : SameDpm p.port t)
      (hrank : tbtRank t + dpRank t < tbtRank p.port + dpRank p.port) (log : List (ModeVdm × Bool)) :
      Entry.measure cfg ⟨t, none, log⟩ < p.measure cfg := by
    have hphase := phase_le cfg (s := t)
    have hreset : ¬ AwaitsReset cfg t :=
      fun h => hawaits.noReset ((AwaitsReset.of_sameDpm hdpm).mp h)
    simp only [Entry.measure, hout, if_neg hreset, if_neg hawaits.noReset, Option.isSome_none,
      Option.isSome_some, Bool.false_eq_true, if_false, if_true]
    omega
  simp only [Entry.step, hout]
  rcases hawaits.message with ⟨hcompat, hsvid, hsends, hmsg⟩ | ⟨hmode, hsvid, htx, hcmd, hsends⟩
  · have hexpects := (hp.expects hsends.not_inactive).trans hmsg
    obtain ⟨hdpm, hdp, hdpRetry, hafter⟩ := tbtAnswered_answerVdm ack vdo hcompat
      hsvid hsends hmsg (mem_enterOrder_of_expected hexpects)
    obtain ⟨hrank, -⟩ := rank_tbtAfter cfg ack p.port.tbtRetryDone
      hmsg hsends.1 hsends.2.2.1 fun hap hdone => tbtAfter_ne_start hmsg hsends.1
        (fun hc hlast => hok hap ⟨v, hout, hsvid, hc, hlast⟩) hdone
    have hstate : (answerVdm cfg env v ack vdo p.port).tbtState = _ := congrArg Prod.fst hafter
    have hretry : (answerVdm cfg env v ack vdo p.port).tbtRetryDone = _ := congrArg Prod.snd hafter
    refine hlower _ hdpm ?_ _
    rw [dpRank_eq _ hdp hdpRetry, tbtRank, hstate, hretry]
    exact Nat.add_lt_add_right hrank _
  · obtain ⟨hdpm, htbt, hretry, hrank⟩ := dpAnswered_answerVdm env ack vdo hmode hsvid htx hcmd hsends
    refine hlower _ hdpm ?_ _
    rw [(ranks_eq _ htbt hretry).1]
    exact Nat.add_lt_add_left hrank _

theorem measure_dataReset {p : Entry} (hp : EntryInv cfg env p) (hnone : p.outstanding = none)
    (hreset : InReset p.port) :
    (p.step cfg env .dataReset).measure cfg < p.measure cfg := by
  have hstep : p.step cfg env .dataReset = { p with
      port := dpmDataResetComplete (pdDfpExitMode cfg (p.port.usbMuxSet .none)) } := by
    rw [Entry.step]
    exact if_pos hreset
  have hrank := (entryInv_dataReset hp).rank
  have hphase := phase_le cfg (s := (p.step cfg env .dataReset).port)
  have hafter : ¬ AwaitsReset cfg (p.step cfg env .dataReset).port := by
    have hdone : (p.step cfg env .dataReset).port.dataResetDone = true := by
      rw [hstep]
      rfl
    simp [AwaitsReset, InReset, hdone]
  have hbefore : AwaitsReset cfg p.port := .inr hreset
  have hout : (p.step cfg env .dataReset).outstanding = none := by
    rw [hstep]
    exact hnone
  simp only [Entry.measure, if_neg hafter, if_pos hbefore, hout, hnone, Option.isSome_none,
    Bool.false_eq_true, if_false]
  omega

theorem measure_run {p : Entry} (hp : EntryInv cfg env p) (hnone : p.outstanding = none)
    (hready : p.port.peReady = true) (hreset : ¬ InReset p.port) (hcan : CanEnter env) :
    (p.step cfg env (.run true)).port.modeEntryDone = true ∨
      (p.step cfg env (.run true)).measure cfg < p.measure cfg := by
  obtain ⟨sent, hentry, hsent⟩ := entryRun_dpmRun hp.control true
  rw [Entry.step, hsent, hnone]
  simp only [Entry.measure, hnone]
  generalize dpmRun cfg env true true p.port = port at hentry
  have hphase := phase_le cfg (s := port)
  have hemit : SameDpm p.port (p.port.emit .muxCompleted) := rfl
  -- a run that gets to the modules has one run to go
  have hnow (henters : Enters cfg p.port) : phase cfg p.port = 1 := by
    simp [phase, henters.noReset, henters.dpmState, DpmState.runs]
  have hstill (henters : Enters cfg p.port) {t : Port} (h : SameDpm p.port t) :
      ¬ AwaitsReset cfg t :=
    fun hawaits => henters.noReset ((AwaitsReset.of_sameDpm h).mp hawaits)
  -- a VDM that is handed over stops the run
  have hsend (henters : Enters cfg p.port) {t : Port}
      (hrank : tbtRank t + dpRank t ≤ tbtRank p.port + dpRank p.port) (v : ModeVdm)
      (hafter : ¬ AwaitsReset cfg t) :
      (if AwaitsReset cfg t then 144 else 0) + 6 * (tbtRank t + dpRank t) +
          (if (none.or (some v)).isSome then 0 else phase cfg t) <
        (if AwaitsReset cfg p.port then 144 else 0) + 6 * (tbtRank p.port + dpRank p.port) +
          if (none : Option ModeVdm).isSome then 0 else phase cfg p.port := by
    simp only [if_neg hafter, if_neg henters.noReset, Option.none_or, Option.isSome_some,
      Option.isSome_none, Bool.false_eq_true, if_false, if_true, hnow henters]
    omega
  cases hentry with
  | idle h =>
    refine (h.progress hready rfl hcan hreset).imp id fun hlt => ?_
    have htbt : port.tbtState = p.port.tbtState := congrArg Modes.tbtState h.dpmOnly.modes
    obtain ⟨hrank, -⟩ := ranks_eq _ htbt (congrArg Modes.tbtRetryDone h.dpmOnly.modes)
    have hdpRank : dpRank port = dpRank p.port := dpRank_eq _
      (congrArg Modes.dpState h.dpmOnly.modes) (congrArg Modes.dpRetry h.dpmOnly.modes)
    have hawaits := h.awaitsReset
    rw [hrank, hdpRank]
    by_cases hafter : AwaitsReset cfg port
    · simp only [if_pos hafter, if_pos (hawaits hafter), Option.isSome_none, Option.or_none,
        Bool.false_eq_true, if_false]
      omega
    · simp only [if_neg hafter, Option.isSome_none, Option.or_none, Bool.false_eq_true, if_false]
      omega
  | tbtWait henters htbt hwait =>
    have hactive := henters.not_active.1 (tbtCompatMode_of_entersTbt htbt)
    obtain ⟨-, -, -, hrank⟩ :=
      tbtSetupNextVdm_muxWait (s := p.port.emit .muxCompleted) hactive hwait
    have hrank : tbtRank (tbtSetupNextVdm cfg env (p.port.emit .muxCompleted)).2 <
      tbtRank p.port := hrank
    have hdpRank : dpRank (tbtSetupNextVdm cfg env (p.port.emit .muxCompleted)).2 =
      dpRank p.port := dpRank_eq _ (tbtSetupNextVdm_dp _ _).1 (tbtSetupNextVdm_dp _ _).2
    have hafter := hstill henters (hemit.trans (sameDpm_tbtSetupNextVdm cfg env))
    simp only [hdpRank, if_neg hafter, Option.isSome_none, Option.or_none, Bool.false_eq_true,
      if_false, hnow henters]
    omega
  | tbtSend v henters htbt hsuccess =>
    have htbtRank : tbtRank (sendModeVdm false v
        (tbtSetupNextVdm cfg env (p.port.emit .muxCompleted)).2) = tbtRank p.port := by
      rw [tbtRank_sendModeVdm, (tbtSetupNextVdm_success hsuccess).1]
      exact (ranks_eq _ rfl rfl).1
    have hdpRank : dpRank (sendModeVdm false v
        (tbtSetupNextVdm cfg env (p.port.emit .muxCompleted)).2) = dpRank p.port := by
      rw [dpRank_sendModeVdm]
      exact dpRank_eq _ (tbtSetupNextVdm_dp _ _).1 (tbtSetupNextVdm_dp _ _).2
    refine .inr (hsend henters ?_ v ?_)
    · exact Nat.le_of_eq (by rw [htbtRank, hdpRank])
    · exact not_awaitsReset_sendModeVdm (hstill henters
        (hemit.trans (sameDpm_tbtSetupNextVdm cfg env)))
  | dpWait henters hwait =>
    obtain ⟨-, hrank⟩ := dpRank_setup cfg env
      (s := p.port.emit .muxCompleted) henters.not_active.2
    have hrank : dpRank (dpSetupNextVdm cfg env (p.port.emit .muxCompleted)).2 <
      dpRank p.port := hrank hwait
    have htbtRank : tbtRank (dpSetupNextVdm cfg env (p.port.emit .muxCompleted)).2 =
      tbtRank p.port := (ranks_eq _ (dpSetupNextVdm_tbt _ _).1 (dpSetupNextVdm_tbt _ _).2).1
    have hafter := hstill henters (hemit.trans (sameDpm_dpSetupNextVdm cfg env))
    simp only [htbtRank, if_neg hafter, Option.isSome_none, Option.or_none, Bool.false_eq_true,
      if_false, hnow henters]
    omega
  | dpSend v henters hsuccess =>
    obtain ⟨hrank, -⟩ := dpRank_setup cfg env
      (s := p.port.emit .muxCompleted) henters.not_active.2
    have htbtRank : tbtRank (sendModeVdm false v
        (dpSetupNextVdm cfg env (p.port.emit .muxCompleted)).2) = tbtRank p.port := by
      rw [tbtRank_sendModeVdm]
      exact (ranks_eq _ (dpSetupNextVdm_tbt _ _).1 (dpSetupNextVdm_tbt _ _).2).1
    refine .inr (hsend henters ?_ v ?_)
    · rw [htbtRank, dpRank_sendModeVdm]
      exact Nat.add_le_add_left hrank _
    · exact not_awaitsReset_sendModeVdm (hstill henters
        (hemit.trans (sameDpm_dpSetupNextVdm cfg env)))
  | dpError henters => exact .inl rfl

theorem measure_turn {p : Entry} {a : Bool × UInt32} (hp : EntryInv cfg env p)
    (hok : NoRestart cfg env p (.answer a.1 a.2)) (hcan : CanEnter env) :
    EntryInv cfg env (p.turn cfg env a) ∧
      ((p.turn cfg env a).port.modeEntryDone = true ∨
        (p.turn cfg env a).measure cfg < p.measure cfg) := by
  unfold Entry.turn
  cases hout : p.outstanding with
  | some v =>
    simp only [Option.isSome_some, if_true]
    exact ⟨entryInv_answer hp hok, .inr (measure_answer hp hok hout)⟩
  | none =>
    simp only [Option.isSome_none, Bool.false_eq_true, if_false]
    by_cases hreset : InReset p.port
    · rw [if_pos hreset]
      exact ⟨entryInv_dataReset hp, .inr (measure_dataReset hp hout hreset)⟩
    · rw [if_neg hreset]
      have hready := entryInv_peReady hp
      have hstep : p.step cfg env .peReady = { p with port := { p.port with peReady := true } } := by
        simp [Entry.step, hout]
      have hmeasure : (p.step cfg env .peReady).measure cfg = p.measure cfg := by
        rw [hstep]
        rfl
      rw [← hmeasure]
      refine ⟨entryInv_run hready true, measure_run hready ?_ ?_ ?_ hcan⟩
      · rw [hstep]
        exact hout
      · rw [hstep]
      · rw [hstep]
        exact hreset

theorem done_of_measure (hcan : CanEnter env) (n : Nat) {p : Entry} {as : List (Bool × UInt32)}
    (hp : EntryInv cfg env p) (hn : p.measure cfg < n) (hok : TurnsAllowed cfg env p as)
    (hlen : n ≤ as.length) :
    ∃ m ≤ n, ((as.take m).foldl (Entry.turn cfg env) p).port.modeEntryDone = true := by
  induction n generalizing p as with
  | zero => omega
  | succ n ih =>
    cases as with
    | nil => simp at hlen
    | cons a as =>
      obtain ⟨hanswer, hrest⟩ := hok
      obtain ⟨hinv, hdone | hlt⟩ := measure_turn hp hanswer hcan
      · exact ⟨1, by omega, by simpa using hdone⟩
      · simp only [List.length_cons] at hlen
        obtain ⟨m, hm, hdone⟩ := ih hinv (by omega) hrest (by omega)
        exact ⟨m + 1, by omega, by simpa using hdone⟩

/-! ### What an entry comes to -/

theorem tbtLog_messages {p : Entry} (hp : EntryInv cfg env p) :
    tbtLog p.messages = tbtLog p.answered ∨
      ∃ v, TbtSends p.port ∧ tbtMessage env p.port.tbtState = some (v.cmd, v.txType) ∧
        tbtLog p.messages = (v, false) :: tbtLog p.answered := by
  unfold Entry.messages
  cases hout : p.outstanding with
  | none => exact .inl rfl
  | some v =>
    rcases (hp.awaits v hout).message with ⟨-, hsvid, hsends, hmsg⟩ | ⟨-, hsvid, -⟩
    · exact .inr ⟨v, hsends, hmsg, by simp [tbtLog, hsvid]⟩
    · have hother : v.svid ≠ usbVidIntel := by
        rw [hsvid]
        decide
      exact .inl (by simp [tbtLog, hother])

theorem tbtState_of_enterSop {state : TbtState} (hstart : state ≠ .start)
    (h : tbtMessage env state = some (cmdEnterMode, .sop)) : state = .enterSop := by
  cases state with
  | enterSop => rfl
  | start => exact absurd rfl hstart
  | _ => simp [tbtMessage, cmdExitMode_ne_enter] at h

theorem EntryInv.enterSop_le {p : Entry} (hp : EntryInv cfg env p) :
    enterSopCount p.messages ≤ 2 := by
  have hbudget := hp.budget
  unfold enterSopCount at hbudget ⊢
  rcases tbtLog_messages hp with hlog | ⟨v, hsends, hmsg, hlog⟩
  · rw [hlog]
    omega
  · rw [hlog, List.countP_cons]
    split
    case isFalse =>
      omega
    case isTrue henter =>
      simp only [Bool.and_eq_true, decide_eq_true_eq] at henter
      rw [henter.1, henter.2] at hmsg
      have hstate := tbtState_of_enterSop hsends.1 hmsg
      have hone : 1 ≤ enterBudget p.port := by
        rw [enterBudget, hstate]
        exact Nat.le_add_right 1 _
      omega

theorem EntryInv.inOrder_messages {p : Entry} (hp : EntryInv cfg env p) :
    InOrder env (tbtLog p.messages) := by
  rcases tbtLog_messages hp with hlog | ⟨v, hsends, hmsg, hlog⟩
  · rw [hlog]
    exact hp.inOrder
  · rw [hlog]
    exact ⟨(hp.expects hsends.not_inactive).trans hmsg, hp.inOrder⟩

theorem EntryInv.active {p : Entry} (hp : EntryInv cfg env p) (hactive : p.port.tbtState = .active)
    {plug : SopType} (hplug : plug ∈ enterOrder env) :
    lastEnter plug (tbtLog p.messages) = some true := by
  rcases tbtLog_messages hp with hlog | ⟨v, -, hmsg, -⟩
  · have hexpects := hp.expects (by simp [hactive])
    rw [hactive] at hexpects
    rw [hlog]
    exact lastEnter_of_expected_none hp.inOrder hexpects hplug
  · simp [hactive, tbtMessage] at hmsg

theorem EntryInv.count_le {p : Entry} (hp : EntryInv cfg env p) : p.messages.length ≤ 24 := by
  have hrank := hp.rank
  have hone : (p.outstanding.map fun v => (v, false)).toList.length ≤ 1 := by
    cases p.outstanding with
    | _ => simp
  rw [Entry.messages, List.length_append]
  omega

end Runs

/-- Thunderbolt mode entry is bounded: from a port that is ready for an entry, in every run whose
answers do not make the module start over after its retry. -/
theorem entry_bounded (cfg : Config) (env : Env) {s : Port} {p : Entry}
    (hstart : EntryStart cfg env s)
    (h : Lib.Reach (Entry.step cfg env) (NoRestart cfg env) ⟨s, none, []⟩ p) :
    Bounded cfg env p := by
  have hp : EntryInv cfg env p :=
    Lib.Reach.invariant (I := EntryInv cfg env) (entryInv_start hstart)
      (fun _ _ hs hok => entryInv_step hs hok) h
  refine ⟨hp.inOrder_messages, hp.enterSop_le, fun hactive plug => hp.active hactive, hp.count_le,
    fun hcan as hok hlen => ?_⟩
  exact done_of_measure hcan 300 hp hp.measure_lt hok hlen

/-- A port whose DPM has come to the ready state, with the AP's request for Thunderbolt if there is
one. -/
def Port.entryReady (enterTbt : Bool) : Port :=
  { Port.boot with localState := .run, dpmState := .dfpReady, enterTbt := enterTbt }

def twoTurns : List EntryEvent :=
  [.peReady, .run true, .peReady, .run true]

def failedAttempt : List EntryEvent :=
  twoTurns ++ [.answer false 0] ++ twoTurns ++ [.peReady, .run true, .answer true 0]

def failedTwice : List EntryEvent :=
  failedAttempt ++ [.peReady, .run true] ++ failedAttempt

/-- The device NAKs Enter Mode twice. -/
theorem entry_bounded_failedTwice :
    Bounded .allModes .tbtDevice
      (failedTwice.foldl (Entry.step .allModes .tbtDevice)
        ⟨Port.entryReady false, none, []⟩) := by
  have hstart : EntryStart .allModes .tbtDevice (Port.entryReady false) :=
    ⟨rfl, .inr rfl, rfl, rfl, rfl, rfl, rfl, .inr (.inr (.inr (.inl rfl)))⟩
  have hallowed (p : Entry) (e : EntryEvent) : NoRestart .allModes .tbtDevice p e := by
    cases e with
    | answer ack vdo => exact fun h => absurd h (by decide)
    | _ => trivial
  exact entry_bounded .allModes .tbtDevice hstart
    (Lib.Reach.start.allowed (Lib.allowed_of_forall hallowed _ _))

/-- With the AP in charge, a device that NAKs Enter Mode is asked a third time. -/
theorem failedAttempt_not_bounded :
    ¬ ∀ (cfg : Config) (env : Env) (s : Port) (p : Entry), EntryStart cfg env s →
      Lib.Reach (Entry.step cfg env) (fun _ _ => True) ⟨s, none, []⟩ p → Bounded cfg env p := by
  intro hall
  have hstart : EntryStart { Config.allModes with requireApModeEntry := true } .tbtDevice
      (Port.entryReady true) :=
    ⟨rfl, .inr rfl, rfl, rfl, rfl, rfl, rfl, .inr (.inr (.inr (.inl rfl)))⟩
  have hbounded := hall _ _ _ _ hstart (Lib.Reach.start.allowed
    (Lib.allowed_of_forall (fun _ _ => trivial) _
      (failedTwice ++ twoTurns ++ [.peReady, .run true])))
  exact absurd hbounded.enterSop (by decide +kernel)

end ChromiumEc.Usbc.Altmode
