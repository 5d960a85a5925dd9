import ChromiumEc.Usbc.Altmode.Dpm
import Mathlib.Logic.Relation
import Mathlib.Tactic.SplitIfs

/-!
# Run — what a run of the DPM does to the mode modules

`dpm_run` changes the mode modules and the mux only through the modules' own functions.  `RunStep`
says this once, and an invariant of the modules follows from its cases.
-/

namespace ChromiumEc.Usbc.Altmode

def Output.IsDpm : Output → Prop
  | .mux _ => False
  | .ended _ _ => False
  | _ => True

def newOutputs (s s' : Port) : List Output :=
  s'.trace.take (s'.trace.length - s.trace.length)

structure Modes where
  dpState : DpState
  dpRetry : Bool
  dpOn : Bool
  hpdHiPending : Bool
  dpStatus : UInt32
  hpd : Bool
  tbtState : TbtState
  tbtRetryDone : Bool
  usb4State : Usb4State
  modalOperation : Bool
  mux : MuxRequest
  dpSafe : Bool
  tbtSafe : Bool

def Port.modes (s : Port) : Modes where
  dpState := s.dpState
  dpRetry := s.dpRetry
  dpOn := s.dpOn
  hpdHiPending := s.hpdHiPending
  dpStatus := s.dpStatus
  hpd := s.hpd
  tbtState := s.tbtState
  tbtRetryDone := s.tbtRetryDone
  usb4State := s.usb4State
  modalOperation := s.modalOperation
  mux := s.mux
  dpSafe := s.dpSafe
  tbtSafe := s.tbtSafe

structure DpmOnly (s s' : Port) : Prop where
  modes : s'.modes = s.modes
  trace : ∃ new, s'.trace = new ++ s.trace ∧ ∀ o ∈ new, o.IsDpm

inductive RunStep (cfg : Config) (env : Env) : Port → Port → Prop
  | dpm {s s' : Port} : DpmOnly s s' → RunStep cfg env s s'
  | dpSetup (s : Port) : RunStep cfg env s (dpSetupNextVdm cfg env s).2
  | tbtSetup (s : Port) : RunStep cfg env s (tbtSetupNextVdm cfg env s).2
  | tbtExit (s : Port) : RunStep cfg env s (tbtExitModeRequest env s)
  | usb4Exit (s : Port) : RunStep cfg env s (usb4ExitModeRequest cfg s)

def RunSteps (cfg : Config) (env : Env) : Port → Port → Prop :=
  Relation.ReflTransGen (RunStep cfg env)

section

variable {cfg : Config} {env : Env} {s s' t : Port}

/-! ## The DPM's own part -/

theorem newOutputs_eq {new : List Output} (h : s'.trace = new ++ s.trace) :
    newOutputs s s' = new := by
  unfold newOutputs
  rw [h]
  simp

theorem DpmOnly.of_eq (h : s'.modes = s.modes) (htrace : s'.trace = s.trace) : DpmOnly s s' :=
  ⟨h, [], htrace, by simp⟩

theorem DpmOnly.refl : DpmOnly s s :=
  .of_eq rfl rfl

theorem DpmOnly.trans (h : DpmOnly s t) (h' : DpmOnly t s') : DpmOnly s s' := by
  obtain ⟨new, hnew, hdpm⟩ := h.trace
  obtain ⟨new', hnew', hdpm'⟩ := h'.trace
  refine ⟨h'.modes.trans h.modes, new' ++ new, ?_, fun o ho => ?_⟩
  · rw [hnew', hnew, List.append_assoc]
  · rcases List.mem_append.mp ho with ho | ho
    · exact hdpm' o ho
    · exact hdpm o ho

theorem dpmOnly_emit {o : Output} (ho : o.IsDpm) : DpmOnly s (s.emit o) :=
  ⟨rfl, [o], rfl, by simpa using ho⟩

theorem dpmOnly_request (r : DpmRequest) : DpmOnly s (s.emit (.request r)) :=
  dpmOnly_emit trivial

theorem dpmOnly_muxCompleted : DpmOnly s (s.emit .muxCompleted) :=
  dpmOnly_emit trivial

theorem dpmOnly_setStateDpm (new : DpmState) : DpmOnly s (setStateDpm new s) := by
  cases new with
  | dataReset => exact ⟨rfl, [.request .dataReset], rfl, by simp [Output.IsDpm]⟩
  | _ => exact .of_eq rfl rfl

theorem dpmOnly_sendModeVdm (forExit : Bool) (vdm : ModeVdm) :
    DpmOnly s (sendModeVdm forExit vdm s) :=
  have hvdm : DpmOnly s (s.emit (.vdm forExit vdm)) := dpmOnly_emit trivial
  (hvdm.trans (dpmOnly_request .vdm)).trans (dpmOnly_setStateDpm _)

theorem dpmOnly_dpmSendReqVdm : DpmOnly s (dpmSendReqVdm s) := by
  unfold dpmSendReqVdm
  have hsent : DpmOnly s
      (if CanSetupVdm s.vdmReqCnt then (s.emit .reqVdm).emit (.request .vdm) else s) := by
    have hreq : DpmOnly s (s.emit .reqVdm) := dpmOnly_emit trivial
    split
    · exact hreq.trans (dpmOnly_request .vdm)
    · exact .refl
  generalize (if CanSetupVdm s.vdmReqCnt then (s.emit .reqVdm).emit (.request .vdm) else s) = t
    at hsent
  simp only
  split
  · exact hsent.trans (.of_eq rfl rfl)
  · exact hsent

theorem dpmOnly_dpmReadyRest : DpmOnly s (dpmReadyRest s) := by
  unfold dpmReadyRest dpmVconnSwapPolicy
  by_cases hswap : s.vconnSwap = true
  · simp only [if_pos hswap, if_true]
    have hclear : DpmOnly s { s with vconnSwap := false } := .of_eq rfl rfl
    exact (hclear.trans (dpmOnly_request .vconnSwap)).trans (dpmOnly_setStateDpm _)
  · simp only [if_neg hswap, Bool.false_eq_true, if_false]
    split
    · exact dpmOnly_dpmSendReqVdm.trans (dpmOnly_setStateDpm _)
    · exact .refl

theorem dpmOnly_dpmWaitingRun : DpmOnly s (dpmWaitingRun env s) := by
  unfold dpmWaitingRun
  split
  · cases env.dataRole with
    | disconnected => exact .refl
    | _ => exact dpmOnly_setStateDpm _
  · exact .refl

theorem dpmOnly_dpmInit : DpmOnly s { dpmInit s with localState := .run } :=
  .of_eq rfl rfl

/-! ## Mode entry and exit -/

theorem RunSteps.dpm (h : DpmOnly s s') : RunSteps cfg env s s' :=
  .single (.dpm h)

theorem RunSteps.then_dpm (h : RunSteps cfg env s t) (h' : DpmOnly t s') :
    RunSteps cfg env s s' :=
  h.tail (.dpm h')

theorem runSteps_setupEnterVdm {r : MsgSetup × Port} (h : RunSteps cfg env s r.2) :
    RunSteps cfg env s (setupEnterVdm cfg env r).2 := by
  unfold setupEnterVdm
  have htbt : RunSteps cfg env s
      (if entersTbt cfg env r.2 then tbtSetupNextVdm cfg env r.2 else r).2 := by
    split
    · exact h.tail (.tbtSetup _)
    · exact h
  generalize (if entersTbt cfg env r.2 then tbtSetupNextVdm cfg env r.2 else r) = r' at htbt
  simp only
  split
  · exact htbt.tail (.dpSetup _)
  · exact htbt

theorem runSteps_finishEnterMode {r : MsgSetup × Port} (h : RunSteps cfg env s r.2) :
    RunSteps cfg env s (finishEnterMode r).2 := by
  obtain ⟨m, t⟩ := r
  cases m with
  | muxWait => exact h
  | success vdm =>
    simp only [finishEnterMode]
    split
    · exact h.then_dpm (dpmOnly_sendModeVdm _ _)
    · exact h.then_dpm (.of_eq rfl rfl)
  | error | unsupported => exact h.then_dpm (.of_eq rfl rfl)

theorem runSteps_enterModeMsg (h : RunSteps cfg env s t) :
    RunSteps cfg env s (dpmDfpEnterModeMsg cfg env t).2 := by
  unfold dpmDfpEnterModeMsg
  split_ifs
  · exact h
  · exact h
  · exact h.then_dpm (.of_eq rfl rfl)
  · exact h.then_dpm (dpmOnly_setStateDpm .dataReset)
  · exact runSteps_finishEnterMode (runSteps_setupEnterVdm (h.tail (.tbtSetup _)))
  · exact h.then_dpm (dpmOnly_request .enterUsb)
  · exact runSteps_finishEnterMode (runSteps_setupEnterVdm h)

theorem runSteps_exitModeMsg (h : RunSteps cfg env s t) :
    RunSteps cfg env s (dpmDfpExitModeMsg cfg env t).2 := by
  unfold dpmDfpExitModeMsg
  by_cases hreset : (cfg.dataResetMsg && !t.dataResetDone) = true
  · rw [if_pos hreset]
    exact h.then_dpm (dpmOnly_setStateDpm .dataReset)
  rw [if_neg hreset]
  have husb4 : RunSteps cfg env s
      (if cfg.usb4 && enterUsbEntryIsDone t then usb4ExitModeRequest cfg t else t) := by
    split
    · exact h.tail (.usb4Exit _)
    · exact h
  generalize (if cfg.usb4 && enterUsbEntryIsDone t then usb4ExitModeRequest cfg t else t) = u
    at husb4
  have hsetup (r : MsgSetup × Port) (hr : setupExitVdm cfg env u = some r) :
      RunSteps cfg env s r.2 := by
    unfold setupExitVdm at hr
    split_ifs at hr
    · cases hr
      exact (husb4.tail (.tbtExit _)).tail (.tbtSetup _)
    · cases hr
      exact husb4.tail (.dpSetup _)
  simp only
  cases hr : setupExitVdm cfg env u with
  | none => exact husb4.then_dpm (.of_eq rfl rfl)
  | some r =>
    obtain ⟨m, v⟩ := r
    have hv := hsetup _ hr
    cases m with
    | success vdm =>
      simp only
      split
      · exact hv.then_dpm (dpmOnly_sendModeVdm _ _)
      · exact hv.then_dpm (.of_eq rfl rfl)
    | _ => exact hv

theorem runSteps_dfpReadyRun {muxCompleted : Bool} :
    RunSteps cfg env s (dpmDfpReadyRun cfg env muxCompleted s) := by
  unfold dpmDfpReadyRun
  by_cases hready : (!s.peReady) = true
  · rw [if_pos hready]
    exact .dpm (dpmOnly_setStateDpm _)
  rw [if_neg hready]
  by_cases hmux : (cfg.usbcSsMux && !muxCompleted) = true
  · rw [if_pos hmux]
    exact .refl
  rw [if_neg hmux]
  have hmsg : RunSteps cfg env s (dpmDfpModeMsg cfg env (s.emit .muxCompleted)).2 := by
    have hstart : RunSteps cfg env s (s.emit .muxCompleted) := .dpm dpmOnly_muxCompleted
    unfold dpmDfpModeMsg
    split_ifs
    · exact runSteps_exitModeMsg hstart
    · exact runSteps_enterModeMsg hstart
    · exact hstart
  simp only
  split
  · exact hmsg
  · exact hmsg.then_dpm dpmOnly_dpmReadyRest

theorem runSteps_dpmRun (cfg : Config) (env : Env) (en : Bool) (muxCompleted : Bool) :
    RunSteps cfg env s (dpmRun cfg env en muxCompleted s) := by
  have hinit : RunSteps cfg env s (dpmWaitingRun env { dpmInit s with localState := .run }) :=
    .dpm (dpmOnly_dpmInit.trans dpmOnly_dpmWaitingRun)
  unfold dpmRun
  cases s.localState with
  | init =>
    cases en with
    | true => exact hinit
    | false => exact .dpm (.of_eq rfl rfl)
  | paused =>
    cases en with
    | true => exact hinit
    | false => exact .refl
  | run =>
    cases en with
    | false => exact .dpm (.of_eq rfl rfl)
    | true =>
      simp only [if_true, dpmRunState]
      cases s.dpmState with
      | waiting => exact .dpm dpmOnly_dpmWaitingRun
      | dfpReady => exact runSteps_dfpReadyRun
      | ufpReady =>
        simp only [dpmUfpReadyRun]
        split_ifs
        · exact .dpm (dpmOnly_setStateDpm _)
        · exact .dpm (.of_eq rfl rfl)
        · exact .dpm dpmOnly_dpmReadyRest
      | dataReset =>
        simp only
        split
        · exact .dpm (dpmOnly_setStateDpm _)
        · exact .refl

/-! ## What follows for a run -/

def Output.IsEnd : Output → Prop
  | .ended _ _ => True
  | _ => False

structure Emits (P : Output → Prop) (s s' : Port) : Prop where
  trace : ∃ new, s'.trace = new ++ s.trace ∧ ∀ o ∈ new, P o

abbrev NoEnd (s s' : Port) : Prop :=
  Emits (fun o => ¬ o.IsEnd) s s'

namespace Emits

variable {P Q : Output → Prop}

theorem of_trace_eq (h : s'.trace = s.trace) : Emits P s s' :=
  ⟨[], h, by simp⟩

theorem trans (h : Emits P s t) (h' : Emits P t s') : Emits P s s' := by
  obtain ⟨new, hnew, hP⟩ := h.trace
  obtain ⟨new', hnew', hP'⟩ := h'.trace
  refine ⟨new' ++ new, ?_, fun o ho => ?_⟩
  · rw [hnew', hnew, List.append_assoc]
  · rcases List.mem_append.mp ho with ho | ho
    · exact hP' o ho
    · exact hP o ho

theorem mono (h : Emits P s s') (hPQ : ∀ o, P o → Q o) : Emits Q s s' := by
  obtain ⟨new, hnew, hP⟩ := h.trace
  exact ⟨new, hnew, fun o ho => hPQ o (hP o ho)⟩

end Emits

abbrev MuxOnly (s s' : Port) : Prop :=
  Emits (fun o => ∃ m, o = .mux m) s s'

theorem MuxOnly.of_ssMuxSet (cfg : Config) (m : MuxRequest)
    (h : s'.trace = if cfg.usbcSsMux then .mux m :: s.trace else s.trace) : MuxOnly s s' := by
  by_cases hmux : cfg.usbcSsMux = true
  · rw [if_pos hmux] at h
    exact ⟨[.mux m], h, by simp⟩
  · rw [if_neg hmux] at h
    exact .of_trace_eq h

theorem MuxOnly.noEnd (h : MuxOnly s s') : NoEnd s s' := by
  refine h.mono fun o ho => ?_
  obtain ⟨m, rfl⟩ := ho
  exact fun h => h

theorem NoEnd.of_ssMuxSet (cfg : Config) (m : MuxRequest)
    (h : s'.trace = if cfg.usbcSsMux then .mux m :: s.trace else s.trace) : NoEnd s s' :=
  (MuxOnly.of_ssMuxSet cfg m h).noEnd

theorem DpmOnly.noEnd (h : DpmOnly s s') : NoEnd s s' := by
  obtain ⟨new, hnew, hdpm⟩ := h.trace
  refine ⟨new, hnew, fun o ho hend => ?_⟩
  have hdpm := hdpm o ho
  cases o with
  | ended m b => exact hdpm
  | _ => exact hend

theorem muxOnly_dpSetupNextVdm (cfg : Config) (env : Env) :
    MuxOnly s (dpSetupNextVdm cfg env s).2 := by
  rcases dpSetupNextVdm_cases cfg env s with
    h | ⟨-, h⟩ | ⟨-, h⟩ | ⟨-, h⟩ | ⟨-, h⟩ | ⟨-, h⟩ <;> rw [h]
  · exact .of_trace_eq rfl
  · exact .of_ssMuxSet cfg .safeMode (by simp only [svdmSafeDpMode, Port.ssMuxSet_eq])
  · exact .of_trace_eq rfl
  · exact .of_ssMuxSet cfg .safeMode (by simp only [Port.ssMuxSet_eq])
  · exact .of_ssMuxSet cfg .safeModeExit (by simp only [dpSetupExit, Port.ssMuxSet_eq])
  · exact .of_ssMuxSet cfg .safeModeExit (by simp only [dpSetupExit, Port.ssMuxSet_eq])

theorem muxOnly_tbtSetupNextVdm (cfg : Config) (env : Env) :
    MuxOnly s (tbtSetupNextVdm cfg env s).2 := by
  rcases tbtSetupNextVdm_spec cfg env s with
    h | ⟨-, new, -, h⟩ | ⟨-, h⟩ | ⟨-, h⟩ <;> rw [h]
  · exact .of_trace_eq rfl
  · exact .of_ssMuxSet cfg .safeMode (by simp only [tbtSafeThen, Port.ssMuxSet_eq])
  · exact .of_ssMuxSet cfg .safeModeExit (by simp only [tbtSafeThen, Port.ssMuxSet_eq])
  · exact .of_ssMuxSet cfg .safeModeExit (by simp only [tbtSafeThen, Port.ssMuxSet_eq])

theorem noEnd_usb4ExitModeRequest : NoEnd s (usb4ExitModeRequest cfg s) := by
  have hsafe : NoEnd s (Port.ssMuxSet cfg .safeModeExit { s with usb4State := .start }) :=
    .of_ssMuxSet cfg .safeModeExit (by simp only [Port.ssMuxSet_eq])
  unfold usb4ExitModeRequest
  generalize Port.ssMuxSet cfg .safeModeExit { s with usb4State := .start } = t at hsafe
  simp only
  split
  · exact hsafe
  · exact hsafe.trans (NoEnd.of_ssMuxSet cfg .currentDataRole (by simp only [Port.ssMuxSet_eq]))

theorem RunStep.noEnd (h : RunStep cfg env s s') : NoEnd s s' := by
  cases h with
  | dpm h => exact h.noEnd
  | dpSetup => exact (muxOnly_dpSetupNextVdm _ _).noEnd
  | tbtSetup => exact (muxOnly_tbtSetupNextVdm _ _).noEnd
  | tbtExit =>
    unfold tbtExitModeRequest
    by_cases hstate : s.tbtState = .enterSop
    · simp only [if_pos hstate]
      exact .of_trace_eq rfl
    · simp only [if_neg hstate]
      exact .of_trace_eq rfl
  | usb4Exit => exact noEnd_usb4ExitModeRequest

theorem RunSteps.noEnd (h : RunSteps cfg env s s') : NoEnd s s' := by
  induction h with
  | refl => exact .of_trace_eq rfl
  | tail _ hlast ih => exact ih.trans hlast.noEnd

theorem RunSteps.invariant {I : Port → Prop} (h : RunSteps cfg env s s')
    (hstep : ∀ t t', RunStep cfg env t t' → I t → I t') (hs : I s) : I s' := by
  induction h with
  | refl => exact hs
  | tail _ hlast ih => exact hstep _ _ hlast ih

end

end ChromiumEc.Usbc.Altmode
