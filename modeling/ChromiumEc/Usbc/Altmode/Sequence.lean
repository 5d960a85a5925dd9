import ChromiumEc.Lib.Reach
import ChromiumEc.Usbc.Altmode.Dpm
import Mathlib.Tactic.SplitIfs

/-!
# Sequence — mode VDMs come after the mux

A VDM of a mode module is handed to the policy engine only in a run of the DPM that began with all
mux requests completed, and in which the safe state has not been requested anew.
-/

namespace ChromiumEc.Usbc.Altmode

/-- No request for the safe state was made since the last run that began with the mux completed, or
a later request undid it. -/
def settled : List Output → Bool
  | [] => true
  | .muxCompleted :: _ => true
  | .mux m :: _ => ¬ m.IsSafe
  | _ :: os => settled os

def EntersDp (v : ModeVdm) (before : List Output) : Prop :=
  v = dpVdm cmdEnterMode 1 ∧ ∃ os, before = .mux .safeMode :: os ∧ settled os = true

def AfterMux (v : ModeVdm) (before : List Output) : Prop :=
  settled before = true ∨ EntersDp v before

/-- Every mode VDM comes after the mux, as `after` has it, and no Enter Mode is for an exit. -/
def Sequenced (after : ModeVdm → List Output → Prop) : List Output → Prop
  | [] => True
  | .vdm forExit v :: os =>
    after v os ∧ (forExit = true → v.cmd ≠ cmdEnterMode) ∧ Sequenced after os
  | _ :: os => Sequenced after os

def AfterMuxStrict (_ : ModeVdm) (before : List Output) : Prop :=
  settled before = true

instance (v : ModeVdm) : DecidablePred (AfterMuxStrict v) := fun before =>
  inferInstanceAs (Decidable (settled before = true))

instance Sequenced.decidable {after : ModeVdm → List Output → Prop}
    [∀ v os, Decidable (after v os)] : DecidablePred (Sequenced after)
  | [] => .isTrue trivial
  | o :: os =>
    have : Decidable (Sequenced after os) := Sequenced.decidable os
    match o with
    | .vdm forExit v =>
      inferInstanceAs (Decidable
        (after v os ∧ (forExit = true → v.cmd ≠ cmdEnterMode) ∧ Sequenced after os))
    | .muxCompleted | .mux _ | .reqVdm | .request _ | .ended _ _ => this

/-! ## Where the sequence goes wrong -/

/-- `dpm_dfp_ready_run` gets to its mode messages. -/
def ReadyRun (cfg : Config) (en muxCompleted : Bool) (s : Port) : Prop :=
  s.localState = .run ∧ en = true ∧ s.dpmState = .dfpReady ∧ s.peReady = true ∧
    (cfg.usbcSsMux = true → muxCompleted = true)

/-- `dpm_dfp_enter_mode_msg` gets to the modules. -/
def ReachesEntry (cfg : Config) (env : Env) (s : Port) : Prop :=
  s.exitRequest = false ∧ s.modeEntryDone = false ∧ env.chipsetOn = true ∧
    env.svidsComplete = true ∧ env.modesComplete = true ∧ modeEntryIsDone cfg s = false ∧
    (cfg.requireApModeEntry && cfg.dataResetMsg && enterAny s && !s.dataResetDone) = false

/-- `dpm_dfp_exit_mode_msg` gets to the modules. -/
def ReachesExit (cfg : Config) (s : Port) : Prop :=
  s.exitRequest = true ∧ (cfg.dataResetMsg && !s.dataResetDone) = false

/-- The entry sets up the cable's Thunderbolt mode for USB4, which asks for the safe state, and then
Thunderbolt once more. -/
def SetsUpTwice (cfg : Config) (env : Env) (s : Port) : Prop :=
  entersUsb4 cfg env s = true ∧ tbtCableEntryRequiredForUsb4 env s = true ∧
    entersTbt cfg env s = true ∧
    (s.tbtState = .start ∧ tbtModeIsSupported env = true ∨ s.tbtState = .prepareExitMode)

def ExitsEnteringCable (s : Port) : Prop :=
  s.tbtState = .enterSopPrime ∨ s.tbtState = .enterSopPrimePrime

def ExitsUsb4AndTbt (cfg : Config) (s : Port) : Prop :=
  cfg.usb4 = true ∧ enterUsbEntryIsDone s = true ∧
    (s.tbtState = .enterSop ∨ s.tbtState = .exitSop ∨ s.tbtState = .exitSopPrime ∨
      s.tbtState = .exitSopPrimePrime)

def OutOfSequence (cfg : Config) (env : Env) (s : Port) : Prop :=
  ReachesEntry cfg env s ∧ SetsUpTwice cfg env s ∨
    ReachesExit cfg s ∧ cfg.tbtCompatMode = true ∧ (ExitsEnteringCable s ∨ ExitsUsb4AndTbt cfg s)

def InSequence (cfg : Config) (s : Port) : Event → Prop
  | .dpmRun env en muxCompleted => ReadyRun cfg en muxCompleted s → ¬ OutOfSequence cfg env s
  | _ => True

section Decidable

variable (cfg : Config) (env : Env) (s : Port)

instance (en muxCompleted : Bool) : Decidable (ReadyRun cfg en muxCompleted s) := by
  unfold ReadyRun
  infer_instance

instance : Decidable (OutOfSequence cfg env s) := by
  unfold OutOfSequence ReachesEntry ReachesExit SetsUpTwice ExitsEnteringCable ExitsUsb4AndTbt
  infer_instance

instance : DecidablePred (InSequence cfg s)
  | .dpmRun env en muxCompleted =>
    inferInstanceAs (Decidable (ReadyRun cfg en muxCompleted s → ¬ OutOfSequence cfg env s))
  | .setPeReady _ | .requestEnterMode _ | .setModeExitRequest | .requestVdm _ _ => .isTrue trivial
  | .requestVconnSwap | .vdmAcked .. | .vdmNaked .. | .attention _ _ => .isTrue trivial
  | .enterUsb _ | .enterUsbAccepted _ _ | .enterUsbRejected _ _ => .isTrue trivial
  | .enterUsbTimeout | .dpmInit | .dfpModeInit | .dfpExitMode => .isTrue trivial
  | .performDataReset | .dataResetComplete | .dataRoleChanged => .isTrue trivial

end Decidable

section Steps

variable {cfg : Config} {env : Env} {s s' : Port} {forExit : Bool} {v : ModeVdm}

def Output.IsVdm : Output → Prop
  | .vdm _ _ => True
  | _ => False

theorem Sequenced.cons {o : Output} {os : List Output} (h : Sequenced AfterMux os)
    (ho : ¬ o.IsVdm) : Sequenced AfterMux (o :: os) := by
  cases o with
  | vdm forExit v => exact absurd trivial ho
  | _ => exact h

structure Quiet (s s' : Port) : Prop where
  trace : ∃ new, s'.trace = new ++ s.trace ∧ ∀ o ∈ new, ¬ o.IsVdm

theorem Quiet.of_trace_eq (h : s'.trace = s.trace) : Quiet s s' :=
  ⟨[], h, by simp⟩

theorem Quiet.of_emit {o : Output} (h : s'.trace = o :: s.trace) (ho : ¬ o.IsVdm) : Quiet s s' :=
  ⟨[o], h, by simpa using ho⟩

theorem Quiet.trans {s'' : Port} (h : Quiet s s') (h' : Quiet s' s'') : Quiet s s'' := by
  obtain ⟨new, hnew, hquiet⟩ := h.trace
  obtain ⟨new', hnew', hquiet'⟩ := h'.trace
  refine ⟨new' ++ new, by rw [hnew', hnew, List.append_assoc], fun o ho => ?_⟩
  rcases List.mem_append.mp ho with ho | ho
  · exact hquiet' o ho
  · exact hquiet o ho

theorem Quiet.of_start {t : Port} (h : Quiet t s') (ht : t.trace = s.trace) : Quiet s s' :=
  (Quiet.of_trace_eq ht).trans h

theorem Quiet.sequenced (h : Quiet s s') (hs : Sequenced AfterMux s.trace) :
    Sequenced AfterMux s'.trace := by
  obtain ⟨new, hnew, hquiet⟩ := h.trace
  rw [hnew]
  clear hnew h
  induction new with
  | nil => exact hs
  | cons o new ih =>
    exact Sequenced.cons (ih fun o ho => hquiet o (List.mem_cons_of_mem _ ho))
      (hquiet o List.mem_cons_self)

/-! ## The modules -/

structure SetUp (r : MsgSetup × Port) : Prop where
  sequenced : Sequenced AfterMux r.2.trace
  after : ∀ v, r.1 = .success v → AfterMux v r.2.trace

theorem setUp_keep (hs : Sequenced AfterMux s.trace) (hset : settled s.trace = true)
    (m : MsgSetup) (h : s'.trace = s.trace) : SetUp (m, s') :=
  ⟨h ▸ hs, fun _ _ => .inl (h ▸ hset)⟩

theorem setUp_muxWait (hs : Sequenced AfterMux s.trace) (m : MuxRequest)
    (h : s'.trace = s.trace ∨ s'.trace = .mux m :: s.trace) : SetUp (.muxWait, s') := by
  refine ⟨?_, fun v hv => by simp at hv⟩
  rcases h with h | h
  · exact h ▸ hs
  · rw [h]
    exact hs.cons (by simp [Output.IsVdm])

theorem trace_ssMuxSet (cfg : Config) (m : MuxRequest) :
    (s.ssMuxSet cfg m).trace = s.trace ∨ (s.ssMuxSet cfg m).trace = .mux m :: s.trace := by
  unfold Port.ssMuxSet
  split_ifs
  · exact .inr rfl
  · exact .inl rfl

theorem setUp_dpSetupConfig (hs : Sequenced AfterMux s.trace) (hset : settled s.trace = true)
    (h : s'.trace = s.trace) : SetUp (dpSetupConfig env s') := by
  unfold dpSetupConfig
  split_ifs
  · exact setUp_keep hs hset _ h
  · exact setUp_keep hs hset _ h

theorem setUp_safeAndWait {t : Port} (hs : Sequenced AfterMux s.trace) (m : MuxRequest)
    (ht : t.trace = s.trace) (h : s'.trace = (t.ssMuxSet cfg m).trace) :
    SetUp (.muxWait, s') := by
  refine setUp_muxWait hs m ?_
  rcases trace_ssMuxSet cfg (s := t) m with hmux | hmux
  · exact .inl (h.trans (hmux.trans ht))
  · exact .inr (h.trans (hmux.trans (congrArg _ ht)))

theorem setUp_dpSetupExit (hs : Sequenced AfterMux s.trace) (h : s'.trace = s.trace) :
    SetUp (dpSetupExit cfg s') :=
  setUp_safeAndWait (t := { s' with dpSafe := true }) hs .safeModeExit h rfl

theorem trace_svdmSafeDpMode (cfg : Config) :
    (svdmSafeDpMode cfg s).trace = s.trace ∨
      (svdmSafeDpMode cfg s).trace = .mux .safeMode :: s.trace :=
  trace_ssMuxSet _ (s := { s with
    dpOn := false, hpdHiPending := false, dpStatus := 0, dpSafe := true }) _

theorem setUp_dpEnter (hs : Sequenced AfterMux s.trace) (hset : settled s.trace = true) :
    SetUp (match env.dpModeVdo.bind fun modeCaps => svdmEnterDpMode cfg env modeCaps s with
      | none => (.error, s)
      | some s => (.success (dpVdm cmdEnterMode 1), s)) := by
  cases hmode : env.dpModeVdo.bind fun modeCaps => svdmEnterDpMode cfg env modeCaps s with
  | none => exact setUp_keep hs hset _ rfl
  | some s' =>
    obtain ⟨modeCaps, -, hmode⟩ := Option.bind_eq_some_iff.mp hmode
    rw [svdmEnterDpMode_eq hmode]
    rcases trace_svdmSafeDpMode cfg (s := s) with hmux | hmux
    · exact setUp_keep hs hset _ hmux
    · refine ⟨?_, fun v hv => .inr ⟨(MsgSetup.success.inj hv).symm, s.trace, hmux, hset⟩⟩
      rw [hmux]
      exact hs.cons (by simp [Output.IsVdm])

theorem setUp_dpSetupNextVdm (hs : Sequenced AfterMux s.trace) (hset : settled s.trace = true) :
    SetUp (dpSetupNextVdm cfg env s) := by
  unfold dpSetupNextVdm
  by_cases hmode : (!cfg.dpMode) = true
  · rw [if_pos hmode]
    exact setUp_keep hs hset _ rfl
  rw [if_neg hmode]
  cases s.dpState with
  | start => exact setUp_dpEnter hs hset
  | enterRetry => exact setUp_dpEnter hs hset
  | statusAcked =>
    simp only
    split_ifs
    · exact setUp_keep hs hset _ rfl
    · exact setUp_safeAndWait (t := { s with dpState := .prepareConfig, dpSafe := true }) hs
        .safeMode rfl rfl
    · exact setUp_dpSetupConfig hs hset rfl
  | prepareConfig => exact setUp_dpSetupConfig hs hset rfl
  | enterNaked => exact setUp_dpSetupExit hs rfl
  | active => exact setUp_dpSetupExit hs rfl
  | _ => exact setUp_keep hs hset _ rfl

theorem setUp_tbtSetupNextVdm (hs : Sequenced AfterMux s.trace) (hset : settled s.trace = true) :
    SetUp (tbtSetupNextVdm cfg env s) := by
  unfold tbtSetupNextVdm
  cases s.tbtState with
  | start =>
    by_cases hsupported : tbtModeIsSupported env = true
    · simp only [if_pos hsupported]
      exact setUp_safeAndWait (t := { s with tbtSafe := true }) hs .safeMode rfl rfl
    · simp only [if_neg hsupported]
      exact setUp_keep hs hset _ rfl
  | active =>
    exact setUp_safeAndWait
      (t := { s with tbtState := .active, tbtRetryDone := true, tbtSafe := true }) hs
      .safeModeExit rfl rfl
  | prepareExitMode =>
    exact setUp_safeAndWait (t := { s with tbtSafe := true }) hs .safeModeExit rfl rfl
  | _ => exact setUp_keep hs hset _ rfl

/-! ## Mode entry -/

theorem tbtSetupNextVdm_waits (cfg : Config) (env : Env) :
    (tbtSetupNextVdm cfg env s).1 = .muxWait ∧
        (s.tbtState = .start ∧ tbtModeIsSupported env = true ∨ s.tbtState = .active ∨
          s.tbtState = .prepareExitMode) ∨
      (tbtSetupNextVdm cfg env s).2 = s := by
  unfold tbtSetupNextVdm
  cases hstate : s.tbtState with
  | start =>
    by_cases hsupported : tbtModeIsSupported env = true
    · simp [hsupported]
    · simp [hsupported]
  | _ => simp

theorem settled_of_unsupported (hset : settled s.trace = true)
    (h : (tbtSetupNextVdm cfg env s).1 = .unsupported) :
    settled (tbtSetupNextVdm cfg env s).2.trace = true := by
  rcases tbtSetupNextVdm_waits cfg env (s := s) with ⟨hwait, -⟩ | hkeep
  · rw [hwait] at h
    cases h
  · rw [hkeep]
    exact hset

theorem setUp_setupEnterVdm {r : MsgSetup × Port} (hr : SetUp r)
    (hset : entersTbt cfg env r.2 = true ∨ r.1 = .unsupported → settled r.2.trace = true) :
    SetUp (setupEnterVdm cfg env r) := by
  unfold setupEnterVdm
  have htbt : SetUp (if entersTbt cfg env r.2 then tbtSetupNextVdm cfg env r.2 else r) ∧
      ((if entersTbt cfg env r.2 then tbtSetupNextVdm cfg env r.2 else r).1 = .unsupported →
        settled (if entersTbt cfg env r.2 then tbtSetupNextVdm cfg env r.2 else r).2.trace
          = true) := by
    by_cases henters : entersTbt cfg env r.2 = true
    · rw [if_pos henters]
      have hset := hset (.inl henters)
      exact ⟨setUp_tbtSetupNextVdm hr.sequenced hset, settled_of_unsupported hset⟩
    · rw [if_neg henters]
      exact ⟨hr, fun h => hset (.inr h)⟩
  generalize (if entersTbt cfg env r.2 then tbtSetupNextVdm cfg env r.2 else r) = r' at htbt
  obtain ⟨hr', hset'⟩ := htbt
  by_cases hdp : r'.1 = .unsupported ∧ entersDp cfg env r'.2 = true
  · rw [if_pos hdp]
    exact setUp_dpSetupNextVdm hr'.sequenced (hset' hdp.1)
  · rw [if_neg hdp]
    exact hr'

theorem sequenced_sendModeVdm (hs : Sequenced AfterMux s.trace) (hafter : AfterMux v s.trace)
    (hexit : forExit = true → v.cmd ≠ cmdEnterMode) :
    Sequenced AfterMux (sendModeVdm forExit v s).trace :=
  ⟨hafter, hexit, hs⟩

theorem sequenced_finishEnterMode {r : MsgSetup × Port} (hr : SetUp r) :
    Sequenced AfterMux (finishEnterMode r).2.trace := by
  obtain ⟨m, s⟩ := r
  cases m with
  | success vdm =>
    simp only [finishEnterMode]
    split_ifs
    · exact sequenced_sendModeVdm hr.sequenced (hr.after vdm rfl) (by simp)
    · exact hr.sequenced
  | _ => exact hr.sequenced

theorem entersTbt_tbtSetupNextVdm :
    entersTbt cfg env (tbtSetupNextVdm cfg env s).2 = entersTbt cfg env s := by
  have henter : (tbtSetupNextVdm cfg env s).2.enterTbt = s.enterTbt := by
    unfold tbtSetupNextVdm
    cases s.tbtState with
    | start =>
      simp only [Port.ssMuxSet_eq]
      split_ifs <;> rfl
    | _ => simp only [Port.ssMuxSet_eq]
  simp only [entersTbt, dpmModeEntryRequested, henter]

theorem setUp_cableEntry (hs : Sequenced AfterMux s.trace) (hset : settled s.trace = true)
    (hdone : modeEntryIsDone cfg s = false)
    (honce : entersTbt cfg env s = true →
      ¬ (s.tbtState = .start ∧ tbtModeIsSupported env = true ∨ s.tbtState = .prepareExitMode)) :
    SetUp (setupEnterVdm cfg env (tbtSetupNextVdm cfg env s)) := by
  refine setUp_setupEnterVdm (setUp_tbtSetupNextVdm hs hset) fun h => ?_
  rcases h with henters | hunsupported
  · rw [entersTbt_tbtSetupNextVdm] at henters
    have hactive : s.tbtState ≠ .active := by
      intro hactive
      have htbt : cfg.tbtCompatMode = true := by
        simp only [entersTbt, Bool.and_eq_true] at henters
        exact henters.1.1.1
      simp [modeEntryIsDone, tbtEntryIsDone, hactive, htbt] at hdone
    rcases tbtSetupNextVdm_waits cfg env (s := s) with ⟨-, hwait⟩ | hkeep
    · rcases hwait with hstart | hwait | hprepare
      · exact absurd (.inl hstart) (honce henters)
      · exact absurd hwait hactive
      · exact absurd (.inr hprepare) (honce henters)
    · rw [hkeep]
      exact hset
  · exact settled_of_unsupported hset hunsupported

theorem sequenced_enterModeMsg (hs : Sequenced AfterMux s.trace) (hset : settled s.trace = true)
    (hexit : s.exitRequest = false) (hdone : s.modeEntryDone = false)
    (hok : ¬ (ReachesEntry cfg env s ∧ SetsUpTwice cfg env s)) :
    Sequenced AfterMux (dpmDfpEnterModeMsg cfg env s).2.trace := by
  unfold dpmDfpEnterModeMsg
  by_cases hchipset : (!env.chipsetOn) = true
  · rw [if_pos hchipset]
    exact hs
  rw [if_neg hchipset]
  by_cases hdisc : (!env.svidsComplete || !env.modesComplete) = true
  · rw [if_pos hdisc]
    exact hs
  rw [if_neg hdisc]
  by_cases hentered : modeEntryIsDone cfg s = true
  · rw [if_pos hentered]
    exact hs
  rw [if_neg hentered]
  by_cases hreset :
      (cfg.requireApModeEntry && cfg.dataResetMsg && enterAny s && !s.dataResetDone) = true
  · rw [if_pos hreset]
    exact hs
  rw [if_neg hreset]
  have hentry : ReachesEntry cfg env s := by
    simp only [Bool.not_eq_true, Bool.or_eq_false_iff, Bool.not_eq_false'] at hchipset hdisc
    exact ⟨hexit, hdone, hchipset, hdisc.1, hdisc.2, Bool.eq_false_iff.mpr hentered,
      Bool.eq_false_iff.mpr hreset⟩
  by_cases husb4 : entersUsb4 cfg env s = true
  · rw [if_pos husb4]
    by_cases hcable : tbtCableEntryRequiredForUsb4 env s = true
    · rw [if_pos hcable]
      refine sequenced_finishEnterMode (setUp_cableEntry hs hset
        (Bool.eq_false_iff.mpr hentered) fun henters hstate => ?_)
      exact hok ⟨hentry, husb4, hcable, henters, hstate⟩
    · rw [if_neg hcable]
      exact hs
  · rw [if_neg husb4]
    exact sequenced_finishEnterMode
      (setUp_setupEnterVdm (setUp_keep hs hset _ rfl) fun _ => hset)

/-! ## Mode exit -/

theorem cmd_tbtSetupNextVdm (h : (tbtSetupNextVdm cfg env s).1 = .success v) :
    v.cmd = cmdExitMode ∨ ExitsEnteringCable s ∨ s.tbtState = .enterSop := by
  unfold tbtSetupNextVdm at h
  cases hstate : s.tbtState with
  | start =>
    rw [hstate] at h
    by_cases hsupported : tbtModeIsSupported env = true
    · simp [hsupported] at h
    · simp [hsupported] at h
  | enterSop => exact .inr (.inr rfl)
  | enterSopPrime => exact .inr (.inl (.inl hstate))
  | enterSopPrimePrime => exact .inr (.inl (.inr hstate))
  | active | prepareExitMode | inactive => simp [hstate] at h
  | exitSop | exitSopPrime | exitSopPrimePrime =>
    simp only [hstate, MsgSetup.success.injEq] at h
    exact .inl (h ▸ rfl)

theorem cmd_dpSetupNextVdm (hactive : dpIsActive cfg s = true)
    (h : (dpSetupNextVdm cfg env s).1 = .success v) : v.cmd = cmdExitMode := by
  have hmode : cfg.dpMode = true ∧ (s.dpState = .active ∨ s.dpState = .prepareExit) := by
    simpa [dpIsActive] using hactive
  rcases hmode with ⟨hmode, hstate | hstate⟩
  · simp [dpSetupNextVdm, hmode, hstate, dpSetupExit] at h
  · simp [dpSetupNextVdm, hmode, hstate] at h
    subst h
    rfl

theorem tbtState_tbtExitModeRequest (env : Env) (h : ¬ ExitsEnteringCable s) :
    ¬ ExitsEnteringCable (tbtExitModeRequest env s) ∧
      (tbtExitModeRequest env s).tbtState ≠ .enterSop ∧
      (s.tbtState ≠ .enterSop → (tbtExitModeRequest env s).tbtState = s.tbtState) := by
  unfold tbtExitModeRequest ExitsEnteringCable
  by_cases hstate : s.tbtState = .enterSop
  · simp only [if_pos hstate]
    cases tbtSopPrimePrimeNeeded env with
    | _ => simp [hstate]
  · simp only [if_neg hstate]
    exact ⟨h, hstate, fun _ => trivial⟩

theorem trace_tbtExitModeRequest : (tbtExitModeRequest env s).trace = s.trace := by
  unfold tbtExitModeRequest
  by_cases hstate : s.tbtState = .enterSop
  · simp only [if_pos hstate]
  · simp only [if_neg hstate]

/-- The exit of Thunderbolt waits for the mux from the two states before the exit, and is set up in
the others. -/
theorem setUp_tbtExit (hs : Sequenced AfterMux s.trace)
    (hset : settled s.trace = true ∨ s.tbtState = .active ∨ s.tbtState = .prepareExitMode) :
    SetUp (tbtSetupNextVdm cfg env s) := by
  rcases hset with hset | hactive | hprepare
  · exact setUp_tbtSetupNextVdm hs hset
  · simp only [tbtSetupNextVdm, hactive]
    exact setUp_safeAndWait
      (t := { s with tbtState := .active, tbtRetryDone := true, tbtSafe := true }) hs
      .safeModeExit rfl rfl
  · simp only [tbtSetupNextVdm, hprepare]
    exact setUp_safeAndWait (t := { s with tbtSafe := true, tbtState := .prepareExitMode }) hs
      .safeModeExit rfl rfl

structure SetUpExit (r : MsgSetup × Port) : Prop extends SetUp r where
  cmd : ∀ v, r.1 = .success v → v.cmd ≠ cmdEnterMode

theorem cmdExitMode_ne : cmdExitMode ≠ cmdEnterMode := by
  decide

theorem setUpExit_of_some {r : MsgSetup × Port} (hs : Sequenced AfterMux s.trace)
    (hset : settled s.trace = true ∨
      cfg.tbtCompatMode = true ∧ (s.tbtState = .active ∨ s.tbtState = .prepareExitMode))
    (hcable : cfg.tbtCompatMode = true → ¬ ExitsEnteringCable s)
    (hr : setupExitVdm cfg env s = some r) : SetUpExit r := by
  unfold setupExitVdm at hr
  by_cases htbt : (cfg.tbtCompatMode && tbtIsActive s) = true
  · rw [if_pos htbt, Option.some.injEq] at hr
    obtain ⟨hcompat, -⟩ := Bool.and_eq_true_iff.mp htbt
    obtain ⟨hkeep, hsop, hstate⟩ :=
      tbtState_tbtExitModeRequest env (hcable hcompat)
    subst hr
    refine ⟨setUp_tbtExit (by rwa [trace_tbtExitModeRequest]) ?_, fun v hv => ?_⟩
    · rw [trace_tbtExitModeRequest]
      rcases hset with hset | ⟨-, hactive | hprepare⟩
      · exact .inl hset
      · exact .inr (.inl (hstate (by simp [hactive]) ▸ hactive))
      · exact .inr (.inr (hstate (by simp [hprepare]) ▸ hprepare))
    · rcases cmd_tbtSetupNextVdm hv with hcmd | hentering | henter
      · exact hcmd ▸ cmdExitMode_ne
      · exact absurd hentering hkeep
      · exact absurd henter hsop
  · rw [if_neg htbt] at hr
    by_cases hdp : dpIsActive cfg s = true
    · rw [if_pos hdp, Option.some.injEq] at hr
      subst hr
      refine ⟨setUp_dpSetupNextVdm hs ?_, fun v hv => cmd_dpSetupNextVdm hdp hv ▸ cmdExitMode_ne⟩
      rcases hset with hset | ⟨hcompat, hstate⟩
      · exact hset
      · rcases hstate with hstate | hstate
        · simp [hcompat, tbtIsActive, hstate] at htbt
        · simp [hcompat, tbtIsActive, hstate] at htbt
    · rw [if_neg hdp] at hr
      cases hr

theorem sequenced_ssMuxSet (m : MuxRequest) (hs : Sequenced AfterMux s.trace) :
    Sequenced AfterMux (s.ssMuxSet cfg m).trace := by
  rcases trace_ssMuxSet cfg (s := s) m with hmux | hmux
  · rwa [hmux]
  · rw [hmux]
    exact hs.cons (by simp [Output.IsVdm])

theorem usb4ExitModeRequest_spec (cfg : Config) (hs : Sequenced AfterMux s.trace)
    (hset : settled s.trace = true) :
    Sequenced AfterMux (usb4ExitModeRequest cfg s).trace ∧
      (tbtIsActive s = false → settled (usb4ExitModeRequest cfg s).trace = true) ∧
      (usb4ExitModeRequest cfg s).tbtState = s.tbtState := by
  have hkeep (t : Port) : tbtIsActive (t.ssMuxSet cfg .safeModeExit) = tbtIsActive t := by
    simp only [tbtIsActive, Port.ssMuxSet_eq]
  have hsafe : Sequenced AfterMux
      (Port.ssMuxSet cfg .safeModeExit { s with usb4State := .start }).trace :=
    sequenced_ssMuxSet _ hs
  unfold usb4ExitModeRequest
  simp only [hkeep]
  by_cases hactive : tbtIsActive { s with usb4State := .start } = true
  · rw [if_pos hactive]
    refine ⟨hsafe, fun h => ?_, by simp only [Port.ssMuxSet_eq]⟩
    exact absurd (hactive.symm.trans h) (by decide)
  · rw [if_neg hactive]
    refine ⟨sequenced_ssMuxSet _ hsafe, fun _ => ?_, by simp only [Port.ssMuxSet_eq]⟩
    by_cases hmux : cfg.usbcSsMux = true
    · simp [Port.ssMuxSet, hmux, Port.usbMuxSet, settled, MuxRequest.IsSafe]
    · simpa [Port.ssMuxSet, hmux] using hset

theorem sequenced_exitModeMsg (hs : Sequenced AfterMux s.trace) (hset : settled s.trace = true)
    (hexit : s.exitRequest = true)
    (hok : ¬ (ReachesExit cfg s ∧ cfg.tbtCompatMode = true ∧
      (ExitsEnteringCable s ∨ ExitsUsb4AndTbt cfg s))) :
    Sequenced AfterMux (dpmDfpExitModeMsg cfg env s).2.trace := by
  unfold dpmDfpExitModeMsg
  by_cases hreset : (cfg.dataResetMsg && !s.dataResetDone) = true
  · rw [if_pos hreset]
    exact hs
  rw [if_neg hreset]
  have hreach : ReachesExit cfg s := ⟨hexit, Bool.eq_false_iff.mpr hreset⟩
  have hcable : cfg.tbtCompatMode = true → ¬ ExitsEnteringCable s :=
    fun hcompat h => hok ⟨hreach, hcompat, .inl h⟩
  -- what the exit from USB4 leaves
  have husb4 : ∃ t, (if cfg.usb4 && enterUsbEntryIsDone s then usb4ExitModeRequest cfg s else s) = t ∧
      Sequenced AfterMux t.trace ∧ t.tbtState = s.tbtState ∧
      (settled t.trace = true ∨
        cfg.tbtCompatMode = true ∧ (t.tbtState = .active ∨ t.tbtState = .prepareExitMode)) := by
    refine ⟨_, rfl, ?_⟩
    by_cases hdone : (cfg.usb4 && enterUsbEntryIsDone s) = true
    · rw [if_pos hdone]
      obtain ⟨husb4, hentry⟩ := Bool.and_eq_true_iff.mp hdone
      obtain ⟨hseq, hsettled, hstate⟩ := usb4ExitModeRequest_spec cfg hs hset
      have hcompat := cfg.usb4_links husb4
      refine ⟨hseq, hstate, ?_⟩
      rw [hstate]
      have hentering := hcable hcompat
      have hboth : ¬ ExitsUsb4AndTbt cfg s := fun h => hok ⟨hreach, hcompat, .inr h⟩
      cases htbt : s.tbtState with
      | active => exact .inr ⟨hcompat, .inl rfl⟩
      | prepareExitMode => exact .inr ⟨hcompat, .inr rfl⟩
      | start | inactive => exact .inl (hsettled (by simp [tbtIsActive, htbt]))
      | enterSopPrime | enterSopPrimePrime => simp [ExitsEnteringCable, htbt] at hentering
      | enterSop | exitSop | exitSopPrime | exitSopPrimePrime =>
        simp [ExitsUsb4AndTbt, husb4, hentry, htbt] at hboth
    · rw [if_neg hdone]
      exact ⟨hs, rfl, .inl hset⟩
  obtain ⟨t, ht, hseq, hstate, hsettled⟩ := husb4
  simp only [ht]
  have hentering : cfg.tbtCompatMode = true → ¬ ExitsEnteringCable t := by
    unfold ExitsEnteringCable
    rw [hstate]
    exact hcable
  clear ht
  cases hr : setupExitVdm cfg env t with
  | none => exact hseq
  | some r =>
    have hsetup := setUpExit_of_some hseq hsettled hentering hr
    obtain ⟨m, t'⟩ := r
    cases m with
    | success vdm =>
      simp only
      by_cases hcan : CanSetupVdm vdm.count
      · rw [if_pos hcan]
        exact sequenced_sendModeVdm hsetup.sequenced (hsetup.after vdm rfl)
          fun _ => hsetup.cmd vdm rfl
      · rw [if_neg hcan]
        exact hsetup.sequenced
    | _ => exact hsetup.sequenced

/-! ## Runs of the DPM -/

theorem quiet_setStateDpm (new : DpmState) : Quiet s (setStateDpm new s) := by
  cases new with
  | dataReset => exact .of_emit (o := .request .dataReset) rfl (by simp [Output.IsVdm])
  | _ => exact .of_trace_eq rfl

theorem quiet_dpmSendReqVdm : Quiet s (dpmSendReqVdm s) := by
  unfold dpmSendReqVdm
  have hsent : Quiet s (if CanSetupVdm s.vdmReqCnt then (s.emit .reqVdm).emit (.request .vdm) else s)
      := by
    by_cases hcan : CanSetupVdm s.vdmReqCnt
    · rw [if_pos hcan]
      exact ⟨[.request .vdm, .reqVdm], rfl, by simp [Output.IsVdm]⟩
    · rw [if_neg hcan]
      exact .of_trace_eq rfl
  generalize (if CanSetupVdm s.vdmReqCnt then (s.emit .reqVdm).emit (.request .vdm) else s) = t
    at hsent
  simp only
  split
  · exact hsent.trans (.of_trace_eq rfl)
  · exact hsent

theorem quiet_dpmReadyRest : Quiet s (dpmReadyRest s) := by
  unfold dpmReadyRest dpmVconnSwapPolicy
  by_cases hswap : s.vconnSwap = true
  · simp only [if_pos hswap]
    exact .of_emit (o := .request .vconnSwap) rfl (by simp [Output.IsVdm])
  · simp only [if_neg hswap, Bool.false_eq_true, if_false]
    split
    · exact quiet_dpmSendReqVdm.trans (quiet_setStateDpm _)
    · exact .of_trace_eq rfl

theorem sequenced_dfpModeMsg (hs : Sequenced AfterMux s.trace) (hset : settled s.trace = true)
    (hok : ¬ OutOfSequence cfg env s) : Sequenced AfterMux (dpmDfpModeMsg cfg env s).2.trace := by
  unfold dpmDfpModeMsg
  by_cases hexit : s.exitRequest = true
  · rw [if_pos hexit]
    exact sequenced_exitModeMsg hs hset hexit fun h => hok (.inr h)
  rw [if_neg hexit]
  by_cases hdone : (!s.modeEntryDone) = true
  · rw [if_pos hdone]
    exact sequenced_enterModeMsg hs hset (Bool.eq_false_iff.mpr hexit) (by simpa using hdone)
      fun h => hok (.inl h)
  · rw [if_neg hdone]
    exact hs

theorem sequenced_dfpReadyRun {muxCompleted : Bool} (hs : Sequenced AfterMux s.trace)
    (hok : s.peReady = true → (cfg.usbcSsMux = true → muxCompleted = true) →
      ¬ OutOfSequence cfg env s) :
    Sequenced AfterMux (dpmDfpReadyRun cfg env muxCompleted s).trace := by
  unfold dpmDfpReadyRun
  by_cases hready : (!s.peReady) = true
  · rw [if_pos hready]
    exact hs
  rw [if_neg hready]
  by_cases hmux : (cfg.usbcSsMux && !muxCompleted) = true
  · rw [if_pos hmux]
    exact hs
  rw [if_neg hmux]
  have hmsg : Sequenced AfterMux (dpmDfpModeMsg cfg env (s.emit .muxCompleted)).2.trace :=
    sequenced_dfpModeMsg (s := s.emit .muxCompleted) hs rfl
      (hok (by simpa using hready) (by simpa using hmux))
  simp only
  split
  · exact hmsg
  · exact quiet_dpmReadyRest.sequenced hmsg

theorem sequenced_dpmRun {en muxCompleted : Bool} (hs : Sequenced AfterMux s.trace)
    (hok : ReadyRun cfg en muxCompleted s → ¬ OutOfSequence cfg env s) :
    Sequenced AfterMux (dpmRun cfg env en muxCompleted s).trace := by
  have hwaiting (t : Port) (ht : Sequenced AfterMux t.trace) :
      Sequenced AfterMux (dpmWaitingRun env t).trace := by
    unfold dpmWaitingRun
    by_cases hready : t.peReady = true
    · rw [if_pos hready]
      cases env.dataRole with
      | _ => exact ht
    · rwa [if_neg hready]
  have hinit : Sequenced AfterMux (dpmWaitingRun env { dpmInit s with localState := .run }).trace :=
    hwaiting _ hs
  unfold dpmRun
  cases hlocal : s.localState with
  | init =>
    cases en with
    | true => exact hinit
    | false => exact hs
  | paused =>
    cases en with
    | true => exact hinit
    | false => exact hs
  | run =>
    cases hen : en with
    | false => exact hs
    | true =>
      simp only [if_true, dpmRunState]
      cases hstate : s.dpmState with
      | waiting => exact hwaiting s hs
      | dfpReady =>
        exact sequenced_dfpReadyRun hs fun hready hmux =>
          hok ⟨hlocal, hen, hstate, hready, hmux⟩
      | ufpReady =>
        simp only [dpmUfpReadyRun]
        split_ifs
        · exact hs
        · exact hs
        · exact quiet_dpmReadyRest.sequenced hs
      | dataReset =>
        simp only
        split
        · exact hs
        · exact hs

/-! ## The other steps -/

theorem quiet_usbMuxSet (m : MuxRequest) : Quiet s (s.usbMuxSet m) :=
  .of_emit (o := .mux m) rfl (by simp [Output.IsVdm])

theorem quiet_ssMuxSet (cfg : Config) (m : MuxRequest) : Quiet s (s.ssMuxSet cfg m) := by
  unfold Port.ssMuxSet
  split
  · exact quiet_usbMuxSet m
  · exact .of_trace_eq rfl

theorem quiet_dpEntryFailed : Quiet s (dpEntryFailed s) :=
  .of_emit (o := .ended .dp s.dpSafe) rfl (by simp [Output.IsVdm])

theorem quiet_dpExitToUsbMode : Quiet s (dpExitToUsbMode cfg s) := by
  have hmux : Quiet s (Port.ssMuxSet cfg .currentDataRole
      { svdmExitDpMode s with modalOperation := false }) :=
    (quiet_ssMuxSet _ _).of_start rfl
  exact hmux.trans (.of_emit (o := .ended .dp _) rfl (by simp [Output.IsVdm]))

theorem quiet_tbtExitDone : Quiet s (tbtExitDone cfg s) :=
  .of_emit (o := .ended .tbt s.tbtSafe) rfl (by simp [Output.IsVdm])

theorem trace_dpHpdGpioSet {level irq : Bool} :
    ((dpHpdGpioSet level irq s).getD s).trace = s.trace := by
  unfold dpHpdGpioSet
  split
  · rfl
  · rfl

theorem trace_dfpConsumeAttention {header status : UInt32} :
    (dfpConsumeAttention cfg header status s).trace = s.trace := by
  unfold dfpConsumeAttention svdmDpAttention
  split
  · simp only
    split_ifs
    · rfl
    · rfl
    · exact trace_dpHpdGpioSet (s := { s with dpStatus := status })
  · rfl

theorem quiet_svdmDpPostConfig : Quiet s (svdmDpPostConfig env s) := by
  unfold svdmDpPostConfig
  have hmux := quiet_usbMuxSet (s := s) (svdmDpGetMuxMode env s)
  simp only
  split
  · exact hmux.trans (.of_trace_eq trace_dpHpdGpioSet)
  · exact hmux.trans (.of_trace_eq rfl)

theorem quiet_dpVdmAcked {txType : SopType} {header status : UInt32} :
    Quiet s (dpVdmAcked cfg env txType header status s) := by
  unfold dpVdmAcked
  by_cases hmode : (!cfg.dpMode) = true
  · rw [if_pos hmode]
    exact .of_trace_eq rfl
  rw [if_neg hmode]
  by_cases hvalid : DpResponseValid txType (pdVdoCmd header) s
  · rw [if_pos hvalid]
    cases s.dpState with
    | start | enterRetry | inactive => exact .of_trace_eq rfl
    | enterAcked => exact .of_trace_eq trace_dfpConsumeAttention
    | prepareConfig => exact quiet_svdmDpPostConfig.trans (.of_trace_eq rfl)
    | prepareExit =>
      simp only
      split
      · exact .of_trace_eq rfl
      · exact quiet_dpExitToUsbMode
    | enterNaked | statusAcked | active => exact quiet_dpEntryFailed
  · rw [if_neg hvalid]
    exact quiet_dpEntryFailed

theorem quiet_dpVdmNaked {txType : SopType} {cmd : UInt32} :
    Quiet s (dpVdmNaked cfg txType cmd s) := by
  unfold dpVdmNaked
  by_cases hmode : (!cfg.dpMode) = true
  · rw [if_pos hmode]
    exact .of_trace_eq rfl
  rw [if_neg hmode]
  by_cases hvalid : DpResponseValid txType cmd s
  · rw [if_pos hvalid]
    cases s.dpState with
    | start => exact .of_trace_eq rfl
    | prepareExit => exact quiet_dpExitToUsbMode
    | _ => exact quiet_dpEntryFailed
  · rw [if_neg hvalid]
    exact quiet_dpEntryFailed

theorem quiet_tbtExitOrRetry : Quiet s (tbtExitOrRetry cfg s) := by
  unfold tbtExitOrRetry
  split
  · exact quiet_tbtExitDone
  · exact .of_trace_eq rfl

theorem quiet_tbtExitSopAnswered : Quiet s (tbtExitSopAnswered cfg env s) := by
  unfold tbtExitSopAnswered
  split
  · exact .of_trace_eq rfl
  split
  · exact .of_trace_eq rfl
  · exact (quiet_ssMuxSet _ _).trans quiet_tbtExitOrRetry

theorem quiet_intelVdmAcked {txType : SopType} {header : UInt32} :
    Quiet s (intelVdmAcked cfg env txType header s) := by
  unfold intelVdmAcked
  by_cases hvalid : TbtResponseValid env txType (pdVdoCmd header) s
  · rw [if_pos hvalid]
    cases s.tbtState with
    | enterSopPrime =>
      simp only
      split
      · exact .of_trace_eq rfl
      · exact .of_trace_eq rfl
    | enterSop => exact (quiet_ssMuxSet cfg .tbtCompatEnabled).trans (.of_trace_eq rfl)
    | exitSop => exact quiet_tbtExitSopAnswered.of_start rfl
    | exitSopPrime =>
      simp only
      split
      · exact quiet_tbtExitDone.trans (quiet_ssMuxSet _ _)
      · exact .of_trace_eq rfl
    | enterSopPrimePrime | exitSopPrimePrime | inactive => exact .of_trace_eq rfl
    | start | active | prepareExitMode => exact quiet_tbtExitDone
  · rw [if_neg hvalid]
    exact quiet_tbtExitDone

theorem quiet_intelVdmNaked {txType : SopType} {cmd : UInt32} :
    Quiet s (intelVdmNaked cfg env txType cmd s) := by
  unfold intelVdmNaked
  by_cases hvalid : TbtResponseValid env txType cmd s
  · rw [if_pos hvalid]
    cases s.tbtState with
    | enterSopPrime | enterSopPrimePrime | enterSop | exitSopPrimePrime => exact .of_trace_eq rfl
    | exitSop => exact quiet_tbtExitSopAnswered
    | exitSopPrime => exact (quiet_ssMuxSet _ _).trans quiet_tbtExitOrRetry
    | start | active | prepareExitMode | inactive => exact quiet_tbtExitDone
  · rw [if_neg hvalid]
    exact quiet_tbtExitDone

theorem quiet_enterUsbFailed : Quiet s (enterUsbFailed s) :=
  .of_emit (o := .mux .usbEnabled) rfl (by simp [Output.IsVdm])

theorem quiet_enterUsbAccepted {txType : SopType} : Quiet s (enterUsbAccepted env txType s) := by
  unfold enterUsbAccepted
  by_cases hvalid : EnterUsbResponseValid env txType
  · rw [if_pos hvalid]
    cases s.usb4State with
    | enterSopPrime | enterSopPrimePrime | active => exact .of_trace_eq rfl
    | enterSop => exact .of_emit (o := .mux .usb4Enabled) rfl (by simp [Output.IsVdm])
    | _ => exact quiet_enterUsbFailed
  · rw [if_neg hvalid]
    exact quiet_enterUsbFailed

theorem quiet_enterUsbRejected {txType : SopType} : Quiet s (enterUsbRejected env txType s) := by
  unfold enterUsbRejected
  split_ifs
  · exact .of_trace_eq rfl
  · exact quiet_enterUsbFailed
  · exact quiet_enterUsbFailed

theorem quiet_peEnterUsbEntry : Quiet s (peEnterUsbEntry cfg env s) := by
  have hnext : Quiet s (enterUsbSetupNextMsg cfg env s).2 := by
    unfold enterUsbSetupNextMsg
    cases s.usb4State with
    | start => exact (quiet_ssMuxSet cfg .safeMode).trans (.of_trace_eq rfl)
    | _ => exact .of_trace_eq rfl
  unfold peEnterUsbEntry
  by_cases hdone : (!cfg.usb4 || enterUsbEntryIsDone s) = true
  · rw [if_pos hdone]
    exact .of_trace_eq rfl
  · rw [if_neg hdone]
    simp only
    split
    · exact hnext
    · exact hnext.trans quiet_enterUsbFailed

theorem trace_pdRequestEnterMode (mode : TypecMode) :
    (pdRequestEnterMode cfg mode s).trace = s.trace := by
  unfold pdRequestEnterMode
  simp only [dpInit]
  by_cases hany : enterAny s = true
  · rw [if_pos hany]
  rw [if_neg hany]
  cases mode with
  | _ =>
    simp only
    split_ifs <;> rfl

theorem trace_pdDfpModeInit : (pdDfpModeInit cfg s).trace = s.trace := by
  unfold pdDfpModeInit dpInit
  simp only
  split_ifs <;> rfl

theorem trace_pdDfpExitMode : (pdDfpExitMode cfg s).trace = s.trace := by
  unfold pdDfpExitMode
  rw [trace_pdDfpModeInit]
  split
  · rfl
  · rfl

theorem trace_pdRequestVdm {header : UInt32} {count : Nat} :
    (pdRequestVdm header count s).trace = s.trace := by
  unfold pdRequestVdm
  split_ifs <;> rfl

theorem quiet_dpmVdmAcked {txType : SopType} {header vdo : UInt32} :
    Quiet s (dpmVdmAcked cfg env txType header vdo s) := by
  unfold dpmVdmAcked
  split_ifs
  · exact quiet_dpVdmAcked
  · exact quiet_intelVdmAcked
  · exact .of_trace_eq rfl

theorem quiet_dpmVdmNaked {txType : SopType} {svid cmd : UInt32} :
    Quiet s (dpmVdmNaked cfg env txType svid cmd s) := by
  unfold dpmVdmNaked
  split_ifs
  · exact quiet_dpVdmNaked
  · exact quiet_intelVdmNaked
  · exact .of_trace_eq rfl

theorem sequenced_step {e : Event} (hs : Sequenced AfterMux s.trace) (hok : InSequence cfg s e) :
    Sequenced AfterMux (step cfg s e).trace := by
  cases e with
  | dpmRun env en muxCompleted => exact sequenced_dpmRun hs hok
  | requestEnterMode mode => exact (Quiet.of_trace_eq (trace_pdRequestEnterMode mode)).sequenced hs
  | requestVdm header count => exact (Quiet.of_trace_eq trace_pdRequestVdm).sequenced hs
  | vdmAcked env txType header vdo => exact quiet_dpmVdmAcked.sequenced hs
  | vdmNaked env txType svid cmd => exact quiet_dpmVdmNaked.sequenced hs
  | attention header vdo => exact (Quiet.of_trace_eq trace_dfpConsumeAttention).sequenced hs
  | enterUsb env => exact quiet_peEnterUsbEntry.sequenced hs
  | enterUsbAccepted env txType => exact quiet_enterUsbAccepted.sequenced hs
  | enterUsbRejected env txType => exact quiet_enterUsbRejected.sequenced hs
  | enterUsbTimeout => exact quiet_enterUsbFailed.sequenced hs
  | dfpModeInit => exact (Quiet.of_trace_eq trace_pdDfpModeInit).sequenced hs
  | dfpExitMode => exact (Quiet.of_trace_eq trace_pdDfpExitMode).sequenced hs
  | performDataReset =>
    exact ((quiet_usbMuxSet .none).trans (.of_trace_eq trace_pdDfpExitMode)).sequenced hs
  | dataRoleChanged => exact (quiet_ssMuxSet _ _).sequenced hs
  | setPeReady enable => exact hs
  | setModeExitRequest | requestVconnSwap | dpmInit | dataResetComplete => exact hs

end Steps

/-- Mode VDMs are sequenced after the mux: every VDM of a mode module comes in a run of the DPM that
began with the mux completed and has not asked for the safe state since, but for the DisplayPort
Enter Mode, which follows its own request; and no exit sends an Enter Mode. -/
theorem sequenced_of_reach (cfg : Config) {s : Port}
    (h : Lib.Reach (step cfg) (InSequence cfg) Port.boot s) : Sequenced AfterMux s.trace :=
  have hboot : Sequenced AfterMux Port.boot.trace := trivial
  Lib.Reach.invariant (I := fun s : Port => Sequenced AfterMux s.trace) hboot
    (fun _ _ hs hok => sequenced_step hs hok) h

def enterDpEvents : List Event :=
  [.dpmRun .dpSink true true, .setPeReady true, .dpmRun .dpSink true true,
    .dpmRun .dpSink true true]

theorem sequenced_of_reach_enterDp :
    Sequenced AfterMux (enterDpEvents.foldl (step .allModes) Port.boot).trace :=
  sequenced_of_reach .allModes (Lib.Reach.start.allowed (by decide +kernel))

/-- The DisplayPort Enter Mode goes out in the run that asks for its safe state. -/
theorem enterDp_not_strict :
    ¬ ∀ s, Lib.Reach (step .allModes) (InSequence .allModes) Port.boot s →
      Sequenced AfterMuxStrict s.trace := by
  intro hall
  have hreach : Lib.Reach (step .allModes) (InSequence .allModes) Port.boot
      (enterDpEvents.foldl (step .allModes) Port.boot) :=
    Lib.Reach.start.allowed (by decide +kernel)
  exact absurd (hall _ hreach) (by decide +kernel)

end ChromiumEc.Usbc.Altmode
