import ChromiumEc.Lib.Reach
import ChromiumEc.Usbc.Altmode.Run

/-!
# Restore — what is left when a mode entry ends

When a module ends an attempt for which it has requested the safe state, the mux should be out of
the safe state again, and the flag for modal operation should stand for a mode that is entered.
-/

namespace ChromiumEc.Usbc.Altmode

/-- DisplayPort: Enter Mode is acknowledged, and neither an exit nor a failure has ended the mode. -/
def DpEntered (s : Port) : Prop :=
  s.dpState = .enterAcked ∨ s.dpState = .statusAcked ∨ s.dpState = .prepareConfig ∨
    s.dpState = .active ∨ (s.dpState = .prepareExit ∧ s.dpRetry = false)

/-- Thunderbolt: Enter Mode to SOP is acknowledged, and its Exit Mode is not answered. -/
def TbtEntered (s : Port) : Prop :=
  s.tbtState = .active ∨ s.tbtState = .exitSop

/-- A step that ends an attempt with the safe state leaves the port as it should. -/
structure Restores (s s' : Port) : Prop where
  mux : ∀ m, .ended m true ∈ newOutputs s s' → ¬ s'.mux.IsSafe
  flag : ∀ m, .ended m true ∈ newOutputs s s' → s'.modalOperation = true →
    DpEntered s' ∨ TbtEntered s'

/-! ## Where a module gives up at once -/

/-- The ACK makes `dp_entry_failed` run. -/
def DpAckFails (txType : SopType) (cmd : UInt32) (s : Port) : Prop :=
  ¬ DpResponseValid txType cmd s ∨ s.dpState = .enterNaked ∨ s.dpState = .statusAcked ∨
    s.dpState = .active

/-- The NAK makes `dp_entry_failed` run. -/
def DpNakFails (txType : SopType) (cmd : UInt32) (s : Port) : Prop :=
  ¬ DpResponseValid txType cmd s ∨ (s.dpState ≠ .start ∧ s.dpState ≠ .prepareExit)

/-- The ACK makes `tbt_exit_done` run without the end of an exit. -/
def TbtAckFails (env : Env) (txType : SopType) (cmd : UInt32) (s : Port) : Prop :=
  ¬ TbtResponseValid env txType cmd s ∨ s.tbtState = .start ∨ s.tbtState = .active ∨
    s.tbtState = .prepareExitMode

/-- The NAK makes `tbt_exit_done` run without the end of an exit. -/
def TbtNakFails (env : Env) (txType : SopType) (cmd : UInt32) (s : Port) : Prop :=
  ¬ TbtResponseValid env txType cmd s ∨ s.tbtState = .start ∨ s.tbtState = .active ∨
    s.tbtState = .prepareExitMode ∨ s.tbtState = .inactive

/-- Nothing needs to be undone when DisplayPort gives up: its attempt has not left the mux in the
safe state, and the flag is not its own. -/
def DpClean (s : Port) : Prop :=
  (s.dpSafe = true → ¬ s.mux.IsSafe) ∧ (s.modalOperation = true → TbtEntered s)

def TbtClean (s : Port) : Prop :=
  (s.tbtSafe = true → ¬ s.mux.IsSafe) ∧ (s.modalOperation = true → DpEntered s)

/-- The steps after which nothing is left behind: a module that gives up at once has nothing to undo,
and a NAK of Thunderbolt's Exit Mode comes when the flag is not Thunderbolt's. -/
def Restorable (cfg : Config) (s : Port) : Event → Prop
  | .vdmAcked env txType header _ =>
    (pdVdoVid header = usbSidDisplayport → cfg.dpMode = true →
      DpAckFails txType (pdVdoCmd header) s → DpClean s) ∧
    (pdVdoVid header = usbVidIntel → cfg.tbtCompatMode = true →
      TbtAckFails env txType (pdVdoCmd header) s → TbtClean s)
  | .vdmNaked env txType svid cmd =>
    (svid = usbSidDisplayport → cfg.dpMode = true → DpNakFails txType cmd s → DpClean s) ∧
    (svid = usbVidIntel → cfg.tbtCompatMode = true → TbtNakFails env txType cmd s →
      TbtClean s) ∧
    (svid = usbVidIntel → cfg.tbtCompatMode = true → s.tbtState = .exitSop →
      s.modalOperation = true → DpEntered s)
  | _ => True

section Decidable

variable (cfg : Config) (env : Env) (txType : SopType) (cmd : UInt32) (s : Port)

instance : Decidable (DpEntered s) := by
  unfold DpEntered
  infer_instance

instance : Decidable (TbtEntered s) := by
  unfold TbtEntered
  infer_instance

instance : Decidable (DpAckFails txType cmd s) := by
  unfold DpAckFails
  infer_instance

instance : Decidable (DpNakFails txType cmd s) := by
  unfold DpNakFails
  infer_instance

instance : Decidable (TbtAckFails env txType cmd s) := by
  unfold TbtAckFails
  infer_instance

instance : Decidable (TbtNakFails env txType cmd s) := by
  unfold TbtNakFails
  infer_instance

instance : Decidable (DpClean s) := by
  unfold DpClean
  infer_instance

instance : Decidable (TbtClean s) := by
  unfold TbtClean
  infer_instance

instance : DecidablePred (Restorable cfg s) := by
  intro e
  cases e <;> dsimp only [Restorable] <;> infer_instance

end Decidable

/-- Between steps: the safe state is requested only in builds with the mux, the flag stands for a
mode that is entered, and a retry is remembered only for the exit before it. -/
structure Sound (cfg : Config) (s : Port) : Prop where
  mux : s.mux.IsSafe → cfg.usbcSsMux = true
  flag : s.modalOperation = true → DpEntered s ∨ TbtEntered s
  retry : s.dpRetry = true → s.dpState = .prepareExit ∨ s.dpState = .inactive

/-- A step keeps the invariant, and ends attempts with the safe state only out of it. -/
structure Ends (cfg : Config) (s s' : Port) : Prop where
  sound : Sound cfg s'
  trace : ∃ new, s'.trace = new ++ s.trace ∧ ∀ m, .ended m true ∈ new → ¬ s'.mux.IsSafe

section Steps

variable {cfg : Config} {env : Env} {s s' t : Port}

theorem Ends.restores (h : Ends cfg s s') : Restores s s' := by
  obtain ⟨new, hnew, hmux⟩ := h.trace
  have houtputs := newOutputs_eq hnew
  refine ⟨fun m hm => hmux m (houtputs ▸ hm), fun _ _ hflag => h.sound.flag hflag⟩

theorem Ends.of_trace_eq (hs : Sound cfg s') (h : s'.trace = s.trace) : Ends cfg s s' :=
  ⟨hs, [], h, by simp⟩

theorem Sound.of_eq (hs : Sound cfg s) (hmux : s'.mux = s.mux)
    (hflag : s'.modalOperation = s.modalOperation) (hdp : s'.dpState = s.dpState)
    (hretry : s'.dpRetry = s.dpRetry) (htbt : s'.tbtState = s.tbtState) : Sound cfg s' := by
  refine ⟨?_, ?_, ?_⟩
  · rw [hmux]
    exact hs.mux
  · unfold DpEntered TbtEntered
    rw [hflag, hdp, hretry, htbt]
    exact hs.flag
  · rw [hretry, hdp]
    exact hs.retry

theorem Sound.ssMuxSet (hs : Sound cfg s) (m : MuxRequest) : Sound cfg (s.ssMuxSet cfg m) := by
  rw [Port.ssMuxSet_eq]
  refine ⟨fun h => ?_, hs.flag, hs.retry⟩
  by_cases hmux : cfg.usbcSsMux = true
  · exact hmux
  · simp only [if_neg hmux] at h
    exact hs.mux h

theorem Sound.ssMuxSet_of_eq (hs : Sound cfg s) (m : MuxRequest) (hmux : t.mux = s.mux)
    (hflag : t.modalOperation = s.modalOperation) (hdp : t.dpState = s.dpState)
    (hretry : t.dpRetry = s.dpRetry) (htbt : t.tbtState = s.tbtState) :
    Sound cfg (t.ssMuxSet cfg m) :=
  (hs.of_eq hmux hflag hdp hretry htbt).ssMuxSet m

theorem Sound.not_isSafe_ssMuxSet (hs : Sound cfg s) {m : MuxRequest} (hm : ¬ m.IsSafe) :
    ¬ (s.ssMuxSet cfg m).mux.IsSafe := by
  rw [Port.ssMuxSet_eq]
  by_cases hmux : cfg.usbcSsMux = true
  · simpa only [if_pos hmux] using hm
  · simp only [if_neg hmux]
    exact fun h => hmux (hs.mux h)

/-! ## Runs of the DPM -/

theorem Sound.dpSetupExit (hs : Sound cfg { s with dpState := .prepareExit }) :
    Sound cfg (dpSetupExit cfg s).2 := by
  have hmux := hs.ssMuxSet .safeModeExit
  refine hmux.of_eq ?_ ?_ ?_ ?_ ?_
  all_goals simp only [Altmode.dpSetupExit, Port.ssMuxSet_eq]

theorem Sound.tbtSafeThen (m : MuxRequest) {new : TbtState}
    (hs : Sound cfg { s with tbtState := new }) : Sound cfg (tbtSafeThen cfg m new s) := by
  have hmux := hs.ssMuxSet m
  refine hmux.of_eq ?_ ?_ ?_ ?_ ?_
  all_goals simp only [Altmode.tbtSafeThen, Port.ssMuxSet_eq]

theorem Sound.of_tbtState (hs : Sound cfg s) {new : TbtState}
    (h : TbtEntered s → new = .active ∨ new = .exitSop) : Sound cfg { s with tbtState := new } :=
  ⟨hs.mux, fun hflag => (hs.flag hflag).imp id h, hs.retry⟩

theorem Sound.of_dpState (hs : Sound cfg s) {new : DpState}
    (h : DpEntered s → DpEntered { s with dpState := new })
    (hretry : s.dpRetry = true → new = .prepareExit ∨ new = .inactive) :
    Sound cfg { s with dpState := new } :=
  ⟨hs.mux, fun hflag => (hs.flag hflag).imp h id, hretry⟩

theorem Sound.dpRetry_eq_false (hs : Sound cfg s) (hexit : s.dpState ≠ .prepareExit)
    (hinactive : s.dpState ≠ .inactive) : s.dpRetry = false := by
  cases hretry : s.dpRetry with
  | false => rfl
  | true =>
    rcases hs.retry hretry with h | h
    · exact absurd h hexit
    · exact absurd h hinactive

theorem sound_dpSetupNextVdm (hs : Sound cfg s) : Sound cfg (dpSetupNextVdm cfg env s).2 := by
  have hconfig (h : s.dpState = .statusAcked) :
      Sound cfg { s with dpState := .prepareConfig } := by
    have hretry := hs.dpRetry_eq_false (by simp [h]) (by simp [h])
    exact hs.of_dpState (fun _ => .inr (.inr (.inl rfl))) (by simp [hretry])
  rcases dpSetupNextVdm_cases cfg env s with
    h | ⟨-, h⟩ | ⟨hstate, h⟩ | ⟨hstate, h⟩ | ⟨hstate, h⟩ | ⟨hstate, h⟩ <;> rw [h]
  · exact hs
  · exact hs.ssMuxSet_of_eq _ rfl rfl rfl rfl rfl
  · exact hconfig hstate
  · exact (hconfig hstate).ssMuxSet_of_eq _ rfl rfl rfl rfl rfl
  · -- the retry is remembered, and DisplayPort is not entered before or after
    refine Sound.dpSetupExit ⟨hs.mux, fun hflag => ?_, fun _ => .inl rfl⟩
    refine (hs.flag hflag).imp (fun h => ?_) id
    simp [DpEntered, hstate] at h
  -- an exit without a retry comes from a state in which DisplayPort is entered
  · have hretry := hs.dpRetry_eq_false (by simp [hstate]) (by simp [hstate])
    refine Sound.dpSetupExit (hs.of_dpState (fun _ => ?_) (by simp [hretry]))
    exact .inr (.inr (.inr (.inr ⟨rfl, hretry⟩)))

theorem sound_tbtSetupNextVdm (hs : Sound cfg s) : Sound cfg (tbtSetupNextVdm cfg env s).2 := by
  rcases tbtSetupNextVdm_spec cfg env s with
    h | ⟨hstate, new, -, h⟩ | ⟨-, h⟩ | ⟨-, h⟩ <;> rw [h]
  · exact hs
  · refine Sound.tbtSafeThen _ (hs.of_tbtState fun hentered => ?_)
    simp [TbtEntered, hstate] at hentered
  · exact Sound.tbtSafeThen (s := { s with tbtRetryDone := true }) _
      ((hs.of_tbtState fun _ => .inr rfl).of_eq rfl rfl rfl rfl rfl)
  · exact Sound.tbtSafeThen _ (hs.of_tbtState fun _ => .inr rfl)

theorem sound_tbtExitModeRequest (hs : Sound cfg s) : Sound cfg (tbtExitModeRequest env s) := by
  unfold tbtExitModeRequest
  by_cases hstate : s.tbtState = .enterSop
  · simp only [if_pos hstate]
    refine Sound.of_eq (hs.of_tbtState fun hentered => ?_) rfl rfl rfl rfl rfl
    simp [TbtEntered, hstate] at hentered
  · simp only [if_neg hstate]
    exact hs.of_eq rfl rfl rfl rfl rfl

theorem sound_usb4ExitModeRequest (hs : Sound cfg s) : Sound cfg (usb4ExitModeRequest cfg s) := by
  have hsafe : Sound cfg (Port.ssMuxSet cfg .safeModeExit { s with usb4State := .start }) :=
    hs.ssMuxSet_of_eq _ rfl rfl rfl rfl rfl
  unfold usb4ExitModeRequest
  simp only
  split
  · exact hsafe
  · exact hsafe.ssMuxSet _

theorem sound_runStep (env : Env) (h : RunStep cfg env s s') (hs : Sound cfg s) : Sound cfg s' := by
  cases h with
  | dpm h =>
    exact hs.of_eq (congrArg Modes.mux h.modes) (congrArg Modes.modalOperation h.modes)
      (congrArg Modes.dpState h.modes) (congrArg Modes.dpRetry h.modes)
      (congrArg Modes.tbtState h.modes)
  | dpSetup => exact sound_dpSetupNextVdm hs
  | tbtSetup => exact sound_tbtSetupNextVdm hs
  | tbtExit => exact sound_tbtExitModeRequest hs
  | usb4Exit => exact sound_usb4ExitModeRequest hs

/-! ## Answers -/

theorem Ends.of_noEnd (hs : Sound cfg s') (h : NoEnd s s') : Ends cfg s s' := by
  obtain ⟨new, hnew, hend⟩ := h.trace
  exact ⟨hs, new, hnew, fun m hm => absurd trivial (hend _ hm)⟩

theorem Ends.of_noEnd_trans (h : NoEnd s t) (h' : Ends cfg t s') : Ends cfg s s' := by
  obtain ⟨new, hnew, hend⟩ := h.trace
  obtain ⟨new', hnew', hmux⟩ := h'.trace
  refine ⟨h'.sound, new' ++ new, ?_, fun m hm => ?_⟩
  · rw [hnew', hnew, List.append_assoc]
  · rcases List.mem_append.mp hm with hm | hm
    · exact hmux m hm
    · exact absurd trivial (hend _ hm)

theorem ends_dpEntryFailed (hs : Sound cfg s) (hclean : DpClean s) :
    Ends cfg s (dpEntryFailed s) := by
  refine ⟨⟨hs.mux, fun hflag => .inr (hclean.2 hflag), by simp [dpEntryFailed, dpEnded]⟩,
    [.ended .dp s.dpSafe], rfl, fun m hm => ?_⟩
  simp only [List.mem_singleton, Output.ended.injEq] at hm
  exact hclean.1 hm.2.symm

theorem ends_dpExitToUsbMode (hs : Sound cfg s) : Ends cfg s (dpExitToUsbMode cfg s) := by
  have husb : Sound cfg { svdmExitDpMode s with modalOperation := false, dpState := .inactive } :=
    ⟨hs.mux, fun hflag => absurd hflag (by simp), fun _ => .inr rfl⟩
  have hmux : Sound cfg (Port.ssMuxSet cfg .currentDataRole
      { svdmExitDpMode s with modalOperation := false, dpState := .inactive }) :=
    husb.ssMuxSet _
  have hsafe := husb.not_isSafe_ssMuxSet (m := .currentDataRole) (by simp [MuxRequest.IsSafe])
  have hnoEnd : NoEnd s (Port.ssMuxSet cfg .currentDataRole
      { svdmExitDpMode s with modalOperation := false }) :=
    .of_ssMuxSet cfg .currentDataRole (by simp only [Port.ssMuxSet_eq, svdmExitDpMode])
  refine Ends.of_noEnd_trans hnoEnd ⟨hmux.of_eq ?_ ?_ ?_ ?_ ?_, [.ended .dp _], rfl, fun _ _ => ?_⟩
  · simp only [dpExitToUsbMode, dpEnded, Port.ssMuxSet_eq]
  · simp only [dpExitToUsbMode, dpEnded, Port.ssMuxSet_eq]
  · simp only [dpExitToUsbMode, dpEnded, Port.ssMuxSet_eq]
  · simp only [dpExitToUsbMode, dpEnded, Port.ssMuxSet_eq]
  · simp only [dpExitToUsbMode, dpEnded, Port.ssMuxSet_eq]
  · simpa only [dpExitToUsbMode, dpEnded, Port.ssMuxSet_eq] using hsafe

theorem sound_tbtExitDone (hs : Sound cfg s) (hflag : s.modalOperation = true → DpEntered s) :
    Sound cfg (tbtExitDone cfg s) :=
  ⟨hs.mux, fun h => .inl (hflag h), hs.retry⟩

theorem ends_tbtExitDone (hs : Sound cfg s) (hclean : TbtClean s) :
    Ends cfg s (tbtExitDone cfg s) := by
  refine ⟨sound_tbtExitDone hs hclean.2, [.ended .tbt s.tbtSafe], rfl, fun m hm => ?_⟩
  simp only [List.mem_singleton, Output.ended.injEq] at hm
  exact hclean.1 hm.2.symm

theorem ends_tbtExitOrRetry (hs : Sound cfg s) (hmux : ¬ s.mux.IsSafe)
    (hflag : s.modalOperation = true → DpEntered s) : Ends cfg s (tbtExitOrRetry cfg s) := by
  unfold tbtExitOrRetry
  split
  · exact ends_tbtExitDone hs ⟨fun _ => hmux, hflag⟩
  · exact .of_trace_eq ⟨hs.mux, fun h => .inl (hflag h), hs.retry⟩ rfl

theorem ends_tbtExitOrRetry_mux (hs : Sound cfg s)
    (hflag : s.modalOperation = true → DpEntered s) :
    Ends cfg s (tbtExitOrRetry cfg (s.ssMuxSet cfg .currentDataRole)) := by
  refine Ends.of_noEnd_trans (.of_ssMuxSet cfg .currentDataRole (by simp only [Port.ssMuxSet_eq]))
    (ends_tbtExitOrRetry (hs.ssMuxSet _) (hs.not_isSafe_ssMuxSet (by simp [MuxRequest.IsSafe])) ?_)
  simpa only [Port.ssMuxSet_eq, DpEntered] using hflag

theorem ends_tbtExitSopAnswered (hs : Sound cfg s)
    (hflag : s.modalOperation = true → DpEntered s) :
    Ends cfg s (tbtExitSopAnswered cfg env s) := by
  unfold tbtExitSopAnswered
  split
  · exact .of_trace_eq ⟨hs.mux, fun h => .inl (hflag h), hs.retry⟩ rfl
  split
  · exact .of_trace_eq ⟨hs.mux, fun h => .inl (hflag h), hs.retry⟩ rfl
  · exact ends_tbtExitOrRetry_mux hs hflag

theorem Sound.flag_dp (hs : Sound cfg s) (htbt : ¬ TbtEntered s)
    (hflag : s.modalOperation = true) : DpEntered s :=
  (hs.flag hflag).resolve_right htbt

theorem ends_dpVdmAcked {txType : SopType} {header status : UInt32} (hs : Sound cfg s)
    (hok : cfg.dpMode = true → DpAckFails txType (pdVdoCmd header) s → DpClean s) :
    Ends cfg s (dpVdmAcked cfg env txType header status s) := by
  unfold dpVdmAcked
  by_cases hmode : (!cfg.dpMode) = true
  · rw [if_pos hmode]
    exact .of_trace_eq hs rfl
  rw [if_neg hmode]
  have hok := hok (by simpa using hmode)
  by_cases hvalid : DpResponseValid txType (pdVdoCmd header) s
  · rw [if_pos hvalid]
    cases hstate : s.dpState with
    -- Enter Mode is accepted: from here on DisplayPort is entered
    | start | enterRetry =>
      have hretry := hs.dpRetry_eq_false (by simp [hstate]) (by simp [hstate])
      exact .of_trace_eq ⟨hs.mux, fun _ => .inl (.inl rfl), by simp [hretry]⟩ rfl
    | enterAcked =>
      have hretry := hs.dpRetry_eq_false (by simp [hstate]) (by simp [hstate])
      obtain ⟨status', pending, level, heq⟩ := dfpConsumeAttention_eq cfg header status s
      simp only [heq]
      exact .of_trace_eq ⟨hs.mux, fun h => (hs.flag h).imp (fun _ => .inr (.inl rfl)) id,
        by simp [hretry]⟩ rfl
    -- the configured mux is not the safe one, and nothing has ended
    | prepareConfig =>
      have hretry := hs.dpRetry_eq_false (by simp [hstate]) (by simp [hstate])
      obtain ⟨level, heq⟩ := svdmDpPostConfig_eq env s
      simp only [heq]
      refine .of_noEnd ⟨fun h => absurd h (not_isSafe_svdmDpGetMuxMode env s),
        fun h => (hs.flag h).imp (fun _ => .inr (.inr (.inr (.inl rfl)))) id, ?_⟩
        ⟨[.mux (svdmDpGetMuxMode env s)], rfl, by simp [Output.IsEnd]⟩
      simp [Port.usbMuxSet, hretry]
    | prepareExit =>
      simp only
      split
      · rename_i hretry
        refine .of_trace_eq ⟨hs.mux, fun h => (hs.flag h).imp (fun h => ?_) id, by simp⟩ rfl
        simp [DpEntered, hstate, hretry] at h
      · exact ends_dpExitToUsbMode hs
    | inactive => exact .of_trace_eq hs rfl
    -- these states wait for no answer, and the entry fails
    | enterNaked => exact ends_dpEntryFailed hs (hok (.inr (.inl hstate)))
    | statusAcked => exact ends_dpEntryFailed hs (hok (.inr (.inr (.inl hstate))))
    | active => exact ends_dpEntryFailed hs (hok (.inr (.inr (.inr hstate))))
  · rw [if_neg hvalid]
    exact ends_dpEntryFailed hs (hok (.inl hvalid))

theorem ends_dpVdmNaked {txType : SopType} {cmd : UInt32} (hs : Sound cfg s)
    (hok : cfg.dpMode = true → DpNakFails txType cmd s → DpClean s) :
    Ends cfg s (dpVdmNaked cfg txType cmd s) := by
  unfold dpVdmNaked
  by_cases hmode : (!cfg.dpMode) = true
  · rw [if_pos hmode]
    exact .of_trace_eq hs rfl
  rw [if_neg hmode]
  have hok := hok (by simpa using hmode)
  by_cases hvalid : DpResponseValid txType cmd s
  · rw [if_pos hvalid]
    cases hstate : s.dpState with
    | start =>
      have hretry := hs.dpRetry_eq_false (by simp [hstate]) (by simp [hstate])
      refine .of_trace_eq (hs.of_dpState (fun h => ?_) (by simp [hretry])) rfl
      simp [DpEntered, hstate] at h
    -- the partner may refuse to exit, and the mode is over all the same
    | prepareExit => exact ends_dpExitToUsbMode hs
    | _ => exact ends_dpEntryFailed hs (hok (.inr (by simp [hstate])))
  · rw [if_neg hvalid]
    exact ends_dpEntryFailed hs (hok (.inl hvalid))

theorem ends_intelVdmAcked {txType : SopType} {header : UInt32} (hs : Sound cfg s)
    (hok : TbtAckFails env txType (pdVdoCmd header) s → TbtClean s) :
    Ends cfg s (intelVdmAcked cfg env txType header s) := by
  unfold intelVdmAcked
  by_cases hvalid : TbtResponseValid env txType (pdVdoCmd header) s
  · rw [if_pos hvalid]
    have hkeep (hentered : ¬ TbtEntered s) (new : TbtState) :
        Sound cfg { s with tbtState := new } :=
      hs.of_tbtState fun h => absurd h hentered
    cases hstate : s.tbtState with
    | enterSopPrime =>
      have hentered : ¬ TbtEntered s := by simp [TbtEntered, hstate]
      simp only
      split
      · exact .of_trace_eq (hkeep hentered _) rfl
      · exact .of_trace_eq ((hkeep hentered .enterSop).of_eq rfl rfl rfl rfl rfl) rfl
    | enterSopPrimePrime =>
      have hentered : ¬ TbtEntered s := by simp [TbtEntered, hstate]
      exact .of_trace_eq ((hkeep hentered .enterSop).of_eq rfl rfl rfl rfl rfl) rfl
    -- Enter Mode is accepted by the partner: the flag and the mux are set together
    | enterSop =>
      have hmux := hs.ssMuxSet .tbtCompatEnabled
      refine .of_noEnd ⟨hmux.mux, fun _ => .inr (.inl rfl), hmux.retry⟩
        (.of_ssMuxSet cfg .tbtCompatEnabled ?_)
      simp only [setTbtCompatModeReady, Port.ssMuxSet_eq]
    -- the flag is gone before the answer is looked at
    | exitSop =>
      have hflag : Sound cfg { s with tbtState := .exitSop, modalOperation := false } :=
        ⟨hs.mux, fun h => absurd h (by simp), hs.retry⟩
      exact Ends.of_noEnd_trans
        (t := { s with tbtState := .exitSop, modalOperation := false }) (.of_trace_eq rfl)
        (ends_tbtExitSopAnswered hflag fun h => absurd h (by simp))
    | exitSopPrimePrime =>
      have hentered : ¬ TbtEntered s := by simp [TbtEntered, hstate]
      exact .of_trace_eq (hkeep hentered _) rfl
    | exitSopPrime =>
      have hentered : ¬ TbtEntered s := by simp [TbtEntered, hstate]
      simp only
      split
      · -- the mux is set after the module has ended
        have hdone := sound_tbtExitDone hs (hs.flag_dp hentered)
        have hsafe := hdone.not_isSafe_ssMuxSet (m := .currentDataRole)
          (by simp [MuxRequest.IsSafe])
        refine ⟨hdone.ssMuxSet _, ?_⟩
        rw [Port.ssMuxSet_eq] at hsafe ⊢
        by_cases hmux : cfg.usbcSsMux = true
        · exact ⟨[.mux .currentDataRole, .ended .tbt s.tbtSafe], by simp [hmux, tbtExitDone],
            fun _ _ => hsafe⟩
        · exact ⟨[.ended .tbt s.tbtSafe], by simp [hmux, tbtExitDone], fun _ _ => hsafe⟩
      · exact .of_trace_eq ((hkeep hentered .start).of_eq rfl rfl rfl rfl rfl) rfl
    | inactive => exact .of_trace_eq hs rfl
    | start => exact ends_tbtExitDone hs (hok (.inr (.inl hstate)))
    | active => exact ends_tbtExitDone hs (hok (.inr (.inr (.inl hstate))))
    | prepareExitMode => exact ends_tbtExitDone hs (hok (.inr (.inr (.inr hstate))))
  · rw [if_neg hvalid]
    exact ends_tbtExitDone hs (hok (.inl hvalid))

theorem ends_intelVdmNaked {txType : SopType} {cmd : UInt32} (hs : Sound cfg s)
    (hok : TbtNakFails env txType cmd s → TbtClean s)
    (hexit : s.tbtState = .exitSop → s.modalOperation = true → DpEntered s) :
    Ends cfg s (intelVdmNaked cfg env txType cmd s) := by
  unfold intelVdmNaked
  by_cases hvalid : TbtResponseValid env txType cmd s
  · rw [if_pos hvalid]
    have hkeep (hentered : ¬ TbtEntered s) (new : TbtState) :
        Sound cfg { s with tbtState := new } :=
      hs.of_tbtState fun h => absurd h hentered
    cases hstate : s.tbtState with
    | enterSopPrime | enterSopPrimePrime | enterSop | exitSopPrimePrime =>
      have hentered : ¬ TbtEntered s := by simp [TbtEntered, hstate]
      exact .of_trace_eq (hkeep hentered _) rfl
    -- the flag may still be set here, for DisplayPort
    | exitSop => exact ends_tbtExitSopAnswered hs (hexit hstate)
    | exitSopPrime =>
      have hentered : ¬ TbtEntered s := by simp [TbtEntered, hstate]
      exact ends_tbtExitOrRetry_mux hs (hs.flag_dp hentered)
    | start => exact ends_tbtExitDone hs (hok (.inr (.inl hstate)))
    | active => exact ends_tbtExitDone hs (hok (.inr (.inr (.inl hstate))))
    | prepareExitMode => exact ends_tbtExitDone hs (hok (.inr (.inr (.inr (.inl hstate)))))
    | inactive => exact ends_tbtExitDone hs (hok (.inr (.inr (.inr (.inr hstate)))))
  · rw [if_neg hvalid]
    exact ends_tbtExitDone hs (hok (.inl hvalid))

/-! ## The other steps -/

theorem sound_dpInit (hs : Sound cfg s) (hidle : s.modalOperation = true → DpEntered s → False) :
    Sound cfg (dpInit cfg s) := by
  unfold dpInit
  split
  · exact ⟨hs.mux, fun h => .inr ((hs.flag h).resolve_left (hidle h)), by simp⟩
  · exact hs

theorem sound_pdDfpModeInit (hs : Sound cfg s) : Sound cfg (pdDfpModeInit cfg s) := by
  have hdp : Sound cfg (dpInit cfg (dpmModeExitComplete { s with modalOperation := false })) :=
    sound_dpInit ⟨hs.mux, fun h => absurd h (by simp [dpmModeExitComplete]), hs.retry⟩
      fun h => absurd h (by simp [dpmModeExitComplete])
  have hflag : (dpInit cfg (dpmModeExitComplete { s with modalOperation := false })).modalOperation
      = false := by
    unfold dpInit
    split <;> rfl
  unfold pdDfpModeInit
  generalize dpInit cfg (dpmModeExitComplete { s with modalOperation := false }) = t at hdp hflag
  have htbt : Sound cfg (if cfg.tbtCompatMode then tbtInit t else t) := by
    split
    · exact ⟨hdp.mux, fun h => absurd (hflag.symm.trans h) (by simp), hdp.retry⟩
    · exact hdp
  simp only
  generalize (if cfg.tbtCompatMode then tbtInit t else t) = u at htbt
  split
  · exact htbt.of_eq rfl rfl rfl rfl rfl
  · exact htbt

theorem sound_pdDfpExitMode (hs : Sound cfg s) : Sound cfg (pdDfpExitMode cfg s) := by
  unfold pdDfpExitMode
  refine sound_pdDfpModeInit ?_
  split
  · exact hs.of_eq rfl rfl rfl rfl rfl
  · exact hs

theorem sound_enterUsbFailed (hs : Sound cfg s) : Sound cfg (enterUsbFailed s) :=
  ⟨by simp [enterUsbFailed, Port.usbMuxSet, MuxRequest.IsSafe], hs.flag, hs.retry⟩

theorem sound_enterUsbAccepted {txType : SopType} (hs : Sound cfg s) :
    Sound cfg (enterUsbAccepted env txType s) := by
  unfold enterUsbAccepted
  by_cases hvalid : EnterUsbResponseValid env txType
  · rw [if_pos hvalid]
    cases s.usb4State with
    | enterSop => exact ⟨by simp [Port.usbMuxSet, MuxRequest.IsSafe], hs.flag, hs.retry⟩
    | enterSopPrime | enterSopPrimePrime | active => exact hs.of_eq rfl rfl rfl rfl rfl
    | start | inactive => exact sound_enterUsbFailed hs
  · rw [if_neg hvalid]
    exact sound_enterUsbFailed hs

theorem sound_peEnterUsbEntry (hs : Sound cfg s) : Sound cfg (peEnterUsbEntry cfg env s) := by
  have hnext : Sound cfg (enterUsbSetupNextMsg cfg env s).2 := by
    unfold enterUsbSetupNextMsg
    cases s.usb4State with
    | start => exact (hs.ssMuxSet .safeMode).of_eq rfl rfl rfl rfl rfl
    | _ => exact hs
  unfold peEnterUsbEntry
  by_cases hdone : (!cfg.usb4 || enterUsbEntryIsDone s) = true
  · rw [if_pos hdone]
    exact hs
  · rw [if_neg hdone]
    simp only
    split
    · exact hnext
    · exact sound_enterUsbFailed hnext

theorem noEnd_pdDfpModeInit : NoEnd s (pdDfpModeInit cfg s) := by
  refine .of_trace_eq ?_
  unfold pdDfpModeInit dpInit
  simp only
  split_ifs <;> rfl

theorem noEnd_pdDfpExitMode : NoEnd s (pdDfpExitMode cfg s) := by
  unfold pdDfpExitMode
  refine Emits.trans ?_ noEnd_pdDfpModeInit
  split
  · exact .of_trace_eq rfl
  · exact .of_trace_eq rfl

theorem noEnd_enterUsbFailed : NoEnd s (enterUsbFailed s) :=
  ⟨[.mux .usbEnabled], rfl, by simp [Output.IsEnd]⟩

theorem noEnd_enterUsbAccepted {txType : SopType} : NoEnd s (enterUsbAccepted env txType s) := by
  unfold enterUsbAccepted
  by_cases hvalid : EnterUsbResponseValid env txType
  · rw [if_pos hvalid]
    cases s.usb4State with
    | enterSop => exact ⟨[.mux .usb4Enabled], rfl, by simp [Output.IsEnd]⟩
    | enterSopPrime | enterSopPrimePrime | active => exact .of_trace_eq rfl
    | start | inactive => exact noEnd_enterUsbFailed
  · rw [if_neg hvalid]
    exact noEnd_enterUsbFailed

theorem noEnd_peEnterUsbEntry : NoEnd s (peEnterUsbEntry cfg env s) := by
  have hnext : NoEnd s (enterUsbSetupNextMsg cfg env s).2 := by
    unfold enterUsbSetupNextMsg
    cases s.usb4State with
    | start => exact .of_ssMuxSet cfg .safeMode (by simp only [Port.ssMuxSet_eq])
    | _ => exact .of_trace_eq rfl
  unfold peEnterUsbEntry
  by_cases hdone : (!cfg.usb4 || enterUsbEntryIsDone s) = true
  · rw [if_pos hdone]
    exact .of_trace_eq rfl
  · rw [if_neg hdone]
    simp only
    split
    · exact hnext
    · exact hnext.trans noEnd_enterUsbFailed

theorem sound_pdRequestEnterMode {mode : TypecMode} (hs : Sound cfg s) :
    Sound cfg (pdRequestEnterMode cfg mode s) := by
  have hinit : Sound cfg (if dpIsIdle cfg s then dpInit cfg s else s) := by
    -- an idle DisplayPort is reset, and it was not entered
    by_cases hidle : dpIsIdle cfg s = true
    · rw [if_pos hidle]
      by_cases hmode : cfg.dpMode = true
      · refine sound_dpInit hs fun _ h => ?_
        rcases (by simpa [dpIsIdle, hmode] using hidle :
          s.dpState = .inactive ∨ s.dpState = .start) with hstate | hstate
        · simp [DpEntered, hstate] at h
        · simp [DpEntered, hstate] at h
      · rw [dpInit, if_neg hmode]
        exact hs
    · rwa [if_neg hidle]
  unfold pdRequestEnterMode
  by_cases hany : enterAny s = true
  · rw [if_pos hany]
    exact hs
  rw [if_neg hany]
  cases mode with
  | usb4 =>
    simp only
    split
    · exact hs.of_eq rfl rfl rfl rfl rfl
    · exact hs
  | dp | tbt =>
    simp only
    split
    · exact hinit.of_eq rfl rfl rfl rfl rfl
    · exact hs

theorem noEnd_pdRequestEnterMode {mode : TypecMode} : NoEnd s (pdRequestEnterMode cfg mode s) := by
  refine .of_trace_eq ?_
  unfold pdRequestEnterMode dpInit
  by_cases hany : enterAny s = true
  · rw [if_pos hany]
  rw [if_neg hany]
  cases mode with
  | _ =>
    simp only
    split_ifs <;> rfl

theorem dpmOnly_pdRequestVdm {header : UInt32} {count : Nat} :
    DpmOnly s (pdRequestVdm header count s) := by
  unfold pdRequestVdm
  split_ifs
  · exact .refl
  · exact .refl
  · exact .refl
  · exact .of_eq rfl rfl

theorem sound_of_dpmOnly (hs : Sound cfg s) (h : DpmOnly s s') : Sound cfg s' :=
  sound_runStep .plain (.dpm h) hs

theorem ends_of_dpmOnly (hs : Sound cfg s) (h : DpmOnly s s') : Ends cfg s s' :=
  .of_noEnd (sound_of_dpmOnly hs h) h.noEnd

theorem ends_step {e : Event} (hs : Sound cfg s) (hok : Restorable cfg s e) :
    Ends cfg s (step cfg s e) := by
  cases e with
  | dpmRun env en muxCompleted =>
    have hrun := runSteps_dpmRun cfg env en muxCompleted (s := s)
    exact .of_noEnd (hrun.invariant (fun _ _ => sound_runStep _) hs) hrun.noEnd
  | vdmAcked env txType header vdo =>
    obtain ⟨hdp, htbt⟩ := hok
    unfold step dpmVdmAcked
    -- the answer goes to the module of its SVID
    by_cases hvid : pdVdoVid header = usbSidDisplayport
    · simp only [if_pos hvid]
      exact ends_dpVdmAcked hs (hdp hvid)
    simp only [if_neg hvid]
    by_cases hintel : pdVdoVid header = usbVidIntel ∧ cfg.tbtCompatMode = true
    · rw [if_pos hintel]
      exact ends_intelVdmAcked hs (htbt hintel.1 hintel.2)
    · rw [if_neg hintel]
      exact .of_trace_eq hs rfl
  | vdmNaked env txType svid cmd =>
    obtain ⟨hdp, htbt, hexit⟩ := hok
    unfold step dpmVdmNaked
    by_cases hvid : svid = usbSidDisplayport
    · simp only [if_pos hvid]
      exact ends_dpVdmNaked hs (hdp hvid)
    simp only [if_neg hvid]
    by_cases hintel : svid = usbVidIntel ∧ cfg.tbtCompatMode = true
    · rw [if_pos hintel]
      exact ends_intelVdmNaked hs (htbt hintel.1 hintel.2) (hexit hintel.1 hintel.2)
    · rw [if_neg hintel]
      exact .of_trace_eq hs rfl
  | attention header vdo =>
    obtain ⟨status, pending, level, heq⟩ := dfpConsumeAttention_eq cfg header vdo s
    refine .of_trace_eq (hs.of_eq ?_ ?_ ?_ ?_ ?_) ?_
    all_goals simp only [step, heq]
  | requestEnterMode mode => exact .of_noEnd (sound_pdRequestEnterMode hs) noEnd_pdRequestEnterMode
  | requestVdm header count => exact ends_of_dpmOnly hs dpmOnly_pdRequestVdm
  | enterUsb env => exact .of_noEnd (sound_peEnterUsbEntry hs) noEnd_peEnterUsbEntry
  | enterUsbAccepted env txType =>
    exact .of_noEnd (sound_enterUsbAccepted hs) noEnd_enterUsbAccepted
  | enterUsbRejected env txType =>
    unfold step enterUsbRejected
    simp only
    split_ifs
    · exact .of_trace_eq hs rfl
    · exact .of_noEnd (sound_enterUsbFailed hs) noEnd_enterUsbFailed
    · exact .of_noEnd (sound_enterUsbFailed hs) noEnd_enterUsbFailed
  | enterUsbTimeout => exact .of_noEnd (sound_enterUsbFailed hs) noEnd_enterUsbFailed
  | dfpModeInit => exact .of_noEnd (sound_pdDfpModeInit hs) noEnd_pdDfpModeInit
  | dfpExitMode => exact .of_noEnd (sound_pdDfpExitMode hs) noEnd_pdDfpExitMode
  | performDataReset =>
    have hnone : Sound cfg (s.usbMuxSet .none) :=
      ⟨by simp [Port.usbMuxSet, MuxRequest.IsSafe], hs.flag, hs.retry⟩
    exact .of_noEnd (sound_pdDfpExitMode hnone)
      (Emits.trans ⟨[.mux .none], rfl, by simp [Output.IsEnd]⟩ noEnd_pdDfpExitMode)
  | dataRoleChanged =>
    exact .of_noEnd (hs.ssMuxSet _)
      (.of_ssMuxSet cfg .currentDataRole (by simp only [step, Port.ssMuxSet_eq]))
  | setPeReady enable => exact ends_of_dpmOnly hs (.of_eq rfl rfl)
  | setModeExitRequest | requestVconnSwap | dpmInit | dataResetComplete =>
    exact ends_of_dpmOnly hs (.of_eq rfl rfl)

end Steps

/-- In every run in which a module that gives up at once has nothing to undo, each step that ends an
attempt with the safe state leaves the mux out of it, and the flag standing for a mode that is
entered. -/
theorem restores_of_reach (cfg : Config) {s : Port} {e : Event}
    (h : Lib.Reach (step cfg) (Restorable cfg) Port.boot s) (he : Restorable cfg s e) :
    Restores s (step cfg s e) := by
  have hboot : Sound cfg Port.boot := ⟨fun h => absurd h (by decide), by decide, by decide⟩
  have hs : Sound cfg s :=
    Lib.Reach.invariant (I := Sound cfg) hboot (fun _ _ hs hok => (ends_step hs hok).sound) h
  exact (ends_step hs he).restores

/-- A DisplayPort sink NAKs Enter Mode, and the DPM asks it to leave the mode first. -/
def enterNakedEvents : List Event :=
  [.dpmRun .dpSink true true, .setPeReady true, .dpmRun .dpSink true true,
    .dpmRun .dpSink true true, .vdmNaked .dpSink .sop usbSidDisplayport cmdEnterMode,
    .setPeReady true, .dpmRun .dpSink true true, .dpmRun .dpSink true true,
    .dpmRun .dpSink true true]

def enterRetryEvents : List Event :=
  enterNakedEvents ++
    [.vdmAcked .dpSink .sop (vdoHeader usbSidDisplayport cmdExitMode cmdtRspAck) 0,
      .setPeReady true, .dpmRun .dpSink true true, .dpmRun .dpSink true true]

/-- The sink NAKs the exit, too, and the module leaves the mode. -/
theorem restores_of_reach_exitNaked :
    Restores (enterNakedEvents.foldl (step .allModes) Port.boot)
      (step .allModes (enterNakedEvents.foldl (step .allModes) Port.boot)
        (.vdmNaked .dpSink .sop usbSidDisplayport cmdExitMode)) :=
  restores_of_reach .allModes (Lib.Reach.start.allowed (by decide +kernel)) (by decide +kernel)

/-- The sink NAKs the second Enter Mode, and the mux stays in the safe state. -/
theorem enterRetry_not_restores :
    ¬ ∀ s e, Lib.Reach (step .allModes) (fun _ _ => True) Port.boot s →
      Restores s (step .allModes s e) := by
  intro hall
  have hreach : Lib.Reach (step .allModes) (fun _ _ => True) Port.boot
      (enterRetryEvents.foldl (step .allModes) Port.boot) :=
    Lib.Reach.start.allowed (Lib.allowed_of_forall (fun _ _ => trivial) _ _)
  have hmux := (hall _ (.vdmNaked .dpSink .sop usbSidDisplayport cmdEnterMode) hreach).mux .dp
    (by decide +kernel)
  exact hmux (by decide +kernel)

end ChromiumEc.Usbc.Altmode
