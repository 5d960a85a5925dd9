import ChromiumEc.Usbc.Hpd.Law

/-!
# Ec — hot plug detect under the EC's control

`dp_alt_mode.c` follows the HPD law exactly in the runs without a fault.  Each entry starts with
clear flags, but a low level before the configuration does not cancel a high one, and an entry that
follows a failure starts with the pin as it was.
-/

namespace ChromiumEc.Usbc.Hpd

open Altmode (Config Env Port DpState)

/-! ## The module's functions -/

/-- What is asked of the DisplayPort module.  Responses and Attentions are given with their header and
first VDO. -/
inductive EcEvent
  /-- `dp_setup_next_vdm` -/
  | setupNextVdm (env : Env)
  /-- `dpm_vdm_acked`, as far as it is for the module -/
  | acked (env : Env) (txType : SopType) (header vdo : UInt32)
  /-- `dp_vdm_naked` -/
  | naked (txType : SopType) (cmd : UInt32)
  /-- `dfp_consume_attention` -/
  | attention (header vdo : UInt32)
  /-- `dp_init` -/
  | init
  /-- the module's part of `pd_dfp_exit_mode` -/
  | exitMode

def ecStep (cfg : Config) : EcEvent → Port → Port
  | .setupNextVdm env, s => (Altmode.dpSetupNextVdm cfg env s).2
  | .acked env txType header vdo, s =>
    if pdVdoVid header = usbSidDisplayport then Altmode.dpVdmAcked cfg env txType header vdo s
    else s
  | .naked txType cmd, s => Altmode.dpVdmNaked cfg txType cmd s
  | .attention header vdo, s => Altmode.dfpConsumeAttention cfg header vdo s
  | .init, s => Altmode.dpInit cfg s
  | .exitMode, s =>
    Altmode.dpInit cfg (if Altmode.dpIsActive cfg s then Altmode.svdmExitDpMode s else s)

/-- What an event means for the DisplayPort mode.  An entry starts when Enter Mode is set up, and the
mode is left when the module becomes idle. -/
def ecSignal (cfg : Config) : EcEvent → Port → Signal
  | .setupNextVdm env, s =>
    if (Altmode.dpSetupNextVdm cfg env s).1 = .success (Altmode.dpVdm cmdEnterMode 1) then .enter
    else .none
  | .acked env txType header vdo, s =>
    if pdVdoVid header ≠ usbSidDisplayport then .none
    else if Altmode.dpIsIdle cfg (Altmode.dpVdmAcked cfg env txType header vdo s) then .exit
    else if pdVdoCmd header = cmdDpConfig then .configure
    else if pdVdoCmd header = cmdDpStatus then .report vdo
    else .none
  | .naked txType cmd, s =>
    if Altmode.dpIsIdle cfg (Altmode.dpVdmNaked cfg txType cmd s) then .exit else .none
  | .attention header vdo, _ => if pdVdoVid header = usbSidDisplayport then .report vdo else .none
  | .init, _ => .exit
  | .exitMode, _ => .exit

def ecPins (s : Port) : Pins where
  hpd := s.hpd
  pending := s.hpdHiPending
  on := s.dpOn

def ec (cfg : Config) : Lib.Watched EcEvent Port Phase where
  step e s := some (ecStep cfg e s)
  watch e s p := p.after (ecSignal cfg e s)

/-! ## The invariant -/

/-- The partner's status has been taken, and the configuration is not acknowledged. -/
def Settled (s : Port) : Prop :=
  s.dpState = .statusAcked ∨ s.dpState = .prepareConfig

/-- During an entry the module does not take the mode for configured, and from the configuration to
the exit it takes every Attention. -/
structure EcInv (cfg : Config) (s : Port) (p : Phase) : Prop where
  pins : Inv (Settled s) (ecPins s) p
  entering : ∀ latest, p = .entering latest → cfg.dpMode = true ∧ s.dpOn = false
  configured : ∀ latest, p = .configured latest → Altmode.dpIsIdle cfg s = false

section

variable {cfg : Config} {env : Env} {s s' : Port} {p : Phase} {g : Signal}

theorem after_entering {latest : Option Bool} (h : p.after g = .entering latest) :
    g = .enter ∨ g ≠ .configure ∧ ∃ latest, p = .entering latest := by
  cases g with
  | enter => exact .inl rfl
  | _ => cases p <;> simp_all [Phase.after]

theorem after_configured {latest : Option Bool} (h : p.after g = .configured latest) :
    g ≠ .enter ∧ g ≠ .exit ∧ (g = .configure ∨ ∃ latest, p = .configured latest) := by
  cases g <;> cases p <;> simp_all [Phase.after]

/-- What an event does to the module, as far as the invariant looks at it. -/
structure Moves (cfg : Config) (g : Signal) (s s' : Port) : Prop where
  effect : Effect g (ecPins s) (ecPins s')
  enter : g = .enter → cfg.dpMode = true ∧ s'.dpOn = false
  configure : g = .configure → Settled s ∧ Altmode.dpIsIdle cfg s' = false
  none : g = .none → Settled s' → Settled s
  busy : g ≠ .enter → g ≠ .exit → Altmode.dpIsIdle cfg s = false → Altmode.dpIsIdle cfg s' = false

theorem Moves.off (h : Moves cfg g s s') (henter : g ≠ .enter) (hexit : g ≠ .exit)
    (hconfigure : g ≠ .configure) (hoff : s.dpOn = false) : s'.dpOn = false := by
  have he := h.effect
  cases g with
  | enter => exact absurd rfl henter
  | exit => exact absurd rfl hexit
  | configure => exact absurd rfl hconfigure
  | report vdo => exact he.on.trans hoff
  | none =>
    have hsame : ecPins s' = ecPins s := he
    exact (congrArg Pins.on hsame).trans hoff

theorem EcInv.moves (h : EcInv cfg s p) (hm : Moves cfg g s s')
    (hfault : ¬ g.Fault (ecPins s) p) : EcInv cfg s' (p.after g) := by
  refine ⟨h.pins.effect hfault hm.effect (fun hg => (hm.configure hg).1) hm.none,
    fun latest hp => ?_, fun latest hp => ?_⟩
  · rcases after_entering hp with hg | ⟨hg, latest', hbefore⟩
    · exact hm.enter hg
    · obtain ⟨hmode, hoff⟩ := h.entering latest' hbefore
      by_cases henter : g = .enter
      · exact hm.enter henter
      · refine ⟨hmode, hm.off henter (fun hexit => ?_) hg hoff⟩
        rw [hexit, hbefore] at hp
        exact absurd hp (by simp [Phase.after])
  · obtain ⟨henter, hexit, hg | ⟨latest', hbefore⟩⟩ := after_configured hp
    · exact (hm.configure hg).2
    · exact hm.busy henter hexit (h.configured latest' hbefore)

theorem moves_exit : Moves cfg .exit s s' where
  effect := trivial
  enter h := absurd h (by simp)
  configure h := absurd h (by simp)
  none h := absurd h (by simp)
  busy _ h := absurd rfl h

theorem moves_none (hpins : ecPins s' = ecPins s) (hsettled : Settled s' → Settled s)
    (hbusy : Altmode.dpIsIdle cfg s = false → Altmode.dpIsIdle cfg s' = false) :
    Moves cfg .none s s' where
  effect := hpins
  enter h := absurd h (by simp)
  configure h := absurd h (by simp)
  none _ := hsettled
  busy _ _ := hbusy

/-! ## The events -/

theorem ecPins_ssMuxSet (m : Altmode.MuxRequest) (s : Port) :
    ecPins (s.ssMuxSet cfg m) = ecPins s := by
  rw [Port.ssMuxSet_eq]
  rfl

theorem dpState_ssMuxSet (m : Altmode.MuxRequest) (s : Port) :
    (s.ssMuxSet cfg m).dpState = s.dpState := by
  rw [Port.ssMuxSet_eq]

theorem moves_setup {r : Altmode.MsgSetup} {t : Port}
    (hr : r ≠ .success (Altmode.dpVdm cmdEnterMode 1)) (hpins : ecPins t = ecPins s)
    (hsettled : Settled t → Settled s)
    (hbusy : Altmode.dpIsIdle cfg s = false → Altmode.dpIsIdle cfg t = false) :
    Moves cfg (if r = .success (Altmode.dpVdm cmdEnterMode 1) then .enter else .none) s t := by
  rw [if_neg hr]
  exact moves_none hpins hsettled hbusy

theorem dpIsIdle_eq_false_iff : Altmode.dpIsIdle cfg s = false ↔
    cfg.dpMode = true ∧ s.dpState ≠ .inactive ∧ s.dpState ≠ .start := by
  unfold Altmode.dpIsIdle
  simp [and_assoc]

theorem moves_setupNextVdm :
    Moves cfg (ecSignal cfg (.setupNextVdm env) s) s (ecStep cfg (.setupNextVdm env) s) := by
  have hother {cmd : UInt32} {count : Nat} (hcmd : cmd ≠ cmdEnterMode) :
      Altmode.MsgSetup.success (Altmode.dpVdm cmd count) ≠
        .success (Altmode.dpVdm cmdEnterMode 1) :=
    fun h => hcmd (congrArg Altmode.ModeVdm.cmd (Altmode.MsgSetup.success.inj h))
  have hconfig (t : Port) : (Altmode.dpSetupConfig env t).1 ≠
      .success (Altmode.dpVdm cmdEnterMode 1) ∧ (Altmode.dpSetupConfig env t).2 = t := by
    unfold Altmode.dpSetupConfig
    split
    · exact ⟨by simp, rfl⟩
    · exact ⟨hother (by decide), rfl⟩
  have hstay : ∀ r : Altmode.MsgSetup, r ≠ .success (Altmode.dpVdm cmdEnterMode 1) →
      Moves cfg (if r = .success (Altmode.dpVdm cmdEnterMode 1) then .enter else .none) s s :=
    fun r hr => moves_setup hr rfl id id
  simp only [ecSignal, ecStep]
  unfold Altmode.dpSetupNextVdm
  by_cases hmode : (!cfg.dpMode) = true
  · simp only [if_pos hmode]
    exact hstay _ (by simp)
  have hon : cfg.dpMode = true := by
    simpa using hmode
  simp only [if_neg hmode]
  -- an entry clears both flags, and leaves the pin as it was
  have henter : Moves cfg
      (if (Altmode.dpSetupEnter cfg env s).1 = .success (Altmode.dpVdm cmdEnterMode 1) then .enter
        else .none) s (Altmode.dpSetupEnter cfg env s).2 := by
    unfold Altmode.dpSetupEnter
    cases hmodeVdo : env.dpModeVdo.bind fun modeCaps =>
        Altmode.svdmEnterDpMode cfg env modeCaps s with
    | none => exact hstay _ (by simp)
    | some t =>
      obtain ⟨modeCaps, -, hcaps⟩ := Option.bind_eq_some_iff.mp hmodeVdo
      have ht := Altmode.svdmEnterDpMode_eq hcaps
      have hpins : ecPins t = ⟨s.hpd, false, false⟩ := by
        rw [ht, Altmode.svdmSafeDpMode, ecPins_ssMuxSet]
        rfl
      have hhpd : (ecPins t).hpd = (ecPins s).hpd := by
        rw [hpins]
        rfl
      have hoff : t.dpOn = false := congrArg Pins.on hpins
      simp only [if_true]
      exact ⟨hhpd, fun _ => ⟨hon, hoff⟩, fun h => absurd h (by simp),
        fun h => absurd h (by simp), fun h => absurd rfl h⟩
  -- an exit is set up without a change of the pins
  have hexit (t : Port) (hpins : ecPins t = ecPins s) :
      Moves cfg (if (Altmode.dpSetupExit cfg t).1 = .success (Altmode.dpVdm cmdEnterMode 1) then
        .enter else .none) s (Altmode.dpSetupExit cfg t).2 := by
    refine moves_setup (by simp [Altmode.dpSetupExit]) ?_ (fun h => ?_) fun _ => ?_
    · rw [← hpins, Altmode.dpSetupExit]
      exact ecPins_ssMuxSet _ _
    · exact absurd h (by simp [Altmode.dpSetupExit, Settled])
    · exact dpIsIdle_eq_false_iff.mpr ⟨hon, by simp [Altmode.dpSetupExit]⟩
  cases hstate : s.dpState with
  | start => exact henter
  | enterRetry => exact henter
  | enterAcked => exact hstay _ (hother (by decide))
  | statusAcked =>
    have hsettled : Settled s := .inl hstate
    simp only
    by_cases hpin : Altmode.getDpPinMode env s = 0
    · simp only [if_pos hpin]
      exact hstay _ (by simp)
    · simp only [if_neg hpin]
      split
      · refine moves_setup (by simp) (ecPins_ssMuxSet _ _) (fun _ => hsettled) fun _ => ?_
        exact dpIsIdle_eq_false_iff.mpr ⟨hon, by simp [dpState_ssMuxSet]⟩
      · obtain ⟨hmessage, hafter⟩ := hconfig { s with dpState := .prepareConfig }
        refine moves_setup hmessage ?_ (fun _ => hsettled) fun _ => ?_
        · rw [hafter]
          rfl
        · rw [hafter]
          exact dpIsIdle_eq_false_iff.mpr ⟨hon, by simp⟩
  | prepareConfig =>
    obtain ⟨hmessage, hafter⟩ := hconfig s
    simp only [hafter]
    exact hstay _ hmessage
  | enterNaked => exact hexit { s with dpState := .enterNaked, dpRetry := true } rfl
  | active => exact hexit s rfl
  | prepareExit => exact hstay _ (hother (by decide))
  | inactive => exact hstay _ (by simp)

theorem takes_svdmDpAttention (status : UInt32) (s : Port) :
    Takes status (ecPins s) (ecPins (Altmode.svdmDpAttention status s)) := by
  unfold Altmode.svdmDpAttention Altmode.dpHpdGpioSet
  simp only
  cases hon : s.dpOn with
  | false =>
    cases hlevel : pdVdoDpstsHpdLvl status with
    | true =>
      exact ⟨hon.symm, fun _ => by simp [ecPins, hlevel], fun _ h => h,
        fun h => absurd (hon.symm.trans h) (by simp)⟩
    | false =>
      exact ⟨hon.symm, fun _ => by simp [ecPins, hlevel], fun _ h => h,
        fun h => absurd (hon.symm.trans h) (by simp)⟩
  | true =>
    simp only [Bool.not_true, Bool.false_eq_true, if_false]
    refine ⟨?_, fun h => absurd (hon.symm.trans h) (by simp),
      fun h => absurd (hon.symm.trans h) (by simp), fun _ => ?_⟩
    · split
      · exact hon.symm
      · exact hon.symm
    · split
      · rfl
      · rfl

theorem configures_svdmDpPostConfig (env : Env) (s : Port) :
    Configures (ecPins s) (ecPins { Altmode.svdmDpPostConfig env s with dpState := .active }) := by
  obtain ⟨level, hlevel⟩ := Altmode.svdmDpPostConfig_eq env s
  -- a high level that waits is driven, else the pin is left as it is
  have hhpd : (Altmode.svdmDpPostConfig env s).hpd = (s.hpdHiPending || s.hpd) := by
    unfold Altmode.svdmDpPostConfig
    simp only [Port.usbMuxSet, Altmode.dpHpdGpioSet]
    by_cases hpending : s.hpdHiPending = true
    · simp [hpending]
    · simp [hpending]
  constructor
  · simp [ecPins, hlevel]
  · exact hhpd

theorem dfpConsumeAttention_of_busy {header vdo : UInt32}
    (hsvid : pdVdoVid header = usbSidDisplayport) (hbusy : Altmode.dpIsIdle cfg s = false) :
    Altmode.dfpConsumeAttention cfg header vdo s = Altmode.svdmDpAttention vdo s := by
  have hmode := (dpIsIdle_eq_false_iff.mp hbusy).1
  unfold Altmode.dfpConsumeAttention
  exact if_pos (by simp [hmode, hsvid, hbusy])

theorem dfpConsumeAttention_of_idle {header vdo : UInt32}
    (hidle : Altmode.dpIsIdle cfg s = true) :
    Altmode.dfpConsumeAttention cfg header vdo s = s := by
  unfold Altmode.dfpConsumeAttention
  exact if_neg (by simp [hidle])

theorem dpState_svdmDpAttention (status : UInt32) (s : Port) :
    (Altmode.svdmDpAttention status s).dpState = s.dpState := by
  obtain ⟨pending, level, h⟩ := Altmode.svdmDpAttention_eq status s
  rw [h]

theorem dpVdmAcked_cases {txType : SopType} {header vdo : UInt32}
    (hbusy : Altmode.dpIsIdle cfg (Altmode.dpVdmAcked cfg env txType header vdo s) = false) :
    pdVdoCmd header = cmdEnterMode ∧ Altmode.dpVdmAcked cfg env txType header vdo s =
        { s with dpState := .enterAcked, modalOperation := true } ∨
    s.dpState = .enterAcked ∧ pdVdoCmd header = cmdDpStatus ∧
      Altmode.dpVdmAcked cfg env txType header vdo s =
        { Altmode.dfpConsumeAttention cfg header vdo s with dpState := .statusAcked } ∨
    s.dpState = .prepareConfig ∧ pdVdoCmd header = cmdDpConfig ∧
      Altmode.dpVdmAcked cfg env txType header vdo s =
        { Altmode.svdmDpPostConfig env s with dpState := .active } ∨
    pdVdoCmd header = cmdExitMode ∧ Altmode.dpVdmAcked cfg env txType header vdo s =
        { s with dpState := .enterRetry, dpRetry := false } := by
  have hmode := (dpIsIdle_eq_false_iff.mp hbusy).1
  have hnot : ¬ (!cfg.dpMode) = true := by
    simp [hmode]
  have hfailed : Altmode.dpIsIdle cfg (Altmode.dpEntryFailed s) = true := by
    simp [Altmode.dpIsIdle, Altmode.dpEntryFailed, Altmode.dpEnded]
  unfold Altmode.dpVdmAcked at hbusy ⊢
  simp only [if_neg hnot] at hbusy ⊢
  by_cases hvalid : Altmode.DpResponseValid txType (pdVdoCmd header) s
  · simp only [if_pos hvalid] at hbusy ⊢
    -- a response is valid for the command of the state that waits for it
    have hcmd (h : s.dpState ≠ .inactive) : s.dpState.vdmCmd = pdVdoCmd header :=
      hvalid.2.resolve_left h
    cases hstate : s.dpState with
    | start | enterRetry =>
      rw [hstate] at hcmd
      exact .inl ⟨(hcmd (by simp)).symm, rfl⟩
    | enterAcked =>
      rw [hstate] at hcmd
      exact .inr (.inl ⟨rfl, (hcmd (by simp)).symm, rfl⟩)
    | prepareConfig =>
      rw [hstate] at hcmd
      exact .inr (.inr (.inl ⟨rfl, (hcmd (by simp)).symm, rfl⟩))
    -- after a NAK of the entry the mode is left and entered again, else this is the end
    | prepareExit =>
      rw [hstate] at hcmd
      cases hretry : s.dpRetry with
      | true => exact .inr (.inr (.inr ⟨(hcmd (by simp)).symm, rfl⟩))
      | false =>
        simp only [hstate, hretry, Bool.false_eq_true, if_false] at hbusy
        have hexited : (Altmode.dpExitToUsbMode cfg s).dpState = .inactive := rfl
        exact absurd hexited (dpIsIdle_eq_false_iff.mp hbusy).2.1
    | inactive => exact absurd hstate (dpIsIdle_eq_false_iff.mp (by simpa [hstate] using hbusy)).2.1
    | enterNaked | statusAcked | active =>
      simp only [hstate, hfailed] at hbusy
      exact absurd hbusy (by simp)
  · simp only [if_neg hvalid, hfailed] at hbusy
    exact absurd hbusy (by simp)

theorem moves_acked {txType : SopType} {header vdo : UInt32} :
    Moves cfg (ecSignal cfg (.acked env txType header vdo) s) s
      (ecStep cfg (.acked env txType header vdo) s) := by
  simp only [ecSignal, ecStep]
  by_cases hsvid : pdVdoVid header = usbSidDisplayport
  · simp only [if_pos hsvid, if_neg (not_not_intro hsvid)]
    by_cases hidle : Altmode.dpIsIdle cfg (Altmode.dpVdmAcked cfg env txType header vdo s) = true
    · simp only [if_pos hidle]
      exact moves_exit
    · have hbusy := Bool.not_eq_true _ ▸ hidle
      have hmode := (dpIsIdle_eq_false_iff.mp hbusy).1
      simp only [if_neg hidle]
      rcases dpVdmAcked_cases hbusy with
        ⟨hcmd, h⟩ | ⟨hstate, hcmd, h⟩ | ⟨hstate, hcmd, h⟩ | ⟨hcmd, h⟩
      -- Enter Mode
      · rw [if_neg (by rw [hcmd]; decide), if_neg (by rw [hcmd]; decide), h]
        refine moves_none rfl (fun h => absurd h (by simp [Settled])) fun _ => ?_
        exact dpIsIdle_eq_false_iff.mpr ⟨hmode, by simp⟩
      · -- the status of the attempt
        have hbefore : Altmode.dpIsIdle cfg s = false :=
          dpIsIdle_eq_false_iff.mpr ⟨hmode, by simp [hstate]⟩
        rw [if_neg (by rw [hcmd]; decide), if_pos hcmd, h,
          dfpConsumeAttention_of_busy hsvid hbefore]
        refine ⟨takes_svdmDpAttention vdo s, fun h => absurd h (by simp),
          fun h => absurd h (by simp), fun h => absurd h (by simp), fun _ _ _ => ?_⟩
        exact dpIsIdle_eq_false_iff.mpr ⟨hmode, by simp⟩
      -- the configuration
      · have hafter : Altmode.dpIsIdle cfg { Altmode.svdmDpPostConfig env s with
            dpState := .active } = false := dpIsIdle_eq_false_iff.mpr ⟨hmode, by simp⟩
        rw [if_pos hcmd, h]
        exact ⟨configures_svdmDpPostConfig env s, fun h => absurd h (by simp),
          fun _ => ⟨.inr hstate, hafter⟩,
          fun h => absurd h (by simp), fun _ _ _ => hafter⟩
      -- Exit Mode, and the entry is tried again
      · rw [if_neg (by rw [hcmd]; decide), if_neg (by rw [hcmd]; decide), h]
        refine moves_none rfl (fun h => absurd h (by simp [Settled])) fun _ => ?_
        exact dpIsIdle_eq_false_iff.mpr ⟨hmode, by simp⟩
  · rw [if_neg hsvid, if_pos hsvid]
    exact moves_none rfl id id

theorem moves_naked {txType : SopType} {cmd : UInt32} :
    Moves cfg (ecSignal cfg (.naked txType cmd) s) s (ecStep cfg (.naked txType cmd) s) := by
  simp only [ecSignal, ecStep]
  by_cases hidle : Altmode.dpIsIdle cfg (Altmode.dpVdmNaked cfg txType cmd s) = true
  · simp only [if_pos hidle]
    exact moves_exit
  · have hbusy := Bool.not_eq_true _ ▸ hidle
    have hmode := (dpIsIdle_eq_false_iff.mp hbusy).1
    have hnot : ¬ (!cfg.dpMode) = true := by
      simp [hmode]
    have hfailed : Altmode.dpIsIdle cfg (Altmode.dpEntryFailed s) = true := by
      simp [Altmode.dpIsIdle, Altmode.dpEntryFailed, Altmode.dpEnded]
    have hexited : Altmode.dpIsIdle cfg (Altmode.dpExitToUsbMode cfg s) = true := by
      simp [Altmode.dpIsIdle, Altmode.dpExitToUsbMode, Altmode.dpEnded]
    simp only [if_neg hidle]
    unfold Altmode.dpVdmNaked at hbusy ⊢
    simp only [if_neg hnot] at hbusy ⊢
    by_cases hvalid : Altmode.DpResponseValid txType cmd s
    · simp only [if_pos hvalid] at hbusy ⊢
      cases hstate : s.dpState with
      | start =>
        refine moves_none rfl (fun h => absurd h (by simp [Settled])) fun _ => ?_
        exact dpIsIdle_eq_false_iff.mpr ⟨hmode, by simp⟩
      | _ =>
        simp only [hstate, hfailed, hexited] at hbusy
        exact absurd hbusy (by simp)
    · simp only [if_neg hvalid, hfailed] at hbusy
      exact absurd hbusy (by simp)

theorem moves_attention {header vdo : UInt32} (hbusy : Altmode.dpIsIdle cfg s = false) :
    Moves cfg (ecSignal cfg (.attention header vdo) s) s
      (ecStep cfg (.attention header vdo) s) := by
  simp only [ecSignal, ecStep]
  by_cases hsvid : pdVdoVid header = usbSidDisplayport
  · rw [if_pos hsvid, dfpConsumeAttention_of_busy hsvid hbusy]
    have hafter : Altmode.dpIsIdle cfg (Altmode.svdmDpAttention vdo s) = false := by
      rw [dpIsIdle_eq_false_iff, dpState_svdmDpAttention]
      exact dpIsIdle_eq_false_iff.mp hbusy
    exact ⟨takes_svdmDpAttention vdo s, fun h => absurd h (by simp), fun h => absurd h (by simp),
      fun h => absurd h (by simp), fun _ _ _ => hafter⟩
  · have hsame : Altmode.dfpConsumeAttention cfg header vdo s = s := by
      unfold Altmode.dfpConsumeAttention
      exact if_neg (by simp [hsvid])
    rw [if_neg hsvid, hsame]
    exact moves_none rfl id id

theorem EcInv.dropped {header vdo : UInt32} (h : EcInv cfg s p)
    (hidle : Altmode.dpIsIdle cfg s = true) :
    ecStep cfg (.attention header vdo) s = s ∧
      EcInv cfg s (p.after (ecSignal cfg (.attention header vdo) s)) ∧
      ¬ (ecSignal cfg (.attention header vdo) s).Fault (ecPins s) p := by
  have hsame : ecStep cfg (.attention header vdo) s = s := dfpConsumeAttention_of_idle hidle
  refine ⟨hsame, ?_⟩
  simp only [ecSignal]
  split
  · cases p with
    | outside =>
      exact ⟨⟨trivial, fun _ h => absurd h (by simp [Phase.after]),
        fun _ h => absurd h (by simp [Phase.after])⟩, fun h => h⟩
    | entering latest =>
      obtain ⟨hmode, hoff⟩ := h.entering latest rfl
      -- before the status is taken, no level waits that the Attention could contradict
      have hunsettled : ¬ Settled s := by
        rintro (hstate | hstate)
        · simp [Altmode.dpIsIdle, hmode, hstate] at hidle
        · simp [Altmode.dpIsIdle, hmode, hstate] at hidle
      refine ⟨⟨⟨h.pins.1, fun hs => absurd hs hunsettled⟩, fun _ _ => ⟨hmode, hoff⟩,
        fun _ h => absurd h (by simp [Phase.after])⟩, fun hfault => ?_⟩
      exact absurd (hoff.symm.trans hfault.1) (by simp)
    | configured latest =>
      have hbusy := h.configured latest rfl
      rw [hidle] at hbusy
      exact absurd hbusy (by simp)
  · have hphase : p.after .none = p := by
      cases p <;> rfl
    rw [hphase]
    exact ⟨h, by cases p <;> exact fun h => h⟩

theorem ec_exact (cfg : Config) : (ec cfg).Exact (EcInv cfg) (fun s p => p.Law s.hpd)
    (fun e s p => (ecSignal cfg e s).Fault (ecPins s) p) := by
  have hmoves {e : EcEvent} {s : Port} {p : Phase} (h : EcInv cfg s p) :
      Moves cfg (ecSignal cfg e s) s (ecStep cfg e s) ∨
        ecStep cfg e s = s ∧ EcInv cfg s (p.after (ecSignal cfg e s)) ∧
          ¬ (ecSignal cfg e s).Fault (ecPins s) p := by
    -- only an Attention can find the module idle and the law's monitor within an entry
    cases e with
    | setupNextVdm env => exact .inl moves_setupNextVdm
    | acked env txType header vdo => exact .inl moves_acked
    | naked txType cmd => exact .inl moves_naked
    | attention header vdo =>
      cases hidle : Altmode.dpIsIdle cfg s with
      | false => exact .inl (moves_attention hidle)
      | true => exact .inr (h.dropped hidle)
    | init | exitMode => exact .inl moves_exit
  refine ⟨fun h => h.pins.law, fun h hstep hfault => ?_, fun h hstep hfault => ?_⟩
  · cases hstep
    rcases hmoves h with hm | ⟨-, -, hnone⟩
    · exact h.pins.broken hfault hm.effect
    · exact absurd hfault hnone
  · cases hstep
    rcases hmoves h with hm | ⟨hsame, hafter, -⟩
    · exact h.moves hm hfault
    · rw [hsame]
      exact hafter

end

def Lawful {ε σ : Type*} (w : Lib.Watched ε σ Phase) (hpd : σ → Bool) : List ε → σ → Phase → Prop :=
  w.Always fun s p => p.Law (hpd s)

/-- In either module the HPD law holds throughout a run, from any state without a mode, exactly when
no step of the run is a fault. -/
theorem hpd_law (cfg : Config) :
    (∀ (es : List ApVdm.Event) (s : ApVdm.Storage), Lawful ap (·.hpd) es s .outside ↔
      ap.Avoids (fun e s p => (apSignal e).Fault (apPins s) p) es s .outside) ∧
    ∀ (es : List EcEvent) (s : Port), Lawful (ec cfg) (·.hpd) es s .outside ↔
      (ec cfg).Avoids (fun e s p => (ecSignal cfg e s).Fault (ecPins s) p) es s .outside := by
  constructor
  · intro es s
    have hstart : Inv True (apPins s) .outside := trivial
    exact ap_exact.always_iff hstart es
  · intro es s
    have hstart : EcInv cfg s .outside :=
      ⟨trivial, fun _ h => absurd h (by simp), fun _ h => absurd h (by simp)⟩
    exact (ec_exact cfg).always_iff hstart es

/-! ## The faults happen -/

instance (p : Phase) (hpd : Bool) : Decidable (p.Law hpd) :=
  match p with
  | .outside => .isTrue trivial
  | .entering _ => inferInstanceAs (Decidable (hpd = false))
  | .configured latest => inferInstanceAs (Decidable (∀ level, latest = some level → hpd = level))

theorem not_lawful {ε σ : Type*} {w : Lib.Watched ε σ Phase} {hpd : σ → Bool} {es : List ε} {s : σ}
    {p : Phase} (h : (w.run es s p).any (fun r => !decide (r.2.Law (hpd r.1))) = true) :
    ¬ Lawful w hpd es s p := by
  intro hlawful
  have hlaw := hlawful.end
  cases hrun : w.run es s p with
  | none => simp [hrun] at h
  | some r => simp [hrun, hlaw r hrun] at h

theorem two_le_vdoMaxSize : 2 ≤ vdoMaxSize := by
  decide

theorem vdoMaxSize_le_seven : vdoMaxSize ≤ 7 := by
  decide

/-- A structured DisplayPort message of the partner with one VDO. -/
def dpMessage (header vdo : UInt32) : ApVdm.RxEmsg where
  cnt := 2
  buf := [header, vdo, 0, 0, 0, 0, 0]
  cnt_pos := Nat.two_pos
  cnt_le := two_le_vdoMaxSize
  buf_le := vdoMaxSize_le_seven

/-- The status is high, then an Attention is low, then the configuration is acknowledged. -/
def apLowBeforeConfigure : List ApVdm.Event :=
  [.requestVdm 0xff018104, .acked false .sop (dpMessage 0xff018150 0x80),
    .received false (dpMessage 0xff018106 0), .acked false .sop (dpMessage 0xff018151 0)]

/-- The AP leaves the mode and enters a second time, and the status of the second entry is high. -/
def apSecondEntry : List ApVdm.Event :=
  [.requestVdm 0xff018104, .acked false .sop (dpMessage 0xff018151 0),
    .acked false .sop (dpMessage 0xff018145 0), .requestVdm 0xff018104,
    .acked false .sop (dpMessage 0xff018150 0x80)]

/-- The same as `apLowBeforeConfigure` with the EC in control. -/
def ecLowBeforeConfigure : List EcEvent :=
  [.setupNextVdm Env.dpSink, .acked Env.dpSink .sop 0xff018144 0, .setupNextVdm Env.dpSink,
    .acked Env.dpSink .sop 0xff018150 0x80, .attention 0xff018106 0, .setupNextVdm Env.dpSink,
    .acked Env.dpSink .sop 0xff018151 0]

/-- A high level that waits is driven though the last report is low, and a second entry is taken for
configured from its start. -/
theorem not_lawful_runs :
    ¬ Lawful ap (·.hpd) apLowBeforeConfigure .boot .outside ∧
      ¬ Lawful ap (·.hpd) apSecondEntry .boot .outside ∧
      ¬ Lawful (ec Config.allModes) (·.hpd) ecLowBeforeConfigure .boot .outside :=
  ⟨not_lawful (by decide +kernel), not_lawful (by decide +kernel), not_lawful (by decide +kernel)⟩

end ChromiumEc.Usbc.Hpd
