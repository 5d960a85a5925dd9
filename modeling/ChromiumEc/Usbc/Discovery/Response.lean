import ChromiumEc.Usbc.Discovery.Request

/-!
# Response — which messages are stored as the answer to a request

The common parser looks at the SOP* type, the command type and the number of objects of a message.
It leaves the rest of the VDM header to the consumers.
-/

namespace ChromiumEc.Usbc.Discovery

variable {env : Env} {k : Kind} {s t : State}

def Kind.cmd : Kind → UInt32
  | .vdmIdentityRequestCbl | .initPortVdmIdentityRequest => cmdDiscoverIdent
  | .initVdmSvidsRequest => cmdDiscoverSvid
  | .initVdmModesRequest => cmdDiscoverModes

def Kind.required : Kind → Nat
  | .vdmIdentityRequestCbl | .initPortVdmIdentityRequest => 4
  | .initVdmSvidsRequest | .initVdmModesRequest => 2

def requestSvid (k : Kind) (s : State) : Option UInt32 :=
  match k with
  | .initVdmModesRequest => s.current.getNextMode.map SvidModeData.svid
  | _ => some usbSidPd

structure InFlight (k : Kind) (s : State) : Prop where
  required : s.minDataObjects = k.required
  needed : k = .initVdmModesRequest →
    ∃ m, s.current.getNextMode = some m ∧ m.discovery = .needed

def Answers (k : Kind) (s : State) : Prop :=
  s.IsVdm ∧ pdVdoSvdm s.rxVdm = true ∧ pdVdoCmdt s.rxVdm = cmdtRspAck ∧
    requestSvid k s = some (pdVdoVid s.rxVdm) ∧ pdVdoCmd s.rxVdm = k.cmd ∧ k.required ≤ s.rxCnt

def markFailed (k : Kind) (s : State) : State :=
  match k with
  | .vdmIdentityRequestCbl | .initPortVdmIdentityRequest => s.setIdentityDiscovery .fail
  | .initVdmSvidsRequest => s.setSvidsDiscovery .fail
  | .initVdmModesRequest =>
    match requestSvid k s with
    | none => s
    | some svid => s.setModesDiscovery svid .fail

def TakenAsAck (k : Kind) (s : State) : Prop :=
  peChkReply s = true ∧ s.IsVdm ∧ pdVdoCmdt s.rxVdm = cmdtRspAck ∧ k.required ≤ s.rxCnt

/-- Only the answer to the request is stored.  Any other VDM changes nothing that is known, but for
the requested item that may be marked as failed, or it is kept for the ready state. -/
def OnlyAnswerStored (env : Env) (k : Kind) (s : State) : Prop :=
  ((run env k s).consumed ≠ s.consumed → Answers k s) ∧
    (s.IsVdm → ¬ Answers k s →
      (run env k s).disc = s.disc ∨ (run env k s).disc = (markFailed k s).disc ∨
        (run env k s).msgReceived = true)

theorem parse_same (s : State) :
    ∃ received busy, (parseVdmResponseCommon s).1 =
      { s with msgReceived := received, busy := busy } := by
  unfold parseVdmResponseCommon
  simp only
  split_ifs <;> exact ⟨_, _, rfl⟩

theorem parse_ack_iff (h : InFlight k s) :
    (parseVdmResponseCommon s).2 = .ack ↔ TakenAsAck k s := by
  rw [TakenAsAck, ← h.required]
  unfold parseVdmResponseCommon
  simp only
  split_ifs with hreply hvdm hack
  · exact iff_of_false nofun fun htaken => by simp [htaken.1] at hreply
  · exact iff_of_true rfl ⟨by simpa using hreply, hvdm, hack⟩
  all_goals refine iff_of_false nofun fun htaken => ?_
  all_goals first | exact hack htaken.2.2 | exact hvdm htaken.2.1

/-! ## The run functions -/

theorem consume_ne (c : Consumer) (f : PdDiscovery → PdDiscovery) (s : State) :
    (s.consume c f).consumed ≠ s.consumed := by
  intro h
  have hlen := congrArg List.length h
  simp [State.consume] at hlen

/-- What a run function does: an answer is stored exactly when the parser takes the message as an
ACK, and otherwise nothing but the mark of the requested item changes. -/
def RunSpec (k : Kind) (s out : State) : Prop :=
  ((parseVdmResponseCommon s).2 = .ack ∧ out.consumed ≠ s.consumed) ∨
    ((parseVdmResponseCommon s).2 ≠ .ack ∧ out.consumed = s.consumed ∧
      (out.disc = s.disc ∨ out.disc = (markFailed k s).disc))

theorem requestRun_spec {ack nak : State → State} (hack : ∀ t, (ack t).consumed ≠ t.consumed)
    (hnak : ∀ t, (nak t).consumed = t.consumed)
    (hmark : ∀ t, (∃ received busy, t = { s with msgReceived := received, busy := busy }) →
      (nak t).disc = (markFailed k s).disc) :
    RunSpec k s (requestRun ack nak s) := by
  obtain ⟨received, busy, hsame⟩ := parse_same s
  cases hparse : parseVdmResponseCommon s with
  | mk t r =>
    rw [hparse] at hsame
    subst hsame
    rw [RunSpec, requestRun, hparse]
    cases r with
    | waiting => exact .inr ⟨nofun, rfl, .inl rfl⟩
    | noAction => exact .inr ⟨nofun, rfl, .inl rfl⟩
    | ack => exact .inl ⟨rfl, hack _⟩
    | nak => exact .inr ⟨nofun, hnak _, .inr (hmark _ ⟨received, busy, rfl⟩)⟩

theorem vdmIdentityRequestCblRun_spec :
    RunSpec .vdmIdentityRequestCbl s (vdmIdentityRequestCblRun env s) := by
  obtain ⟨received, busy, hsame⟩ := parse_same s
  cases hparse : parseVdmResponseCommon s with
  | mk t r =>
    rw [hparse] at hsame
    subst hsame
    rw [RunSpec, vdmIdentityRequestCblRun, hparse]
    cases r with
    | waiting =>
      refine .inr ⟨nofun, ?_⟩
      simp only
      split <;> exact ⟨rfl, .inl rfl⟩
    | noAction =>
      refine .inr ⟨nofun, ?_⟩
      simp only
      split <;> exact ⟨rfl, .inl rfl⟩
    | ack =>
      have hne : (dfpConsumeIdentity env { s with msgReceived := received, busy := busy }).consumed ≠
          s.consumed := consume_ne _ _ _
      refine .inl ⟨rfl, ?_⟩
      simp only
      split <;> exact hne
    | nak => exact .inr ⟨nofun, rfl, .inr rfl⟩

theorem run_spec (h : InFlight k s) : RunSpec k s (run env k s) := by
  cases k with
  | vdmIdentityRequestCbl => exact vdmIdentityRequestCblRun_spec
  | initPortVdmIdentityRequest =>
    refine requestRun_spec (fun _ => consume_ne _ _ _) (fun _ => rfl) ?_
    rintro _ ⟨received, busy, rfl⟩
    rfl
  | initVdmSvidsRequest =>
    refine requestRun_spec (fun _ => consume_ne _ _ _) (fun _ => rfl) ?_
    rintro _ ⟨received, busy, rfl⟩
    rfl
  | initVdmModesRequest =>
    obtain ⟨m, hm, _⟩ := h.needed rfl
    simp only [run, initVdmModesRequestRun, hm]
    refine requestRun_spec (fun _ => consume_ne _ _ _) (fun _ => rfl) ?_
    rintro _ ⟨received, busy, rfl⟩
    simp only [markFailed, requestSvid, hm, Option.map_some]
    rfl

/-! ## The answer to the request -/

/-- What is stored is the answer to the request exactly when every ACK that the parser takes is a
structured one for the command and the SVID of the request. -/
theorem onlyAnswerStored_iff (h : InFlight k s) :
    OnlyAnswerStored env k s ↔
      (TakenAsAck k s → pdVdoSvdm s.rxVdm = true ∧ pdVdoCmd s.rxVdm = k.cmd ∧
        requestSvid k s = some (pdVdoVid s.rxVdm)) := by
  have hspec : RunSpec k s (run env k s) := run_spec h
  simp only [RunSpec, ne_eq, parse_ack_iff h] at hspec
  constructor
  · rintro ⟨hstored, _⟩ htaken
    rcases hspec with ⟨_, hne⟩ | ⟨hnot, _⟩
    · obtain ⟨_, hsvdm, _, hsvid, hcmd, _⟩ := hstored hne
      exact ⟨hsvdm, hcmd, hsvid⟩
    · exact absurd htaken hnot
  · intro hheader
    rcases hspec with ⟨htaken, _⟩ | ⟨_, hsame, hdisc⟩
    · obtain ⟨hsvdm, hcmd, hsvid⟩ := hheader htaken
      have hanswers : Answers k s :=
        ⟨htaken.2.1, hsvdm, htaken.2.2.1, hsvid, hcmd, htaken.2.2.2⟩
      exact ⟨fun _ => hanswers, fun _ hnot => absurd hanswers hnot⟩
    · refine ⟨fun hne => absurd hsame hne, fun _ _ => ?_⟩
      rcases hdisc with hdisc | hdisc
      · exact .inl hdisc
      · exact .inr (.inl hdisc)

def identityAsked : State :=
  entry ⟨true, true, false, pdRev30, 4⟩ .initPortVdmIdentityRequest
    { txType := .sop
      minDataObjects := 0
      discoverIdentityCounter := 0
      msgReceived := false
      msgDiscarded := false
      protocolError := false
      rxHeader := 0
      rxBuf := []
      sent := none
      disc := fun _ => PdDiscovery.init
      busy := false
      cableRev := none
      leave := none
      consumed := [] }

/-- The port answers with its SVIDs: `PD_DATA_VENDOR_DEF` with four objects. -/
def svidsReceived : State :=
  { identityAsked with
    msgReceived := true
    rxHeader := 0x400f
    rxBuf := [vdoHeader usbSidPd cmdDiscoverSvid cmdtRspAck, 0xff018087, 0x12345678, 0] }

theorem svidsReceived_inFlight : InFlight .initPortVdmIdentityRequest svidsReceived :=
  ⟨rfl, nofun⟩

theorem onlyAnswerStored_svidsReceived :
    OnlyAnswerStored ⟨true, true, false, pdRev30, 4⟩ .initPortVdmIdentityRequest svidsReceived ↔
      (TakenAsAck .initPortVdmIdentityRequest svidsReceived →
        pdVdoSvdm svidsReceived.rxVdm = true ∧
          pdVdoCmd svidsReceived.rxVdm = Kind.cmd .initPortVdmIdentityRequest ∧
          requestSvid .initPortVdmIdentityRequest svidsReceived =
            some (pdVdoVid svidsReceived.rxVdm)) :=
  onlyAnswerStored_iff svidsReceived_inFlight

/-- The SVIDs are stored as the identity. -/
theorem svids_stored_as_identity :
    InFlight .initPortVdmIdentityRequest svidsReceived ∧
      ((run ⟨true, true, false, pdRev30, 4⟩ .initPortVdmIdentityRequest svidsReceived).disc
        .sop).identity = [0xff018087, 0x12345678, 0, 0, 0, 0] ∧
      ¬ OnlyAnswerStored ⟨true, true, false, pdRev30, 4⟩ .initPortVdmIdentityRequest
        svidsReceived := by
  refine ⟨svidsReceived_inFlight, by decide, ?_⟩
  rintro ⟨hstored, _⟩
  have hcmd := (hstored (by decide)).2.2.2.2.1
  revert hcmd
  decide

end ChromiumEc.Usbc.Discovery
