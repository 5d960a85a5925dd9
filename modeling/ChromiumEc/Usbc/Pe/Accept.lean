import ChromiumEc.Lib.Reach
import ChromiumEc.Usbc.Pe.Swap

/-!
# Accept — a swap follows the answer Accept, and no other

The flag that tells the run functions that the answer was Accept is shared by all evaluations.  It
is cleared when the answer has been sent, and nowhere else: an evaluation that is left before leaves
it set for the next one.
-/

namespace ChromiumEc.Usbc.Pe.Swap

open Lib

def SwapState.Begins (st : SwapState) : Kind → Prop
  | .drs => st = .drsChange
  | .vcs => st = .vcsWaitForVconnSwap ∨ st = .vcsTurnOnVconnSwap
  | .prsSrcSnk => st = .prsSrcSnkTransitionToOff
  | .prsSnkSrc => st = .prsSnkSrcTransitionToOff

def SwapState.IsReady (st : SwapState) : Prop :=
  st = .srcReady ∨ st = .snkReady

def SwapState.Rests (st : SwapState) : Prop :=
  ∀ k, st ≠ .evaluateSwap k

/-- The step leaves an evaluation that has answered Accept before the answer is reported as sent,
and the flags are not cleared with it. -/
def Abandons (s : State) (e : Event × Dpm) : Prop :=
  s.accept = true ∧ ∃ k, s.pe = .evaluateSwap k ∧
    match e.1 with
    | .run => k = .vcs ∧ s.txComplete = false ∧ s.msgDiscarded = true ∧ s.msgReceived = true
    | .reportError err _ => err ≠ .rchChunkWaitTimeout ∧ k ≠ .prsSnkSrc
    | .gotSoftReset | .hardResetRequest | .frsSignaled => True
    | .gotHardReset role => s.fastRoleSwapPath = true ∨ role = .source
    | _ => False

/-- What is asked of a step: a swap begins only if the evaluation has sent Accept, an evaluation
that has sent another answer goes back to the ready state, and none begins with the flag set. -/
structure SwapsOnlyAccepted (s : State) (e : Event × Dpm) : Prop where
  begins : ∀ k, s.pe = .evaluateSwap k → (step s e).pe.Begins k → s.sent = some .accept
  returns : ∀ k, s.pe = .evaluateSwap k → e.1 = .run → s.txComplete = true →
    s.sent ≠ some .accept → (step s e).pe.IsReady
  enters : ∀ k, s.pe.Rests → (step s e).pe = .evaluateSwap k → s.accept = false

structure Inv (s : State) : Prop where
  evaluates : ∀ k, s.pe = .evaluateSwap k → (s.accept = true ↔ s.sent = some .accept)
  rests : s.pe.Rests → s.accept = false

variable {s t : State} {d : Dpm} {e : Event × Dpm} {k : Kind}

/-! ## The entry functions -/

theorem not_rests_evaluateSwap : ¬ (SwapState.evaluateSwap k).Rests :=
  fun h => h k rfl

theorem Inv.flags (h : Inv s) (hpe : t.pe = s.pe) (haccept : t.accept = s.accept)
    (hsent : t.sent = s.sent) : Inv t where
  evaluates k hk := by
    rw [haccept, hsent]
    exact h.evaluates k (hpe.symm.trans hk)
  rests hrests := by
    rw [hpe] at hrests
    exact haccept.trans (h.rests hrests)

theorem evaluateSwapEntry_spec (hclear : s.accept = false) :
    (evaluateSwapEntry d k s).pe = s.pe ∧
      ((evaluateSwapEntry d k s).accept = true ↔
        (evaluateSwapEntry d k s).sent = some .accept) := by
  cases k with
  | vcs =>
    simp only [evaluateSwapEntry, vcsEvaluateSwapEntry]
    split_ifs <;> simp [sendAccept, sendCtrlMsg, hclear]
  | _ =>
    simp only [evaluateSwapEntry]
    split_ifs <;> simp [sendAccept, sendCtrlMsg, hclear]

theorem inv_setStatePe (new : SwapState) (hclear : s.accept = false) :
    Inv (setStatePe d new s) := by
  have hrests {u : State} (haccept : u.accept = false) (hpe : u.pe.Rests) : Inv u :=
    ⟨fun k hk => absurd (hk ▸ hpe) not_rests_evaluateSwap, fun _ => haccept⟩
  cases new with
  | evaluateSwap k =>
    have hspec := evaluateSwapEntry_spec (d := d) (k := k)
      (s := { s with pe := .evaluateSwap k, sent := none }) hclear
    refine ⟨fun _ _ => hspec.2, fun hpe => ?_⟩
    rw [setStatePe, entry, hspec.1] at hpe
    exact absurd hpe not_rests_evaluateSwap
  | srcTransitionSupply =>
    have heq : (setStatePe d .srcTransitionSupply s) =
        sendCtrlMsg .gotoMin { s with pe := .srcTransitionSupply, sent := none } := by
      simp [setStatePe, entry, srcTransitionSupplyEntry, hclear]
    rw [heq]
    exact hrests hclear nofun
  | srcNegotiateCapability =>
    simp only [setStatePe, entry, srcNegotiateCapabilityEntry, srcTransitionSupplyEntry]
    split
    · exact hrests rfl nofun
    · exact hrests hclear nofun
  | srcTransitionToDefault => exact hrests rfl nofun
  | snkTransitionToDefault => exact hrests rfl nofun
  | _ => exact hrests hclear nofun

theorem inv_setReadyState (hclear : s.accept = false) : Inv (setReadyState d s) := by
  unfold setReadyState
  split <;> exact inv_setStatePe _ hclear

theorem inv_setHardReset (hclear : s.accept = false) : Inv (setHardReset d s) := by
  unfold setHardReset
  split <;> exact inv_setStatePe _ hclear

theorem inv_boot (role : PowerRole) : Inv (boot role) :=
  ⟨nofun, fun _ => rfl⟩

/-! ## One step -/

theorem inv_run (h : Inv s) (hk : s.pe = .evaluateSwap k)
    (hstays : ¬ Abandons s (.run, d)) : Inv (evaluateSwapRun d k s) := by
  cases k with
  | drs =>
    simp only [evaluateSwapRun, drsEvaluateSwapRun]
    split_ifs with hsent haccept
    · exact inv_setStatePe _ rfl
    · exact inv_setReadyState (eq_false_of_ne_true haccept)
    · exact h
  | vcs =>
    simp only [evaluateSwapRun, vcsEvaluateSwapRun, checkOutgoingDiscard]
    split_ifs with hsent haccept hvconn hdiscard
    · exact inv_setStatePe _ rfl
    · exact inv_setStatePe _ rfl
    · exact inv_setReadyState (eq_false_of_ne_true haccept)
    · refine inv_setStatePe _ (eq_false_of_ne_true fun haccept => hstays ?_)
      exact ⟨haccept, _, hk, rfl, eq_false_of_ne_true hsent, hdiscard⟩
    · exact h
  | prsSrcSnk =>
    simp only [evaluateSwapRun, prsSrcSnkEvaluateSwapRun]
    split_ifs with hsent haccept
    · exact inv_setStatePe _ rfl
    · exact inv_setStatePe _ (eq_false_of_ne_true haccept)
    · exact h
  | prsSnkSrc =>
    have hanswered : Inv (prsSnkSrcAnswered d s) := by
      unfold prsSnkSrcAnswered
      simp only
      split_ifs with hsent haccept
      · exact inv_setStatePe _ rfl
      · exact inv_setStatePe _ (eq_false_of_ne_true haccept)
      · exact h
    simp only [evaluateSwapRun, prsSnkSrcEvaluateSwapRun]
    split
    · exact hanswered.flags rfl rfl rfl
    · exact hanswered

theorem accept_clear (h : Inv s) (hstays : ¬ Abandons s e)
    (hleaves : ∀ k, s.pe = .evaluateSwap k → s.accept = true → Abandons s e) : s.accept = false := by
  refine eq_false_of_ne_true fun haccept => ?_
  by_cases hrests : s.pe.Rests
  · rw [h.rests hrests] at haccept
    cases haccept
  · obtain ⟨k, hk⟩ := not_forall_not.mp hrests
    exact hstays (hleaves k hk haccept)

theorem inv_peReportError (h : Inv s) {err : PeError} {sop : Bool}
    (hstays : ¬ Abandons s (.reportError err sop, d)) : Inv (peReportError d err sop s) := by
  unfold peReportError
  split_ifs with htimeout hreset hhandles hsoft
  · exact h
  · exact inv_setHardReset (h.rests (hreset ▸ nofun))
  · exact h.flags rfl rfl rfl
  all_goals
    have hclear : s.accept = false := by
      refine accept_clear h hstays fun k hk haccept => ⟨haccept, k, hk, htimeout, ?_⟩
      rintro rfl
      exact hhandles (by rw [hk]; rfl)
  · exact inv_setStatePe _ hclear
  · exact inv_setReadyState hclear

theorem inv_step (h : Inv s) (hstays : ¬ Abandons s e) : Inv (step s e) := by
  obtain ⟨e, d⟩ := e
  cases e with
  | run =>
    simp only [step]
    split
    · rename_i k hk
      exact inv_run h hk hstays
    · exact h
  | other flags next =>
    simp only [step]
    split
    · exact h
    · exact h.flags rfl rfl rfl
    · rename_i new _ hrests
      exact inv_setStatePe _ (h.rests hrests)
  | messageSent => exact h.flags rfl rfl rfl
  | messageReceived => exact h.flags rfl rfl rfl
  | reportError err sop => exact inv_peReportError h hstays
  | reportDiscard => exact h.flags rfl rfl rfl
  | gotSoftReset =>
    exact inv_setStatePe _ (accept_clear h hstays fun k hk haccept => ⟨haccept, k, hk, trivial⟩)
  | gotHardReset role =>
    simp only [step, peGotHardReset]
    split_ifs with hfrs
    · exact inv_setStatePe _ (accept_clear h hstays fun k hk haccept => ⟨haccept, k, hk, .inl hfrs⟩)
    · cases role with
      | source =>
        have hclear : s.accept = false :=
          accept_clear h hstays fun k hk haccept => ⟨haccept, k, hk, .inr rfl⟩
        exact inv_setStatePe _ hclear
      -- a sink goes to its default state at once, which clears the flags
      | sink => exact ⟨nofun, fun _ => rfl⟩
  | hardResetRequest =>
    have hclear := accept_clear h hstays fun k hk haccept => ⟨haccept, k, hk, trivial⟩
    simp only [step, hardResetRequested]
    split
    · exact inv_setStatePe _ hclear
    · exact inv_setHardReset hclear
  | frsSignaled =>
    exact inv_setStatePe _ (accept_clear h hstays fun k hk haccept => ⟨haccept, k, hk, trivial⟩)
  | init => exact ⟨nofun, fun _ => rfl⟩

/-! ## Runs -/

def SwapState.isSwapping : SwapState → Bool
  | .drsChange | .vcsWaitForVconnSwap | .vcsTurnOnVconnSwap | .prsSrcSnkTransitionToOff
  | .prsSnkSrcTransitionToOff => true
  | _ => false

theorem SwapState.Begins.isSwapping {st : SwapState} (h : st.Begins k) : st.isSwapping = true := by
  cases k with
  | vcs => rcases h with rfl | rfl <;> rfl
  | _ =>
    cases h
    rfl

theorem setReadyState_isReady : (setReadyState d s).pe.IsReady := by
  unfold setReadyState
  split
  · exact .inl rfl
  · exact .inr rfl

theorem not_begins_of_isReady {st : SwapState} (h : st.IsReady) : ¬ st.Begins k := by
  intro hbegins
  have hswapping := hbegins.isSwapping
  rcases h with rfl | rfl <;> cases hswapping

theorem evaluateSwapRun_sent (hsent : s.txComplete = true) :
    (s.accept = true ∧ (evaluateSwapRun d k s).pe.Begins k) ∨
      (s.accept = false ∧ (evaluateSwapRun d k s).pe.IsReady) := by
  by_cases haccept : s.accept = true
  · refine .inl ⟨haccept, ?_⟩
    cases k with
    | drs =>
      simp only [evaluateSwapRun, drsEvaluateSwapRun, hsent, haccept, if_true]
      rfl
    | vcs =>
      simp only [evaluateSwapRun, vcsEvaluateSwapRun, hsent, haccept, if_true]
      split_ifs
      · exact .inl rfl
      · exact .inr rfl
    | prsSrcSnk =>
      simp only [evaluateSwapRun, prsSrcSnkEvaluateSwapRun, hsent, haccept, if_true]
      rfl
    | prsSnkSrc =>
      simp only [evaluateSwapRun, prsSnkSrcEvaluateSwapRun, prsSnkSrcAnswered, hsent, haccept,
        if_true]
      split <;> rfl
  · refine .inr ⟨eq_false_of_ne_true haccept, ?_⟩
    cases k with
    | drs =>
      simp only [evaluateSwapRun, drsEvaluateSwapRun, hsent, if_true, if_neg haccept]
      exact setReadyState_isReady
    | vcs =>
      simp only [evaluateSwapRun, vcsEvaluateSwapRun, hsent, if_true, if_neg haccept]
      exact setReadyState_isReady
    | prsSrcSnk =>
      simp only [evaluateSwapRun, prsSrcSnkEvaluateSwapRun, hsent, if_true, if_neg haccept]
      exact .inl rfl
    | prsSnkSrc =>
      simp only [evaluateSwapRun, prsSnkSrcEvaluateSwapRun, prsSnkSrcAnswered, hsent, if_true,
        if_neg haccept]
      split <;> exact .inr rfl

theorem evaluateSwapRun_waiting (hk : s.pe = .evaluateSwap k) (hsent : ¬ s.txComplete = true) :
    ¬ (evaluateSwapRun d k s).pe.Begins k := by
  intro hbegins
  have hswapping := hbegins.isSwapping
  have hwaits : s.pe.isSwapping ≠ true := by
    rw [hk]
    exact nofun
  cases k with
  | drs =>
    simp only [evaluateSwapRun, drsEvaluateSwapRun, if_neg hsent] at hswapping
    exact hwaits hswapping
  | vcs =>
    simp only [evaluateSwapRun, vcsEvaluateSwapRun, if_neg hsent, checkOutgoingDiscard] at hswapping
    split_ifs at hswapping
    · cases hswapping
    · exact hwaits hswapping
  | prsSrcSnk =>
    simp only [evaluateSwapRun, prsSrcSnkEvaluateSwapRun, if_neg hsent] at hswapping
    exact hwaits hswapping
  | prsSnkSrc =>
    simp only [evaluateSwapRun, prsSnkSrcEvaluateSwapRun, prsSnkSrcAnswered, if_neg hsent]
      at hswapping
    split_ifs at hswapping
    · exact hwaits hswapping
    · exact hwaits hswapping

theorem setReadyState_isSwapping : (setReadyState d s).pe.isSwapping = false := by
  unfold setReadyState
  split <;> rfl

theorem setHardReset_isSwapping : (setHardReset d s).pe.isSwapping = false := by
  unfold setHardReset
  split <;> rfl

theorem step_isSwapping (hk : s.pe = .evaluateSwap k) (hrun : e.1 ≠ .run) :
    (step s e).pe.isSwapping = false := by
  have hwaits : s.pe.isSwapping = false := by
    rw [hk]
    rfl
  obtain ⟨e, d⟩ := e
  cases e with
  | run => exact absurd rfl hrun
  | other flags next =>
    simp only [step, hk]
    rfl
  | messageSent => exact hwaits
  | messageReceived => exact hwaits
  | reportError err sop =>
    simp only [step, peReportError]
    split_ifs
    · exact hwaits
    · exact setHardReset_isSwapping
    · exact hwaits
    · rfl
    · exact setReadyState_isSwapping
  | reportDiscard => exact hwaits
  | gotSoftReset =>
    simp only [step, peGotSoftReset]
    split_ifs <;> rfl
  | gotHardReset role =>
    simp only [step, peGotHardReset]
    split_ifs
    · rfl
    · cases role <;> rfl
  | hardResetRequest =>
    simp only [step, hardResetRequested]
    split_ifs
    · rfl
    · exact setHardReset_isSwapping
  | frsSignaled => rfl
  | init => rfl

theorem Inv.swapsOnlyAccepted (h : Inv s) (e : Event × Dpm) : SwapsOnlyAccepted s e where
  begins k hk hbegins := by
    by_cases hrun : e.1 = .run
    · have hstep : step s e = evaluateSwapRun e.2 k s := by
        obtain ⟨e, d⟩ := e
        cases hrun
        simp only [step, hk]
      rw [hstep] at hbegins
      by_cases hsent : s.txComplete = true
      · rcases evaluateSwapRun_sent hsent with ⟨haccept, _⟩ | ⟨_, hready⟩
        · exact (h.evaluates k hk).mp haccept
        · exact absurd hbegins (not_begins_of_isReady hready)
      · exact absurd hbegins (evaluateSwapRun_waiting hk hsent)
    · have hswapping := hbegins.isSwapping
      rw [step_isSwapping hk hrun] at hswapping
      cases hswapping
  returns k hk hrun hsent hanswer := by
    obtain ⟨e, d⟩ := e
    cases hrun
    simp only [step, hk]
    rcases evaluateSwapRun_sent (d := d) (k := k) hsent with ⟨haccept, _⟩ | ⟨_, hready⟩
    · exact absurd ((h.evaluates k hk).mp haccept) hanswer
    · exact hready
  enters _ hrests _ := h.rests hrests

/-- In every run that abandons no accepted evaluation, a swap begins only after Accept. -/
theorem swaps_only_accepted {role : PowerRole}
    (h : Reach step (fun s e => ¬ Abandons s e) (boot role) s) (e : Event × Dpm) :
    SwapsOnlyAccepted s e :=
  (h.invariant (inv_boot role) fun _ _ hinv hstays => inv_step hinv hstays).swapsOnlyAccepted e

/-! ## Two runs -/

def Flags.contract : Flags where
  powerRole := .sink
  txComplete := false
  msgReceived := false
  msgDiscarded := false
  protocolError := false
  interruptibleAms := false
  explicitContract := true
  fastRoleSwapPath := false

def Dpm.dataOnly : Dpm :=
  ⟨true, false, false, 0, false⟩

/-- A swap of the data role that the partner asks for and gets -/
theorem swaps_only_accepted_drs :
    SwapsOnlyAccepted
      (step (step (boot .sink) (.other .contract (some (.evaluateSwap .drs)), .dataOnly))
        (.messageSent, .dataOnly)) (.run, .dataOnly) :=
  swaps_only_accepted
    (.step (.step .start fun h => nomatch h.1) fun h => by
      obtain ⟨_, _, _, hleaves⟩ := h
      exact hleaves) _

/-- The Accept of a swap of the data role is not sent.  After the soft reset the partner asks for a
swap of the power role, which is rejected. -/
def afterLostAccept : List (Event × Dpm) :=
  [(.other .contract (some .snkReady), .dataOnly),
    (.other .contract (some (.evaluateSwap .drs)), .dataOnly),
    (.reportError .tchXmit true, .dataOnly),
    (.other .contract (some (.elsewhere false)), .dataOnly),
    (.other .contract (some .snkReady), .dataOnly),
    (.other .contract (some (.evaluateSwap .prsSnkSrc)), .dataOnly),
    (.messageSent, .dataOnly)]

/-- The power roles are swapped all the same. -/
theorem rejected_swap_begins :
    Reach step (fun _ _ => True) (boot .sink) (afterLostAccept.foldl step (boot .sink)) ∧
      (afterLostAccept.foldl step (boot .sink)).sent = some .reject ∧
      ¬ SwapsOnlyAccepted (afterLostAccept.foldl step (boot .sink)) (.run, .dataOnly) := by
  refine ⟨Reach.allowed (allowed_of_forall (fun _ _ => trivial) _ _) .start, by decide, ?_⟩
  intro h
  have hsent := h.begins .prsSnkSrc (by decide) rfl
  revert hsent
  decide

end ChromiumEc.Usbc.Pe.Swap
