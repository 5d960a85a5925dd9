import Mathlib.Tactic.SplitIfs
import ChromiumEc.Usbc.Prl.Run

/-!
# Phases — invariants of the protocol layer, machine by machine

`prl_run` runs prl_hr, message reception, rch, tch, prl_tx and tch again.  A property of all runs is
proved from one lemma for each of these machines.  It may take a different shape between the
machines: `I` between calls and up to rch, `J` before the first run of tch, `K` before prl_tx and
`L` before the second run of tch.

A `PhaseGuard` is a condition on the states in which the single machines are run; `g.ok` says that a
step meets it.

`set_state` on one of the machines either finds the machine in the new state already or runs the
exit function, the change of state and the entry function.  The rules below split a goal about the
result along these two cases.  The frame relation `TxOnly` says what a change of state of prl_tx
leaves alone.
-/

namespace ChromiumEc.Usbc

/-- A condition on the state before message reception, rch, each run of tch, and prl_tx. -/
structure PhaseGuard where
  rx : Prl → Prop := fun _ => True
  rch : Prl → Prop := fun _ => True
  tch : Prl → Prop := fun _ => True
  tx : Prl → Prop := fun _ => True

namespace PhaseGuard

open Prl

/-- The guard along `runChunked`. -/
def chunked (g : PhaseGuard) (react : PeReaction) (s : Prl) : Prop :=
  g.rch s ∧ g.tch (rchRun react s) ∧ g.tx (tchRun react (rchRun react s)) ∧
    g.tch (prlTxRun (tchRun react (rchRun react s)))

/-- The guard along `runLayer`. -/
def layer (g : PhaseGuard) (react : PeReaction) (late : Option TcpcTx) (s : Prl) : Prop :=
  s.prlHr.state = .waitForRequest →
    g.rx s ∧ g.chunked react (arrive late (prlRxWaitForPhyMessage react s))

/-- The state from which `prl_run` continues as in `SM_RUN`. -/
def begin (s : Prl) : Prl :=
  match s.localState with
  | .smRun => s
  | _ => { prlInit s with localState := .smRun }

/-- The step meets the guard in every machine it runs. -/
def ok (g : PhaseGuard) (s : Prl) : PrlEvent → Prop
  | .prlRun react en late => en = true → g.layer react late (prlHrRun react (begin s))
  | _ => True

section Decidable

variable (g : PhaseGuard) [DecidablePred g.rx] [DecidablePred g.rch] [DecidablePred g.tch]
  [DecidablePred g.tx]

instance (react : PeReaction) : DecidablePred (g.chunked react) := fun s =>
  inferInstanceAs (Decidable (g.rch s ∧ g.tch (rchRun react s) ∧
    g.tx (tchRun react (rchRun react s)) ∧ g.tch (prlTxRun (tchRun react (rchRun react s)))))

instance (react : PeReaction) (late : Option TcpcTx) : DecidablePred (g.layer react late) :=
  fun s => inferInstanceAs (Decidable (s.prlHr.state = .waitForRequest →
    g.rx s ∧ g.chunked react (arrive late (prlRxWaitForPhyMessage react s))))

instance (s : Prl) : DecidablePred (g.ok s)
  | .prlRun react en late =>
    inferInstanceAs (Decidable (en = true → g.layer react late (prlHrRun react (begin s))))
  | .peCall _ | .pdExecuteHardReset | .pdTransmitComplete _ | .tcpmEnqueueMessage _
  | .timerElapses _ => .isTrue trivial

end Decidable

/-- The guard `g` where a property of the shapes `I`, `J`, `K` and `L` holds as well. -/
def given (g : PhaseGuard) (I J K L : Prl → Prop) : PhaseGuard where
  rx s := g.rx s ∧ I s
  rch s := g.rch s ∧ I s
  tch s := g.tch s ∧ (J s ∨ L s)
  tx s := g.tx s ∧ K s

theorem ok_default (s : Prl) (e : PrlEvent) : (PhaseGuard.ok {} s e) := by
  cases e with
  | prlRun react en late =>
    intro _ _
    exact ⟨trivial, trivial, trivial, trivial, trivial⟩
  | _ => trivial

end PhaseGuard

namespace Prl

open PhaseGuard

theorem prlRun_eq (react : PeReaction) (en : Bool) (late : Option TcpcTx) (s : Prl) :
    prlRun react en late s = s ∨
      prlRun react en late s = prlRunning react en late (begin s) := by
  cases hs : s.localState with
  | smInit =>
    right
    simp [prlRun, begin, hs]
  | smRun =>
    right
    simp [prlRun, begin, hs]
  | smPaused =>
    cases en with
    | false =>
      left
      simp [prlRun, hs]
    | true =>
      right
      simp [prlRun, begin, hs]

/-- What has to be shown of a property that takes the shapes `I`, `J`, `K` and `L` along
`prl_run`. -/
structure PhaseInvariant (g : PhaseGuard) (I J K L : Prl → Prop) : Prop where
  init : ∀ s, I s → I { prlInit s with localState := .smRun }
  pause : ∀ s, I s → I { s.emit (.tcpmSetRxEnable false) with localState := .smPaused }
  hr : ∀ react s, I s → I (prlHrRun react s)
  rx : ∀ react s, I s → s.prlHr.state = .waitForRequest → g.rx s →
    I (prlRxWaitForPhyMessage react s)
  rch : ∀ react s, I s → g.rch s → J (rchRun react s)
  tch : ∀ react s, J s → g.tch s → K (tchRun react s)
  tx : ∀ s, K s → g.tx s → L (prlTxRun s)
  tchAgain : ∀ react s, L s → g.tch s → I (tchRun react s)
  call : ∀ call s, I s → I (peCall call s)
  hardReset : ∀ s, I s → I (pdExecuteHardReset s)
  transmitComplete : ∀ status s, I s → I (pdTransmitComplete status s)
  enqueue : ∀ frame (s : Prl), I s → I { s with tcpm := s.tcpm ++ [frame] }
  elapse : ∀ timer (s : Prl), I s → I { s with timers := s.timers.elapse timer }

namespace PhaseInvariant

variable {g : PhaseGuard} {I J K L : Prl → Prop}

theorem runChunked (h : PhaseInvariant g I J K L) {react : PeReaction} {s : Prl} (hs : I s)
    (hg : g.chunked react s) : I (runChunked react s) := by
  obtain ⟨hrch, htch, htx, htch'⟩ := hg
  have h₁ : J (rchRun react s) := h.rch react s hs hrch
  have h₂ : K (tchRun react (rchRun react s)) := h.tch react _ h₁ htch
  have h₃ : L (prlTxRun (tchRun react (rchRun react s))) := h.tx _ h₂ htx
  exact h.tchAgain react _ h₃ htch'

theorem arrive (h : PhaseInvariant g I J K L) {late : Option TcpcTx} {s : Prl} (hs : I s) :
    I (arrive late s) := by
  cases late with
  | none => exact hs
  | some status => exact h.transmitComplete status s hs

theorem runLayer (h : PhaseInvariant g I J K L) {react : PeReaction} {late : Option TcpcTx}
    {s : Prl} (hs : I s) (hg : g.layer react late s) : I (runLayer react late s) := by
  by_cases hw : s.prlHr.state = .waitForRequest
  · obtain ⟨hrx, hchunked⟩ := hg hw
    have h₁ : I (prlRxWaitForPhyMessage react s) := h.rx react s hs hw hrx
    simp only [Prl.runLayer, hw, if_true]
    exact h.runChunked (h.arrive h₁) hchunked
  · simpa only [Prl.runLayer, hw, if_false] using hs

theorem begin (h : PhaseInvariant g I J K L) {s : Prl} (hs : I s) : I (begin s) := by
  unfold PhaseGuard.begin
  split
  · exact hs
  · exact h.init s hs

theorem prlRun (h : PhaseInvariant g I J K L) {react : PeReaction} {en : Bool}
    {late : Option TcpcTx} {s : Prl} (hs : I s) (hg : g.ok s (.prlRun react en late)) :
    I (prlRun react en late s) := by
  have hbegin := h.begin hs
  rcases prlRun_eq react en late s with heq | heq
  · rw [heq]
    exact hs
  · rw [heq]
    cases en with
    | false => exact h.pause _ hbegin
    | true => exact h.runLayer (h.hr react _ hbegin) (hg rfl)

theorem and {I' J' K' L' : Prl → Prop} (h : PhaseInvariant g I J K L)
    (h' : PhaseInvariant (g.given I J K L) I' J' K' L') :
    PhaseInvariant g (fun s => I s ∧ I' s) (fun s => J s ∧ J' s) (fun s => K s ∧ K' s)
      (fun s => L s ∧ L' s) where
  init s hs := ⟨h.init s hs.1, h'.init s hs.2⟩
  pause s hs := ⟨h.pause s hs.1, h'.pause s hs.2⟩
  hr react s hs := ⟨h.hr react s hs.1, h'.hr react s hs.2⟩
  rx react s hs hw hg := ⟨h.rx react s hs.1 hw hg, h'.rx react s hs.2 hw ⟨hg, hs.1⟩⟩
  rch react s hs hg := ⟨h.rch react s hs.1 hg, h'.rch react s hs.2 ⟨hg, hs.1⟩⟩
  tch react s hs hg := ⟨h.tch react s hs.1 hg, h'.tch react s hs.2 ⟨hg, .inl hs.1⟩⟩
  tx s hs hg := ⟨h.tx s hs.1 hg, h'.tx s hs.2 ⟨hg, hs.1⟩⟩
  tchAgain react s hs hg := ⟨h.tchAgain react s hs.1 hg, h'.tchAgain react s hs.2 ⟨hg, .inr hs.1⟩⟩
  call call s hs := ⟨h.call call s hs.1, h'.call call s hs.2⟩
  hardReset s hs := ⟨h.hardReset s hs.1, h'.hardReset s hs.2⟩
  transmitComplete status s hs :=
    ⟨h.transmitComplete status s hs.1, h'.transmitComplete status s hs.2⟩
  enqueue frame s hs := ⟨h.enqueue frame s hs.1, h'.enqueue frame s hs.2⟩
  elapse timer s hs := ⟨h.elapse timer s hs.1, h'.elapse timer s hs.2⟩

theorem reach (h : PhaseInvariant g I J K L) {s₀ s : Prl} (h₀ : I s₀)
    (hs : Lib.Reach step g.ok s₀ s) : I s := by
  refine hs.invariant h₀ ?_
  intro s e hI hok
  cases e with
  | prlRun react en late => exact h.prlRun hI hok
  | peCall call => exact h.call call s hI
  | pdExecuteHardReset => exact h.hardReset s hI
  | pdTransmitComplete status => exact h.transmitComplete status s hI
  | tcpmEnqueueMessage frame => exact h.enqueue frame s hI
  | timerElapses timer => exact h.elapse timer s hI

end PhaseInvariant

end Prl

namespace Prl

variable {s s' s'' : Prl}

/-! ## Rules for `set_state` -/

theorem setPrlTx_rule {P : Prl → Prop} {new : PrlTxState} {entry : Prl → Prl}
    (same : s.prlTx.state = new → P s)
    (move : s.prlTx.state ≠ new →
      P (entry { s with timers := prlTxExit s.prlTx.state s.timers, prlTx.state := new })) :
    P (setPrlTx new entry s) := by
  unfold setPrlTx
  split_ifs with h
  · exact same h
  · exact move h

theorem setRch_rule {P : Prl → Prop} {new : RchState} {entry : Prl → Prl}
    (same : s.rch.state = new → P s)
    (move : s.rch.state ≠ new →
      P (entry { s with timers := rchExit s.rch.state s.timers, rch.state := new })) :
    P (setRch new entry s) := by
  unfold setRch
  split_ifs with h
  · exact same h
  · exact move h

theorem setTch_rule {P : Prl → Prop} {new : TchState} {entry : Prl → Prl}
    (same : s.tch.state = new → P s)
    (move : s.tch.state ≠ new →
      P (entry { s with timers := tchExit s.tch.state s.timers, tch.state := new })) :
    P (setTch new entry s) := by
  unfold setTch
  split_ifs with h
  · exact same h
  · exact move h

@[simp] theorem setRchWait_state (s : Prl) :
    (setRchWait s).rch.state = .waitForMessageFromProtocolLayer :=
  setRch_rule (P := fun s' : Prl => s'.rch.state = _) (fun h => h) (fun _ => rfl)

@[simp] theorem setTchWait_state (s : Prl) :
    (setTchWait s).tch.state = .waitForMessageRequestFromPe :=
  setTch_rule (P := fun s' : Prl => s'.tch.state = _) (fun h => h) (fun _ => rfl)

/-! ## What a change of state of prl_tx leaves alone -/

/-- `s'` differs from `s` at most in prl_tx, the timers, the polled inputs and the trace. -/
def TxOnly (s s' : Prl) : Prop :=
  ∃ tx timers env trace,
    s' = { s with prlTx := tx, timers := timers, env := env, trace := trace }

namespace TxOnly

theorem refl (s : Prl) : TxOnly s s :=
  ⟨s.prlTx, s.timers, s.env, s.trace, rfl⟩

theorem trans (h : TxOnly s s') (h' : TxOnly s' s'') : TxOnly s s'' := by
  obtain ⟨_, _, _, _, rfl⟩ := h
  obtain ⟨tx, timers, env, trace, rfl⟩ := h'
  exact ⟨tx, timers, env, trace, rfl⟩

theorem prlHr (h : TxOnly s s') : s'.prlHr = s.prlHr := by
  obtain ⟨_, _, _, _, rfl⟩ := h
  rfl

theorem rch (h : TxOnly s s') : s'.rch = s.rch := by
  obtain ⟨_, _, _, _, rfl⟩ := h
  rfl

theorem tch (h : TxOnly s s') : s'.tch = s.tch := by
  obtain ⟨_, _, _, _, rfl⟩ := h
  rfl

end TxOnly

theorem txOnly_setPrlTx {new : PrlTxState} {entry : Prl → Prl} (he : ∀ s, TxOnly s (entry s)) :
    TxOnly s (setPrlTx new entry s) := by
  refine setPrlTx_rule (fun _ => TxOnly.refl s) (fun _ => ?_)
  refine TxOnly.trans ?_ (he _)
  exact ⟨_, _, s.env, s.trace, rfl⟩

theorem txOnly_prlTxPhyLayerResetEntry (s : Prl) : TxOnly s (prlTxPhyLayerResetEntry s) := by
  have h : TxOnly s (s.emit (.tcpmSetRxEnable s.env.isConnected)) :=
    ⟨s.prlTx, s.timers, s.env, _, rfl⟩
  exact h.trans (txOnly_setPrlTx fun s => ⟨_, s.timers, s.env, s.trace, rfl⟩)

theorem txOnly_incrementMsgidCounter (s : Prl) : TxOnly s (incrementMsgidCounter s) := by
  unfold incrementMsgidCounter
  split_ifs
  · exact TxOnly.refl s
  · exact ⟨_, s.timers, s.env, s.trace, rfl⟩

theorem txOnly_prlTxDiscardMessageEntry (s : Prl) : TxOnly s (prlTxDiscardMessageEntry s) := by
  unfold prlTxDiscardMessageEntry
  refine TxOnly.trans ?_ (txOnly_setPrlTx txOnly_prlTxPhyLayerResetEntry)
  split_ifs
  · have hclear : TxOnly s { s with prlTx.flags.msgXmit := false } :=
      ⟨_, s.timers, s.env, s.trace, rfl⟩
    refine (hclear.trans (txOnly_incrementMsgidCounter _)).trans ?_
    exact ⟨_, _, _, _, rfl⟩
  · exact TxOnly.refl s

theorem txOnly_setStatePrlTx {new : PrlTxState} (hn : new ≠ .layerResetForTransmit) :
    TxOnly s (setStatePrlTx new s) := by
  cases new with
  | layerResetForTransmit => exact absurd rfl hn
  | phyLayerReset => exact txOnly_setPrlTx txOnly_prlTxPhyLayerResetEntry
  | discardMessage => exact txOnly_setPrlTx txOnly_prlTxDiscardMessageEntry
  | srcSourceTx => exact txOnly_setPrlTx fun s => ⟨s.prlTx, s.timers, s.env, _, rfl⟩
  | waitForMessageRequest => exact txOnly_setPrlTx fun s => ⟨_, s.timers, s.env, s.trace, rfl⟩
  | waitForPhyResponse | srcPending =>
    exact txOnly_setPrlTx fun s => ⟨s.prlTx, _, s.env, s.trace, rfl⟩
  | snkStartAms | snkPending => exact txOnly_setPrlTx TxOnly.refl

theorem txOnly_rxDiscardTx (isPing : Bool) (s : Prl) : TxOnly s (rxDiscardTx isPing s) := by
  unfold rxDiscardTx
  split_ifs
  · exact txOnly_setStatePrlTx (by simp)
  · exact TxOnly.refl s

end Prl

end ChromiumEc.Usbc
