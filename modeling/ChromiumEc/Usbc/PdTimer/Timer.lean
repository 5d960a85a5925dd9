import ChromiumEc.Lib.Bitmap
import ChromiumEc.Lib.Cells

/-!
# Timer — the table of USB-PD timers

`usb_pd_timer.c` keeps two bitmaps with a bit for each timer of each port, and a table of expiry
times.  A timer is disabled, active or inactive; an inactive timer has expired.

The table is a family of timers that are independent of each other.  Each is disabled, active until
a time, or inactive; the calls act on the timers of their port, their timer or their range.
-/

namespace ChromiumEc.Usbc.PdTimer

open Lib

/-! ## Types -/

/-- `enum pd_task_timer` -/
inductive PdTaskTimer
  | dpmPdButtonLongPress
  | dpmPdButtonShortPress
  | peBistContMode
  | peChunkingNotSupported
  | peDataResetFail
  | peDiscoverIdentity
  | peNoResponse
  | pePrSwapWait
  | pePsHardReset
  | pePsSource
  | pePsTransition
  | peSenderResponse
  | peSinkEprEnter
  | peSinkEprKeepAlive
  | peSinkRequest
  | peSourceCap
  | peSrcTransition
  | peSwapSourceStart
  | peTimeout
  | peVconnDischarge
  | peVconnOn
  | peVconnReapplied
  | peVdmResponse
  | peWaitAndAddJitter
  | prChunkSenderResponse
  | prChunkSenderRequest
  | prHardResetComplete
  | prSinkTx
  | prTcpcTxTimeout
  | tcCcDebounce
  | tcLowPowerExitTime
  | tcLowPowerTime
  | tcNextRoleSwap
  | tcPdDebounce
  | tcTimeout
  | tcTryWaitDebounce
  | tcVbusDebounce
  deriving DecidableEq, Repr

def pdTimerCount : Nat := 37

namespace PdTaskTimer

def all : List PdTaskTimer :=
  [dpmPdButtonLongPress, dpmPdButtonShortPress, peBistContMode, peChunkingNotSupported,
    peDataResetFail, peDiscoverIdentity, peNoResponse, pePrSwapWait, pePsHardReset, pePsSource,
    pePsTransition, peSenderResponse, peSinkEprEnter, peSinkEprKeepAlive, peSinkRequest,
    peSourceCap, peSrcTransition, peSwapSourceStart, peTimeout, peVconnDischarge, peVconnOn,
    peVconnReapplied, peVdmResponse, peWaitAndAddJitter, prChunkSenderResponse,
    prChunkSenderRequest, prHardResetComplete, prSinkTx, prTcpcTxTimeout, tcCcDebounce,
    tcLowPowerExitTime, tcLowPowerTime, tcNextRoleSwap, tcPdDebounce, tcTimeout,
    tcTryWaitDebounce, tcVbusDebounce]

def index (timer : PdTaskTimer) : Nat :=
  timer.ctorIdx

theorem mem_all (timer : PdTaskTimer) : timer ∈ all := by
  cases timer <;> decide

theorem nodup_all : all.Nodup := by
  decide

theorem index_lt (timer : PdTaskTimer) : timer.index < pdTimerCount := by
  cases timer <;> decide

theorem index_injective {t t' : PdTaskTimer} (h : t.index = t'.index) : t = t' := by
  have hget : ∀ t : PdTaskTimer, all[t.index]? = some t := by
    intro t
    cases t <;> rfl
  have hsome := (hget t).symm.trans ((congrArg (all[·]?) h).trans (hget t'))
  exact Option.some.inj hsome

end PdTaskTimer

/-- `enum pd_timer_range`, and any other value -/
inductive PdTimerRange
  | dpm
  | pe
  | pr
  | tc
  | other
  deriving DecidableEq, Repr

def PdTimerRange.bounds : PdTimerRange → Option (PdTaskTimer × PdTaskTimer)
  | .dpm => some (.dpmPdButtonLongPress, .dpmPdButtonShortPress)
  | .pe => some (.peBistContMode, .peWaitAndAddJitter)
  | .pr => some (.prChunkSenderResponse, .prTcpcTxTimeout)
  | .tc => some (.tcCcDebounce, .tcVbusDebounce)
  | .other => none

/-- The timers of `for (timer = start; timer <= end; ++timer)` -/
def PdTimerRange.timers (range : PdTimerRange) : List PdTaskTimer :=
  match range.bounds with
  | some (first, last) =>
    PdTaskTimer.all.filter fun t => first.index ≤ t.index ∧ t.index ≤ last.index
  | none => []

/-- The static variables, with `ports` = `MAX_PD_PORTS`.  The counts are for
`CONFIG_CMD_PD_TIMER`. -/
structure Table (ports : Nat) where
  timerActive : BitVec (pdTimerCount * ports)
  timerDisabled : BitVec (pdTimerCount * ports)
  timerExpires : Fin ports → PdTaskTimer → Nat
  count : Fin ports → Int
  maxCount : Fin ports → Int

def boot (ports : Nat) : Table ports :=
  ⟨0, 0, fun _ _ => 0, fun _ => 0, fun _ => 0⟩

section Functions

variable {ports : Nat}

def bitOf (port : Fin ports) (timer : PdTaskTimer) : Nat :=
  port * pdTimerCount + timer.index

/-! ## The macros -/

/-- `PD_CHK_ACTIVE` -/
def chkActive (s : Table ports) (port : Fin ports) (timer : PdTaskTimer) : Bool :=
  s.timerActive.getLsbD (bitOf port timer)

/-- `PD_CHK_DISABLED` -/
def chkDisabled (s : Table ports) (port : Fin ports) (timer : PdTaskTimer) : Bool :=
  s.timerDisabled.getLsbD (bitOf port timer)

/-- `PD_SET_ACTIVE` -/
def setActive (port : Fin ports) (timer : PdTaskTimer) (s : Table ports) : Table ports :=
  { s with timerActive := setBit s.timerActive (bitOf port timer) }

/-- `PD_CLR_ACTIVE` -/
def clrActive (port : Fin ports) (timer : PdTaskTimer) (s : Table ports) : Table ports :=
  { s with timerActive := clearBit s.timerActive (bitOf port timer) }

/-- `PD_SET_DISABLED` -/
def setDisabled (port : Fin ports) (timer : PdTaskTimer) (s : Table ports) : Table ports :=
  { s with timerDisabled := setBit s.timerDisabled (bitOf port timer) }

/-- `PD_CLR_DISABLED` -/
def clrDisabled (port : Fin ports) (timer : PdTaskTimer) (s : Table ports) : Table ports :=
  { s with timerDisabled := clearBit s.timerDisabled (bitOf port timer) }

/-- `timer_expires[port][timer] = expires` -/
def setExpires (port : Fin ports) (timer : PdTaskTimer) (expires : Nat) (s : Table ports) :
    Table ports :=
  { s with
    timerExpires := fun p t => if (p, t) = (port, timer) then expires else s.timerExpires p t }

/-- `count[port]++`, and the maximum -/
def countUp (port : Fin ports) (s : Table ports) : Table ports :=
  let n := s.count port + 1
  { s with
    count := Function.update s.count port n
    maxCount := if n > s.maxCount port then Function.update s.maxCount port n else s.maxCount }

/-- `count[port]--` -/
def countDown (port : Fin ports) (s : Table ports) : Table ports :=
  { s with count := Function.update s.count port (s.count port - 1) }

/-! ## The functions -/

def pdTimerInactive (port : Fin ports) (timer : PdTaskTimer) (s : Table ports) : Table ports :=
  clrDisabled port timer
    (if chkActive s port timer then countDown port (clrActive port timer s) else s)

def pdTimerIsActive (s : Table ports) (port : Fin ports) (timer : PdTaskTimer) : Bool :=
  chkActive s port timer

def pdTimerIsInactive (s : Table ports) (port : Fin ports) (timer : PdTaskTimer) : Bool :=
  !chkActive s port timer && !chkDisabled s port timer

def pdTimerInit (port : Fin ports) (s : Table ports) : Table ports :=
  PdTaskTimer.all.foldl (fun s timer => setDisabled port timer (clrActive port timer s))
    { s with count := Function.update s.count port 0 }

/-- `pd_timer_enable`, at the time `now` -/
def pdTimerEnable (port : Fin ports) (timer : PdTaskTimer) (expiresUs : BitVec 32) (now : Nat)
    (s : Table ports) : Table ports :=
  setExpires port timer (now + expiresUs.toNat)
    (clrDisabled port timer
      (if !chkActive s port timer then countUp port (setActive port timer s) else s))

def pdTimerDisable (port : Fin ports) (timer : PdTaskTimer) (s : Table ports) : Table ports :=
  setDisabled port timer
    (if chkActive s port timer then countDown port (clrActive port timer s) else s)

def pdTimerDisableRange (port : Fin ports) (range : PdTimerRange) (s : Table ports) :
    Table ports :=
  range.timers.foldl (fun s timer => pdTimerDisable port timer s) s

def pdTimerIsDisabled (s : Table ports) (port : Fin ports) (timer : PdTaskTimer) : Bool :=
  chkDisabled s port timer

/-- `pd_timer_is_expired`, at the time `now` -/
def pdTimerIsExpired (port : Fin ports) (timer : PdTaskTimer) (now : Nat) (s : Table ports) :
    Bool × Table ports :=
  if pdTimerIsActive s port timer then
    if s.timerExpires port timer ≤ now then (true, pdTimerInactive port timer s) else (false, s)
  else (pdTimerIsInactive s port timer, s)

/-- The body of the loop of `pd_timer_manage_expired` -/
def manageExpired (port : Fin ports) (now : PdTaskTimer → Nat) (s : Table ports)
    (timer : PdTaskTimer) : Table ports :=
  if pdTimerIsActive s port timer then
    let r := pdTimerIsExpired port timer (now timer) s
    if r.1 then pdTimerInactive port timer r.2 else r.2
  else s

/-- `pd_timer_manage_expired`; `now` is the time at each of the queries. -/
def pdTimerManageExpired (port : Fin ports) (now : PdTaskTimer → Nat) (s : Table ports) :
    Table ports :=
  PdTaskTimer.all.foldl (manageExpired port now) s

end Functions

end PdTimer

namespace PdTimer

open Lib

/-! ## One timer -/

structure Cell where
  active : Bool
  disabled : Bool
  expires : Nat
  deriving DecidableEq, Repr

namespace Cell

def disable (c : Cell) : Cell :=
  ⟨false, true, c.expires⟩

def expire (c : Cell) : Cell :=
  ⟨false, false, c.expires⟩

/-- A timer that is queried at the time `now` -/
def query (now : Nat) (c : Cell) : Cell :=
  if c.active ∧ c.expires ≤ now then c.expire else c

def expired (now : Nat) (c : Cell) : Bool :=
  if c.active then decide (c.expires ≤ now) else !c.disabled

end Cell

inductive Status
  | disabled
  | active
  | inactive
  deriving DecidableEq, Repr

section Views

variable {ports : Nat}

/-- What the table has for a pair of a port and a timer -/
def cell (s : Table ports) (pair : Fin ports × PdTaskTimer) : Cell :=
  ⟨chkActive s pair.1 pair.2, chkDisabled s pair.1 pair.2, s.timerExpires pair.1 pair.2⟩

def InStatus (s : Table ports) (port : Fin ports) (timer : PdTaskTimer) : Status → Prop
  | .disabled => chkDisabled s port timer = true ∧ chkActive s port timer = false
  | .active => chkActive s port timer = true ∧ chkDisabled s port timer = false
  | .inactive => chkActive s port timer = false ∧ chkDisabled s port timer = false

end Views

section Functions

variable {ports : Nat} {port : Fin ports} {timer : PdTaskTimer}

theorem bitOf_lt (port : Fin ports) (timer : PdTaskTimer) :
    bitOf port timer < pdTimerCount * ports := by
  have hindex := timer.index_lt
  have hport : port.val + 1 ≤ ports := port.isLt
  calc
    port * pdTimerCount + timer.index < port * pdTimerCount + pdTimerCount := by omega
    _ = (port + 1) * pdTimerCount := (Nat.succ_mul ..).symm
    _ = pdTimerCount * (port + 1) := Nat.mul_comm ..
    _ ≤ pdTimerCount * ports := Nat.mul_le_mul_left _ hport

theorem bitOf_injective {p : Fin ports} {t : PdTaskTimer} :
    bitOf port timer = bitOf p t ↔ (p, t) = (port, timer) := by
  constructor
  · intro h
    have hindex := timer.index_lt
    have hindex' := t.index_lt
    simp only [bitOf, pdTimerCount] at h hindex hindex'
    have hport : port = p := Fin.ext (by omega)
    have htimer : timer.index = t.index := by omega
    rw [hport, PdTaskTimer.index_injective htimer]
  · intro h
    cases h
    rfl

/-! ## The macros -/

theorem setActive_acts : ActsAt cell (setActive port timer) (port, timer)
    fun c => { c with active := true } where
  here s := by
    simp [cell, chkActive, chkDisabled, setActive, getLsbD_setBit (bitOf_lt port timer)]
  frame s j hj := by
    have hne : ¬ bitOf port timer = bitOf j.1 j.2 := fun h => hj (bitOf_injective.mp h)
    simp [cell, chkActive, chkDisabled, setActive, getLsbD_setBit (bitOf_lt port timer), hne]

theorem clrActive_acts : ActsAt cell (clrActive port timer) (port, timer)
    fun c => { c with active := false } where
  here s := by
    simp [cell, chkActive, chkDisabled, clrActive, getLsbD_clearBit]
  frame s j hj := by
    have hne : ¬ bitOf port timer = bitOf j.1 j.2 := fun h => hj (bitOf_injective.mp h)
    simp [cell, chkActive, chkDisabled, clrActive, getLsbD_clearBit, hne]

theorem setDisabled_acts : ActsAt cell (setDisabled port timer) (port, timer)
    fun c => { c with disabled := true } where
  here s := by
    simp [cell, chkActive, chkDisabled, setDisabled, getLsbD_setBit (bitOf_lt port timer)]
  frame s j hj := by
    have hne : ¬ bitOf port timer = bitOf j.1 j.2 := fun h => hj (bitOf_injective.mp h)
    simp [cell, chkActive, chkDisabled, setDisabled, getLsbD_setBit (bitOf_lt port timer), hne]

theorem clrDisabled_acts : ActsAt cell (clrDisabled port timer) (port, timer)
    fun c => { c with disabled := false } where
  here s := by
    simp [cell, chkActive, chkDisabled, clrDisabled, getLsbD_clearBit]
  frame s j hj := by
    have hne : ¬ bitOf port timer = bitOf j.1 j.2 := fun h => hj (bitOf_injective.mp h)
    simp [cell, chkActive, chkDisabled, clrDisabled, getLsbD_clearBit, hne]

theorem setExpires_acts {expires : Nat} :
    ActsAt cell (setExpires port timer expires) (port, timer)
      fun c => { c with expires := expires } where
  here s := by
    simp [cell, chkActive, chkDisabled, setExpires]
  frame s j hj := by
    obtain ⟨p, t⟩ := j
    simp only [cell, chkActive, chkDisabled, setExpires, if_neg hj]

theorem countUp_acts : ActsAt cell (countUp port) (port, timer) fun c => c where
  here _ := rfl
  frame _ _ _ := rfl

theorem countDown_acts : ActsAt cell (countDown port) (port, timer) fun c => c where
  here _ := rfl
  frame _ _ _ := rfl

/-! ## The functions -/

theorem leaveActive_acts :
    ActsAt cell
      (fun s => if chkActive s port timer then countDown port (clrActive port timer s) else s)
      (port, timer) fun c => { c with active := false } := by
  have hite := ActsAt.ite (c := fun s : Table ports => chkActive s port timer)
    (d := fun a : Cell => a.active) (fun _ => rfl)
    (countDown_acts.comp clrActive_acts) (ActsAt.id (v := cell) (i := (port, timer)))
  refine hite.of_eq fun a => ?_
  obtain ⟨active, disabled, expires⟩ := a
  cases active <;> rfl

theorem pdTimerInactive_acts :
    ActsAt cell (pdTimerInactive port timer) (port, timer) Cell.expire :=
  clrDisabled_acts.comp leaveActive_acts

theorem pdTimerDisable_acts :
    ActsAt cell (pdTimerDisable port timer) (port, timer) Cell.disable :=
  setDisabled_acts.comp leaveActive_acts

theorem pdTimerEnable_acts {expiresUs : BitVec 32} {now : Nat} :
    ActsAt cell (pdTimerEnable port timer expiresUs now) (port, timer)
      fun _ => ⟨true, false, now + expiresUs.toNat⟩ := by
  have henter := ActsAt.ite (c := fun s : Table ports => !chkActive s port timer)
    (d := fun a : Cell => !a.active) (fun _ => rfl)
    (countUp_acts.comp setActive_acts) (ActsAt.id (v := cell) (i := (port, timer)))
  refine (setExpires_acts.comp (clrDisabled_acts.comp henter)).of_eq fun a => ?_
  obtain ⟨active, disabled, expires⟩ := a
  cases active <;> rfl

theorem pdTimerIsExpired_acts {now : Nat} :
    ActsAt cell (fun s => (pdTimerIsExpired port timer now s).2) (port, timer)
      (Cell.query now) := by
  have hite := ActsAt.ite
    (c := fun s : Table ports => chkActive s port timer && decide (s.timerExpires port timer ≤ now))
    (d := fun a : Cell => a.active && decide (a.expires ≤ now)) (fun _ => rfl)
    pdTimerInactive_acts (ActsAt.id (v := cell) (i := (port, timer)))
  have hsame : ∀ s : Table ports, (pdTimerIsExpired port timer now s).2 =
      if chkActive s port timer && decide (s.timerExpires port timer ≤ now) then
        pdTimerInactive port timer s else s := by
    intro s
    by_cases hactive : chkActive s port timer = true
    · by_cases htime : s.timerExpires port timer ≤ now
      · simp [pdTimerIsExpired, pdTimerIsActive, hactive, htime]
      · simp [pdTimerIsExpired, pdTimerIsActive, hactive, htime]
    · simp [pdTimerIsExpired, pdTimerIsActive, hactive]
  simp only [hsame]
  refine hite.of_eq fun a => ?_
  simp only [Cell.query, Bool.and_eq_true, decide_eq_true_eq]

theorem pdTimerIsExpired_answer (s : Table ports) (now : Nat) :
    (pdTimerIsExpired port timer now s).1 = (cell s (port, timer)).expired now := by
  simp only [pdTimerIsExpired, pdTimerIsActive, pdTimerIsInactive, Cell.expired, cell]
  by_cases hactive : chkActive s port timer = true
  · by_cases htime : s.timerExpires port timer ≤ now
    · simp [hactive, htime]
    · simp [hactive, htime]
  · simp [hactive]

end Functions

end ChromiumEc.Usbc.PdTimer
