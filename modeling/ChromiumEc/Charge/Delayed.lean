import ChromiumEc.Charge.Again

/-!
# Delayed — the delayed override

An override that has to wait for a power swap is delayed until a charge arrives on its port, or
until the deferred call `charge_override_timeout`.  A charger that is plugged removes the override,
and the delayed one with it, before it is looked at whether the charge is the awaited one.
-/

namespace ChromiumEc.Charge

open Lib

/-! ## The deferred call -/

section Timeout

variable (cfg : Config)

/-- What the conditions of `charge_manager_make_change` for removing the override are besides
`clear_override`. -/
def RemovesOn (s : State) (port : Nat) : Prop :=
  s.overridePort ≠ .port port ∧ s.overridePort ≠ .dontCharge ∧
    (cfg.drpCharging = true ∨ s.dualroleCapability port = .dedicated)

instance (s : State) (port : Nat) : Decidable (RemovesOn cfg s port) :=
  inferInstanceAs (Decidable (_ ∧ _ ∧ _))

/-- When the deferred call is due after `charge_manager_set_override`. -/
def setOverrideTimeout (sink : Nat → Bool) (now : Nat) (port : Override) (s : State)
    (timeout : Option Nat) : Option Nat :=
  if s.delayedOverridePort ≠ none then timeout
  else
    match port with
    | .port p =>
      if sink p then timeout
      else if s.dualroleCapability p = .dualrole then some (now + powerSwapTimeout)
      else timeout
    | _ => timeout

def removeOverrideTimeout (port : Nat) (s : State) (timeout : Option Nat) : Option Nat :=
  if RemovesOn cfg s port ∧ s.delayedOverridePort ≠ none then none else timeout

def applyDelayedOverrideTimeout (sink : Nat → Bool) (now port : Nat) (charge : ChargePortInfo)
    (s : State) (timeout : Option Nat) : Option Nat :=
  if s.delayedOverridePort = some port ∧ 0 < charge.current ∧ sink port = true ∧
      now < s.delayedOverrideDeadline then
    setOverrideTimeout sink now (.port port) { s with delayedOverridePort := none } none
  else timeout

def updateChargeTimeout (sink : Nat → Bool) (now supplier port : Nat) (charge : ChargePortInfo)
    (s : State) (timeout : Option Nat) : Option Nat :=
  if !isValidPort cfg port then timeout
  else if s.availableCharge supplier port = charge then timeout
  else
    let plugged := 0 < charge.current ∧ (s.availableCharge supplier port).current = 0
    let timeout := if plugged then removeOverrideTimeout cfg port s timeout else timeout
    let s := if plugged then removeOverride cfg port s else s
    applyDelayedOverrideTimeout sink now port charge s timeout

def changeDualroleTimeout (port : Nat) (s : State) (timeout : Option Nat) : Option Nat :=
  if !isValidPort cfg port then timeout
  else if cfg.drpCharging || s.dualroleCapability port != .dedicated then timeout
  else if (List.range cfg.supplierCount).any fun i => 0 < (s.availableCharge i port).current then
    removeOverrideTimeout cfg port s timeout
  else timeout

def updateDualroleTimeout (port : Nat) (cap : DualroleCapabilities) (s : State)
    (timeout : Option Nat) : Option Nat :=
  if !isPdPort cfg port then timeout
  else if cap = s.dualroleCapability port then timeout
  else
    changeDualroleTimeout cfg port
      { s with dualroleCapability := Function.update s.dualroleCapability port cap } timeout

def callTimeout (s : State) (timeout : Option Nat) : Event → Option Nat
  | .updateCharge sink now supplier port charge =>
    updateChargeTimeout cfg sink now supplier port charge s timeout
  | .updateDualrole port cap => updateDualroleTimeout cfg port cap s timeout
  | .setOverride sink now port => setOverrideTimeout sink now port s timeout
  | .overrideTimeout => none
  | _ => timeout

structure Timed where
  manager : State
  timeout : Option Nat
  now : Nat

inductive TimedEvent
  | pass (d : Nat)
  | event (e : Event)

def timedStep (t : Timed) : TimedEvent → Timed
  | .pass d => { t with now := t.now + d }
  | .event e =>
    { t with manager := step cfg t.manager e, timeout := callTimeout cfg t.manager t.timeout e }

def TimedEvent.Ok (t : Timed) : TimedEvent → Prop
  | .pass _ => True
  | .event (.updateCharge _ now _ _ _) => now = t.now
  | .event (.setOverride _ now _) => now = t.now
  | .event .overrideTimeout => ∃ due, t.timeout = some due ∧ due ≤ t.now
  | .event _ => True

def Timed.init (safeMode : Bool) : Timed :=
  ⟨State.init cfg safeMode, none, 0⟩

def Removes (s : State) : Event → Prop
  | .updateCharge _ _ supplier port charge =>
    isValidPort cfg port = true ∧
      (0 < charge.current ∧ (s.availableCharge supplier port).current = 0) ∧ RemovesOn cfg s port
  | .updateDualrole port cap =>
    isPdPort cfg port = true ∧ isValidPort cfg port = true ∧ cfg.drpCharging = false ∧
      cap = .dedicated ∧ s.dualroleCapability port ≠ .dedicated ∧
      (∃ i < cfg.supplierCount, 0 < (s.availableCharge i port).current) ∧
      s.overridePort ≠ .port port ∧ s.overridePort ≠ .dontCharge
  | _ => False

def Arrives (port : Nat) (s : State) : Event → Prop
  | .updateCharge sink _ supplier p charge =>
    p = port ∧ 0 < charge.current ∧ sink port = true ∧ s.availableCharge supplier port ≠ charge
  | _ => False

end Timeout

variable {cfg : Config} {s : State} {t : Timed}

/-! ## What the operations do to the delayed override -/

def SameDelayed (s s' : State) : Prop :=
  s'.delayedOverridePort = s.delayedOverridePort ∧
    s'.delayedOverrideDeadline = s.delayedOverrideDeadline

theorem sameDelayed_scheduleRefresh (s : State) : SameDelayed s (scheduleRefresh cfg s) := by
  rcases scheduleRefresh_cases cfg s with ⟨-, heq⟩ | ⟨-, heq⟩
  · rw [heq]
    exact ⟨rfl, rfl⟩
  · rw [heq]
    exact ⟨rfl, rfl⟩

theorem scheduleRefresh_overridePort (s : State) :
    (scheduleRefresh cfg s).overridePort = s.overridePort := by
  rcases scheduleRefresh_cases cfg s with ⟨-, heq⟩ | ⟨-, heq⟩ <;> rw [heq]

theorem sameDelayed_hunt {env : Env} {board : List Nat → Option Nat → Bool} {fuel : Nat}
    {ps : List Nat} {h : Hunted} (hh : hunt cfg env board fuel ps s = some h) :
    SameDelayed s h.state := by
  induction fuel generalizing ps s with
  | zero => cases hh
  | succ fuel ih =>
    rw [hunt] at hh
    dsimp only at hh
    split_ifs at hh
    · cases hh
      exact ⟨rfl, rfl⟩
    · cases hh
      exact ⟨rfl, rfl⟩
    · cases hh
      exact ⟨rfl, rfl⟩
    · split at hh
      · cases hh
      · have hlater := ih hh
        exact hlater

theorem sameDelayed_refresh (env : Env) (board : List Nat → Option Nat → Bool)
    (ramp : Nat → Nat → Int → Int) (s : State) :
    SameDelayed s (refresh cfg env board ramp s) := by
  rw [refresh]
  cases hh : hunt cfg env board (cfg.portCount + 1) [] { s with refreshPending := false } with
  | none => exact ⟨rfl, rfl⟩
  | some h =>
    have hsame := sameDelayed_hunt hh
    obtain ⟨rejected, selected, u⟩ := h
    cases selected with
    | none => exact hsame
    | some r =>
      dsimp only
      rw [switchTo_eq]
      exact hsame

def Event.touchesOverride : Event → Bool
  | .updateCharge .. | .updateDualrole .. | .setOverride .. | .overrideTimeout => true
  | _ => false

theorem sameDelayed_other {e : Event} (h : e.touchesOverride = false) :
    SameDelayed s (step cfg s e) := by
  cases e with
  | updateCharge sink now supplier port charge => cases h
  | updateDualrole port cap => cases h
  | setOverride sink now port => cases h
  | overrideTimeout => cases h
  | setCeil port requestor ceil =>
    unfold step setCeil
    dsimp only
    split_ifs
    · exact ⟨rfl, rfl⟩
    · exact sameDelayed_scheduleRefresh (putCeil port requestor ceil s)
    · exact ⟨rfl, rfl⟩
    · exact ⟨rfl, rfl⟩
  | forceCeil port ceil =>
    unfold step forceCeil setCeil
    dsimp only
    split_ifs
    · exact ⟨rfl, rfl⟩
    · exact ⟨rfl, rfl⟩
    · exact sameDelayed_scheduleRefresh (putCeil port .pd ceil s)
    · exact ⟨rfl, rfl⟩
    · exact ⟨rfl, rfl⟩
  | leaveSafeMode =>
    unfold step leaveSafeMode
    dsimp only
    split_ifs
    · exact ⟨rfl, rfl⟩
    · exact sameDelayed_scheduleRefresh { s with leftSafeMode := true }
  | refresh env board ramp =>
    unfold step
    dsimp only
    split_ifs
    · exact sameDelayed_refresh env board ramp s
    · exact ⟨rfl, rfl⟩

/-! ## The call is scheduled while an override is delayed -/

def dueAt (s : State) : Option Nat :=
  s.delayedOverridePort.map fun _ => s.delayedOverrideDeadline

theorem SameDelayed.dueAt {s' : State} (h : SameDelayed s s') : dueAt s' = dueAt s := by
  rw [Charge.dueAt, Charge.dueAt, h.1, h.2]

theorem dueAt_scheduleRefresh (s : State) : dueAt (scheduleRefresh cfg s) = dueAt s :=
  (sameDelayed_scheduleRefresh s).dueAt

theorem setOverrideTimeout_dueAt (sink : Nat → Bool) (now : Nat) (port : Override) (s : State) :
    setOverrideTimeout sink now port s (dueAt s) = dueAt (setOverride cfg sink now port s).2 := by
  unfold setOverrideTimeout setOverride
  by_cases hbusy : s.delayedOverridePort ≠ none
  · rw [if_pos hbusy, if_pos hbusy]
  · rw [if_neg hbusy, if_neg hbusy]
    have hset : dueAt s =
        dueAt (if s.overridePort ≠ port then scheduleRefresh cfg { s with overridePort := port }
          else s) := by
      split_ifs
      · exact (dueAt_scheduleRefresh { s with overridePort := port }).symm
      · rfl
    cases port with
    | off => exact hset
    | dontCharge => exact hset
    | port p =>
      dsimp only
      by_cases hsink : sink p = true
      · rw [if_pos hsink, if_pos hsink]
        exact hset
      · rw [if_neg hsink, if_neg hsink]
        split_ifs <;> rfl

theorem removeOverrideTimeout_dueAt (port : Nat) (s : State) :
    removeOverrideTimeout cfg port s (dueAt s) = dueAt (removeOverride cfg port s) := by
  unfold removeOverrideTimeout removeOverride
  by_cases hremoves : RemovesOn cfg s port
  · rw [if_pos (show _ ∧ _ ∧ _ from hremoves)]
    by_cases hnone : s.delayedOverridePort = none
    · rw [if_neg fun h => h.2 hnone, dueAt, hnone]
      rfl
    · rw [if_pos ⟨hremoves, hnone⟩]
      rfl
  · rw [if_neg fun h => hremoves h.1]
    exact congrArg dueAt (if_neg hremoves).symm

theorem applyDelayedOverrideTimeout_dueAt (sink : Nat → Bool) (now port : Nat)
    (charge : ChargePortInfo) (s : State) :
    applyDelayedOverrideTimeout sink now port charge s (dueAt s) =
      dueAt (applyDelayedOverride cfg sink now port charge s) := by
  unfold applyDelayedOverrideTimeout applyDelayedOverride
  split_ifs
  · exact setOverrideTimeout_dueAt sink now (.port port) { s with delayedOverridePort := none }
  · rfl

theorem updateChargeTimeout_dueAt (sink : Nat → Bool) (now supplier port : Nat)
    (charge : ChargePortInfo) (s : State) :
    updateChargeTimeout cfg sink now supplier port charge s (dueAt s) =
      dueAt (updateCharge cfg sink now supplier port charge s) := by
  unfold updateChargeTimeout updateCharge
  by_cases hvalid : (!isValidPort cfg port) = true
  · rw [if_pos hvalid, if_pos hvalid]
  rw [if_neg hvalid, if_neg hvalid]
  by_cases heq : s.availableCharge supplier port = charge
  · rw [if_pos heq, if_pos heq]
  rw [if_neg heq, if_neg heq]
  dsimp only
  rw [dueAt_scheduleRefresh]
  by_cases hplugged : 0 < charge.current ∧ (s.availableCharge supplier port).current = 0
  · simp only [if_pos hplugged, removeOverrideTimeout_dueAt]
    exact applyDelayedOverrideTimeout_dueAt sink now port charge
      { removeOverride cfg port s with
        availableCharge := fun i j =>
          if i = supplier ∧ j = port then charge
          else (removeOverride cfg port s).availableCharge i j }
  · simp only [if_neg hplugged]
    exact applyDelayedOverrideTimeout_dueAt sink now port charge
      { s with
        availableCharge := fun i j =>
          if i = supplier ∧ j = port then charge else s.availableCharge i j }

theorem updateDualroleTimeout_dueAt (port : Nat) (cap : DualroleCapabilities) (s : State) :
    updateDualroleTimeout cfg port cap s (dueAt s) = dueAt (updateDualrole cfg port cap s) := by
  unfold updateDualroleTimeout updateDualrole
  split_ifs
  · rfl
  · rfl
  · unfold changeDualroleTimeout changeDualrole
    split_ifs
    · rfl
    · rfl
    · rw [dueAt_scheduleRefresh]
      exact removeOverrideTimeout_dueAt port
        { s with dualroleCapability := Function.update s.dualroleCapability port cap }
    · rfl

theorem callTimeout_dueAt (s : State) (e : Event) :
    callTimeout cfg s (dueAt s) e = dueAt (step cfg s e) := by
  cases e with
  | updateCharge sink now supplier port charge =>
    exact updateChargeTimeout_dueAt sink now supplier port charge s
  | updateDualrole port cap => exact updateDualroleTimeout_dueAt port cap s
  | setOverride sink now port => exact setOverrideTimeout_dueAt sink now port s
  | overrideTimeout => rfl
  | setCeil port requestor ceil => exact (sameDelayed_other rfl).dueAt.symm
  | forceCeil port ceil => exact (sameDelayed_other rfl).dueAt.symm
  | leaveSafeMode => exact (sameDelayed_other rfl).dueAt.symm
  | refresh env board ramp => exact (sameDelayed_other rfl).dueAt.symm

theorem timeout_eq_dueAt {ok : Timed → TimedEvent → Prop} {safeMode : Bool}
    (h : Reach (timedStep cfg) ok (Timed.init cfg safeMode) t) : t.timeout = dueAt t.manager := by
  refine h.invariant (I := fun t => t.timeout = dueAt t.manager) rfl ?_
  rintro ⟨s, timeout, now⟩ e hs -
  cases e with
  | pass d => exact hs
  | event e =>
    have hs : timeout = dueAt s := hs
    subst hs
    exact callTimeout_dueAt s e

/-! ## The awaited charge -/

structure Awaits (port deadline : Nat) (s : State) : Prop where
  delayed : s.delayedOverridePort = some port
  deadline : s.delayedOverrideDeadline = deadline

theorem Awaits.same {port deadline : Nat} {s' : State} (h : Awaits port deadline s)
    (hsame : SameDelayed s s') : Awaits port deadline s' :=
  ⟨hsame.1.trans h.delayed, hsame.2.trans h.deadline⟩

theorem updateCharge_eq {sink : Nat → Bool} {now supplier port : Nat} {charge : ChargePortInfo}
    (hvalid : isValidPort cfg port = true) (hne : s.availableCharge supplier port ≠ charge)
    (hkeeps : ¬Removes cfg s (.updateCharge sink now supplier port charge)) :
    updateCharge cfg sink now supplier port charge s =
      scheduleRefresh cfg (applyDelayedOverride cfg sink now port charge
        { s with
          availableCharge := fun i j =>
            if i = supplier ∧ j = port then charge else s.availableCharge i j }) := by
  unfold updateCharge
  rw [hvalid, if_neg (by decide), if_neg hne]
  dsimp only
  by_cases hplugged : 0 < charge.current ∧ (s.availableCharge supplier port).current = 0
  · have hnot : ¬RemovesOn cfg s port := fun hon => hkeeps ⟨hvalid, hplugged, hon⟩
    have hsame : removeOverride cfg port s = s := if_neg hnot
    rw [if_pos hplugged, hsame]
  · rw [if_neg hplugged]

theorem Awaits.chargeUpdated {port deadline : Nat} (h : Awaits port deadline s) {sink : Nat → Bool}
    {now supplier p : Nat} {charge : ChargePortInfo}
    (hkeeps : ¬Removes cfg s (.updateCharge sink now supplier p charge))
    (hnot : ¬Arrives port s (.updateCharge sink now supplier p charge)) :
    Awaits port deadline (updateCharge cfg sink now supplier p charge s) := by
  by_cases hvalid : isValidPort cfg p = true
  · by_cases heq : s.availableCharge supplier p = charge
    · have hsame : updateCharge cfg sink now supplier p charge s = s := by
        unfold updateCharge
        rw [if_pos heq, ite_self]
      rw [hsame]
      exact h
    · rw [updateCharge_eq hvalid heq hkeeps]
      have happly : ¬(s.delayedOverridePort = some p ∧ 0 < charge.current ∧ sink p = true ∧
          now < s.delayedOverrideDeadline) := by
        rintro ⟨hp, hpos, hsink, -⟩
        obtain rfl : port = p := Option.some.inj (h.delayed.symm.trans hp)
        exact hnot ⟨rfl, hpos, hsink, heq⟩
      have hsame : applyDelayedOverride cfg sink now p charge
          { s with
            availableCharge := fun i j =>
              if i = supplier ∧ j = p then charge else s.availableCharge i j } =
          { s with
            availableCharge := fun i j =>
              if i = supplier ∧ j = p then charge else s.availableCharge i j } := if_neg happly
      rw [hsame]
      apply h.same
      exact sameDelayed_scheduleRefresh
        { s with
          availableCharge := fun i j =>
            if i = supplier ∧ j = p then charge else s.availableCharge i j }
  · have hsame : updateCharge cfg sink now supplier p charge s = s := by
      unfold updateCharge
      rw [Bool.eq_false_iff.mpr hvalid]
      rfl
    rw [hsame]
    exact h

theorem Awaits.dualroleUpdated {port deadline : Nat} (h : Awaits port deadline s) {p : Nat}
    {cap : DualroleCapabilities} (hkeeps : ¬Removes cfg s (.updateDualrole p cap)) :
    Awaits port deadline (updateDualrole cfg p cap s) := by
  unfold updateDualrole
  split_ifs with hpd hcap
  · exact h
  · exact h
  · unfold changeDualrole
    split_ifs with hvalid hskip hcharged
    · exact ⟨h.delayed, h.deadline⟩
    · exact ⟨h.delayed, h.deadline⟩
    · -- a transition to dedicated, with a charge on the port
      have hdedicated : cap = .dedicated := by
        rw [Bool.or_eq_true, not_or, bne_iff_ne, not_not] at hskip
        have hnew : Function.update s.dualroleCapability p cap p = .dedicated := hskip.2
        rwa [Function.update_self] at hnew
      have hdrp : cfg.drpCharging = false := by
        rw [Bool.or_eq_true, not_or] at hskip
        exact Bool.eq_false_iff.mpr hskip.1
      have hsame : removeOverride cfg p
          { s with dualroleCapability := Function.update s.dualroleCapability p cap } =
          { s with dualroleCapability := Function.update s.dualroleCapability p cap } := by
        refine if_neg ?_
        rintro ⟨hport, hdont, -⟩
        refine hkeeps ⟨by simpa using hpd, by simpa using hvalid, hdrp, hdedicated, ?_, ?_,
          hport, hdont⟩
        · exact fun hold => hcap (hdedicated.trans hold.symm)
        · simpa using hcharged
      rw [hsame]
      apply h.same
      exact sameDelayed_scheduleRefresh
        { s with dualroleCapability := Function.update s.dualroleCapability p cap }
    · exact ⟨h.delayed, h.deadline⟩

theorem Awaits.step {port deadline : Nat} (h : Awaits port deadline s) {e : Event}
    (hkeeps : ¬Removes cfg s e) (hnot : ¬Arrives port s e) (htimeout : e ≠ .overrideTimeout) :
    Awaits port deadline (step cfg s e) := by
  have hbusy : s.delayedOverridePort ≠ none := by
    rw [h.delayed]
    exact Option.some_ne_none port
  cases e with
  | updateCharge sink now supplier p charge => exact h.chargeUpdated hkeeps hnot
  | updateDualrole p cap => exact h.dualroleUpdated hkeeps
  | setOverride sink now o =>
    have hsame : setOverride cfg sink now o s = (.busy, s) := if_pos hbusy
    unfold Charge.step
    dsimp only
    rw [hsame]
    exact h
  | overrideTimeout => exact absurd rfl htimeout
  | setCeil p requestor ceil => exact h.same (sameDelayed_other rfl)
  | forceCeil p ceil => exact h.same (sameDelayed_other rfl)
  | leaveSafeMode => exact h.same (sameDelayed_other rfl)
  | refresh env board ramp => exact h.same (sameDelayed_other rfl)

/-- A charge that arrives in time makes its port the override port exactly when it is a change and
does not remove the override; or the port is the override port already. -/
theorem Awaits.updateCharge_iff {port deadline : Nat} (h : Awaits port deadline s)
    {sink : Nat → Bool} {now supplier : Nat} {charge : ChargePortInfo}
    (hvalid : isValidPort cfg port = true) (hsink : sink port = true) (hpos : 0 < charge.current)
    (hnow : now < deadline) :
    (updateCharge cfg sink now supplier port charge s).overridePort = .port port ↔
      s.overridePort = .port port ∨
        (s.availableCharge supplier port ≠ charge ∧
          ¬Removes cfg s (.updateCharge sink now supplier port charge)) := by
  by_cases heq : s.availableCharge supplier port = charge
  · have hsame : updateCharge cfg sink now supplier port charge s = s := by
      unfold updateCharge
      rw [if_pos heq, ite_self]
    rw [hsame]
    exact ⟨Or.inl, fun hor => hor.resolve_right fun hright => hright.1 heq⟩
  · by_cases hremoves : Removes cfg s (.updateCharge sink now supplier port charge)
    · -- the delayed override is removed before it is looked at
      obtain ⟨-, hplugged, hon⟩ := hremoves
      have hgone : removeOverride cfg port s =
          { s with overridePort := .off, delayedOverridePort := none } := if_pos hon
      refine iff_of_false (fun hport => ?_) fun hor => ?_
      · unfold updateCharge at hport
        rw [hvalid, if_neg (by decide), if_neg heq] at hport
        dsimp only at hport
        rw [scheduleRefresh_overridePort, if_pos hplugged, hgone, applyDelayedOverride,
          if_neg fun happly => Option.some_ne_none port happly.1.symm] at hport
        cases hport
      · exact hor.elim hon.1 fun hright => hright.2 ⟨hvalid, hplugged, hon⟩
    · refine iff_of_true ?_ (Or.inr ⟨heq, hremoves⟩)
      rw [updateCharge_eq hvalid heq hremoves, scheduleRefresh_overridePort, applyDelayedOverride,
        if_pos ⟨h.delayed, hpos, hsink, h.deadline.symm ▸ hnow⟩, setOverride,
        if_neg fun hbusy => hbusy rfl]
      dsimp only
      rw [if_pos hsink]
      split_ifs with hother
      · exact scheduleRefresh_overridePort _
      · exact not_not.mp hother

/-- The events leave the override to the charge on the port: none removes it, and none is the
charge. -/
def TimedEvent.Quiet (cfg : Config) (port : Nat) (t : Timed) : TimedEvent → Prop
  | .pass _ => True
  | .event e => ¬Removes cfg t.manager e ∧ ¬Arrives port t.manager e

theorem awaits_of_reach {port deadline : Nat} {u : Timed} (htimeout : t.timeout = dueAt t.manager)
    (hstart : Awaits port deadline t.manager)
    (h : Reach (timedStep cfg) (fun u e => e.Ok u ∧ e.Quiet cfg port u) t u)
    (hnow : u.now < deadline) : Awaits port deadline u.manager := by
  have hinv : u.timeout = dueAt u.manager ∧
      (u.now < deadline → Awaits port deadline u.manager) := by
    refine h.invariant
      (I := fun u => u.timeout = dueAt u.manager ∧
        (u.now < deadline → Awaits port deadline u.manager))
      ⟨htimeout, fun _ => hstart⟩ ?_
    rintro ⟨s, timeout, now⟩ e ⟨hdue, hawaits⟩ ⟨hok, hquiet⟩
    have hdue : timeout = dueAt s := hdue
    subst hdue
    cases e with
    | pass d => exact ⟨rfl, fun hlt => hawaits (Nat.lt_of_le_of_lt (Nat.le_add_right _ d) hlt)⟩
    | event e =>
      refine ⟨callTimeout_dueAt s e, fun hlt => ?_⟩
      have hwaits : Awaits port deadline s := hawaits hlt
      refine hwaits.step hquiet.1 hquiet.2 ?_
      rintro rfl
      -- the deferred call is not due yet
      obtain ⟨due, hdue, hle⟩ := hok
      have hdue : dueAt s = some due := hdue
      rw [dueAt, hwaits.delayed, Option.map_some, hwaits.deadline] at hdue
      have heq : deadline = due := Option.some.inj hdue
      have hle : due ≤ now := hle
      have hlt : now < deadline := hlt
      omega
  exact hinv.2 hnow

/-- While an override is delayed the deferred call is scheduled, and after it no call is refused as
busy.  A charge that arrives on the port in time makes it the override port, in every run in which
no event removes the override, exactly when the charge does not either. -/
theorem delayedOverride_law {safeMode : Bool}
    (hreach : Reach (timedStep cfg) (fun t e => e.Ok t) (Timed.init cfg safeMode) t) :
    (t.manager.delayedOverridePort ≠ none →
        t.timeout = some t.manager.delayedOverrideDeadline ∧
          ∀ d, t.manager.delayedOverrideDeadline ≤ t.now + d →
            (TimedEvent.event .overrideTimeout).Ok (timedStep cfg t (.pass d)) ∧
              ∀ sink now port,
                (setOverride cfg sink now port (timedStep cfg (timedStep cfg t (.pass d))
                  (.event .overrideTimeout)).manager).1 ≠ .busy) ∧
      ∀ sink port, isValidPort cfg port = true → t.manager.delayedOverridePort = none →
        sink port = false → t.manager.dualroleCapability port = .dualrole →
        ∀ u, Reach (timedStep cfg) (fun u e => e.Ok u ∧ e.Quiet cfg port u)
            (timedStep cfg t (.event (.setOverride sink t.now (.port port)))) u →
          ∀ sink' supplier charge, u.now < t.now + powerSwapTimeout → sink' port = true →
            0 < charge.current →
            ((timedStep cfg u
                (.event (.updateCharge sink' u.now supplier port charge))).manager.overridePort =
                  .port port ↔
              u.manager.overridePort = .port port ∨
                (u.manager.availableCharge supplier port ≠ charge ∧
                  ¬Removes cfg u.manager (.updateCharge sink' u.now supplier port charge))) := by
  have hdue := timeout_eq_dueAt hreach
  refine ⟨fun hdelayed => ?_, ?_⟩
  · obtain ⟨p, hp⟩ := Option.ne_none_iff_exists'.mp hdelayed
    have htimeout : t.timeout = some t.manager.delayedOverrideDeadline := by
      rw [hdue, dueAt, hp]
      rfl
    refine ⟨htimeout, fun d hd => ⟨⟨_, htimeout, hd⟩, fun sink now port => ?_⟩⟩
    have hnone : (timedStep cfg (timedStep cfg t (.pass d))
        (.event .overrideTimeout)).manager.delayedOverridePort = none := rfl
    generalize (timedStep cfg (timedStep cfg t (.pass d)) (.event .overrideTimeout)).manager = s
      at hnone
    unfold setOverride
    rw [if_neg fun hbusy => hbusy hnone]
    cases port with
    | off => exact nofun
    | dontCharge => exact nofun
    | port p =>
      dsimp only
      split_ifs <;> exact nofun
  · intro sink port hvalid hnone hsource hdual u hu sink' supplier charge hnow hsink hpos
    have hrecorded : setOverride cfg sink t.now (.port port) t.manager =
        (.success,
          { t.manager with
            delayedOverrideDeadline := t.now + powerSwapTimeout
            delayedOverridePort := some port }) := by
      unfold setOverride
      rw [if_neg fun hbusy => hbusy hnone]
      dsimp only
      rw [hsource, if_neg Bool.false_ne_true, if_pos hdual]
    have hstart : Awaits port (t.now + powerSwapTimeout)
        (timedStep cfg t (.event (.setOverride sink t.now (.port port)))).manager := by
      unfold timedStep Charge.step
      dsimp only
      rw [hrecorded]
      exact ⟨rfl, rfl⟩
    have hdue' : (timedStep cfg t (.event (.setOverride sink t.now (.port port)))).timeout =
        dueAt (timedStep cfg t (.event (.setOverride sink t.now (.port port)))).manager := by
      unfold timedStep
      dsimp only
      rw [hdue]
      exact callTimeout_dueAt t.manager _
    exact (awaits_of_reach hdue' hstart hu hnow).updateCharge_iff hvalid hsink hpos hnow

/-! ## A power swap -/

def swapConfig (drpCharging : Bool) : Config :=
  { twoPortConfig with drpCharging := drpCharging }

def partnered (drpCharging : Bool) : Timed :=
  [TimedEvent.event (.updateCharge (fun _ => false) 0 supplierPd 0 .zero),
    .event (.updateDualrole 0 .dualrole)].foldl (timedStep (swapConfig drpCharging))
      (Timed.init (swapConfig drpCharging) false)

theorem reach_partnered (drpCharging : Bool) :
    Reach (timedStep (swapConfig drpCharging)) (fun t e => e.Ok t)
      (Timed.init (swapConfig drpCharging) false) (partnered drpCharging) := by
  refine Reach.allowed (s := Timed.init (swapConfig drpCharging) false) ?_ .start
  exact ⟨rfl, trivial, trivial⟩

def swapping (drpCharging : Bool) : Timed :=
  timedStep (swapConfig drpCharging) (partnered drpCharging)
    (.event (.setOverride (fun _ => false) 0 (.port 0)))

def swapped (drpCharging : Bool) : Timed :=
  timedStep (swapConfig drpCharging) (swapping drpCharging)
    (.event (.updateCharge (fun _ => true) 0 supplierPd 0 ⟨3000, 5000⟩))

/-- The port is not dedicated, and the charge makes it the override port. -/
theorem delayedOverride_law_swapped : (swapped false).manager.overridePort = .port 0 := by
  have hlaw := (delayedOverride_law (reach_partnered false)).2 (fun _ => false) 0 (by decide)
    (by decide) rfl (by decide) (swapping false) .start (fun _ => true) supplierPd ⟨3000, 5000⟩
    (by decide) rfl (by decide)
  refine hlaw.mpr (Or.inr ⟨by decide +kernel, fun hremoves => ?_⟩)
  exact absurd hremoves.2.2 (by decide +kernel)

/-- Where dual-role ports are charged from, the awaited charge is itself the charger that is plugged:
it removes the delayed override. -/
theorem not_overridden_swapped :
    (swapping true).manager.delayedOverridePort = some 0 ∧
      (swapping true).now < (swapping true).manager.delayedOverrideDeadline ∧
      (swapped true).manager.overridePort = .off ∧
      (swapped true).manager.delayedOverridePort = none := by
  decide +kernel

end ChromiumEc.Charge
