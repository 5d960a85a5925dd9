import ChromiumEc.Usbc.Source.Policy
import ChromiumEc.Lib.Reach
import Mathlib.Data.List.Nodup
import Mathlib.Data.List.Range

/-!
# Run — what a balance run does

Each partner event changes the request bitmasks and runs `balance_source_ports`, or returns.  The
loops of a run serve as many of the new ports as there are free slots, and then meet a shortage or
serve all of them.
-/

namespace ChromiumEc.Usbc.Source

/-! ## Bitmasks -/

section Masks

variable {cfg : Config} {mask : PortMask}

@[simp] theorem setBit_self (p : Nat) (mask : PortMask) : setBit p mask p = true := by
  simp [setBit]

theorem setBit_of_ne {p q : Nat} (h : q ≠ p) : setBit p mask q = mask q := by
  simp [setBit, h]

@[simp] theorem clearBit_self (p : Nat) (mask : PortMask) : clearBit p mask p = false := by
  simp [clearBit]

theorem clearBit_of_ne {p q : Nat} (h : q ≠ p) : clearBit p mask q = mask q := by
  simp [clearBit, h]

theorem setBit_eq_true_iff {p q : Nat} : setBit p mask q = true ↔ q = p ∨ mask q = true := by
  by_cases h : q = p
  · subst h
    simp
  · rw [setBit_of_ne h]
    simp [h]

theorem clearBit_eq_true_iff {p q : Nat} :
    clearBit p mask q = true ↔ q ≠ p ∧ mask q = true := by
  by_cases h : q = p
  · subst h
    simp
  · rw [clearBit_of_ne h]
    simp [h]

theorem countPortBits_mono {mask' : PortMask} (h : ∀ p, mask p = true → mask' p = true) :
    countPortBits cfg mask ≤ countPortBits cfg mask' :=
  List.countP_mono_left fun p _ hp => h p hp

theorem countP_setBit {l : List Nat} {p : Nat} (hl : l.Nodup) (hp : p ∈ l) (hm : mask p = false) :
    l.countP (setBit p mask) = l.countP mask + 1 := by
  induction l with
  | nil => exact absurd hp List.not_mem_nil
  | cons q l ih =>
    obtain ⟨hq, hl⟩ := List.nodup_cons.mp hl
    rw [List.countP_cons, List.countP_cons]
    rcases List.mem_cons.mp hp with rfl | hp
    · have hrest : l.countP (setBit p mask) = l.countP mask := by
        refine List.countP_congr fun x hx => ?_
        have hne : x ≠ p := fun hxp => hq (hxp ▸ hx)
        rw [setBit_of_ne hne]
      rw [hrest, setBit_self, hm]
      rfl
    · have hne : q ≠ p := fun hqp => hq (hqp ▸ hp)
      rw [ih hl hp, setBit_of_ne hne]
      omega

theorem countPortBits_setBit {p : Nat} (hp : p < cfg.portCount) (hm : mask p = false) :
    countPortBits cfg (setBit p mask) = countPortBits cfg mask + 1 :=
  countP_setBit List.nodup_range (List.mem_range.mpr hp) hm

theorem countPortBits_clearBit {p : Nat} (hp : p < cfg.portCount) (hm : mask p = true) :
    countPortBits cfg (clearBit p mask) + 1 = countPortBits cfg mask := by
  rw [← countPortBits_setBit hp (clearBit_self p mask)]
  congr 1
  funext q
  by_cases h : q = p
  · rw [h, setBit_self, hm]
  · rw [setBit_of_ne h, clearBit_of_ne h]

theorem mem_newPorts {requested claimed : PortMask} {p : Nat} :
    p ∈ newPorts cfg requested claimed ↔
      p < cfg.portCount ∧ requested p = true ∧ claimed p = false := by
  simp [newPorts]

theorem newPorts_nodup (requested claimed : PortMask) : (newPorts cfg requested claimed).Nodup :=
  List.Nodup.filter _ List.nodup_range

theorem lowestPort_eq_some {p : Nat} (h : lowestPort cfg mask = some p) :
    p < cfg.portCount ∧ mask p = true :=
  ⟨List.mem_range.mp (List.mem_of_find?_eq_some h), List.find?_some h⟩

theorem lowestPort_eq_none : lowestPort cfg mask = none ↔ ∀ p < cfg.portCount, mask p = false := by
  simp [lowestPort]

theorem lowestPort_le {p q : Nat} (h : lowestPort cfg mask = some p) (hm : mask q = true) :
    p ≤ q := by
  rw [lowestPort, List.find?_range_eq_some] at h
  by_contra hlt
  have hfalse := h.2.2 q (Nat.not_le.mp hlt)
  rw [hm] at hfalse
  exact absurd hfalse (by decide)

end Masks

/-! ## The loops -/

section Loops

variable {cfg : Config} {s : State}

def freeSlots (cfg : Config) (s : State) : Nat :=
  cfg.maxPorts3A - countPortBits cfg s.maxCurrentClaimed

def granted (grant : Nat → State → State) (ps : List Nat) (s : State) : State :=
  ps.foldl (fun s p => grant p s) s

/-- The claims, and those of the ports `ps`. -/
def withPorts (ps : List Nat) (mask : PortMask) : PortMask := fun p =>
  mask p || ps.contains p

theorem withPorts_eq_true_iff {ps : List Nat} {mask : PortMask} {p : Nat} :
    withPorts ps mask p = true ↔ mask p = true ∨ p ∈ ps := by
  simp [withPorts]

theorem granted_claimed {grant : Nat → State → State}
    (hgrant : ∀ p s, (grant p s).maxCurrentClaimed = setBit p s.maxCurrentClaimed) (ps : List Nat)
    (s : State) :
    (granted grant ps s).maxCurrentClaimed = withPorts ps s.maxCurrentClaimed := by
  induction ps generalizing s with
  | nil =>
    funext q
    simp [granted, withPorts]
  | cons p ps ih =>
    have hstep : granted grant (p :: ps) s = granted grant ps (grant p s) := rfl
    rw [hstep, ih, hgrant]
    funext q
    rw [Bool.eq_iff_iff, withPorts_eq_true_iff, withPorts_eq_true_iff, setBit_eq_true_iff,
      List.mem_cons]
    tauto

theorem countPortBits_withPorts {ps : List Nat} {mask : PortMask} (hnodup : ps.Nodup)
    (hps : ∀ p ∈ ps, p < cfg.portCount ∧ mask p = false) :
    countPortBits cfg (withPorts ps mask) = countPortBits cfg mask + ps.length := by
  induction ps generalizing mask with
  | nil =>
    have hnil : withPorts [] mask = mask := by
      funext q
      simp [withPorts]
    rw [hnil]
    rfl
  | cons p ps ih =>
    obtain ⟨hp, hnodup⟩ := List.nodup_cons.mp hnodup
    obtain ⟨hlt, hfree⟩ := hps p List.mem_cons_self
    have hcons : withPorts (p :: ps) mask = withPorts ps (setBit p mask) := by
      funext q
      rw [Bool.eq_iff_iff, withPorts_eq_true_iff, withPorts_eq_true_iff, setBit_eq_true_iff,
        List.mem_cons]
      tauto
    have hps' : ∀ q ∈ ps, q < cfg.portCount ∧ setBit p mask q = false := by
      intro q hq
      have hne : q ≠ p := fun hqp => hp (hqp ▸ hq)
      rw [setBit_of_ne hne]
      exact hps q (List.mem_cons_of_mem p hq)
    rw [hcons, ih hnodup hps', countPortBits_setBit hlt hfree, List.length_cons]
    omega

theorem serve_eq {grant : Nat → State → State} {shortage : State → State}
    (hgrant : ∀ p s, (grant p s).maxCurrentClaimed = setBit p s.maxCurrentClaimed)
    {ps : List Nat} (hnodup : ps.Nodup)
    (hps : ∀ p ∈ ps, p < cfg.portCount ∧ s.maxCurrentClaimed p = false) :
    serve cfg grant shortage ps s =
      if ps.length ≤ freeSlots cfg s then (granted grant (ps.take (freeSlots cfg s)) s, false)
      else (shortage (granted grant (ps.take (freeSlots cfg s)) s), true) := by
  induction ps generalizing s with
  | nil =>
    rw [List.length_nil, if_pos (Nat.zero_le _), List.take_nil]
    rfl
  | cons p ps ih =>
    obtain ⟨hp, hnodup⟩ := List.nodup_cons.mp hnodup
    obtain ⟨hlt, hfree⟩ := hps p List.mem_cons_self
    rw [serve]
    by_cases hslot : countPortBits cfg s.maxCurrentClaimed < cfg.maxPorts3A
    · have hslots : freeSlots cfg s = freeSlots cfg (grant p s) + 1 := by
        have hcount := countPortBits_setBit hlt hfree
        unfold freeSlots
        rw [hgrant, hcount]
        omega
      have hps' : ∀ q ∈ ps, q < cfg.portCount ∧ (grant p s).maxCurrentClaimed q = false := by
        intro q hq
        have hne : q ≠ p := fun hqp => hp (hqp ▸ hq)
        rw [hgrant, setBit_of_ne hne]
        exact hps q (List.mem_cons_of_mem p hq)
      rw [if_pos hslot, ih hnodup hps', hslots, List.take_succ_cons, List.length_cons]
      by_cases hfit : ps.length ≤ freeSlots cfg (grant p s)
      · rw [if_pos hfit, if_pos (Nat.succ_le_succ hfit)]
        rfl
      · rw [if_neg hfit, if_neg fun h => hfit (Nat.le_of_succ_le_succ h)]
        rfl
    · have hslots : freeSlots cfg s = 0 := by
        unfold freeSlots
        omega
      rw [if_neg hslot, hslots, List.take_zero, List.length_cons,
        if_neg (Nat.not_succ_le_zero _)]
      rfl

/-! ## A run -/

def newSinks (cfg : Config) (s : State) : List Nat :=
  newPorts cfg s.sinkMaxPdoRequested s.maxCurrentClaimed

def newFrs (cfg : Config) (s : State) : List Nat :=
  newPorts cfg s.sourceFrsMaxRequested s.maxCurrentClaimed

def newNonPd (cfg : Config) (s : State) : List Nat :=
  newPorts cfg s.nonPdSinkMaxRequested s.maxCurrentClaimed

def sinksServed (cfg : Config) (s : State) : State :=
  granted grantSink ((newSinks cfg s).take (freeSlots cfg s)) s

def frsServed (cfg : Config) (s : State) : State :=
  granted grantFrs ((newFrs cfg s).take (freeSlots cfg s)) s

def nonPdServed (cfg : Config) (s : State) : State :=
  granted grantSink ((newNonPd cfg s).take (freeSlots cfg s)) s

theorem newPorts_free {requested : PortMask} :
    ∀ p ∈ newPorts cfg requested s.maxCurrentClaimed,
      p < cfg.portCount ∧ s.maxCurrentClaimed p = false := by
  intro p hp
  obtain ⟨hlt, -, hfree⟩ := mem_newPorts.mp hp
  exact ⟨hlt, hfree⟩

theorem countPortBits_served {grant : Nat → State → State}
    (hgrant : ∀ p s, (grant p s).maxCurrentClaimed = setBit p s.maxCurrentClaimed)
    (requested : PortMask) :
    countPortBits cfg (granted grant
        ((newPorts cfg requested s.maxCurrentClaimed).take (freeSlots cfg s)) s).maxCurrentClaimed =
      countPortBits cfg s.maxCurrentClaimed +
        min (freeSlots cfg s) (newPorts cfg requested s.maxCurrentClaimed).length := by
  rw [granted_claimed hgrant, countPortBits_withPorts, List.length_take]
  · exact (newPorts_nodup _ _).sublist (List.take_sublist _ _)
  · exact fun p hp => newPorts_free p (List.mem_of_mem_take hp)

/-- The PD sinks are served first, then the FRS ports, then the non-PD ports; the first shortage
ends the run. -/
theorem allocate_eq (cfg : Config) (s : State) :
    allocate cfg s =
      if (newSinks cfg (removePorts s)).length ≤ freeSlots cfg (removePorts s) then
        let s₁ := sinksServed cfg (removePorts s)
        if (newFrs cfg s₁).length ≤ freeSlots cfg s₁ then nonPdServed cfg (frsServed cfg s₁)
        else shortageFrs cfg (frsServed cfg s₁)
      else shortageSink cfg (sinksServed cfg (removePorts s)) := by
  have hsinks : ∀ t, serveSinks cfg t =
      if (newSinks cfg t).length ≤ freeSlots cfg t then (sinksServed cfg t, false)
      else (shortageSink cfg (sinksServed cfg t), true) := fun t =>
    serve_eq (fun _ _ => rfl) (newPorts_nodup _ _) newPorts_free
  have hfrs : ∀ t, serveFrs cfg t =
      if (newFrs cfg t).length ≤ freeSlots cfg t then (frsServed cfg t, false)
      else (shortageFrs cfg (frsServed cfg t), true) := fun t =>
    serve_eq (fun _ _ => rfl) (newPorts_nodup _ _) newPorts_free
  have hnonPd : ∀ t, (serveNonPd cfg t).1 = nonPdServed cfg t := by
    intro t
    have heq : serveNonPd cfg t =
        if (newNonPd cfg t).length ≤ freeSlots cfg t then (nonPdServed cfg t, false)
        else (id (nonPdServed cfg t), true) :=
      serve_eq (fun _ _ => rfl) (newPorts_nodup _ _) newPorts_free
    rw [heq]
    split_ifs <;> rfl
  rw [allocate, hsinks]
  by_cases hfit : (newSinks cfg (removePorts s)).length ≤ freeSlots cfg (removePorts s)
  · rw [if_pos hfit, if_pos hfit]
    dsimp only
    rw [hfrs]
    split_ifs
    · exact hnonPd _
    · rfl
  · rw [if_neg hfit, if_neg hfit]

theorem shortageFrs_cases (cfg : Config) (s : State) :
    (lowestNonPd cfg s = none ∧ shortageFrs cfg s = s) ∨
      ∃ r, lowestNonPd cfg s = some r ∧ shortageFrs cfg s = downgradeNonPd cfg r s := by
  unfold shortageFrs
  cases h : lowestNonPd cfg s with
  | none => exact Or.inl ⟨rfl, rfl⟩
  | some r => exact Or.inr ⟨r, rfl, rfl⟩

theorem shortageSink_cases (cfg : Config) (s : State) :
    (lowestNonPd cfg s = none ∧ lowestFrs cfg s = none ∧ shortageSink cfg s = s) ∨
      (∃ r, lowestNonPd cfg s = some r ∧ shortageSink cfg s = downgradeNonPd cfg r s) ∨
      ∃ r, lowestNonPd cfg s = none ∧ lowestFrs cfg s = some r ∧
        shortageSink cfg s = downgradeFrs r s := by
  unfold shortageSink
  cases h : lowestNonPd cfg s with
  | some r => exact Or.inr (Or.inl ⟨r, rfl, rfl⟩)
  | none =>
    cases h' : lowestFrs cfg s with
    | none => exact Or.inl ⟨rfl, rfl, rfl⟩
    | some r => exact Or.inr (Or.inr ⟨r, rfl, rfl, rfl⟩)

/-! ## What a run keeps -/

structure SameRequests (s t : State) : Prop where
  sink : s.sinkMaxPdoRequested = t.sinkMaxPdoRequested
  frs : s.sourceFrsMaxRequested = t.sourceFrsMaxRequested
  nonPd : s.nonPdSinkMaxRequested = t.nonPdSinkMaxRequested
  bist : s.bistSharedModeEnabled = t.bistSharedModeEnabled

theorem SameRequests.trans {t u : State} (h : SameRequests s t) (h' : SameRequests t u) :
    SameRequests s u :=
  ⟨h.sink.trans h'.sink, h.frs.trans h'.frs, h.nonPd.trans h'.nonPd, h.bist.trans h'.bist⟩

theorem granted_sameRequests {grant : Nat → State → State}
    (hgrant : ∀ p s, SameRequests (grant p s) s) (ps : List Nat) (s : State) :
    SameRequests (granted grant ps s) s := by
  induction ps generalizing s with
  | nil => exact ⟨rfl, rfl, rfl, rfl⟩
  | cons p ps ih => exact (ih (grant p s)).trans (hgrant p s)

theorem sinksServed_sameRequests (cfg : Config) (s : State) :
    SameRequests (sinksServed cfg s) s := by
  refine granted_sameRequests (fun p t => ?_) _ s
  exact ⟨rfl, rfl, rfl, rfl⟩

theorem frsServed_sameRequests (cfg : Config) (s : State) : SameRequests (frsServed cfg s) s := by
  refine granted_sameRequests (fun p t => ?_) _ s
  exact ⟨rfl, rfl, rfl, rfl⟩

theorem nonPdServed_sameRequests (cfg : Config) (s : State) :
    SameRequests (nonPdServed cfg s) s := by
  refine granted_sameRequests (fun p t => ?_) _ s
  exact ⟨rfl, rfl, rfl, rfl⟩

theorem shortageSink_sameRequests (cfg : Config) (s : State) :
    SameRequests (shortageSink cfg s) s := by
  rcases shortageSink_cases cfg s with ⟨-, -, heq⟩ | ⟨r, -, heq⟩ | ⟨r, -, -, heq⟩ <;>
    rw [heq] <;> exact ⟨rfl, rfl, rfl, rfl⟩

theorem shortageFrs_sameRequests (cfg : Config) (s : State) :
    SameRequests (shortageFrs cfg s) s := by
  rcases shortageFrs_cases cfg s with ⟨-, heq⟩ | ⟨r, -, heq⟩ <;>
    rw [heq] <;> exact ⟨rfl, rfl, rfl, rfl⟩

theorem allocate_sameRequests (cfg : Config) (s : State) : SameRequests (allocate cfg s) s := by
  have hremove : SameRequests (removePorts s) s := ⟨rfl, rfl, rfl, rfl⟩
  have hsinks := (sinksServed_sameRequests cfg (removePorts s)).trans hremove
  have hfrs := (frsServed_sameRequests cfg (sinksServed cfg (removePorts s))).trans hsinks
  rw [allocate_eq]
  dsimp only
  split_ifs
  · exact (nonPdServed_sameRequests cfg _).trans hfrs
  · exact (shortageFrs_sameRequests cfg _).trans hfrs
  · exact (shortageSink_sameRequests cfg _).trans hsinks

end Loops

/-! ## Events -/

def IsVsafe5v (pdo : UInt32) : Prop :=
  pdo &&& pdoTypeMask = 0 ∧ pdoFixedVoltage pdo = 5000

/-- The PDO of a source asks for more than 1.5 A at a fast role swap. -/
def AsksMaxFrs (pdo : UInt32) : Prop :=
  (pdo &&& pdoFixedDualRole ≠ 0 ∧ pdoFixedFrsCurr pdo ≠ 0) ∧
    ¬ (pdoFixedFrsCurr pdo = 1 ∨ pdoFixedFrsCurr pdo = 2)

/-- The event changes the requests of the state to those of the second, and balances. -/
inductive Requests (cfg : Config) (s : State) : Event → State → Prop where
  | sink {port : Nat} {rev20 : Bool} {pdo : UInt32} :
      IsVsafe5v pdo → cfg.maxPorts3A ≠ 0 → ¬ pdoFixedCurrent pdo ≤ 1500 →
      Requests cfg s (.evaluateSinkFixedPdo port .source rev20 pdo)
        { s with sinkMaxPdoRequested := setBit port s.sinkMaxPdoRequested }
  | frs {port : Nat} {pdo : UInt32} :
      IsVsafe5v pdo → cfg.frs = true → AsksMaxFrs pdo → cfg.maxPorts3A ≠ 0 →
      Requests cfg s (.evaluateSinkFixedPdo port .sink false pdo)
        { s with sourceFrsMaxRequested := setBit port s.sourceFrsMaxRequested }
  | nonPd {port : Nat} :
      cfg.maxPorts3A ≠ 0 → Requests cfg s (.addNonPdSink port)
        { s with nonPdSinkMaxRequested := setBit port s.nonPdSinkMaxRequested }
  | rdo {port : Nat} {rdo : UInt32} :
      cfg.maxPorts3A ≠ 0 → rdoPos rdo ≠ 0 → s.sinkMaxPdoRequested port = true →
      rdoOpCurrent rdo ≤ 150 → Requests cfg s (.evaluateRequestRdo port rdo)
        { s with sinkMaxPdoRequested := clearBit port s.sinkMaxPdoRequested }
  | removeSink {port : Nat} :
      cfg.maxPorts3A ≠ 0 → (s.sinkMaxPdoRequested port = true ∨ s.nonPdSinkMaxRequested port = true) →
      Requests cfg s (.removeSink port)
        (typecSelectSrcCurrentLimitRp port (typecGetDefaultCurrentLimitRp cfg s)
          { s with
            sinkMaxPdoRequested := clearBit port s.sinkMaxPdoRequested
            nonPdSinkMaxRequested := clearBit port s.nonPdSinkMaxRequested })
  | removeSource {port : Nat} :
      cfg.maxPorts3A ≠ 0 → cfg.frs = true → s.sourceFrsMaxRequested port = true →
      Requests cfg s (.removeSource port)
        { s with sourceFrsMaxRequested := clearBit port s.sourceFrsMaxRequested }
  | balance : s.balancePending = true →
      Requests cfg s .balance { s with deferredWaiting := false, balancePending := false }

theorem step_cases (cfg : Config) (s : State) (e : Event) :
    (∃ t, Requests cfg s e t ∧ step cfg s e = balanceSourcePorts cfg false t) ∨
      step cfg s e = s ∨ ∃ port, step cfg s e = pdDpmRequest port true s := by
  cases e with
  | evaluateSinkFixedPdo port role rev20 vsafe5vPdo =>
    rw [step]
    unfold dpmEvaluateSinkFixedPdo
    cases role with
    | source =>
      dsimp only
      split_ifs with htype hvolt hports hcurrent
      · exact Or.inr (Or.inl rfl)
      · exact Or.inr (Or.inl rfl)
      · exact Or.inr (Or.inl rfl)
      · exact Or.inr (Or.inl rfl)
      · exact Or.inl ⟨_, .sink ⟨not_not.mp htype, not_not.mp hvolt⟩ hports hcurrent, rfl⟩
    | sink =>
      dsimp only
      by_cases htype : vsafe5vPdo &&& pdoTypeMask ≠ 0
      · exact Or.inr (Or.inl (if_pos htype))
      by_cases hvolt : pdoFixedVoltage vsafe5vPdo ≠ 5000
      · exact Or.inr (Or.inl ((if_neg htype).trans (if_pos hvolt)))
      rw [if_neg htype, if_neg hvolt]
      by_cases hfrs : (!cfg.frs) = true
      · exact Or.inr (Or.inl (if_pos hfrs))
      by_cases hrev : rev20 = true
      · exact Or.inr (Or.inl ((if_neg hfrs).trans (if_pos hrev)))
      rw [if_neg hfrs, if_neg hrev]
      by_cases hdual : vsafe5vPdo &&& pdoFixedDualRole ≠ 0 ∧ pdoFixedFrsCurr vsafe5vPdo ≠ 0
      · rw [if_pos hdual]
        by_cases hlow : pdoFixedFrsCurr vsafe5vPdo = 1 ∨ pdoFixedFrsCurr vsafe5vPdo = 2
        · exact Or.inr (Or.inr ⟨port, if_pos hlow⟩)
        by_cases hports : cfg.maxPorts3A = 0
        · exact Or.inr (Or.inl ((if_neg hlow).trans (if_pos hports)))
        · -- a fast role swap that takes 3 A
          rw [Bool.eq_false_iff.mpr hrev]
          exact Or.inl ⟨_, .frs ⟨not_not.mp htype, not_not.mp hvolt⟩ (by simpa using hfrs)
            ⟨hdual, hlow⟩ hports, (if_neg hlow).trans (if_neg hports)⟩
      · exact Or.inr (Or.inl (if_neg hdual))
  | addNonPdSink port =>
    rw [step, dpmAddNonPdSink]
    split_ifs with hports
    · exact Or.inr (Or.inl rfl)
    · exact Or.inl ⟨_, .nonPd hports, rfl⟩
  | evaluateRequestRdo port rdo =>
    rw [step, dpmEvaluateRequestRdo]
    split_ifs with hports hpos hdrop
    · exact Or.inr (Or.inl rfl)
    · exact Or.inr (Or.inl rfl)
    · exact Or.inl ⟨_, .rdo hports hpos hdrop.1 hdrop.2, rfl⟩
    · exact Or.inr (Or.inl rfl)
  | removeSink port =>
    rw [step, dpmRemoveSink]
    split_ifs with hports hnone
    · exact Or.inr (Or.inl rfl)
    · exact Or.inr (Or.inl rfl)
    · refine Or.inl ⟨_, .removeSink hports ?_, rfl⟩
      simpa [or_iff_not_imp_left] using hnone
  | removeSource port =>
    rw [step, dpmRemoveSource]
    split_ifs with hports hfrs hnone
    · exact Or.inr (Or.inl rfl)
    · exact Or.inr (Or.inl rfl)
    · exact Or.inr (Or.inl rfl)
    · exact Or.inl ⟨_, .removeSource hports (by simpa using hfrs) (by simpa using hnone), rfl⟩
  | balance =>
    rw [step]
    split_ifs with hpending
    · exact Or.inl ⟨_, .balance hpending, rfl⟩
    · exact Or.inr (Or.inl rfl)

end ChromiumEc.Usbc.Source
