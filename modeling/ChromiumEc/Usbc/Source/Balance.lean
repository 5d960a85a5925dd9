import ChromiumEc.Usbc.Source.Budget
import Mathlib.Algebra.BigOperators.Group.Finset.Basic
import Mathlib.Algebra.Group.Action.Defs
import Mathlib.Algebra.Order.BigOperators.Group.Finset

/-!
# Balance — deferred runs come to rest

A run that meets a shortage takes the claim of one port and schedules another run.  If the port is
requested in the categories of higher priority too, its own request comes up again: the runs may go
on for ever, or a PD sink may lose its claim.  Otherwise each run serves a port of higher rank than
the one that lost its claim, and the runs end.
-/

namespace ChromiumEc.Usbc.Source

section Spec

variable (cfg : Config) (s : State)

/-- The claims `claimed` are all used, and none of them is of lower priority than the request of a
port without one. -/
structure Prioritised (claimed : PortMask) : Prop where
  used : ∀ p, claimed p = true → requested s p = true
  sink : ∀ p < cfg.portCount, s.sinkMaxPdoRequested p = true → claimed p = false →
    ∀ q, claimed q = true → s.sinkMaxPdoRequested q = true
  frs : ∀ p < cfg.portCount, s.sourceFrsMaxRequested p = true → claimed p = false →
    ∀ q, claimed q = true → s.sinkMaxPdoRequested q = true ∨ s.sourceFrsMaxRequested q = true
  full : ∀ p < cfg.portCount, requested s p = true → claimed p = false →
    countPortBits cfg claimed = cfg.maxPorts3A

def unserved (request claimed : PortMask) : Option Nat :=
  lowestPort cfg fun p => request p && !claimed p

def lowestClaimed (request claimed : PortMask) : Option Nat :=
  lowestPort cfg fun p => request p && claimed p

/-- The free slots go to the lowest new ports of a request. -/
def serveMask (request claimed : PortMask) : PortMask :=
  withPorts
    ((newPorts cfg request claimed).take (cfg.maxPorts3A - countPortBits cfg claimed)) claimed

/-- The claims when a run has served the PD sinks, and then the FRS ports. -/
def sinkClaims : PortMask :=
  serveMask cfg s.sinkMaxPdoRequested (removePorts s).maxCurrentClaimed

def frsClaims : PortMask :=
  serveMask cfg s.sourceFrsMaxRequested (sinkClaims cfg s)

/-- A run takes the claim of the port `r` to serve the port `q`, with the claims before. -/
inductive Downgrades : Nat → Nat → PortMask → Prop where
  | forSink {r q : Nat} :
      unserved cfg s.sinkMaxPdoRequested (sinkClaims cfg s) = some q →
      (lowestClaimed cfg s.nonPdSinkMaxRequested (sinkClaims cfg s) = some r ∨
        (lowestClaimed cfg s.nonPdSinkMaxRequested (sinkClaims cfg s) = none ∧
          lowestClaimed cfg s.sourceFrsMaxRequested (sinkClaims cfg s) = some r)) →
      Downgrades r q (sinkClaims cfg s)
  | forFrs {r q : Nat} :
      unserved cfg s.sinkMaxPdoRequested (sinkClaims cfg s) = none →
      unserved cfg s.sourceFrsMaxRequested (frsClaims cfg s) = some q →
      lowestClaimed cfg s.nonPdSinkMaxRequested (frsClaims cfg s) = some r →
      Downgrades r q (frsClaims cfg s)

/-- The port that is downgraded is a PD sink too, or an FRS port too and below the FRS port that is
to be served. -/
def HitsOverlap : Prop :=
  ∃ r q claimed, Downgrades cfg s r q claimed ∧
    (s.sinkMaxPdoRequested r = true ∨
      (s.sinkMaxPdoRequested q = false ∧ s.sourceFrsMaxRequested r = true ∧ r < q))

/-- The state after `n` deferred runs without a partner event. -/
def quiet (n : Nat) : State :=
  (fun s => step cfg s .balance)^[n] s

/-- The runs come to rest by priority, and no PD sink loses its claim. -/
def Stabilises : Prop :=
  ∃ n, (quiet cfg s n).balancePending = false ∧
    Prioritised cfg (quiet cfg s n) (quiet cfg s n).maxCurrentClaimed ∧
    ∀ k < n, ∀ r q claimed, Downgrades cfg (quiet cfg s k) r q claimed →
      (quiet cfg s k).sinkMaxPdoRequested r = false

end Spec

/-! ## Serving a request -/

section Serving

variable {cfg : Config} {request claimed : PortMask}

theorem unserved_eq_some {q : Nat} (h : unserved cfg request claimed = some q) :
    q < cfg.portCount ∧ request q = true ∧ claimed q = false := by
  obtain ⟨hlt, hq⟩ := lowestPort_eq_some h
  simpa [hlt] using hq

theorem unserved_eq_none (h : unserved cfg request claimed = none) {p : Nat}
    (hp : p < cfg.portCount) (hreq : request p = true) : claimed p = true := by
  have hfalse := lowestPort_eq_none.mp h p hp
  simpa [hreq] using hfalse

theorem unserved_le {p q : Nat} (h : unserved cfg request claimed = some q)
    (hreq : request p = true) (hp : claimed p = false) : q ≤ p :=
  lowestPort_le h (by simp [hreq, hp])

theorem lowestClaimed_eq_some {r : Nat} (h : lowestClaimed cfg request claimed = some r) :
    r < cfg.portCount ∧ request r = true ∧ claimed r = true := by
  obtain ⟨hlt, hr⟩ := lowestPort_eq_some h
  simpa [hlt] using hr

theorem lowestClaimed_eq_none (h : lowestClaimed cfg request claimed = none) {p : Nat}
    (hp : p < cfg.portCount) (hclaimed : claimed p = true) : request p = false := by
  have hfalse := lowestPort_eq_none.mp h p hp
  simpa [hclaimed] using hfalse

theorem serveMask_eq_true_iff {p : Nat} :
    serveMask cfg request claimed p = true ↔
      claimed p = true ∨
        p ∈ (newPorts cfg request claimed).take (cfg.maxPorts3A - countPortBits cfg claimed) := by
  rw [serveMask, withPorts_eq_true_iff]

theorem serveMask_of_claimed {p : Nat} (h : claimed p = true) :
    serveMask cfg request claimed p = true :=
  serveMask_eq_true_iff.mpr (Or.inl h)

theorem serveMask_cases {p : Nat} (h : serveMask cfg request claimed p = true) :
    claimed p = true ∨ (p < cfg.portCount ∧ request p = true ∧ claimed p = false) := by
  rcases serveMask_eq_true_iff.mp h with hclaimed | hmem
  · exact Or.inl hclaimed
  · exact Or.inr (mem_newPorts.mp (List.mem_of_mem_take hmem))

theorem countPortBits_serveMask :
    countPortBits cfg (serveMask cfg request claimed) =
      countPortBits cfg claimed +
        min (cfg.maxPorts3A - countPortBits cfg claimed) (newPorts cfg request claimed).length := by
  rw [serveMask, countPortBits_withPorts, List.length_take]
  · exact (newPorts_nodup _ _).sublist (List.take_sublist _ _)
  · intro p hp
    obtain ⟨hlt, -, hfree⟩ := mem_newPorts.mp (List.mem_of_mem_take hp)
    exact ⟨hlt, hfree⟩

theorem length_newPorts_le_iff :
    (newPorts cfg request claimed).length ≤ cfg.maxPorts3A - countPortBits cfg claimed ↔
      unserved cfg request (serveMask cfg request claimed) = none := by
  constructor
  · intro hfit
    refine lowestPort_eq_none.mpr fun p hp => ?_
    by_cases hreq : request p = true
    · have hserved : serveMask cfg request claimed p = true := by
        rw [serveMask_eq_true_iff, List.take_of_length_le hfit, mem_newPorts]
        cases hc : claimed p with
        | true => exact Or.inl rfl
        | false => exact Or.inr ⟨hp, hreq, rfl⟩
      simp [hserved]
    · simp [hreq]
  · intro hnone
    by_contra hshort
    have hshort := Nat.not_le.mp hshort
    -- the first port which finds no slot is new, and it is not served
    obtain ⟨hlt, hreq, hfree⟩ := mem_newPorts.mp (List.getElem_mem hshort)
    have hserved := unserved_eq_none hnone hlt hreq
    rw [serveMask_eq_true_iff, hfree] at hserved
    have htake := hserved.resolve_left Bool.false_ne_true
    have hdisjoint := List.disjoint_take_drop (@newPorts_nodup cfg request claimed)
      (Nat.le_refl (cfg.maxPorts3A - countPortBits cfg claimed))
    refine hdisjoint htake ?_
    rw [List.drop_eq_getElem_cons hshort]
    exact List.mem_cons_self

theorem countPortBits_of_unserved {q : Nat}
    (h : unserved cfg request (serveMask cfg request claimed) = some q)
    (hcount : countPortBits cfg claimed ≤ cfg.maxPorts3A) :
    countPortBits cfg (serveMask cfg request claimed) = cfg.maxPorts3A := by
  have hshort : ¬ (newPorts cfg request claimed).length ≤
      cfg.maxPorts3A - countPortBits cfg claimed := by
    rw [length_newPorts_le_iff, h]
    exact Option.some_ne_none q
  rw [countPortBits_serveMask]
  omega

theorem serveMask_of_none (h : unserved cfg request claimed = none) :
    serveMask cfg request claimed = claimed := by
  funext p
  rw [Bool.eq_iff_iff]
  refine ⟨fun hp => ?_, serveMask_of_claimed⟩
  rcases serveMask_cases hp with hclaimed | ⟨hlt, hreq, -⟩
  · exact hclaimed
  · exact unserved_eq_none h hlt hreq

theorem newPorts_eq_cons {b : Nat} (h : unserved cfg request claimed = some b) :
    ∃ ps, newPorts cfg request claimed = b :: ps := by
  refine List.head?_eq_some_iff.mp ?_
  rw [newPorts, List.head?_filter]
  exact h

theorem serveMask_of_unserved {b : Nat} (h : unserved cfg request claimed = some b)
    (hcount : countPortBits cfg claimed < cfg.maxPorts3A) :
    serveMask cfg request claimed b = true := by
  obtain ⟨ps, hps⟩ := newPorts_eq_cons h
  obtain ⟨n, hn⟩ := Nat.exists_eq_add_of_lt hcount
  have hfree : cfg.maxPorts3A - countPortBits cfg claimed = n + 1 := by omega
  rw [serveMask_eq_true_iff, hps, hfree, List.take_succ_cons]
  exact Or.inr List.mem_cons_self

theorem serveMask_lastSlot {b : Nat} (h : unserved cfg request claimed = some b)
    (hcount : countPortBits cfg claimed + 1 = cfg.maxPorts3A) :
    serveMask cfg request claimed = setBit b claimed := by
  obtain ⟨ps, hps⟩ := newPorts_eq_cons h
  have hfree : cfg.maxPorts3A - countPortBits cfg claimed = 1 := by omega
  funext p
  rw [Bool.eq_iff_iff, serveMask_eq_true_iff, setBit_eq_true_iff, hps, hfree, List.take_succ_cons,
    List.take_zero, List.mem_singleton]
  exact or_comm

end Serving

/-! ## A run -/

section Allocate

variable {cfg : Config} {s : State}

@[simp] theorem sinksServed_claimed (cfg : Config) (s : State) :
    (sinksServed cfg (removePorts s)).maxCurrentClaimed = sinkClaims cfg s :=
  granted_claimed (fun _ _ => rfl) _ _

@[simp] theorem frsServed_claimed (cfg : Config) (s : State) :
    (frsServed cfg (sinksServed cfg (removePorts s))).maxCurrentClaimed = frsClaims cfg s := by
  have hclaimed : (frsServed cfg (sinksServed cfg (removePorts s))).maxCurrentClaimed =
      serveMask cfg (sinksServed cfg (removePorts s)).sourceFrsMaxRequested
        (sinksServed cfg (removePorts s)).maxCurrentClaimed :=
    granted_claimed (fun _ _ => rfl) _ _
  rw [hclaimed, sinksServed_claimed, (sinksServed_sameRequests cfg (removePorts s)).frs]
  rfl

theorem nonPdServed_claimed (cfg : Config) (s : State) :
    (nonPdServed cfg s).maxCurrentClaimed =
      serveMask cfg s.nonPdSinkMaxRequested s.maxCurrentClaimed :=
  granted_claimed (fun _ _ => rfl) _ _

theorem sinksServed_requests (cfg : Config) (s : State) :
    SameRequests (sinksServed cfg (removePorts s)) s :=
  (sinksServed_sameRequests cfg (removePorts s)).trans ⟨rfl, rfl, rfl, rfl⟩

theorem frsServed_requests (cfg : Config) (s : State) :
    SameRequests (frsServed cfg (sinksServed cfg (removePorts s))) s :=
  (frsServed_sameRequests cfg _).trans (sinksServed_requests cfg s)

theorem lowestNonPd_eq {t : State} (h : SameRequests t s) :
    lowestNonPd cfg t = lowestClaimed cfg s.nonPdSinkMaxRequested t.maxCurrentClaimed := by
  rw [lowestNonPd, h.nonPd]
  rfl

theorem lowestFrs_eq {t : State} (h : SameRequests t s) :
    lowestFrs cfg t = lowestClaimed cfg s.sourceFrsMaxRequested t.maxCurrentClaimed := by
  rw [lowestFrs, h.frs]
  rfl

theorem allocate_unserved (cfg : Config) (s : State) :
    allocate cfg s =
      if unserved cfg s.sinkMaxPdoRequested (sinkClaims cfg s) = none then
        if unserved cfg s.sourceFrsMaxRequested (frsClaims cfg s) = none then
          nonPdServed cfg (frsServed cfg (sinksServed cfg (removePorts s)))
        else shortageFrs cfg (frsServed cfg (sinksServed cfg (removePorts s)))
      else shortageSink cfg (sinksServed cfg (removePorts s)) := by
  have hsinks : (newSinks cfg (removePorts s)).length ≤ freeSlots cfg (removePorts s) ↔
      unserved cfg s.sinkMaxPdoRequested (sinkClaims cfg s) = none :=
    length_newPorts_le_iff
  have hfrs : (newFrs cfg (sinksServed cfg (removePorts s))).length ≤
        freeSlots cfg (sinksServed cfg (removePorts s)) ↔
      unserved cfg s.sourceFrsMaxRequested (frsClaims cfg s) = none := by
    rw [newFrs, freeSlots, sinksServed_claimed, (sinksServed_requests cfg s).frs]
    exact length_newPorts_le_iff
  rw [allocate_eq]
  dsimp only
  simp only [hsinks, hfrs]

theorem allocate_of_downgrades {r q : Nat} {claimed : PortMask}
    (h : Downgrades cfg s r q claimed) :
    (allocate cfg s).maxCurrentClaimed = clearBit r claimed ∧
      (allocate cfg s).deferredWaiting = true ∧ (allocate cfg s).balancePending = true := by
  rw [allocate_unserved]
  cases h with
  | forSink hq hr =>
    rw [if_neg (by simp [hq]), shortageSink, lowestNonPd_eq (sinksServed_requests cfg s),
      lowestFrs_eq (sinksServed_requests cfg s), sinksServed_claimed]
    rcases hr with hr | ⟨hnone, hr⟩
    · rw [hr, ← sinksServed_claimed cfg s]
      exact ⟨rfl, rfl, rfl⟩
    · rw [hnone, hr, ← sinksServed_claimed cfg s]
      exact ⟨rfl, rfl, rfl⟩
  | forFrs hnone hq hr =>
    rw [if_pos hnone, if_neg (by simp [hq]), shortageFrs, lowestNonPd_eq (frsServed_requests cfg s),
      frsServed_claimed, hr, ← frsServed_claimed cfg s]
    exact ⟨rfl, rfl, rfl⟩

/-! ## A run without a downgrade -/

theorem granted_flags {grant : Nat → State → State}
    (hgrant : ∀ p s, (grant p s).deferredWaiting = s.deferredWaiting ∧
      (grant p s).balancePending = s.balancePending) (ps : List Nat) (s : State) :
    (granted grant ps s).deferredWaiting = s.deferredWaiting ∧
      (granted grant ps s).balancePending = s.balancePending := by
  induction ps generalizing s with
  | nil => exact ⟨rfl, rfl⟩
  | cons p ps ih =>
    obtain ⟨hwaiting, hpending⟩ := ih (grant p s)
    obtain ⟨hwaiting', hpending'⟩ := hgrant p s
    exact ⟨hwaiting.trans hwaiting', hpending.trans hpending'⟩

theorem sinkClaims_inBudget (h : InBudget cfg s) :
    (∀ p, sinkClaims cfg s p = true → p < cfg.portCount) ∧
      countPortBits cfg (sinkClaims cfg s) ≤ cfg.maxPorts3A := by
  rw [← sinksServed_claimed]
  exact ⟨h.removePorts.sinksServed.ports, h.removePorts.sinksServed.count⟩

theorem frsClaims_inBudget (h : InBudget cfg s) :
    (∀ p, frsClaims cfg s p = true → p < cfg.portCount) ∧
      countPortBits cfg (frsClaims cfg s) ≤ cfg.maxPorts3A := by
  rw [← frsServed_claimed]
  exact ⟨h.removePorts.sinksServed.frsServed.ports, h.removePorts.sinksServed.frsServed.count⟩

theorem sinkClaims_requested {p : Nat} (h : sinkClaims cfg s p = true) : requested s p = true := by
  rcases serveMask_cases h with hkept | ⟨-, hsink, -⟩
  · exact (Bool.and_eq_true_iff.mp hkept).2
  · simp [requested, hsink]

theorem frsClaims_requested {p : Nat} (h : frsClaims cfg s p = true) : requested s p = true := by
  rcases serveMask_cases h with hkept | ⟨-, hfrs, -⟩
  · exact sinkClaims_requested hkept
  · simp [requested, hfrs]

theorem requested_eq_true_iff {p : Nat} :
    requested s p = true ↔
      s.sinkMaxPdoRequested p = true ∨ s.sourceFrsMaxRequested p = true ∨
        s.nonPdSinkMaxRequested p = true := by
  simp [requested, or_assoc]

theorem requested_eq {t : State} (h : SameRequests t s) : requested t = requested s := by
  unfold requested
  rw [h.sink, h.frs, h.nonPd]

theorem Prioritised.of_requests {t : State} {claimed : PortMask} (hp : Prioritised cfg s claimed)
    (h : SameRequests t s) : Prioritised cfg t claimed := by
  have hrequested : requested t = requested s := requested_eq h
  obtain ⟨used, sink, frs, full⟩ := hp
  constructor
  · rw [hrequested]
    exact used
  · rw [h.sink]
    exact sink
  · rw [h.sink, h.frs]
    exact frs
  · rw [hrequested]
    exact full

theorem prioritised_sinkClaims {q : Nat} (hbudget : InBudget cfg s)
    (hq : unserved cfg s.sinkMaxPdoRequested (sinkClaims cfg s) = some q)
    (hnonPd : lowestClaimed cfg s.nonPdSinkMaxRequested (sinkClaims cfg s) = none)
    (hfrs : lowestClaimed cfg s.sourceFrsMaxRequested (sinkClaims cfg s) = none) :
    Prioritised cfg s (sinkClaims cfg s) := by
  obtain ⟨hports, -⟩ := sinkClaims_inBudget hbudget
  have hkept : InBudget cfg (removePorts s) := hbudget.removePorts
  have hsink : ∀ p, sinkClaims cfg s p = true → s.sinkMaxPdoRequested p = true := by
    intro p hp
    have hreq := requested_eq_true_iff.mp (sinkClaims_requested hp)
    rw [lowestClaimed_eq_none hnonPd (hports p hp) hp,
      lowestClaimed_eq_none hfrs (hports p hp) hp] at hreq
    simpa using hreq
  constructor
  · exact fun p hp => sinkClaims_requested hp
  · exact fun _ _ _ _ p hp => hsink p hp
  · exact fun _ _ _ _ p hp => Or.inl (hsink p hp)
  · exact fun _ _ _ _ => countPortBits_of_unserved hq hkept.count

theorem prioritised_frsClaims {q : Nat} (hbudget : InBudget cfg s)
    (hnone : unserved cfg s.sinkMaxPdoRequested (sinkClaims cfg s) = none)
    (hq : unserved cfg s.sourceFrsMaxRequested (frsClaims cfg s) = some q)
    (hnonPd : lowestClaimed cfg s.nonPdSinkMaxRequested (frsClaims cfg s) = none) :
    Prioritised cfg s (frsClaims cfg s) := by
  obtain ⟨hports, -⟩ := frsClaims_inBudget hbudget
  constructor
  · exact fun p hp => frsClaims_requested hp
  · intro p hp hreq hfree
    rw [show frsClaims cfg s p = true from serveMask_of_claimed (unserved_eq_none hnone hp hreq)]
      at hfree
    exact absurd hfree (by decide)
  · intro _ _ _ _ p hp
    have hreq := requested_eq_true_iff.mp (frsClaims_requested hp)
    rw [lowestClaimed_eq_none hnonPd (hports p hp) hp] at hreq
    simpa using hreq
  · exact fun _ _ _ _ => countPortBits_of_unserved hq (sinkClaims_inBudget hbudget).2

theorem prioritised_nonPdClaims (hbudget : InBudget cfg s)
    (hsink : unserved cfg s.sinkMaxPdoRequested (sinkClaims cfg s) = none)
    (hfrs : unserved cfg s.sourceFrsMaxRequested (frsClaims cfg s) = none) :
    Prioritised cfg s (serveMask cfg s.nonPdSinkMaxRequested (frsClaims cfg s)) := by
  have hserved : ∀ p < cfg.portCount,
      (s.sinkMaxPdoRequested p = true ∨ s.sourceFrsMaxRequested p = true) →
        serveMask cfg s.nonPdSinkMaxRequested (frsClaims cfg s) p ≠ false := by
    intro p hp hreq hfree
    have hclaimed : frsClaims cfg s p = true := by
      rcases hreq with hreq | hreq
      · exact serveMask_of_claimed (unserved_eq_none hsink hp hreq)
      · exact unserved_eq_none hfrs hp hreq
    rw [serveMask_of_claimed hclaimed] at hfree
    exact absurd hfree (by decide)
  constructor
  · intro p hp
    rcases serveMask_cases hp with hclaimed | ⟨-, hnonPd, -⟩
    · exact frsClaims_requested hclaimed
    · exact requested_eq_true_iff.mpr (Or.inr (Or.inr hnonPd))
  · exact fun p hp hreq hfree => absurd hfree (hserved p hp (Or.inl hreq))
  · exact fun p hp hreq hfree => absurd hfree (hserved p hp (Or.inr hreq))
  · intro p hp hreq hfree
    have hnonPd : s.nonPdSinkMaxRequested p = true := by
      rcases requested_eq_true_iff.mp hreq with hreq | hreq | hreq
      · exact absurd hfree (hserved p hp (Or.inl hreq))
      · exact absurd hfree (hserved p hp (Or.inr hreq))
      · exact hreq
    cases hq : unserved cfg s.nonPdSinkMaxRequested
        (serveMask cfg s.nonPdSinkMaxRequested (frsClaims cfg s)) with
    | none =>
      rw [unserved_eq_none hq hp hnonPd] at hfree
      exact absurd hfree (by decide)
    | some q => exact countPortBits_of_unserved hq (frsClaims_inBudget hbudget).2

theorem allocate_cases (hbudget : InBudget cfg s) :
    (∃ r q claimed, Downgrades cfg s r q claimed) ∨
      (Prioritised cfg s (allocate cfg s).maxCurrentClaimed ∧
        (allocate cfg s).deferredWaiting = s.deferredWaiting ∧
        (allocate cfg s).balancePending = s.balancePending) := by
  have hsinks : (sinksServed cfg (removePorts s)).deferredWaiting = s.deferredWaiting ∧
      (sinksServed cfg (removePorts s)).balancePending = s.balancePending :=
    @granted_flags grantSink (fun _ _ => ⟨rfl, rfl⟩) _ _
  have hfrs : (frsServed cfg (sinksServed cfg (removePorts s))).deferredWaiting =
        s.deferredWaiting ∧
      (frsServed cfg (sinksServed cfg (removePorts s))).balancePending = s.balancePending := by
    rw [← hsinks.1, ← hsinks.2]
    exact @granted_flags grantFrs (fun _ _ => ⟨rfl, rfl⟩) _ _
  rw [allocate_unserved]
  cases hq : unserved cfg s.sinkMaxPdoRequested (sinkClaims cfg s) with
  | some q =>
    rw [if_neg (Option.some_ne_none q)]
    rcases shortageSink_cases cfg (sinksServed cfg (removePorts s)) with
      ⟨hnonPd, hlowest, heq⟩ | ⟨r, hr, -⟩ | ⟨r, hnonPd, hr, -⟩
    · rw [lowestNonPd_eq (sinksServed_requests cfg s), sinksServed_claimed] at hnonPd
      rw [lowestFrs_eq (sinksServed_requests cfg s), sinksServed_claimed] at hlowest
      rw [heq, sinksServed_claimed]
      exact Or.inr ⟨prioritised_sinkClaims hbudget hq hnonPd hlowest, hsinks⟩
    · rw [lowestNonPd_eq (sinksServed_requests cfg s), sinksServed_claimed] at hr
      exact Or.inl ⟨r, q, _, .forSink hq (Or.inl hr)⟩
    · rw [lowestNonPd_eq (sinksServed_requests cfg s), sinksServed_claimed] at hnonPd
      rw [lowestFrs_eq (sinksServed_requests cfg s), sinksServed_claimed] at hr
      exact Or.inl ⟨r, q, _, .forSink hq (Or.inr ⟨hnonPd, hr⟩)⟩
  | none =>
    rw [if_pos rfl]
    cases hq' : unserved cfg s.sourceFrsMaxRequested (frsClaims cfg s) with
    | some q =>
      rw [if_neg (Option.some_ne_none q)]
      rcases shortageFrs_cases cfg (frsServed cfg (sinksServed cfg (removePorts s))) with
        ⟨hnonPd, heq⟩ | ⟨r, hr, -⟩
      · rw [lowestNonPd_eq (frsServed_requests cfg s), frsServed_claimed] at hnonPd
        rw [heq, frsServed_claimed]
        exact Or.inr ⟨prioritised_frsClaims hbudget hq hq' hnonPd, hfrs⟩
      · rw [lowestNonPd_eq (frsServed_requests cfg s), frsServed_claimed] at hr
        exact Or.inl ⟨r, q, _, .forFrs hq hq' hr⟩
    | none =>
      rw [if_pos rfl, nonPdServed_claimed, frsServed_claimed, (frsServed_requests cfg s).nonPd]
      refine Or.inr ⟨prioritised_nonPdClaims hbudget hq hq', ?_⟩
      rw [← hfrs.1, ← hfrs.2]
      exact @granted_flags grantSink (fun _ _ => ⟨rfl, rfl⟩) _ _

end Allocate

/-! ## In a run -/

/-- Another run is scheduled while a downgraded port has left a slot; otherwise the claims are by
priority. -/
structure Balanced (cfg : Config) (s : State) : Prop where
  inBudget : InBudget cfg s
  bist : s.bistSharedModeEnabled = false
  waiting : s.deferredWaiting = s.balancePending
  slot : s.balancePending = true → countPortBits cfg s.maxCurrentClaimed < cfg.maxPorts3A
  rest : s.balancePending = false → Prioritised cfg s s.maxCurrentClaimed

section Run

variable {cfg : Config} {s t : State} {e : Event}

theorem Downgrades.spec {r q : Nat} {claimed : PortMask} (h : Downgrades cfg s r q claimed)
    (hbudget : InBudget cfg s) :
    r < cfg.portCount ∧ claimed r = true ∧ countPortBits cfg claimed ≤ cfg.maxPorts3A ∧
      ∀ p, claimed p = true → requested s p = true := by
  cases h with
  | forSink hq hr =>
    have hclaimed : r < cfg.portCount ∧ sinkClaims cfg s r = true := by
      rcases hr with hr | ⟨-, hr⟩
      · exact ⟨(lowestClaimed_eq_some hr).1, (lowestClaimed_eq_some hr).2.2⟩
      · exact ⟨(lowestClaimed_eq_some hr).1, (lowestClaimed_eq_some hr).2.2⟩
    exact ⟨hclaimed.1, hclaimed.2, (sinkClaims_inBudget hbudget).2, fun _ => sinkClaims_requested⟩
  | forFrs hnone hq hr =>
    obtain ⟨hlt, -, hclaimed⟩ := lowestClaimed_eq_some hr
    exact ⟨hlt, hclaimed, (frsClaims_inBudget hbudget).2, fun _ => frsClaims_requested⟩

theorem balanced_allocate (hbudget : InBudget cfg s) (hbist : s.bistSharedModeEnabled = false)
    (hwaiting : s.deferredWaiting = false) (hpending : s.balancePending = false) :
    Balanced cfg (allocate cfg s) := by
  have hsame := allocate_sameRequests cfg s
  rcases allocate_cases hbudget with ⟨r, q, claimed, hdown⟩ | ⟨hprio, hwaiting', hpending'⟩
  · obtain ⟨hclaimed, hwaiting', hpending'⟩ := allocate_of_downgrades hdown
    obtain ⟨hlt, hr, hcount, -⟩ := hdown.spec hbudget
    have hclear := countPortBits_clearBit hlt hr
    refine ⟨hbudget.allocate, hsame.bist.trans hbist, hwaiting'.trans hpending'.symm, ?_, ?_⟩
    · intro _
      rw [hclaimed]
      omega
    · intro h
      rw [hpending'] at h
      exact absurd h (by decide)
  · rw [hwaiting] at hwaiting'
    rw [hpending] at hpending'
    refine ⟨hbudget.allocate, hsame.bist.trans hbist, hwaiting'.trans hpending'.symm, ?_, ?_⟩
    · intro h
      rw [hpending'] at h
      exact absurd h (by decide)
    · exact fun _ => hprio.of_requests hsame

theorem Requests.flags (h : Requests cfg s e t) (hwaiting : s.deferredWaiting = s.balancePending) :
    t.deferredWaiting = t.balancePending ∧
      (t.balancePending = true → s.balancePending = true) := by
  cases h with
  | balance => exact ⟨rfl, fun h => absurd h Bool.false_ne_true⟩
  | _ => exact ⟨hwaiting, id⟩

theorem balanced_step (h : Balanced cfg s) (e : Event) : Balanced cfg (step cfg s e) := by
  rcases step_cases cfg s e with ⟨t, hreq, heq⟩ | heq | ⟨port, heq⟩
  · obtain ⟨hclaimed, hbist⟩ := hreq.claimed
    obtain ⟨hflags, hpending⟩ := hreq.flags h.waiting
    have hbudget : InBudget cfg t := h.inBudget.of_subset fun p hp => hclaimed ▸ hp
    rw [heq]
    rcases balance_cases cfg (hbist.trans h.bist) with ⟨hwait, heq⟩ | ⟨hwait, heq⟩
    · rw [heq]
      have hpend : t.balancePending = true := hflags.symm.trans hwait
      refine ⟨hbudget, hbist.trans h.bist, hflags, fun _ => ?_, fun hrest => ?_⟩
      · rw [hclaimed]
        exact h.slot (hpending hpend)
      · rw [hpend] at hrest
        exact absurd hrest (by decide)
    · rw [heq]
      exact balanced_allocate hbudget (hbist.trans h.bist) hwait (hflags.symm.trans hwait)
  · rw [heq]
    exact h
  · rw [heq]
    exact ⟨h.inBudget.of_subset fun _ => id, h.bist, h.waiting, h.slot,
      fun hrest => (h.rest hrest).of_requests ⟨rfl, rfl, rfl, rfl⟩⟩

theorem balanced_init (cfg : Config) : Balanced cfg State.init where
  inBudget := (held_init cfg).inBudget
  bist := rfl
  waiting := rfl
  slot h := absurd h Bool.false_ne_true
  rest _ := ⟨fun _ h => absurd h Bool.false_ne_true, fun _ _ h => absurd h Bool.false_ne_true,
    fun _ _ h => absurd h Bool.false_ne_true, fun _ _ h => absurd h Bool.false_ne_true⟩

theorem balanced_of_reach (h : Lib.Reach (step cfg) (fun _ _ => True) State.init s) :
    Balanced cfg s :=
  h.invariant (balanced_init cfg) fun _ e hs _ => balanced_step hs e

end Run

/-! ## The weight of the claims -/

section Weight

variable {cfg : Config} {s : State}

/-- PD sinks count more than FRS ports, and these more than the others; of the FRS ports, the lower
counts more. -/
def rank (cfg : Config) (s : State) (p : Nat) : Nat :=
  if s.sinkMaxPdoRequested p then cfg.portCount + 1
  else if s.sourceFrsMaxRequested p then cfg.portCount - p
  else 0

def weight (cfg : Config) (s : State) (claimed : PortMask) : Nat :=
  ∑ p ∈ Finset.range cfg.portCount, if claimed p then rank cfg s p else 0

theorem weight_clearBit {claimed : PortMask} {r : Nat} (hr : r < cfg.portCount)
    (hclaimed : claimed r = true) :
    weight cfg s (clearBit r claimed) + rank cfg s r = weight cfg s claimed := by
  have hmem : r ∈ Finset.range cfg.portCount := Finset.mem_range.mpr hr
  have hrest : ∀ p ∈ (Finset.range cfg.portCount).erase r,
      (if clearBit r claimed p then rank cfg s p else 0) =
        if claimed p then rank cfg s p else 0 := by
    intro p hp
    rw [clearBit_of_ne (Finset.ne_of_mem_erase hp)]
  unfold weight
  rw [← Finset.sum_erase_add _ _ hmem, ← Finset.sum_erase_add _ _ hmem,
    Finset.sum_congr rfl hrest, hclaimed, clearBit_self]
  simp

theorem weight_mono {claimed claimed' : PortMask}
    (h : ∀ p, claimed p = true → claimed' p = true) :
    weight cfg s claimed ≤ weight cfg s claimed' := by
  refine Finset.sum_le_sum fun p _ => ?_
  by_cases hp : claimed p = true
  · rw [if_pos hp, if_pos (h p hp)]
  · rw [if_neg hp]
    exact Nat.zero_le _

theorem weight_add_rank_le {claimed claimed' : PortMask} {b : Nat} (hb : b < cfg.portCount)
    (hfree : claimed b = false) (hserved : claimed' b = true)
    (h : ∀ p, claimed p = true → claimed' p = true) :
    weight cfg s claimed + rank cfg s b ≤ weight cfg s claimed' := by
  rw [← weight_clearBit hb hserved]
  refine Nat.add_le_add_right (weight_mono fun p hp => ?_) _
  refine clearBit_eq_true_iff.mpr ⟨fun hpb => ?_, h p hp⟩
  rw [hpb, hfree] at hp
  exact absurd hp (by decide)

theorem rank_le (cfg : Config) (s : State) (p : Nat) : rank cfg s p ≤ cfg.portCount + 1 := by
  unfold rank
  split_ifs <;> omega

theorem weight_le (cfg : Config) (s : State) (claimed : PortMask) :
    weight cfg s claimed ≤ cfg.portCount * (cfg.portCount + 1) := by
  have hbound := Finset.sum_le_card_nsmul (Finset.range cfg.portCount)
    (fun p => if claimed p then rank cfg s p else 0) (cfg.portCount + 1) fun p _ => by
      have hrank := rank_le cfg s p
      split_ifs <;> omega
  rwa [Finset.card_range, smul_eq_mul] at hbound

theorem exists_served {request claimed : PortMask} {q : Nat}
    (hq : unserved cfg request (serveMask cfg request claimed) = some q)
    (hcount : countPortBits cfg claimed < cfg.maxPorts3A) :
    ∃ b ≤ q, b < cfg.portCount ∧ request b = true ∧ claimed b = false ∧
      serveMask cfg request claimed b = true := by
  obtain ⟨hlt, hreq, hfree⟩ := unserved_eq_some hq
  have hfree : claimed q = false := by
    by_contra hclaimed
    rw [serveMask_of_claimed (Bool.not_eq_false _ ▸ hclaimed)] at hfree
    exact absurd hfree (by decide)
  cases hb : unserved cfg request claimed with
  | none =>
    rw [unserved_eq_none hb hlt hreq] at hfree
    exact absurd hfree (by decide)
  | some b =>
    obtain ⟨hltB, hreqB, hfreeB⟩ := unserved_eq_some hb
    exact ⟨b, unserved_le hb hreq hfree, hltB, hreqB, hfreeB, serveMask_of_unserved hb hcount⟩

theorem exists_promoted {r q : Nat} {claimed : PortMask} (h : Downgrades cfg s r q claimed)
    (hno : ¬ HitsOverlap cfg s)
    (hcount : countPortBits cfg (removePorts s).maxCurrentClaimed < cfg.maxPorts3A) :
    (∀ p, (removePorts s).maxCurrentClaimed p = true → claimed p = true) ∧
      ∃ b < cfg.portCount, (removePorts s).maxCurrentClaimed b = false ∧ claimed b = true ∧
        rank cfg s r < rank cfg s b := by
  have hsinkR : s.sinkMaxPdoRequested r = false := by
    by_contra hsink
    exact hno ⟨r, q, claimed, h, Or.inl (Bool.not_eq_false _ ▸ hsink)⟩
  have hrankSink : ∀ b, s.sinkMaxPdoRequested b = true → rank cfg s r < rank cfg s b := by
    intro b hb
    unfold rank
    rw [if_pos hb, if_neg (by simp [hsinkR])]
    split_ifs <;> omega
  cases h with
  | forSink hq hr =>
    obtain ⟨b, -, hlt, hreq, hfree, hserved⟩ := exists_served hq hcount
    exact ⟨fun p => serveMask_of_claimed, b, hlt, hfree, hserved, hrankSink b hreq⟩
  | forFrs hnone hq hr =>
    refine ⟨fun p hp => serveMask_of_claimed (serveMask_of_claimed hp), ?_⟩
    by_cases hnew : ∃ b < cfg.portCount, s.sinkMaxPdoRequested b = true ∧
        (removePorts s).maxCurrentClaimed b = false
    · obtain ⟨b, hlt, hreq, hfree⟩ := hnew
      exact ⟨b, hlt, hfree, serveMask_of_claimed (unserved_eq_none hnone hlt hreq),
        hrankSink b hreq⟩
    · -- no PD sink is new, so that the slot has gone to an FRS port
      have hsame : sinkClaims cfg s = (removePorts s).maxCurrentClaimed := by
        refine serveMask_of_none ?_
        cases hb : unserved cfg s.sinkMaxPdoRequested (removePorts s).maxCurrentClaimed with
        | none => rfl
        | some b => exact absurd ⟨b, unserved_eq_some hb⟩ hnew
      obtain ⟨b, hbq, hlt, hreq, hfree, hserved⟩ := exists_served hq (hsame ▸ hcount)
      refine ⟨b, hlt, hsame ▸ hfree, hserved, ?_⟩
      have hsinkOf : ∀ p < cfg.portCount, sinkClaims cfg s p = false →
          s.sinkMaxPdoRequested p = false := by
        intro p hp hpfree
        by_contra hsink
        rw [unserved_eq_none hnone hp (Bool.not_eq_false _ ▸ hsink)] at hpfree
        exact absurd hpfree (by decide)
      obtain ⟨hltQ, hreqQ, hfreeQ⟩ := unserved_eq_some hq
      obtain ⟨hltR, -, hclaimedR⟩ := lowestClaimed_eq_some hr
      have hqr : q ≠ r := fun hqr => by
        rw [hqr, hclaimedR] at hfreeQ
        exact absurd hfreeQ (by decide)
      have hsinkQ : s.sinkMaxPdoRequested q = false := by
        refine hsinkOf q hltQ ?_
        by_contra hclaimed
        rw [show frsClaims cfg s q = true from
          serveMask_of_claimed (Bool.not_eq_false _ ▸ hclaimed)] at hfreeQ
        exact absurd hfreeQ (by decide)
      unfold rank
      rw [hsinkR, hsinkOf b hlt hfree, hreq, if_neg Bool.false_ne_true,
        if_neg Bool.false_ne_true, if_pos rfl]
      split_ifs with hfrsR
      · have hnotBelow : ¬ r < q := fun hrq =>
          hno ⟨r, q, _, .forFrs hnone hq hr, Or.inr ⟨hsinkQ, hfrsR, hrq⟩⟩
        omega
      · omega

end Weight

/-! ## Deferred runs -/

section Quiet

variable {cfg : Config} {s : State}

def unscheduled (s : State) : State :=
  { s with deferredWaiting := false, balancePending := false }

theorem step_balance (hbist : s.bistSharedModeEnabled = false) (hpending : s.balancePending = true) :
    step cfg s .balance = allocate cfg (unscheduled s) := by
  have hrun : step cfg s .balance = balanceSourcePorts cfg false (unscheduled s) := by
    rw [step, if_pos hpending]
    rfl
  have hbist : (unscheduled s).bistSharedModeEnabled = false := hbist
  rcases balance_cases cfg hbist with ⟨hwaiting, -⟩ | ⟨-, heq⟩
  · exact absurd hwaiting Bool.false_ne_true
  · rw [hrun, heq]

theorem Downgrades.unscheduled {r q : Nat} {claimed : PortMask} (h : Downgrades cfg s r q claimed) :
    Downgrades cfg (Source.unscheduled s) r q claimed := by
  cases h with
  | forSink hq hr => exact .forSink hq hr
  | forFrs hnone hq hr => exact .forFrs hnone hq hr

theorem Downgrades.of_unscheduled {r q : Nat} {claimed : PortMask}
    (h : Downgrades cfg (Source.unscheduled s) r q claimed) : Downgrades cfg s r q claimed := by
  cases h with
  | forSink hq hr => exact .forSink hq hr
  | forFrs hnone hq hr => exact .forFrs hnone hq hr

theorem step_of_downgrades {r q : Nat} {claimed : PortMask} (h : Balanced cfg s)
    (hpending : s.balancePending = true) (hdown : Downgrades cfg s r q claimed) :
    (step cfg s .balance).maxCurrentClaimed = clearBit r claimed ∧
      (step cfg s .balance).balancePending = true := by
  rw [step_balance h.bist hpending]
  obtain ⟨hclaimed, -, hpending'⟩ := allocate_of_downgrades hdown.unscheduled
  exact ⟨hclaimed, hpending'⟩

theorem exists_downgrades (h : Balanced cfg s) (hpending : s.balancePending = true)
    (hnext : (step cfg s .balance).balancePending = true) :
    ∃ r q claimed, Downgrades cfg s r q claimed := by
  rw [step_balance h.bist hpending] at hnext
  have hbudget : InBudget cfg (unscheduled s) := h.inBudget.of_subset fun _ => id
  rcases allocate_cases hbudget with ⟨r, q, claimed, hdown⟩ | ⟨-, -, hrest⟩
  · exact ⟨r, q, claimed, hdown.of_unscheduled⟩
  · rw [hrest] at hnext
    exact absurd hnext Bool.false_ne_true

theorem step_balance_sameRequests (hbist : s.bistSharedModeEnabled = false) :
    SameRequests (step cfg s .balance) s := by
  by_cases hpending : s.balancePending = true
  · rw [step_balance hbist hpending]
    exact (allocate_sameRequests cfg (unscheduled s)).trans ⟨rfl, rfl, rfl, rfl⟩
  · rw [step, if_neg hpending]
    exact ⟨rfl, rfl, rfl, rfl⟩

theorem quiet_succ (cfg : Config) (s : State) (n : Nat) :
    quiet cfg s (n + 1) = step cfg (quiet cfg s n) .balance :=
  Function.iterate_succ_apply' _ n s

theorem balanced_quiet (h : Balanced cfg s) (n : Nat) : Balanced cfg (quiet cfg s n) := by
  induction n with
  | zero => exact h
  | succ n ih =>
    rw [quiet_succ]
    exact balanced_step ih .balance

theorem quiet_of_rest {n m : Nat} (hrest : (quiet cfg s n).balancePending = false) (hnm : n ≤ m) :
    quiet cfg s m = quiet cfg s n := by
  induction m, hnm using Nat.le_induction with
  | base => rfl
  | succ m _ ih =>
    rw [quiet_succ, ih, step, hrest]
    rfl

theorem removePorts_eq (h : ∀ p, s.maxCurrentClaimed p = true → requested s p = true) :
    (removePorts s).maxCurrentClaimed = s.maxCurrentClaimed := by
  funext p
  rw [Bool.eq_iff_iff]
  exact ⟨fun hp => (Bool.and_eq_true_iff.mp hp).1,
    fun hp => Bool.and_eq_true_iff.mpr ⟨hp, h p hp⟩⟩

theorem weight_eq {t : State} (h : SameRequests t s) (claimed : PortMask) :
    weight cfg t claimed = weight cfg s claimed := by
  unfold weight rank
  rw [h.sink, h.frs]

theorem weight_lt_step (h : Balanced cfg s) (hpending : s.balancePending = true)
    (hnext : (step cfg s .balance).balancePending = true) (hno : ¬ HitsOverlap cfg s) :
    weight cfg s (removePorts s).maxCurrentClaimed <
      weight cfg (step cfg s .balance) (removePorts (step cfg s .balance)).maxCurrentClaimed := by
  obtain ⟨r, q, claimed, hdown⟩ := exists_downgrades h hpending hnext
  obtain ⟨hlt, hr, -, hused⟩ := hdown.spec h.inBudget
  obtain ⟨hclaimed, -⟩ := step_of_downgrades h hpending hdown
  have hsame : SameRequests (step cfg s .balance) s := step_balance_sameRequests h.bist
  have hkept : (removePorts (step cfg s .balance)).maxCurrentClaimed = clearBit r claimed := by
    rw [removePorts_eq, hclaimed]
    intro p hp
    rw [hclaimed] at hp
    rw [requested_eq hsame]
    exact hused p (clearBit_eq_true_iff.mp hp).2
  have hcount : countPortBits cfg (removePorts s).maxCurrentClaimed < cfg.maxPorts3A := by
    refine Nat.lt_of_le_of_lt (countPortBits_mono fun p hp => ?_) (h.slot hpending)
    exact (Bool.and_eq_true_iff.mp hp).1
  obtain ⟨hsub, b, hltB, hfree, hserved, hrank⟩ := exists_promoted hdown hno hcount
  have hgain := @weight_add_rank_le cfg s _ _ _ hltB hfree hserved hsub
  have hloss := @weight_clearBit cfg s _ _ hlt hr
  rw [hkept, weight_eq hsame]
  omega

/-! ## A loop of runs -/

/-- The port `r` is downgraded for the FRS port `q`, and it is an FRS port itself, with a lower
number: the next run serves and downgrades it again. -/
structure Bounces (cfg : Config) (r q : Nat) (claimed : PortMask) (s : State) : Prop where
  pending : s.balancePending = true
  claims : s.maxCurrentClaimed = clearBit r claimed
  used : ∀ p, claimed p = true → requested s p = true
  count : countPortBits cfg claimed = cfg.maxPorts3A
  sinks : unserved cfg s.sinkMaxPdoRequested claimed = none
  frs : unserved cfg s.sourceFrsMaxRequested claimed = some q
  nonPd : lowestClaimed cfg s.nonPdSinkMaxRequested claimed = some r
  notSink : s.sinkMaxPdoRequested r = false
  isFrs : s.sourceFrsMaxRequested r = true
  below : r < q

theorem Bounces.downgrades {r q : Nat} {claimed : PortMask} (h : Bounces cfg r q claimed s) :
    Downgrades cfg s r q claimed := by
  obtain ⟨hlt, -, hr⟩ := lowestClaimed_eq_some h.nonPd
  have hkept : (removePorts s).maxCurrentClaimed = clearBit r claimed := by
    rw [removePorts_eq, h.claims]
    intro p hp
    rw [h.claims] at hp
    exact h.used p (clearBit_eq_true_iff.mp hp).2
  have hnoSink : unserved cfg s.sinkMaxPdoRequested (clearBit r claimed) = none := by
    cases hq : unserved cfg s.sinkMaxPdoRequested (clearBit r claimed) with
    | none => rfl
    | some p =>
      obtain ⟨hltP, hreq, hfree⟩ := unserved_eq_some hq
      have hpr : p ≠ r := fun hpr => by
        rw [hpr, h.notSink] at hreq
        exact absurd hreq Bool.false_ne_true
      rw [clearBit_of_ne hpr, unserved_eq_none h.sinks hltP hreq] at hfree
      exact absurd hfree (by decide)
  have hsinkClaims : sinkClaims cfg s = clearBit r claimed := by
    rw [sinkClaims, hkept]
    exact serveMask_of_none hnoSink
  have hlowest : unserved cfg s.sourceFrsMaxRequested (clearBit r claimed) = some r := by
    rw [unserved, lowestPort, List.find?_range_eq_some]
    refine ⟨by simp [h.isFrs], List.mem_range.mpr hlt, fun p hp => ?_⟩
    by_contra hnew
    have hnew : s.sourceFrsMaxRequested p = true ∧ clearBit r claimed p = false := by
      simpa using hnew
    rw [clearBit_of_ne (Nat.ne_of_lt hp)] at hnew
    have hle := unserved_le h.frs hnew.1 hnew.2
    have hbelow := h.below
    omega
  have hfrsClaims : frsClaims cfg s = claimed := by
    have hclear := countPortBits_clearBit hlt hr
    rw [frsClaims, hsinkClaims, serveMask_lastSlot hlowest (by rw [hclear, h.count])]
    funext p
    rw [Bool.eq_iff_iff, setBit_eq_true_iff, clearBit_eq_true_iff]
    by_cases hpr : p = r
    · simp [hpr, hr]
    · simp [hpr]
  have hdown : Downgrades cfg s r q (frsClaims cfg s) := by
    refine .forFrs ?_ ?_ ?_
    · rw [hsinkClaims]
      exact hnoSink
    · rw [hfrsClaims]
      exact h.frs
    · rw [hfrsClaims]
      exact h.nonPd
  rwa [hfrsClaims] at hdown

theorem Bounces.step {r q : Nat} {claimed : PortMask} (hbalanced : Balanced cfg s)
    (h : Bounces cfg r q claimed s) : Bounces cfg r q claimed (step cfg s .balance) := by
  obtain ⟨hclaimed, hpending⟩ := step_of_downgrades hbalanced h.pending h.downgrades
  have hsame : SameRequests (Source.step cfg s .balance) s :=
    step_balance_sameRequests hbalanced.bist
  constructor
  · exact hpending
  · exact hclaimed
  · rw [requested_eq hsame]
    exact h.used
  · exact h.count
  · rw [hsame.sink]
    exact h.sinks
  · rw [hsame.frs]
    exact h.frs
  · rw [hsame.nonPd]
    exact h.nonPd
  · rw [hsame.sink]
    exact h.notSink
  · rw [hsame.frs]
    exact h.isFrs
  · exact h.below

theorem quiet_bounces {r q n : Nat} {claimed : PortMask} (h : Balanced cfg s)
    (hbounces : Bounces cfg r q claimed (quiet cfg s n)) {m : Nat} (hnm : n ≤ m) :
    (quiet cfg s m).balancePending = true := by
  have hall : Bounces cfg r q claimed (quiet cfg s m) := by
    induction m, hnm using Nat.le_induction with
    | base => exact hbounces
    | succ m _ ih =>
      rw [quiet_succ]
      exact ih.step (balanced_quiet h m)
  exact hall.pending

theorem bounces_of_downgrades {r q : Nat} (h : Balanced cfg s) (hpending : s.balancePending = true)
    (hnone : unserved cfg s.sinkMaxPdoRequested (sinkClaims cfg s) = none)
    (hq : unserved cfg s.sourceFrsMaxRequested (frsClaims cfg s) = some q)
    (hr : lowestClaimed cfg s.nonPdSinkMaxRequested (frsClaims cfg s) = some r)
    (hnotSink : s.sinkMaxPdoRequested r = false) (hisFrs : s.sourceFrsMaxRequested r = true)
    (hbelow : r < q) : Bounces cfg r q (frsClaims cfg s) (step cfg s .balance) := by
  obtain ⟨hclaimed, hpending⟩ := step_of_downgrades h hpending (.forFrs hnone hq hr)
  have hsame : SameRequests (step cfg s .balance) s := step_balance_sameRequests h.bist
  refine ⟨hpending, hclaimed, fun p hp => ?_, ?_, ?_, ?_, ?_, ?_, ?_, hbelow⟩
  · rw [requested_eq hsame]
    exact frsClaims_requested hp
  · exact countPortBits_of_unserved hq (sinkClaims_inBudget h.inBudget).2
  · rw [hsame.sink]
    refine lowestPort_eq_none.mpr fun p hp => ?_
    by_cases hreq : s.sinkMaxPdoRequested p = true
    · have hserved : frsClaims cfg s p = true :=
        serveMask_of_claimed (unserved_eq_none hnone hp hreq)
      simp [hserved]
    · simp [hreq]
  · rw [hsame.frs]
    exact hq
  · rw [hsame.nonPd]
    exact hr
  · rw [hsame.sink]
    exact hnotSink
  · rw [hsame.frs]
    exact hisFrs

theorem stabilises_of_not_hitsOverlap (h : Balanced cfg s)
    (hno : ∀ n, (quiet cfg s n).balancePending = true → ¬ HitsOverlap cfg (quiet cfg s n)) :
    Stabilises cfg s := by
  have hexists : ∃ n, (quiet cfg s n).balancePending = false := by
    by_contra hnever
    have hpending : ∀ n, (quiet cfg s n).balancePending = true := fun n =>
      Bool.not_eq_false _ ▸ fun hrest => hnever ⟨n, hrest⟩
    -- the weight of the claims grows with every run, and is bounded
    have hmono : StrictMono fun n =>
        weight cfg (quiet cfg s n) (removePorts (quiet cfg s n)).maxCurrentClaimed := by
      refine strictMono_nat_of_lt_succ fun n => ?_
      have hnext := hpending (n + 1)
      rw [quiet_succ] at hnext ⊢
      exact weight_lt_step (balanced_quiet h n) (hpending n) hnext (hno n (hpending n))
    have hgrown := hmono.le_apply (x := cfg.portCount * (cfg.portCount + 1) + 1)
    have hbound := weight_le cfg (quiet cfg s (cfg.portCount * (cfg.portCount + 1) + 1))
      (removePorts (quiet cfg s (cfg.portCount * (cfg.portCount + 1) + 1))).maxCurrentClaimed
    omega
  refine ⟨Nat.find hexists, Nat.find_spec hexists,
    (balanced_quiet h _).rest (Nat.find_spec hexists), ?_⟩
  intro k hk r q claimed hdown
  by_contra hsink
  have hpending := Bool.not_eq_false _ ▸ Nat.find_min hexists hk
  exact hno k hpending ⟨r, q, claimed, hdown, Or.inl (Bool.not_eq_false _ ▸ hsink)⟩

/-- The deferred runs come to rest, by priority and without a PD sink that loses its claim, exactly
when none of them hits an overlap. -/
theorem stabilises_iff (h : Lib.Reach (step cfg) (fun _ _ => True) State.init s) :
    Stabilises cfg s ↔
      ∀ n, (quiet cfg s n).balancePending = true → ¬ HitsOverlap cfg (quiet cfg s n) := by
  have hbalanced : Balanced cfg s := balanced_of_reach h
  refine ⟨?_, stabilises_of_not_hitsOverlap hbalanced⟩
  rintro ⟨n₀, hrest, -, hsinks⟩ n hpending ⟨r, q, claimed, hdown, hhit⟩
  have hn : n < n₀ := by
    by_contra hle
    rw [quiet_of_rest hrest (Nat.not_lt.mp hle), hrest] at hpending
    exact absurd hpending Bool.false_ne_true
  have hnotSink := hsinks n hn r q claimed hdown
  rw [hnotSink] at hhit
  obtain ⟨hsinkQ, hisFrs, hbelow⟩ := hhit.resolve_left Bool.false_ne_true
  cases hdown with
  | forSink hq _ =>
    rw [(unserved_eq_some hq).2.1] at hsinkQ
    exact absurd hsinkQ (by decide)
  | forFrs hnone hq hr =>
    have hbounces := bounces_of_downgrades (balanced_quiet hbalanced n) hpending hnone hq hr
      hnotSink hisFrs hbelow
    rw [← quiet_succ] at hbounces
    rw [quiet_bounces hbalanced hbounces hn] at hrest
    exact absurd hrest (by decide)

def makeRoomEvents : List Event :=
  [.addNonPdSink 0, .evaluateSinkFixedPdo 1 .source false pdo3A]

theorem stabilises_makeRoom :
    (runOneSlot makeRoomEvents).balancePending = true ∧
      Stabilises oneSlot (runOneSlot makeRoomEvents) := by
  have hreach : Lib.Reach (step oneSlot) (fun _ _ => True) State.init
      (runOneSlot makeRoomEvents) :=
    Lib.Reach.allowed (Lib.allowed_of_forall (fun _ _ => trivial) _ _) .start
  refine ⟨by decide, (stabilises_iff hreach).mpr ?_⟩
  have hrest : (quiet oneSlot (runOneSlot makeRoomEvents) 1).balancePending = false := by decide
  rintro (_ | n) hpending ⟨r, q, claimed, hdown, -⟩
  · have hsinks : unserved oneSlot (runOneSlot makeRoomEvents).sinkMaxPdoRequested
        (sinkClaims oneSlot (runOneSlot makeRoomEvents)) = none := by decide
    have hfrs : unserved oneSlot (runOneSlot makeRoomEvents).sourceFrsMaxRequested
        (frsClaims oneSlot (runOneSlot makeRoomEvents)) = none := by decide
    cases hdown with
    | forSink hq _ => exact Option.some_ne_none _ (hq.symm.trans hsinks)
    | forFrs _ hq _ => exact Option.some_ne_none _ (hq.symm.trans hfrs)
  · rw [quiet_of_rest hrest (Nat.le_add_left 1 n), hrest] at hpending
    exact absurd hpending Bool.false_ne_true

/-- A non-PD port turns out to be a PD sink: it loses its claim to the other PD sink. -/
def twoSinksEvents : List Event :=
  [.addNonPdSink 0, .evaluateSinkFixedPdo 0 .source false pdo3A,
    .evaluateSinkFixedPdo 1 .source false pdo3A]

/-- A non-PD port is requested for a fast role swap, and another one too. -/
def twoFrsEvents : List Event :=
  [.addNonPdSink 0, .evaluateSinkFixedPdo 0 .sink false pdoFrs3A,
    .evaluateSinkFixedPdo 1 .sink false pdoFrs3A]

/-- A PD sink which is a non-PD port too loses its claim to a PD sink, and the runs for two FRS
ports never end. -/
theorem not_stabilises_overlap :
    (∃ s, Lib.Reach (step oneSlot) (fun _ _ => True) State.init s ∧
      s.sourceFrsMaxRequested = (fun _ => false) ∧ ¬ Stabilises oneSlot s) ∧
    ∃ s, Lib.Reach (step oneSlot) (fun _ _ => True) State.init s ∧
      s.sinkMaxPdoRequested = (fun _ => false) ∧ ¬ Stabilises oneSlot s ∧
      ∀ n, (quiet oneSlot s n).balancePending = true := by
  have hreach : ∀ es, Lib.Reach (step oneSlot) (fun _ _ => True) State.init (runOneSlot es) :=
    fun es => Lib.Reach.allowed (Lib.allowed_of_forall (fun _ _ => trivial) _ _) .start
  refine ⟨⟨runOneSlot twoSinksEvents, hreach _, rfl, ?_⟩,
    runOneSlot twoFrsEvents, hreach _, rfl, ?_⟩
  · rintro ⟨n, hrest, -, hsinks⟩
    have hn : n ≠ 0 := by
      rintro rfl
      exact absurd hrest (by decide)
    -- the port served first is downgraded again
    have hdown : Downgrades oneSlot (runOneSlot twoSinksEvents) 0 1 _ :=
      .forSink (by decide) (Or.inl (by decide))
    exact absurd (hsinks 0 (Nat.pos_of_ne_zero hn) 0 1 _ hdown) (by decide)
  · have hbalanced : Balanced oneSlot (runOneSlot twoFrsEvents) := balanced_of_reach (hreach _)
    have hbounces : Bounces oneSlot 0 1 _ (quiet oneSlot (runOneSlot twoFrsEvents) 1) :=
      bounces_of_downgrades hbalanced (by decide) (by decide) (by decide) (by decide) (by decide)
        (by decide) (by decide)
    have hpending : ∀ n, (quiet oneSlot (runOneSlot twoFrsEvents) n).balancePending = true := by
      rintro (_ | n)
      · decide
      · exact quiet_bounces hbalanced hbounces (Nat.le_add_left 1 n)
    refine ⟨fun ⟨n, hrest, _⟩ => ?_, hpending⟩
    rw [hpending n] at hrest
    exact absurd hrest (by decide)

end Quiet

end ChromiumEc.Usbc.Source
