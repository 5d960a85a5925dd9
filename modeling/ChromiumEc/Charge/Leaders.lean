import ChromiumEc.Charge.Select
import ChromiumEc.Lib.Leaders

/-!
# Leaders — the pairs that tie for the best

The selection as a pick among the pairs of the best standing: on the override port before any other,
then of the higher priority, then of the higher power.  Of several, the last one on the current
charge port is selected, or else the first.  With a DPS port the pair of that port stands for PD,
and the power that it is compared by is that of the ports before it.
-/

namespace ChromiumEc.Charge

open Lib

/-! ## Standing -/

section Standing

variable (cfg : Config) (env : Env) (s : State)

def dpsPort : Option Nat :=
  env.dpsChargePort.filter fun d =>
    cfg.usbPdDps && s.overridePort == .off && decide (supplierPd < cfg.supplierCount) &&
      eligible cfg env s supplierPd d

def contestants : List (Nat × Nat) :=
  match dpsPort cfg env s with
  | none => allPairs cfg env s
  | some d => (supplierPd, d) :: otherPairs cfg env s

def pairPower (c : Nat × Nat) : Int :=
  (s.availableCharge c.1 c.2).power

def contestPower (c : Nat × Nat) : Int :=
  match dpsPort cfg env s with
  | none => pairPower s c
  | some d =>
    if c.1 = supplierPd then
      ((pairsOf cfg env s (List.range d) supplierPd).map (pairPower s)).max?.getD (-1)
    else pairPower s c

def standingBy (power : Nat × Nat → Int) (c : Nat × Nat) : Bool ×ₗ ℤᵒᵈ ×ₗ ℤ :=
  toLex (onOverride s c.2, toLex (OrderDual.toDual (cfg.supplierPriority c.1), power c))

def leaders : List (Nat × Nat) :=
  leadersOf (standingBy cfg s (contestPower cfg env s)) (contestants cfg env s)

def leadersOn (port : Option Nat) : List (Nat × Nat) :=
  (leaders cfg env s).filter fun c => port == some c.2

def chosenPair : Option (Nat × Nat) :=
  (leadersOn cfg env s s.chargePort).getLast?.or (leaders cfg env s).head?

/-- The battery is not normal, and no leader is on the current charge port, which is retained. -/
def Retained : Prop :=
  s.chargePort ≠ none ∧ leadersOn cfg env s s.chargePort = [] ∧ batteryNotNormal cfg env = true

instance : Decidable (Retained cfg env s) :=
  inferInstanceAs (Decidable (_ ∧ _ ∧ _))

end Standing

variable {cfg : Config} {env : Env} {s t : State}

theorem dpsPort_eq_some {d : Nat} : dpsPort cfg env s = some d ↔ DpsPair cfg env s d := by
  rw [dpsPort, Option.filter_eq_some_iff]
  simp only [Bool.and_eq_true, beq_iff_eq, decide_eq_true_eq]
  constructor
  · rintro ⟨hport, ⟨⟨hdps, hoff⟩, hcount⟩, he⟩
    exact ⟨hdps, hoff, hport, hcount, he⟩
  · rintro ⟨hdps, hoff, hport, hcount, he⟩
    exact ⟨hport, ⟨⟨hdps, hoff⟩, hcount⟩, he⟩

theorem dpsPort_eq_none : dpsPort cfg env s = none ↔ ∀ d, ¬DpsPair cfg env s d := by
  rw [Option.eq_none_iff_forall_ne_some]
  exact forall_congr' fun d => not_congr dpsPort_eq_some

theorem standingBy_lt_iff {power : Nat × Nat → Int} {b c : Nat × Nat} :
    standingBy cfg s power b < standingBy cfg s power c ↔
      (onOverride s b.2 = false ∧ onOverride s c.2 = true) ∨
        (onOverride s b.2 = onOverride s c.2 ∧
          (cfg.supplierPriority c.1 < cfg.supplierPriority b.1 ∨
            (cfg.supplierPriority b.1 = cfg.supplierPriority c.1 ∧ power b < power c))) := by
  simp only [standingBy, Prod.Lex.toLex_lt_toLex, OrderDual.toDual_lt_toDual, OrderDual.toDual_inj,
    Bool.lt_iff]

theorem standingBy_eq_iff {power : Nat × Nat → Int} {b c : Nat × Nat} :
    standingBy cfg s power b = standingBy cfg s power c ↔
      onOverride s b.2 = onOverride s c.2 ∧
        cfg.supplierPriority b.1 = cfg.supplierPriority c.1 ∧ power b = power c := by
  simp only [standingBy, toLex_inj, Prod.mk.injEq, OrderDual.toDual_inj]

/-! ## The pass -/

def chooseBy (power : Nat × Nat → Int) (c : Nat × Nat) : Best :=
  ⟨some c.1, some c.2, power c⟩

theorem takes_chooseBy (power : Nat × Nat → Int) (b : Nat × Nat) (i j : Nat) :
    takes cfg s (chooseBy power b) i j = true ↔
      cfg.supplierPriority i < cfg.supplierPriority b.1 ∨
        (onOverride s j = true ∧ onOverride s b.2 = false) ∨
        (cfg.supplierPriority i = cfg.supplierPriority b.1 ∧
          (power b < pairPower s (i, j) ∨
            (pairPower s (i, j) = power b ∧ s.chargePort = some j))) := by
  have htakes : takes cfg s (chooseBy power b) i j =
      (decide (cfg.supplierPriority i < cfg.supplierPriority b.1) ||
        (s.overridePort == .port j && s.overridePort != .port b.2) ||
        (cfg.supplierPriority i == cfg.supplierPriority b.1 &&
          (decide (power b < pairPower s (i, j)) ||
            (pairPower s (i, j) == power b && s.chargePort == some j)))) := rfl
  simp [htakes, onOverride, or_assoc]

theorem prefers_chooseBy {power : Nat × Nat → Int} (b : Nat × Nat) {c : Nat × Nat}
    (hc : pairPower s c = power c) :
    prefers cfg s (chooseBy power b) c = true ↔
      standingBy cfg s power b < standingBy cfg s power c ∨
        (standingBy cfg s power b = standingBy cfg s power c ∧
          (s.chargePort == some c.2) = true) := by
  have hskip : overridden s (chooseBy power b) c.2 = (onOverride s b.2 && !onOverride s c.2) :=
    overridden_choosePair b c.2
  rw [prefers, Bool.and_eq_true, hskip, takes_chooseBy, show (c.1, c.2) = c from rfl, hc,
    standingBy_lt_iff, standingBy_eq_iff, beq_iff_eq]
  cases onOverride s b.2 <;> cases onOverride s c.2 <;>
    simp [eq_comm, and_assoc, or_assoc, and_or_left]

theorem pass_start (b : Nat × Nat) (cs : List (Nat × Nat)) :
    pass cfg s ⟨none, none, -1⟩ (b :: cs) = pass cfg s (choosePair s b) cs :=
  congrArg (fun best => pass cfg s best cs) (if_pos (prefers_start b))

theorem pass_power (hoff : s.overridePort = .off) {i : Nat} (js : List Nat) :
    (pass cfg s ⟨none, none, -1⟩ (pairsOf cfg env s js i)).power =
      ((pairsOf cfg env s js i).map (pairPower s)).max?.getD (-1) := by
  have hsupplier : ∀ c ∈ pairsOf cfg env s js i, c.1 = i := fun c hc => (mem_pairsOf.mp hc).1
  cases hpairs : pairsOf cfg env s js i with
  | nil => rfl
  | cons b cs =>
    have hprefers : ∀ b c, prefers cfg s (chooseBy (pairPower s) b) c = true ↔
        standingBy cfg s (pairPower s) b < standingBy cfg s (pairPower s) c ∨
          (standingBy cfg s (pairPower s) b = standingBy cfg s (pairPower s) c ∧
            (s.chargePort == some c.2) = true) := fun b c => prefers_chooseBy b rfl
    obtain ⟨m, hm, hfold⟩ : ∃ m,
        pickOf (fun c => s.chargePort == some c.2)
          (leadersOf (standingBy cfg s (pairPower s)) (b :: cs)) = some m ∧
        pass cfg s (chooseBy (pairPower s) b) cs = chooseBy (pairPower s) m :=
      foldl_replaceBy_eq_pick b cs fun b c _ => hprefers b c
    obtain ⟨hmem, hmax⟩ := mem_leadersOf.mp (pickOf_mem hm)
    have hgreatest : ((b :: cs).map (pairPower s)).max? = some (pairPower s m) := by
      rw [List.max?_eq_some_iff]
      refine ⟨List.mem_map_of_mem hmem, fun power hpower => ?_⟩
      obtain ⟨c, hc, rfl⟩ := List.mem_map.mp hpower
      have hle := hmax c hc
      have hm' : m.1 = i := hsupplier m (hpairs ▸ hmem)
      have hc' : c.1 = i := hsupplier c (hpairs ▸ hc)
      rw [← not_lt, standingBy_lt_iff, onOverride, onOverride, hoff, hm', hc'] at hle
      exact not_lt.mp fun hlt => hle (Or.inr ⟨rfl, Or.inr ⟨rfl, hlt⟩⟩)
    rw [pass_start, hgreatest]
    exact congrArg Best.power hfold

theorem foldl_eq_chosen {b : Nat × Nat} {cs : List (Nat × Nat)} {start : Best}
    (hcontest : contestants cfg env s = b :: cs)
    (hscan : scanSuppliers cfg env s = pass cfg s start cs)
    (hstart : start = chooseBy (contestPower cfg env s) b)
    (hpower : ∀ c ∈ cs, pairPower s c = contestPower cfg env s c) :
    ∃ m, chosenPair cfg env s = some m ∧
      scanSuppliers cfg env s = chooseBy (contestPower cfg env s) m := by
  have hchoose : pass cfg s start cs =
      cs.foldl (replaceBy (prefers cfg s) (chooseBy (contestPower cfg env s))) start := by
    refine List.foldl_ext _ _ _ fun best c hc => ?_
    rw [replaceBy, replaceBy, choosePair, chooseBy, ← hpower c hc]
    rfl
  obtain ⟨m, hm, hfold⟩ :=
    foldl_replaceBy_eq_pick b cs fun b c hc => prefers_chooseBy b (hpower c hc)
  refine ⟨m, ?_, ?_⟩
  · rw [chosenPair, leadersOn, leaders, hcontest]
    exact hm
  · rw [hscan, hchoose, hstart]
    exact hfold

theorem scanSuppliers_eq_chosen :
    (scanSuppliers cfg env s).port = (chosenPair cfg env s).map Prod.snd ∧
      (scanSuppliers cfg env s).supplier = (chosenPair cfg env s).map Prod.fst := by
  suffices hcases : (contestants cfg env s = [] ∧ scanSuppliers cfg env s = ⟨none, none, -1⟩) ∨
      ∃ m, chosenPair cfg env s = some m ∧
        scanSuppliers cfg env s = chooseBy (contestPower cfg env s) m by
    rcases hcases with ⟨hnil, hscan⟩ | ⟨m, hm, hscan⟩
    · have hnone : leaders cfg env s = [] := by
        rw [leaders, hnil]
        rfl
      rw [hscan, chosenPair, leadersOn, hnone]
      exact ⟨rfl, rfl⟩
    · rw [hscan, hm]
      exact ⟨rfl, rfl⟩
  cases hdps : dpsPort cfg env s with
  | none =>
    have hscan := scanSuppliers_eq_pass (dpsPort_eq_none.mp hdps)
    have hcontest : contestants cfg env s = allPairs cfg env s := by
      rw [contestants, hdps]
    have hpower : contestPower cfg env s = pairPower s := by
      funext c
      rw [contestPower, hdps]
    cases hall : allPairs cfg env s with
    | nil =>
      rw [hall] at hscan hcontest
      exact Or.inl ⟨hcontest, hscan⟩
    | cons b cs =>
      rw [hall] at hscan hcontest
      have hchoice : choosePair s b = chooseBy (contestPower cfg env s) b := by
        rw [hpower]
        rfl
      rw [pass_start] at hscan
      refine Or.inr (foldl_eq_chosen hcontest hscan hchoice fun c _ => ?_)
      rw [hpower]
  | some d =>
    have hd := dpsPort_eq_some.mp hdps
    have hcontest : contestants cfg env s = (supplierPd, d) :: otherPairs cfg env s := by
      rw [contestants, hdps]
    refine Or.inr (foldl_eq_chosen hcontest (scanSuppliers_dps hd) ?_ fun c hc => ?_)
    · have hpass := @pass_power cfg env s hd.noOverride supplierPd (List.range d)
      rw [dpsChoice, chooseBy, contestPower, hdps, hpass]
      rfl
    · have hother : c.1 ≠ supplierPd := (mem_otherPairs.mp hc).2
      rw [contestPower, hdps]
      exact (if_neg hother).symm

theorem getBestPort_eq_chosen (hover : s.overridePort ≠ .dontCharge) :
    getBestPort cfg env s =
      if Retained cfg env s then (s.chargePort, s.chargeSupplier)
      else ((chosenPair cfg env s).map Prod.snd, (chosenPair cfg env s).map Prod.fst) := by
  obtain ⟨hport, hsupplier⟩ := @scanSuppliers_eq_chosen cfg env s
  have hcurrent : s.chargePort ≠ none →
      (s.chargePort ≠ (scanSuppliers cfg env s).port ↔ leadersOn cfg env s s.chargePort = []) := by
    intro hsome
    obtain ⟨p, hp⟩ := Option.ne_none_iff_exists'.mp hsome
    rw [hport, hp]
    constructor
    · intro hne
      by_contra hleads
      obtain ⟨m, hm⟩ : ∃ m, (leadersOn cfg env s (some p)).getLast? = some m :=
        ⟨_, List.getLast?_eq_some_getLast hleads⟩
      have hflag := (List.mem_filter.mp (List.mem_of_getLast? hm)).2
      rw [chosenPair, hp, hm] at hne
      exact hne (beq_iff_eq.mp hflag)
    · intro hnil heq
      rw [chosenPair, hp, hnil] at heq
      obtain ⟨c, hc, hcp⟩ := Option.map_eq_some_iff.mp heq.symm
      have hmem : c ∈ leadersOn cfg env s (some p) :=
        List.mem_filter.mpr ⟨List.mem_of_head? hc, beq_iff_eq.mpr (congrArg some hcp.symm)⟩
      rw [hnil] at hmem
      cases hmem
  rw [getBestPort, if_neg hover]
  dsimp only
  rw [hport, hsupplier]
  rw [hport] at hcurrent
  have hiff : (s.chargePort ≠ none ∧ s.chargePort ≠ (chosenPair cfg env s).map Prod.snd ∧
      batteryNotNormal cfg env = true) ↔ Retained cfg env s :=
    and_congr_right fun hsome => and_congr_left fun _ => hcurrent hsome
  by_cases hretained : Retained cfg env s
  · rw [if_pos hretained, if_pos (hiff.mpr hretained)]
  · rw [if_neg hretained, if_neg (mt hiff.mp hretained)]

theorem leaders_congr (hcharge : t.availableCharge = s.availableCharge)
    (hcap : t.dualroleCapability = s.dualroleCapability) (hover : t.overridePort = s.overridePort)
    (hsafe : t.leftSafeMode = s.leftSafeMode) : leaders cfg env t = leaders cfg env s := by
  have heligible : ∀ i, eligible cfg env t i = eligible cfg env s i := by
    intro i
    funext j
    rw [eligible, eligible, spoofDualroleCapability, spoofDualroleCapability, hcharge, hcap, hover,
      hsafe]
  have hpairs : pairsOf cfg env t = pairsOf cfg env s := by
    funext js i
    rw [pairsOf, pairsOf, heligible]
  have hpower : pairPower t = pairPower s := by
    funext c
    rw [pairPower, pairPower, hcharge]
  have hdps : dpsPort cfg env t = dpsPort cfg env s := by
    rw [dpsPort, dpsPort, hover, heligible]
  have hcontest : contestants cfg env t = contestants cfg env s := by
    rw [contestants, contestants, allPairs, allPairs, otherPairs, otherPairs, hdps, hpairs]
  have hpowers : contestPower cfg env t = contestPower cfg env s := by
    funext c
    rw [contestPower, contestPower, hdps, hpairs, hpower]
  have hstanding : standingBy cfg t = standingBy cfg s := by
    funext power c
    rw [standingBy, standingBy, onOverride, onOverride, hover]
  rw [leaders, leaders, hcontest, hpowers, hstanding]

theorem leadersOn_congr (hcharge : t.availableCharge = s.availableCharge)
    (hcap : t.dualroleCapability = s.dualroleCapability) (hover : t.overridePort = s.overridePort)
    (hsafe : t.leftSafeMode = s.leftSafeMode) (port : Option Nat) :
    leadersOn cfg env t port = leadersOn cfg env s port := by
  rw [leadersOn, leadersOn, leaders_congr hcharge hcap hover hsafe]

end ChromiumEc.Charge
