import ChromiumEc.Charge.Leaders
import ChromiumEc.Charge.Run

/-!
# Again — a second refresh

A refresh changes what the next one reads: the charge port, in favour of which a tie is resolved,
and the override, which it clears when its port was not selected.  `ChoiceSteady` says when the next one
selects the same pair all the same, in terms of the pairs that lead.
-/

namespace ChromiumEc.Charge

open Lib

/-! ## What a refresh does besides -/

section Effect

variable (cfg : Config) (env : Env) (board : List Nat → Option Nat → Bool)
  (ramp : Nat → Nat → Int → Int)

/-- The calls of `board_set_active_charge_port` in `hunt`. -/
def huntOffers : Nat → List Nat → State → List (Option Nat)
  | 0, _, _ => []
  | fuel + 1, rejected, s =>
    let (port, supplier) := getBestPort cfg env s
    if !s.leftSafeMode && port == none then []
    else if s.activeChargePortInitialized && port == s.chargePort &&
        supplier == s.chargeSupplier then
      []
    else if board rejected port then [port]
    else
      match port with
      | none => [none]
      | some p => some p :: huntOffers fuel (p :: rejected) (clearCharge cfg p s)

/-- The charge port, the supplier or the current changes: only then is the charge limit set, or the
ramp told, and `HOOK_POWER_SUPPLY_CHANGE` notified. -/
def powerChanged (port supplier : Option Nat) (s : State) : Bool :=
  port != s.chargePort ||
    cappedCurrent cfg port supplier (uncappedCurrent cfg ramp port supplier s) s !=
      s.chargeCurrent ||
    supplier != s.chargeSupplier

/-- `power_changed` at the end of `charge_manager_refresh` -/
def refreshChangesPower (s : State) : Bool :=
  match hunt cfg env board (cfg.portCount + 1) [] { s with refreshPending := false } with
  | some ⟨_, some (port, supplier), s⟩ => powerChanged cfg ramp port supplier s
  | _ => false

/-- A refresh selects `r`, and that is all. -/
structure NoEffect (r : Option Nat × Option Nat) (s : State) : Prop where
  selects : getBestPort cfg env s = r
  offers : huntOffers cfg env board (cfg.portCount + 1) [] { s with refreshPending := false } = []
  power : refreshChangesPower cfg env board ramp s = false
  state : refresh cfg env board ramp s = { s with refreshPending := false }

end Effect

/-! ## When the next refresh selects the same -/

section ChoiceSteady

variable (cfg : Config) (env : Env) (s : State)

/-- The port is retained, or a leader is on the current charge port, or the first leader is the last
one on its port. -/
def Undisturbed : Prop :=
  Retained cfg env s ∨ leadersOn cfg env s s.chargePort ≠ [] ∨
    ∀ c ∈ (leaders cfg env s).head?, (leadersOn cfg env s (some c.2)).getLast? = some c

/-- The last leader on the port is of this supplier; or there is none, and the port is retained. -/
def LeadsLast (supplier : Option Nat) (j : Nat) : Prop :=
  match (leadersOn cfg env s (some j)).getLast? with
  | some c => supplier = some c.1
  | none => batteryNotNormal cfg env = true

def withoutOverride : State :=
  { s with overridePort := .off }

/-- A refresh leaves a state in which the next one selects the same. -/
def ChoiceSteady : Prop :=
  match s.overridePort with
  | .dontCharge => True
  | .off => Undisturbed cfg env s
  | .port p =>
    -- the override is cleared when another port is retained, or no leader is on its port
    if Retained cfg env s ∧ s.chargePort ≠ some p then
      ∀ j ∈ s.chargePort, LeadsLast cfg env (withoutOverride s) s.chargeSupplier j
    else if ¬Retained cfg env s ∧ leadersOn cfg env s (some p) = [] then
      ∀ c ∈ chosenPair cfg env s, LeadsLast cfg env (withoutOverride s) (some c.1) c.2
    else Undisturbed cfg env s

end ChoiceSteady

variable {cfg : Config} {env : Env} {s t u : State}

theorem mem_leadersOn {c : Nat × Nat} {port : Option Nat} :
    c ∈ leadersOn cfg env s port ↔ c ∈ leaders cfg env s ∧ port = some c.2 := by
  rw [leadersOn, List.mem_filter, beq_iff_eq]

theorem chosenPair_mem {c : Nat × Nat} (h : chosenPair cfg env s = some c) :
    c ∈ leaders cfg env s :=
  pickOf_mem h

theorem getBestPort_again {supplier : Option Nat} {j : Nat} (hover : s.overridePort ≠ .dontCharge)
    (hport : s.chargePort = some j) (hsupplier : s.chargeSupplier = supplier) :
    getBestPort cfg env s = (some j, supplier) ↔ LeadsLast cfg env s supplier j := by
  have hsome : s.chargePort ≠ none := hport ▸ Option.some_ne_none j
  rw [getBestPort_eq_chosen hover, LeadsLast]
  cases hlast : (leadersOn cfg env s (some j)).getLast? with
  | none =>
    have hnil : leadersOn cfg env s (some j) = [] := List.getLast?_eq_none_iff.mp hlast
    have hretained : Retained cfg env s ↔ batteryNotNormal cfg env = true := by
      rw [Retained, hport, hnil]
      exact ⟨fun h => h.2.2, fun h => ⟨Option.some_ne_none j, rfl, h⟩⟩
    by_cases hbattery : batteryNotNormal cfg env = true
    · rw [if_pos (hretained.mpr hbattery), hport, hsupplier]
      exact iff_of_true rfl hbattery
    · rw [if_neg (mt hretained.mp hbattery)]
      refine iff_of_false (fun heq => ?_) hbattery
      -- the chosen pair is not on the port, where no leader is
      obtain ⟨c, hc, hcj⟩ := Option.map_eq_some_iff.mp (Prod.mk.inj heq).1
      have hmem := mem_leadersOn.mpr ⟨chosenPair_mem hc, congrArg some hcj.symm⟩
      rw [hnil] at hmem
      cases hmem
  | some c =>
    have hc := mem_leadersOn.mp (List.mem_of_getLast? hlast)
    have hnot : ¬Retained cfg env s := by
      intro hretained
      have hnil := hretained.2.1
      rw [hport] at hnil
      rw [hnil] at hlast
      cases hlast
    have hchosen : chosenPair cfg env s = some c := by
      rw [chosenPair, hport, hlast]
      rfl
    rw [if_neg hnot, hchosen, Option.map_some, Option.map_some, ← hc.2, Prod.mk.injEq]
    exact ⟨fun h => h.2.symm, fun h => ⟨rfl, h.symm⟩⟩

theorem leadsLast_chosen {c : Nat × Nat} (hnot : ¬Retained cfg env s)
    (hc : chosenPair cfg env s = some c) :
    LeadsLast cfg env s (some c.1) c.2 ↔ Undisturbed cfg env s := by
  have hmem : c ∈ leadersOn cfg env s (some c.2) := mem_leadersOn.mpr ⟨chosenPair_mem hc, rfl⟩
  obtain ⟨d, hd⟩ : ∃ d, (leadersOn cfg env s (some c.2)).getLast? = some d :=
    ⟨_, List.getLast?_eq_some_getLast (List.ne_nil_of_mem hmem)⟩
  have hdport := (mem_leadersOn.mp (List.mem_of_getLast? hd)).2
  have hsame : LeadsLast cfg env s (some c.1) c.2 ↔
      (leadersOn cfg env s (some c.2)).getLast? = some c := by
    rw [LeadsLast, hd]
    constructor
    · intro hsupplier
      exact congrArg some (Prod.ext (Option.some.inj hsupplier).symm (Option.some.inj hdport).symm)
    · intro heq
      exact congrArg (fun c => some c.1) (Option.some.inj heq).symm
  rw [hsame, Undisturbed]
  by_cases hcurrent : leadersOn cfg env s s.chargePort = []
  · have hhead : (leaders cfg env s).head? = some c := by
      rw [chosenPair, hcurrent] at hc
      exact hc
    rw [hhead]
    constructor
    · rintro hlast
      refine Or.inr (Or.inr fun c' hc' => ?_)
      exact Option.some.inj hc' ▸ hlast
    · rintro (hretained | hne | hlast)
      · exact absurd hretained hnot
      · exact absurd hcurrent hne
      · exact hlast c rfl
  · obtain ⟨m, hm⟩ : ∃ m, (leadersOn cfg env s s.chargePort).getLast? = some m :=
      ⟨_, List.getLast?_eq_some_getLast hcurrent⟩
    have hcm : m = c := by
      rw [chosenPair, hm] at hc
      exact Option.some.inj hc
    have hport := (mem_leadersOn.mp (List.mem_of_getLast? hm)).2
    rw [hcm] at hm hport
    rw [← hport, hm]
    exact iff_of_true rfl (Or.inr (Or.inl hcurrent))

theorem onOverride_of_leader {p : Nat} {c : Nat × Nat} (hover : s.overridePort = .port p)
    (hleads : leadersOn cfg env s (some p) ≠ []) (hc : c ∈ leaders cfg env s) : c.2 = p := by
  obtain ⟨m, hm⟩ := List.exists_mem_of_ne_nil _ hleads
  obtain ⟨hm, hmp⟩ := mem_leadersOn.mp hm
  obtain ⟨hmem, -⟩ := mem_leadersOf.mp hm
  have hle := not_lt.mpr ((mem_leadersOf.mp hc).2 m hmem)
  rw [standingBy_lt_iff, onOverride, onOverride, hover, ← Option.some.inj hmp] at hle
  by_contra hne
  refine hle (Or.inl ⟨?_, beq_self_eq_true _⟩)
  exact beq_eq_false_iff_ne.mpr fun heq => hne (Override.port.inj heq).symm

theorem leaders_withoutOverride (h : leaders cfg env s = []) :
    leaders cfg env (withoutOverride s) = [] := by
  have hnone : ∀ c, c ∉ contestants cfg env s := by
    intro c hc
    obtain ⟨m, hm⟩ : ∃ m, m ∈ leaders cfg env s := exists_mem_leadersOf hc
    rw [h] at hm
    cases hm
  have hcandidate : ∀ i j, ¬Candidate cfg env s i j := by
    intro i j hcand
    cases hdps : dpsPort cfg env s with
    | none =>
      refine hnone (i, j) ?_
      rw [contestants, hdps]
      exact mem_allPairs.mpr hcand
    | some d =>
      refine hnone (supplierPd, d) ?_
      rw [contestants, hdps]
      exact List.mem_cons_self
  rw [List.eq_nil_iff_forall_not_mem]
  intro c hc
  obtain ⟨hcontest, -⟩ := mem_leadersOf.mp hc
  have hcand : Candidate cfg env (withoutOverride s) c.1 c.2 := by
    cases hdps : dpsPort cfg env (withoutOverride s) with
    | none =>
      rw [contestants, hdps] at hcontest
      exact mem_allPairs.mp hcontest
    | some d =>
      rw [contestants, hdps] at hcontest
      rcases List.mem_cons.mp hcontest with rfl | hcontest
      · exact (dpsPort_eq_some.mp hdps).candidate
      · exact (mem_otherPairs.mp hcontest).1
  refine hcandidate c.1 c.2 ⟨hcand.1, ?_⟩
  obtain ⟨hvalid, hcharge, hcap⟩ := eligible_iff.mp hcand.2
  refine eligible_iff.mpr ⟨hvalid, hcharge, ?_⟩
  rcases hcap with hdrp | hdedicated | hport | hspoof
  · exact Or.inl hdrp
  · exact Or.inr (Or.inl hdedicated)
  · cases hport
  · exact Or.inr (Or.inr (Or.inr hspoof))

/-- What the selection reads after a refresh that selected the pair. -/
structure After (port supplier : Option Nat) (s u : State) : Prop where
  availableCharge : u.availableCharge = s.availableCharge
  dualroleCapability : u.dualroleCapability = s.dualroleCapability
  leftSafeMode : u.leftSafeMode = s.leftSafeMode
  overridePort : u.overridePort = keptOverride port s.overridePort
  chargePort : u.chargePort = port
  chargeSupplier : u.chargeSupplier = supplier

theorem leadersOn_after {port supplier : Option Nat} (h : After port supplier s u)
    (hover : keptOverride port s.overridePort = s.overridePort) :
    leadersOn cfg env u = leadersOn cfg env s := by
  funext p
  exact leadersOn_congr h.availableCharge h.dualroleCapability (h.overridePort.trans hover)
    h.leftSafeMode p

theorem leadersOn_after_without {port supplier : Option Nat} (h : After port supplier s u)
    (hover : keptOverride port s.overridePort = .off) :
    leadersOn cfg env u = leadersOn cfg env (withoutOverride s) := by
  funext p
  exact leadersOn_congr (s := withoutOverride s) h.availableCharge h.dualroleCapability
    (h.overridePort.trans hover) h.leftSafeMode p

theorem After.ne_dontCharge {port supplier : Option Nat} (h : After port supplier s u)
    (hover : s.overridePort ≠ .dontCharge) : u.overridePort ≠ .dontCharge := by
  rw [h.overridePort]
  unfold keptOverride
  split
  · split_ifs <;> exact nofun
  · exact hover

theorem leadsLast_congr (h : leadersOn cfg env u = leadersOn cfg env s) (supplier : Option Nat)
    (j : Nat) : LeadsLast cfg env u supplier j ↔ LeadsLast cfg env s supplier j := by
  rw [LeadsLast, LeadsLast, h]

theorem getBestPort_after_none {supplier : Option Nat} (h : After none supplier s u)
    (hover : s.overridePort ≠ .dontCharge) (hleaders : leaders cfg env s = []) :
    getBestPort cfg env u = (none, none) := by
  have hleaders' : leaders cfg env u = [] := by
    have hsame := @leaders_congr cfg env s u h.availableCharge h.dualroleCapability
    cases ho : s.overridePort with
    | off =>
      have hkept : u.overridePort = s.overridePort := by
        rw [h.overridePort, ho]
        rfl
      rw [hsame hkept h.leftSafeMode, hleaders]
    | dontCharge => exact absurd ho hover
    | port p =>
      have hkept : u.overridePort = .off := by
        rw [h.overridePort, ho]
        rfl
      rw [show leaders cfg env u = leaders cfg env (withoutOverride s) from
        leaders_congr h.availableCharge h.dualroleCapability hkept h.leftSafeMode]
      exact leaders_withoutOverride hleaders
  have hnot : ¬Retained cfg env u := fun hretained => hretained.1 h.chargePort
  rw [getBestPort_eq_chosen (h.ne_dontCharge hover), if_neg hnot, chosenPair, leadersOn, hleaders']
  rfl

theorem steady_of_chosen_none (hnot : ¬Retained cfg env s) (hc : chosenPair cfg env s = none) :
    ChoiceSteady cfg env s := by
  have hundisturbed : Undisturbed cfg env s := by
    refine Or.inr (Or.inr ?_)
    rw [chosenPair, Option.or_eq_none_iff] at hc
    rw [hc.2]
    rintro x ⟨⟩
  rw [ChoiceSteady]
  cases ho : s.overridePort with
  | dontCharge => trivial
  | off => exact hundisturbed
  | port p =>
    dsimp only
    rw [if_neg fun hcleared => hnot hcleared.1]
    split_ifs
    · rw [hc]
      rintro x ⟨⟩
    · exact hundisturbed

theorem steady_of_none (h : (getBestPort cfg env s).1 = none) : ChoiceSteady cfg env s := by
  by_cases hdont : s.overridePort = .dontCharge
  · rw [ChoiceSteady, hdont]
    trivial
  · rw [getBestPort_eq_chosen hdont] at h
    split_ifs at h with hretained
    · exact absurd h hretained.1
    · exact steady_of_chosen_none hretained (Option.map_eq_none_iff.mp h)

theorem getBestPort_after_retained (h : After s.chargePort s.chargeSupplier s u)
    (hdont : s.overridePort ≠ .dontCharge) (hretained : Retained cfg env s) :
    getBestPort cfg env u = (s.chargePort, s.chargeSupplier) ↔ ChoiceSteady cfg env s := by
  obtain ⟨j, hj⟩ := Option.ne_none_iff_exists'.mp hretained.1
  have hkeeps : leadersOn cfg env u = leadersOn cfg env s →
      (LeadsLast cfg env u s.chargeSupplier j ↔ Undisturbed cfg env s) := by
    intro hsame
    have hnil := hretained.2.1
    rw [hj] at hnil
    rw [leadsLast_congr hsame, LeadsLast, hnil]
    exact iff_of_true hretained.2.2 (Or.inl hretained)
  rw [hj, getBestPort_again (h.ne_dontCharge hdont) (h.chargePort.trans hj) h.chargeSupplier,
    ChoiceSteady]
  cases ho : s.overridePort with
  | dontCharge => exact absurd ho hdont
  | off =>
    apply hkeeps
    apply leadersOn_after h
    rw [ho]
    rfl
  | port p =>
    dsimp only
    by_cases hp : j = p
    · have hcurrent : s.chargePort = some p := hj.trans (congrArg some hp)
      rw [if_neg fun hcleared => hcleared.2 hcurrent, if_neg fun hcleared =>
        hcleared.1 hretained]
      apply hkeeps
      apply leadersOn_after h
      rw [ho, keptOverride, if_pos hcurrent]
    · -- the override is cleared, for the port that is retained
      have hother : s.chargePort ≠ some p := fun heq =>
        hp (Option.some.inj (hj.symm.trans heq))
      rw [if_pos ⟨hretained, hother⟩, hj, leadsLast_congr (leadersOn_after_without h ?_)]
      · exact ⟨fun hlast j' hj' => Option.some.inj hj' ▸ hlast, fun hlast => hlast j rfl⟩
      · rw [ho, keptOverride, if_neg hother]

theorem getBestPort_after_chosen {c : Nat × Nat} (h : After (some c.2) (some c.1) s u)
    (hdont : s.overridePort ≠ .dontCharge) (hretained : ¬Retained cfg env s)
    (hc : chosenPair cfg env s = some c) :
    getBestPort cfg env u = (some c.2, some c.1) ↔ ChoiceSteady cfg env s := by
  have hkeeps : leadersOn cfg env u = leadersOn cfg env s →
      (LeadsLast cfg env u (some c.1) c.2 ↔ Undisturbed cfg env s) := fun hsame =>
    (leadsLast_congr hsame _ _).trans (leadsLast_chosen hretained hc)
  rw [getBestPort_again (h.ne_dontCharge hdont) h.chargePort h.chargeSupplier, ChoiceSteady]
  cases ho : s.overridePort with
  | dontCharge => exact absurd ho hdont
  | off =>
    apply hkeeps
    apply leadersOn_after h
    rw [ho]
    rfl
  | port p =>
    dsimp only
    rw [if_neg fun hcleared => hretained hcleared.1]
    by_cases hleads : leadersOn cfg env s (some p) = []
    · -- the override is cleared, since the chosen pair is on another port
      have hother : some c.2 ≠ some p := by
        intro heq
        have hmem := mem_leadersOn.mpr ⟨chosenPair_mem hc, heq.symm⟩
        rw [hleads] at hmem
        cases hmem
      rw [if_pos ⟨hretained, hleads⟩, hc, leadsLast_congr (leadersOn_after_without h ?_)]
      · exact ⟨fun hlast c' hc' => Option.some.inj hc' ▸ hlast, fun hlast => hlast c rfl⟩
      · rw [ho]
        exact if_neg hother
    · have hon : c.2 = p := onOverride_of_leader ho hleads (chosenPair_mem hc)
      rw [if_neg fun hcleared => hleads hcleared.2]
      apply hkeeps
      apply leadersOn_after h
      rw [ho]
      exact if_pos (congrArg some hon)

theorem getBestPort_after_iff {port supplier : Option Nat} (h : After port supplier s u)
    (hbest : getBestPort cfg env s = (port, supplier)) :
    getBestPort cfg env u = (port, supplier) ↔ ChoiceSteady cfg env s := by
  by_cases hdont : s.overridePort = .dontCharge
  · have hnone : getBestPort cfg env s = (none, none) := if_pos hdont
    have hkept : u.overridePort = .dontCharge := by
      rw [h.overridePort, hdont]
      rfl
    have hnone' : getBestPort cfg env u = (none, none) := if_pos hkept
    rw [ChoiceSteady, hdont, ← hbest, hnone, hnone']
    exact iff_of_true rfl trivial
  · rw [getBestPort_eq_chosen hdont] at hbest
    by_cases hretained : Retained cfg env s
    · rw [if_pos hretained] at hbest
      obtain ⟨rfl, rfl⟩ := Prod.mk.inj hbest
      exact getBestPort_after_retained h hdont hretained
    · rw [if_neg hretained] at hbest
      obtain ⟨rfl, rfl⟩ := Prod.mk.inj hbest
      cases hc : chosenPair cfg env s with
      | none =>
        -- there is nothing to charge from
        rw [hc] at h
        have hnil : leaders cfg env s = [] := by
          rw [chosenPair, Option.or_eq_none_iff] at hc
          exact List.head?_eq_none_iff.mp hc.2
        exact iff_of_true (getBestPort_after_none h hdont hnil)
          (steady_of_chosen_none hretained hc)
      | some c =>
        rw [hc] at h
        exact getBestPort_after_chosen h hdont hretained hc

/-! ## A second refresh -/

theorem hunt_same {board : List Nat → Option Nat → Bool} {fuel : Nat}
    (hbest : getBestPort cfg env s = (s.chargePort, s.chargeSupplier))
    (hinit : s.activeChargePortInitialized = true)
    (hsafe : s.leftSafeMode = true ∨ s.chargePort ≠ none) :
    hunt cfg env board (fuel + 1) [] s = some ⟨[], some (s.chargePort, s.chargeSupplier), s⟩ ∧
      huntOffers cfg env board (fuel + 1) [] s = [] := by
  have hnot : ¬(!s.leftSafeMode && s.chargePort == none) = true := by
    rw [Bool.and_eq_true, Bool.not_eq_true', beq_iff_eq]
    rintro ⟨hin, hnone⟩
    rcases hsafe with hleft | hsome
    · exact absurd (hin.symm.trans hleft) Bool.false_ne_true
    · exact hsome hnone
  have hsame : (s.activeChargePortInitialized && s.chargePort == s.chargePort &&
      s.chargeSupplier == s.chargeSupplier) = true := by
    rw [hinit, beq_self_eq_true, beq_self_eq_true]
    rfl
  rw [hunt, huntOffers, hbest]
  dsimp only
  rw [if_neg hnot, if_pos hsame, if_neg hnot, if_pos hsame]
  exact ⟨rfl, rfl⟩

theorem keptOverride_again (port : Option Nat) (o : Override) :
    keptOverride port (keptOverride port o) = keptOverride port o := by
  cases o with
  | off => rfl
  | dontCharge => rfl
  | port p =>
    by_cases hp : port = some p
    · rw [keptOverride, if_pos hp, keptOverride, if_pos hp]
    · rw [keptOverride, if_neg hp]
      rfl

theorem switchTo_eq (ramp : Nat → Nat → Int → Int) (port supplier : Option Nat) (s : State) :
    switchTo cfg ramp port supplier s =
      { s with
        activeChargePortInitialized := true
        overridePort := keptOverride port s.overridePort
        chargePdCurrentUncapped :=
          if supplier = some supplierPd then uncappedCurrent cfg ramp port supplier s
          else chargeCurrentUninitialized
        chargeLimit :=
          if powerChanged cfg ramp port supplier s && !cfg.chgRampTask then
            some (cappedCurrent cfg port supplier (uncappedCurrent cfg ramp port supplier s) s)
          else s.chargeLimit
        chargeCurrent :=
          cappedCurrent cfg port supplier (uncappedCurrent cfg ramp port supplier s) s
        chargeCurrentUncapped := uncappedCurrent cfg ramp port supplier s
        chargeVoltage := selectedVoltage port supplier s
        chargeSupplier := supplier
        chargePort := port } := by
  rw [switchTo, dropOverride_eq]
  rfl

theorem powerChanged_of_same {ramp : Nat → Nat → Int → Int} {port supplier : Option Nat}
    (hport : s.chargePort = port) (hsupplier : s.chargeSupplier = supplier)
    (hcurrent : s.chargeCurrent =
      cappedCurrent cfg port supplier (uncappedCurrent cfg ramp port supplier s) s) :
    powerChanged cfg ramp port supplier s = false := by
  rw [powerChanged, hport, hsupplier, hcurrent, bne_self_eq_false, bne_self_eq_false,
    bne_self_eq_false]
  rfl

theorem switchTo_again {ramp : Nat → Nat → Int → Int} {port supplier : Option Nat}
    (hu : u = { switchTo cfg ramp port supplier s with refreshPending := false }) :
    switchTo cfg ramp port supplier u = u ∧ powerChanged cfg ramp port supplier u = false := by
  rw [switchTo_eq] at hu
  have hsame : powerChanged cfg ramp port supplier u = false := by
    rw [hu]
    exact powerChanged_of_same rfl rfl rfl
  refine ⟨?_, hsame⟩
  rw [switchTo_eq, hsame, hu]
  simp only [keptOverride_again, Bool.false_and, Bool.false_eq_true, if_false]
  rfl

theorem hunt_selected_safe {board : List Nat → Option Nat → Bool} {fuel : Nat} {ps : List Nat}
    {h : Hunted} {r : Option Nat × Option Nat} (hh : hunt cfg env board fuel ps s = some h)
    (hr : h.selected = some r) : s.leftSafeMode = true ∨ r.1 ≠ none := by
  induction fuel generalizing ps s with
  | zero => cases hh
  | succ fuel ih =>
    rw [hunt] at hh
    dsimp only at hh
    split_ifs at hh with hearly hsame hboard
    · cases hh
      cases hr
    all_goals
      rw [Bool.and_eq_true, Bool.not_eq_true', beq_iff_eq, not_and_or, Bool.not_eq_false]
        at hearly
    · cases hh
      cases hr
      exact hearly
    · cases hh
      cases hr
      exact hearly
    · split at hh
      · cases hh
      · have hlater := ih hh
        exact hlater

theorem noEffect_of_same {board : List Nat → Option Nat → Bool} {ramp : Nat → Nat → Int → Int}
    (hbest : getBestPort cfg env s = (s.chargePort, s.chargeSupplier))
    (hinit : s.activeChargePortInitialized = true)
    (hsafe : s.leftSafeMode = true ∨ s.chargePort ≠ none)
    (hagain : switchTo cfg ramp s.chargePort s.chargeSupplier { s with refreshPending := false } =
      { s with refreshPending := false })
    (hpower : powerChanged cfg ramp s.chargePort s.chargeSupplier
      { s with refreshPending := false } = false) :
    NoEffect cfg env board ramp (s.chargePort, s.chargeSupplier) s := by
  have hcalled : SameInputs { s with refreshPending := false } s :=
    ⟨rfl, rfl, rfl, rfl, rfl, rfl⟩
  have hbest' := hcalled.getBestPort_eq.trans hbest
  obtain ⟨hhunt, hoffers⟩ := @hunt_same cfg env { s with refreshPending := false } board
    cfg.portCount hbest' hinit hsafe
  refine ⟨hbest, hoffers, ?_, ?_⟩
  · rw [refreshChangesPower, hhunt]
    exact hpower
  · rw [refresh, hhunt]
    exact hagain

theorem hunt_early {board : List Nat → Option Nat → Bool} {fuel : Nat}
    (hsafe : s.leftSafeMode = false) (hbest : (getBestPort cfg env s).1 = none) :
    hunt cfg env board (fuel + 1) [] s = some ⟨[], none, s⟩ ∧
      huntOffers cfg env board (fuel + 1) [] s = [] := by
  have hearly : (!s.leftSafeMode && (getBestPort cfg env s).1 == none) = true := by
    rw [hsafe, hbest]
    rfl
  exact ⟨if_pos hearly, if_pos hearly⟩

theorem noEffect_of_early {board : List Nat → Option Nat → Bool} {ramp : Nat → Nat → Int → Int}
    (hpending : s.refreshPending = false) (hsafe : s.leftSafeMode = false)
    (hbest : (getBestPort cfg env s).1 = none) :
    NoEffect cfg env board ramp (getBestPort cfg env s) s := by
  have hsame : { s with refreshPending := false } = s := by
    rw [← hpending]
  obtain ⟨hhunt, hoffers⟩ := @hunt_early cfg env s board cfg.portCount hsafe hbest
  rw [← hsame] at hhunt hoffers
  refine ⟨rfl, hoffers, ?_, ?_⟩
  · rw [refreshChangesPower, hhunt]
  · rw [refresh, hhunt]

/-- A second refresh, with whatever answers of the board, has no effect exactly when the first one,
with the charge of the ports that the board rejected cleared, is in a steady state. -/
theorem refresh_again_iff {ok : State → Event → Prop} {safeMode : Bool}
    {board : List Nat → Option Nat → Bool} {ramp : Nat → Nat → Int → Int} {h : Hunted}
    (hreach : Reach (step cfg) ok (State.init cfg safeMode) s)
    (hh : hunt cfg env board (cfg.portCount + 1) [] { s with refreshPending := false } = some h) :
    (∀ board', NoEffect cfg env board' ramp (getBestPort cfg env h.state)
        (refresh cfg env board ramp s)) ↔
      ChoiceSteady cfg env (clearAll cfg s h.rejected) := by
  have hinit := (consistent_of_reach hreach).initialized
  rcases @hunt_called cfg env board s hinit with ⟨h', hh', hspec⟩ | ⟨hnone, -⟩
  · obtain rfl : h' = h := Option.some.inj (hh'.symm.trans hh)
    obtain ⟨rejected, selected, state⟩ := h'
    obtain ⟨-, hstate, hearly, hselected, -⟩ := hspec
    dsimp only at hstate hearly hselected ⊢
    subst hstate
    have hinputs := @sameInputs_called cfg s rejected
    cases selected with
    | none =>
      obtain ⟨hsafe, hbest⟩ := hearly rfl
      have hfirst : refresh cfg env board ramp s =
          clearAll cfg { s with refreshPending := false } rejected := by
        rw [refresh, hh]
      rw [hfirst]
      refine iff_of_true (fun board' => ?_) (steady_of_none (hinputs.getBestPort_eq ▸ hbest))
      exact noEffect_of_early rfl hsafe hbest
    | some r =>
      obtain ⟨port, supplier⟩ := r
      have hbest := (hselected _ rfl).symm
      have hsafe := hunt_selected_safe hh rfl
      have hfirst : refresh cfg env board ramp s = switchTo cfg ramp port supplier
          (clearAll cfg { s with refreshPending := false } rejected) := by
        rw [refresh, hh]
      obtain ⟨v, hv⟩ : ∃ v, v = switchTo cfg ramp port supplier
          (clearAll cfg { s with refreshPending := false } rejected) := ⟨_, rfl⟩
      obtain ⟨hagain, hpower⟩ := switchTo_again
        (congrArg (fun v : State => { v with refreshPending := false }) hv)
      have hafter : After port supplier (clearAll cfg s rejected) v := by
        rw [hv, switchTo_eq]
        exact ⟨rfl, rfl, rfl, rfl, rfl, rfl⟩
      have hafterInit : v.activeChargePortInitialized = true :=
        hv ▸ switchTo_initialized ramp port supplier _
      have hafterSafe : v.leftSafeMode = true ∨ v.chargePort ≠ none := by
        rw [hafter.leftSafeMode, hafter.chargePort]
        exact hsafe
      rw [hinputs.getBestPort_eq] at hbest
      have hport : v.chargePort = port := hafter.chargePort
      have hsupplier : v.chargeSupplier = supplier := hafter.chargeSupplier
      rw [hfirst, ← hv, hinputs.getBestPort_eq, hbest]
      refine Iff.trans ?_ (getBestPort_after_iff hafter hbest)
      constructor
      · exact fun hnone => (hnone fun _ _ => true).selects
      · intro hselects board'
        rw [← hport, ← hsupplier] at hselects hagain hpower ⊢
        exact noEffect_of_same hselects hafterInit hafterSafe hagain hpower
  · rw [hnone] at hh
    cases hh

/-! ## A legacy charger -/

/-- A build with one port and the default priorities of the suppliers with BC 1.2. -/
def bc12Config : Config where
  supplierCount := 10
  portCount := 1
  pdPortMaxCount := 1
  pdPortCount := 1
  supplierPriority i := [1, 2, 2, 3, 3, 3, 3, 4, 4, 4].getD i 0
  usbPdDps := false
  drpCharging := true
  battery := true
  chgRampTask := false
  defaultCurrentLimit := 0

def supplierTypecUnder1p5A : Nat := 7
def supplierVbus : Nat := 9

/-- Every supplier has reported in, `suppliers` with 500 mA at 5 V. -/
def reportIn (suppliers : List Nat) : List Event :=
  (List.range bc12Config.supplierCount).map fun i =>
    .updateCharge (fun _ => true) 0 i 0 (if i ∈ suppliers then ⟨500, 5000⟩ else .zero)

def reported (suppliers : List Nat) : State :=
  (reportIn suppliers).foldl (step bc12Config) (State.init bc12Config false)

theorem reach_reported (suppliers : List Nat) :
    Reach (step bc12Config) (fun _ _ => True) (State.init bc12Config false) (reported suppliers) :=
  Reach.allowed (allowed_of_forall (fun _ _ => trivial) _ _) .start

def acceptAll : List Nat → Option Nat → Bool :=
  fun _ _ => true

/-- A charger that only one supplier sees is selected once. -/
theorem refresh_again_iff_vbus :
    NoEffect bc12Config (batteryEnv .yes) acceptAll (fun _ _ c => c)
      (getBestPort bc12Config (batteryEnv .yes)
        { reported [supplierVbus] with refreshPending := false })
      (refresh bc12Config (batteryEnv .yes) acceptAll (fun _ _ c => c)
        (reported [supplierVbus])) := by
  have hbest : getBestPort bc12Config (batteryEnv .yes)
      { reported [supplierVbus] with refreshPending := false } = (some 0, some supplierVbus) := by
    decide +kernel
  have hhunt : hunt bc12Config (batteryEnv .yes) acceptAll (bc12Config.portCount + 1) []
      { reported [supplierVbus] with refreshPending := false } =
        some ⟨[], some (some 0, some supplierVbus),
          { reported [supplierVbus] with refreshPending := false }⟩ := by
    rw [hunt, hbest]
    rfl
  refine (refresh_again_iff (reach_reported _) hhunt).mpr ?_ acceptAll
  rw [clearAll_nil]
  exact Or.inr (Or.inr (by decide +kernel))

/-- The Type-C supplier and VBUS offer the same power with the same priority: the first refresh
selects the first of them, and then the port is the current one, so that the second refresh selects
the last of them. -/
theorem not_noEffect_legacy :
    Reach (step bc12Config) (fun _ _ => True) (State.init bc12Config false)
        (reported [supplierTypecUnder1p5A, supplierVbus]) ∧
      getBestPort bc12Config (batteryEnv .yes) (reported [supplierTypecUnder1p5A, supplierVbus]) =
        (some 0, some supplierTypecUnder1p5A) ∧
      (refresh bc12Config (batteryEnv .yes) acceptAll (fun _ _ c => c)
        (reported [supplierTypecUnder1p5A, supplierVbus])).chargeSupplier =
          some supplierTypecUnder1p5A ∧
      ¬NoEffect bc12Config (batteryEnv .yes) acceptAll (fun _ _ c => c)
        (some 0, some supplierTypecUnder1p5A)
        (refresh bc12Config (batteryEnv .yes) acceptAll (fun _ _ c => c)
          (reported [supplierTypecUnder1p5A, supplierVbus])) := by
  refine ⟨reach_reported _, by decide +kernel, by decide +kernel, fun h => ?_⟩
  have hsecond : getBestPort bc12Config (batteryEnv .yes)
      (refresh bc12Config (batteryEnv .yes) acceptAll (fun _ _ c => c)
        (reported [supplierTypecUnder1p5A, supplierVbus])) = (some 0, some supplierVbus) := by
    decide +kernel
  have hsame := hsecond.symm.trans h.selects
  exact absurd hsame (by decide)

end ChromiumEc.Charge
