import ChromiumEc.Usbc.Source.Run

/-!
# Budget — claims and the Rp of the ports

The claims never exceed the slots of the board.  A port that offers 3.0 A has a claim, as long as
its claim is not dropped without a change of its Rp: by a request for 1.5 A, or by the downgrade of
an FRS port that sources 3.0 A to a sink.
-/

namespace ChromiumEc.Usbc.Source

/-- A run finds no slot for a new PD sink and no non-PD port to downgrade, and downgrades the FRS
port `r`. -/
structure DowngradesFrs (cfg : Config) (s : State) (r : Nat) : Prop where
  shortage : freeSlots cfg (removePorts s) < (newSinks cfg (removePorts s)).length
  noNonPd : lowestNonPd cfg (sinksServed cfg (removePorts s)) = none
  lowest : lowestFrs cfg (sinksServed cfg (removePorts s)) = some r

/-- A partner does not ask for 1.5 A while its port offers 3.0 A to it as a PD sink only, and an FRS
port that is downgraded has its claim and a lower Rp. -/
def RestoresRp (cfg : Config) (s : State) (e : Event) : Prop :=
  (∀ port rdo, e = .evaluateRequestRdo port rdo → rdoPos rdo ≠ 0 → rdoOpCurrent rdo ≤ 150 →
    s.sinkMaxPdoRequested port = true → s.selectedRp port = some .rp3A0 →
      s.nonPdSinkMaxRequested port = true) ∧
  ∀ t, Requests cfg s e t → t.deferredWaiting = false → ∀ r, DowngradesFrs cfg t r →
    t.maxCurrentClaimed r = true ∧ t.selectedRp r ≠ some .rp3A0

def HoldsRp (s : State) : Prop :=
  ∀ p, s.selectedRp p = some .rp3A0 →
    s.maxCurrentClaimed p = true ∧
      (s.sinkMaxPdoRequested p = true ∨ s.nonPdSinkMaxRequested p = true)

section Rp

variable {cfg : Config} {s : State}

theorem holdsRp_removePorts (h : HoldsRp s) : HoldsRp (removePorts s) := by
  intro p hp
  obtain ⟨hclaimed, hsink⟩ := h p hp
  refine ⟨?_, hsink⟩
  have hreq : requested s p = true := by
    rcases hsink with hsink | hnonPd
    · simp [requested, hsink]
    · simp [requested, hnonPd]
  simp [removePorts, hclaimed, hreq]

theorem holdsRp_grantSink {p : Nat} (h : HoldsRp s)
    (hp : s.sinkMaxPdoRequested p = true ∨ s.nonPdSinkMaxRequested p = true) :
    HoldsRp (grantSink p s) := by
  intro q hq
  by_cases hqp : q = p
  · subst hqp
    exact ⟨setBit_self q _, hp⟩
  · have hq' : Function.update s.selectedRp p (some TypecRp.rp3A0) q = some .rp3A0 := hq
    rw [Function.update_of_ne hqp] at hq'
    obtain ⟨hclaimed, hsink⟩ := h q hq'
    exact ⟨setBit_eq_true_iff.mpr (Or.inr hclaimed), hsink⟩

theorem holdsRp_granted_sink {ps : List Nat} (h : HoldsRp s)
    (hps : ∀ p ∈ ps, s.sinkMaxPdoRequested p = true ∨ s.nonPdSinkMaxRequested p = true) :
    HoldsRp (granted grantSink ps s) := by
  induction ps generalizing s with
  | nil => exact h
  | cons p ps ih =>
    exact ih (holdsRp_grantSink h (hps p List.mem_cons_self))
      fun q hq => hps q (List.mem_cons_of_mem p hq)

theorem holdsRp_granted_frs {ps : List Nat} (h : HoldsRp s) : HoldsRp (granted grantFrs ps s) := by
  induction ps generalizing s with
  | nil => exact h
  | cons p ps ih =>
    refine ih fun q hq => ?_
    obtain ⟨hclaimed, hsink⟩ := h q hq
    exact ⟨setBit_eq_true_iff.mpr (Or.inr hclaimed), hsink⟩

theorem holdsRp_downgradeNonPd {r : Nat} (h : HoldsRp s)
    (hdefault : typecGetDefaultCurrentLimitRp cfg s ≠ .rp3A0) :
    HoldsRp (downgradeNonPd cfg r s) := by
  intro q hq
  have hq : Function.update s.selectedRp r (some (typecGetDefaultCurrentLimitRp cfg s)) q =
      some .rp3A0 := hq
  by_cases hqr : q = r
  · subst hqr
    rw [Function.update_self] at hq
    exact absurd (Option.some.inj hq) hdefault
  · rw [Function.update_of_ne hqr] at hq
    obtain ⟨hclaimed, hsink⟩ := h q hq
    exact ⟨clearBit_eq_true_iff.mpr ⟨hqr, hclaimed⟩, hsink⟩

theorem holdsRp_downgradeFrs {r : Nat} (h : HoldsRp s) (hr : s.selectedRp r ≠ some .rp3A0) :
    HoldsRp (downgradeFrs r s) := by
  intro q hq
  have hq : s.selectedRp q = some .rp3A0 := hq
  have hqr : q ≠ r := fun hqr => hr (hqr ▸ hq)
  obtain ⟨hclaimed, hsink⟩ := h q hq
  exact ⟨clearBit_eq_true_iff.mpr ⟨hqr, hclaimed⟩, hsink⟩

theorem granted_selectedRp {ps : List Nat} {q : Nat} (hq : q ∉ ps) (s : State) :
    (granted grantSink ps s).selectedRp q = s.selectedRp q := by
  induction ps generalizing s with
  | nil => rfl
  | cons p ps ih =>
    rw [List.mem_cons, not_or] at hq
    obtain ⟨hqp, hq⟩ := hq
    have hstep : granted grantSink (p :: ps) s = granted grantSink ps (grantSink p s) := rfl
    rw [hstep, ih hq]
    exact Function.update_of_ne hqp _ _

theorem holdsRp_allocate (hpullup : cfg.pullup ≠ .rp3A0) (hbist : s.bistSharedModeEnabled = false)
    (h : HoldsRp s)
    (hfrs : ∀ r, DowngradesFrs cfg s r →
      s.maxCurrentClaimed r = true ∧ s.selectedRp r ≠ some .rp3A0) :
    HoldsRp (allocate cfg s) := by
  have hdefault : ∀ t, SameRequests t s → typecGetDefaultCurrentLimitRp cfg t ≠ .rp3A0 := by
    intro t ht
    rw [typecGetDefaultCurrentLimitRp, ht.bist, hbist]
    exact hpullup
  have hremove : SameRequests (removePorts s) s := ⟨rfl, rfl, rfl, rfl⟩
  have hsame₁ := (sinksServed_sameRequests cfg (removePorts s)).trans hremove
  have hsame₂ := (frsServed_sameRequests cfg (sinksServed cfg (removePorts s))).trans hsame₁
  have hsinks : HoldsRp (sinksServed cfg (removePorts s)) := by
    refine holdsRp_granted_sink (holdsRp_removePorts h) fun p hp => Or.inl ?_
    exact (mem_newPorts.mp (List.mem_of_mem_take hp)).2.1
  have hserved : HoldsRp (frsServed cfg (sinksServed cfg (removePorts s))) :=
    holdsRp_granted_frs hsinks
  rw [allocate_eq]
  dsimp only
  split_ifs with hfit hfitFrs
  · refine holdsRp_granted_sink hserved fun p hp => Or.inr ?_
    exact (mem_newPorts.mp (List.mem_of_mem_take hp)).2.1
  · rcases shortageFrs_cases cfg (frsServed cfg (sinksServed cfg (removePorts s))) with
      ⟨-, heq⟩ | ⟨r, -, heq⟩
    · rw [heq]
      exact hserved
    · rw [heq]
      exact holdsRp_downgradeNonPd hserved (hdefault _ hsame₂)
  · rcases shortageSink_cases cfg (sinksServed cfg (removePorts s)) with
      ⟨-, -, heq⟩ | ⟨r, -, heq⟩ | ⟨r, hnone, hlowest, heq⟩
    · rw [heq]
      exact hsinks
    · rw [heq]
      exact holdsRp_downgradeNonPd hsinks (hdefault _ hsame₁)
    · rw [heq]
      obtain ⟨hclaimed, hrp⟩ := hfrs r ⟨Nat.not_le.mp hfit, hnone, hlowest⟩
      refine holdsRp_downgradeFrs hsinks ?_
      -- it is not one of the ports that were served just now
      have hnew : r ∉ (newSinks cfg (removePorts s)).take (freeSlots cfg (removePorts s)) := by
        intro hmem
        obtain ⟨-, hsink, hfree⟩ := mem_newPorts.mp (List.mem_of_mem_take hmem)
        have hreq : requested s r = true := by
          have hsink : s.sinkMaxPdoRequested r = true := hsink
          simp [requested, hsink]
        simp [removePorts, hclaimed, hreq] at hfree
      rw [sinksServed, granted_selectedRp hnew]
      exact hrp

end Rp

/-! ## The budget -/

structure InBudget (cfg : Config) (s : State) : Prop where
  ports : ∀ p, s.maxCurrentClaimed p = true → p < cfg.portCount
  count : countPortBits cfg s.maxCurrentClaimed ≤ cfg.maxPorts3A

section Budget

variable {cfg : Config} {s t : State}

theorem InBudget.of_subset (h : InBudget cfg s)
    (hsub : ∀ p, t.maxCurrentClaimed p = true → s.maxCurrentClaimed p = true) : InBudget cfg t :=
  ⟨fun p hp => h.ports p (hsub p hp), (countPortBits_mono hsub).trans h.count⟩

theorem InBudget.served {grant : Nat → State → State} (h : InBudget cfg s)
    (hgrant : ∀ p s, (grant p s).maxCurrentClaimed = setBit p s.maxCurrentClaimed)
    (requested : PortMask) :
    InBudget cfg (granted grant
      ((newPorts cfg requested s.maxCurrentClaimed).take (freeSlots cfg s)) s) := by
  refine ⟨fun p hp => ?_, ?_⟩
  · rw [granted_claimed hgrant, withPorts_eq_true_iff] at hp
    rcases hp with hp | hp
    · exact h.ports p hp
    · exact (newPorts_free p (List.mem_of_mem_take hp)).1
  · have hcount := h.count
    rw [countPortBits_served hgrant]
    unfold freeSlots
    omega

theorem InBudget.shortageSink (h : InBudget cfg s) : InBudget cfg (shortageSink cfg s) := by
  rcases shortageSink_cases cfg s with ⟨-, -, heq⟩ | ⟨r, -, heq⟩ | ⟨r, -, -, heq⟩ <;> rw [heq]
  · exact h
  · exact h.of_subset fun p hp => (clearBit_eq_true_iff.mp hp).2
  · exact h.of_subset fun p hp => (clearBit_eq_true_iff.mp hp).2

theorem InBudget.shortageFrs (h : InBudget cfg s) : InBudget cfg (shortageFrs cfg s) := by
  rcases shortageFrs_cases cfg s with ⟨-, heq⟩ | ⟨r, -, heq⟩ <;> rw [heq]
  · exact h
  · exact h.of_subset fun p hp => (clearBit_eq_true_iff.mp hp).2

theorem InBudget.removePorts (h : InBudget cfg s) : InBudget cfg (removePorts s) :=
  h.of_subset fun p hp => by
    have hp : (s.maxCurrentClaimed p && requested s p) = true := hp
    exact (Bool.and_eq_true_iff.mp hp).1

theorem InBudget.sinksServed (h : InBudget cfg s) : InBudget cfg (sinksServed cfg s) :=
  h.served (fun _ _ => rfl) _

theorem InBudget.frsServed (h : InBudget cfg s) : InBudget cfg (frsServed cfg s) :=
  h.served (fun _ _ => rfl) _

theorem InBudget.nonPdServed (h : InBudget cfg s) : InBudget cfg (nonPdServed cfg s) :=
  h.served (fun _ _ => rfl) _

theorem InBudget.allocate (h : InBudget cfg s) : InBudget cfg (allocate cfg s) := by
  have hsinks : InBudget cfg (Source.sinksServed cfg (Source.removePorts s)) :=
    h.removePorts.sinksServed
  rw [allocate_eq]
  dsimp only
  split_ifs
  · exact hsinks.frsServed.nonPdServed
  · exact hsinks.frsServed.shortageFrs
  · exact hsinks.shortageSink

end Budget

/-! ## In a run -/

structure Held (cfg : Config) (s : State) : Prop where
  inBudget : InBudget cfg s
  bist : s.bistSharedModeEnabled = false
  rp : HoldsRp s

section Run

variable {cfg : Config} {s t : State} {e : Event}

theorem balance_cases (cfg : Config) (hbist : t.bistSharedModeEnabled = false) :
    (t.deferredWaiting = true ∧ balanceSourcePorts cfg false t = t) ∨
      (t.deferredWaiting = false ∧ balanceSourcePorts cfg false t = allocate cfg t) := by
  unfold balanceSourcePorts
  dsimp only
  rw [if_neg Bool.false_ne_true, hbist]
  by_cases hwait : t.deferredWaiting = true
  · exact Or.inl ⟨hwait, if_pos hwait⟩
  · rw [if_neg hwait]
    exact Or.inr ⟨Bool.eq_false_iff.mpr hwait, if_neg Bool.false_ne_true⟩

theorem Requests.claimed (h : Requests cfg s e t) :
    t.maxCurrentClaimed = s.maxCurrentClaimed ∧
      t.bistSharedModeEnabled = s.bistSharedModeEnabled := by
  cases h <;> exact ⟨rfl, rfl⟩

theorem Requests.holdsRp (h : Requests cfg s e t) (hpullup : cfg.pullup ≠ .rp3A0)
    (hbist : s.bistSharedModeEnabled = false) (hs : HoldsRp s) (he : RestoresRp cfg s e) :
    HoldsRp t := by
  cases h with
  | sink =>
    intro p hp
    obtain ⟨hclaimed, hsink⟩ := hs p hp
    exact ⟨hclaimed, hsink.imp (fun h => setBit_eq_true_iff.mpr (Or.inr h)) id⟩
  | frs => exact hs
  | nonPd =>
    intro p hp
    obtain ⟨hclaimed, hsink⟩ := hs p hp
    exact ⟨hclaimed, hsink.imp id fun h => setBit_eq_true_iff.mpr (Or.inr h)⟩
  | @rdo port rdo _ hpos hsinkPort hcurrent =>
    intro p hp
    obtain ⟨hclaimed, hsink⟩ := hs p hp
    refine ⟨hclaimed, ?_⟩
    by_cases hport : p = port
    · subst hport
      exact Or.inr (he.1 p rdo rfl hpos hcurrent hsinkPort hp)
    · exact hsink.imp (fun h => clearBit_eq_true_iff.mpr ⟨hport, h⟩) id
  | @removeSink port =>
    intro p hp
    have hp : Function.update s.selectedRp port (some (typecGetDefaultCurrentLimitRp cfg s)) p =
        some .rp3A0 := hp
    by_cases hport : p = port
    · subst hport
      rw [Function.update_self, typecGetDefaultCurrentLimitRp, hbist] at hp
      exact absurd (Option.some.inj hp) hpullup
    · rw [Function.update_of_ne hport] at hp
      obtain ⟨hclaimed, hsink⟩ := hs p hp
      exact ⟨hclaimed, hsink.imp (fun h => clearBit_eq_true_iff.mpr ⟨hport, h⟩)
        fun h => clearBit_eq_true_iff.mpr ⟨hport, h⟩⟩
  | removeSource => exact hs
  | balance => exact hs

theorem inBudget_step (h : InBudget cfg s) (hbist : s.bistSharedModeEnabled = false) (e : Event) :
    InBudget cfg (step cfg s e) ∧ (step cfg s e).bistSharedModeEnabled = false := by
  rcases step_cases cfg s e with ⟨t, hreq, heq⟩ | heq | ⟨port, heq⟩
  · obtain ⟨hclaimed, hbist'⟩ := hreq.claimed
    have ht : InBudget cfg t := h.of_subset fun p hp => hclaimed ▸ hp
    have hbistT := hbist'.trans hbist
    rw [heq]
    rcases balance_cases cfg hbistT with ⟨-, heq⟩ | ⟨-, heq⟩
    · rw [heq]
      exact ⟨ht, hbistT⟩
    · rw [heq]
      exact ⟨ht.allocate, (allocate_sameRequests cfg t).bist.trans hbistT⟩
  · rw [heq]
    exact ⟨h, hbist⟩
  · rw [heq]
    exact ⟨h.of_subset fun _ => id, hbist⟩

theorem held_step (hpullup : cfg.pullup ≠ .rp3A0) (h : Held cfg s) (he : RestoresRp cfg s e) :
    Held cfg (step cfg s e) := by
  obtain ⟨hbudget, hbist⟩ := inBudget_step h.inBudget h.bist e
  refine ⟨hbudget, hbist, ?_⟩
  rcases step_cases cfg s e with ⟨t, hreq, heq⟩ | heq | ⟨port, heq⟩
  · have hbistT := hreq.claimed.2.trans h.bist
    have ht : HoldsRp t := hreq.holdsRp hpullup h.bist h.rp he
    rw [heq]
    rcases balance_cases cfg hbistT with ⟨-, heq⟩ | ⟨hwait, heq⟩
    · rw [heq]
      exact ht
    · rw [heq]
      exact holdsRp_allocate hpullup hbistT ht (he.2 t hreq hwait)
  · rw [heq]
    exact h.rp
  · rw [heq]
    exact h.rp

theorem held_init (cfg : Config) : Held cfg State.init where
  inBudget := by
    refine ⟨fun p hp => absurd hp Bool.false_ne_true, ?_⟩
    have hzero : countPortBits cfg State.init.maxCurrentClaimed = 0 := by
      rw [countPortBits, List.countP_eq_zero]
      exact fun p _ hp => by cases hp
    rw [hzero]
    exact Nat.zero_le _
  bist := rfl
  rp p hp := by cases hp

/-- The claims are within the slots of the board; the ports that offer 3.0 A are among those with a
claim. -/
theorem budget_of_reach (hpullup : cfg.pullup ≠ .rp3A0) :
    (∀ s, Lib.Reach (step cfg) (fun _ _ => True) State.init s →
      (∀ p, s.maxCurrentClaimed p = true → p < cfg.portCount) ∧
        countPortBits cfg s.maxCurrentClaimed ≤ cfg.maxPorts3A) ∧
    ∀ s, Lib.Reach (step cfg) (RestoresRp cfg) State.init s →
      (∀ p, s.selectedRp p = some .rp3A0 → s.maxCurrentClaimed p = true) ∧
        countPortBits cfg (fun p => s.selectedRp p == some .rp3A0) ≤ cfg.maxPorts3A := by
  refine ⟨fun s h => ?_, fun s h => ?_⟩
  · have hbudget : InBudget cfg s ∧ s.bistSharedModeEnabled = false :=
      Lib.Reach.invariant (I := fun s => InBudget cfg s ∧ s.bistSharedModeEnabled = false)
        ⟨(held_init cfg).inBudget, rfl⟩ (fun _ e hs _ => inBudget_step hs.1 hs.2 e) h
    exact ⟨hbudget.1.ports, hbudget.1.count⟩
  · have hheld : Held cfg s :=
      h.invariant (held_init cfg) fun _ _ hs he => held_step hpullup hs he
    have hrp : ∀ p, s.selectedRp p = some .rp3A0 → s.maxCurrentClaimed p = true := fun p hp =>
      (hheld.rp p hp).1
    refine ⟨hrp, (countPortBits_mono fun p hp => hrp p ?_).trans hheld.inBudget.count⟩
    exact beq_iff_eq.mp hp

end Run

/-! ## One slot and two ports -/

def oneSlot : Config where
  portCount := 2
  maxPorts3A := 1
  frs := true
  pullup := .rp1A5

def pdo3A : UInt32 := 0x1912c

def pdoFrs3A : UInt32 := 0x2181912c

def rdo1A5 : UInt32 := 0x10025800

def runOneSlot (es : List Event) : State :=
  es.foldl (step oneSlot) State.init

def twoSinkEvents : List Event :=
  [.evaluateSinkFixedPdo 0 .source false pdo3A, .addNonPdSink 1]

theorem budget_of_reach_twoSinks :
    countPortBits oneSlot (runOneSlot twoSinkEvents).maxCurrentClaimed ≤ 1 ∧
      (∀ p, (runOneSlot twoSinkEvents).selectedRp p = some .rp3A0 →
        (runOneSlot twoSinkEvents).maxCurrentClaimed p = true) ∧
      (runOneSlot twoSinkEvents).selectedRp 0 = some .rp3A0 := by
  -- no port is requested for a fast role swap
  have hnoFrs : ∀ t r, (∀ p, t.sourceFrsMaxRequested p = false) → ¬ DowngradesFrs oneSlot t r := by
    intro t r ht hr
    have hfrs := (Bool.and_eq_true_iff.mp (lowestPort_eq_some hr.lowest).2).1
    rw [(sinksServed_sameRequests _ _).frs] at hfrs
    exact Bool.false_ne_true ((ht r).symm.trans hfrs)
  have hreach : Lib.Reach (step oneSlot) (RestoresRp oneSlot) State.init
      (runOneSlot twoSinkEvents) := by
    refine Lib.Reach.allowed ⟨⟨?_, ?_⟩, ⟨?_, ?_⟩, trivial⟩ .start
    · intro port rdo h
      cases h
    · intro t ht _ r hr
      cases ht
      exact absurd hr (hnoFrs _ r fun _ => rfl)
    · intro port rdo h
      cases h
    · intro t ht _ r hr
      cases ht
      exact absurd hr (hnoFrs _ r fun _ => rfl)
  have hbudget := @budget_of_reach oneSlot (by decide)
  exact ⟨(hbudget.1 _ (hreach.mono fun _ _ _ => trivial)).2, (hbudget.2 _ hreach).1, by decide⟩

/-- The Rp stays at 3.0 A when the partner asks for 1.5 A, and when the port is downgraded as an FRS
port. -/
theorem rp_without_claim :
    (∃ s, Lib.Reach (step oneSlot) (fun _ _ => True) State.init s ∧
      s.selectedRp 0 = some .rp3A0 ∧ s.maxCurrentClaimed 0 = false) ∧
    ∃ s, Lib.Reach (step oneSlot) (fun _ e => ∀ port rdo, e ≠ .evaluateRequestRdo port rdo)
        State.init s ∧
      s.selectedRp 0 = some .rp3A0 ∧ s.maxCurrentClaimed 0 = false := by
  refine ⟨⟨runOneSlot [.evaluateSinkFixedPdo 0 .source false pdo3A, .evaluateRequestRdo 0 rdo1A5],
    Lib.Reach.allowed (Lib.allowed_of_forall (fun _ _ => trivial) _ _) .start, ?_, ?_⟩,
    ⟨runOneSlot [.evaluateSinkFixedPdo 0 .source false pdo3A,
      .evaluateSinkFixedPdo 0 .sink false pdoFrs3A, .evaluateSinkFixedPdo 1 .source false pdo3A],
    Lib.Reach.allowed ⟨?_, ?_, ?_, trivial⟩ .start, ?_, ?_⟩⟩
  · decide
  · decide
  · intro port rdo h
    cases h
  · intro port rdo h
    cases h
  · intro port rdo h
    cases h
  · decide
  · decide

end ChromiumEc.Usbc.Source
