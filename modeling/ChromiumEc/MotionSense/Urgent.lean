import ChromiumEc.MotionSense.Evict

/-!
# Urgent — the flags of the entries that left

An entry may ask to wake up the AP, or to bypass the FIFO.  `wake_up_needed` and `bypass_needed`
remember that such an entry left the staged area until the flags are reset, and "when the wakeup flag
is set, the bypass flag must be set to".  A commit notes both flags, an eviction only the first.
-/

namespace ChromiumEc.MotionSense

open Queue Lib

variable {cfg : Config} {s s' t : State} {e : SensorData} {l : List SensorData} {mark : Nat}

def leftStaged (s : State) : List SensorData :=
  s.gone.map Gone.entry ++ committed s

def Op.markAfter (s : State) (mark : Nat) : Op → Nat
  | .resetNeededFlags => (leftStaged s).length
  | _ => mark

def urgentStep (cfg : Config) (p : State × Nat) (op : Op) : State × Nat :=
  (opStep cfg p.1 op, op.markAfter p.1 p.2)

structure Flagged (p : State × Nat) : Prop where
  wakeUp : ∀ e ∈ (leftStaged p.1).drop p.2, e.has flagWakeup = true → p.1.wakeUpNeeded = true
  bypass : ∀ e ∈ (leftStaged p.1).drop p.2, e.has flagBypassFifo = true → p.1.bypassNeeded = true

def BypassesWakeUp (s : State) : Prop :=
  s.wakeUpNeeded = true → s.bypassNeeded = true

def Paired (e : SensorData) : Prop :=
  e.has flagWakeup = true → e.has flagBypassFifo = true

/-! ## Evictions -/

theorem Popped.leftStaged (h : Popped cfg s s' e) {rest : List SensorData}
    (hall : entries s = e :: rest) :
    MotionSense.leftStaged s' =
      MotionSense.leftStaged s ++
        (MotionSense.staged s).take (1 - (MotionSense.committed s).length) := by
  have hcommitted := h.committed
  rw [MotionSense.leftStaged, MotionSense.leftStaged, h.gone, List.map_append, hcommitted]
  rw [entries] at hall
  cases hcs : MotionSense.committed s with
  | nil =>
    rw [hcs, List.nil_append] at hall
    rw [hall, List.tail_nil, List.append_nil, List.append_nil]
    rfl
  | cons c cs =>
    rw [hcs, List.cons_append] at hall
    obtain ⟨rfl, -⟩ := List.cons.inj hall
    rw [List.tail_cons, List.length_cons, Nat.sub_eq_zero_of_le (by omega), List.take_zero,
      List.append_nil, List.append_assoc]
    rfl

structure Evicts (s s' : State) (k : Nat) : Prop where
  leftStaged : leftStaged s' = leftStaged s ++ (staged s).take (k - (committed s).length)
  wakeUpNeeded : s'.wakeUpNeeded = (s.wakeUpNeeded || ((entries s).take k).any (·.has flagWakeup))
  bypassNeeded : s'.bypassNeeded = s.bypassNeeded

theorem Contained.evicts {k : Nat} (h : Contained cfg s) (hk : k ≤ (entries s).length) :
    Evicts s ((fifoPop cfg)^[k] s) k := by
  induction k generalizing s with
  | zero =>
    refine ⟨?_, (Bool.or_false _).symm, rfl⟩
    rw [Nat.zero_sub, List.take_zero, List.append_nil]
    rfl
  | succ k ih =>
    -- an eviction is one pop and then the others, from a FIFO that is one entry shorter
    cases hall : entries s with
    | nil =>
      rw [hall] at hk
      cases hk
    | cons e rest =>
      have hpopped := h.popped hall
      have hrest := h.popped_entries hall
      have hstaged := hpopped.staged
      have hlength : (committed (fifoPop cfg s)).length = (committed s).length - 1 := by
        rw [hpopped.committed, List.length_tail]
      rw [hall, List.length_cons] at hk
      obtain ⟨hleft, hwake, hbypass⟩ := ih hpopped.contained (by rw [hrest]; omega)
      rw [Function.iterate_succ_apply]
      refine ⟨?_, ?_, hbypass.trans hpopped.bypassNeeded⟩
      · -- the pop takes the first staged entry when none is committed, the others the rest
        have hsplit : k + 1 - (committed s).length =
            (1 - (committed s).length) + (k - ((committed s).length - 1)) := by
          omega
        rw [hleft, hpopped.leftStaged hall, List.append_assoc, hstaged, hlength, hsplit,
          List.take_add]
      · rw [hwake, hpopped.wakeUpNeeded, hrest, hall, List.take_succ_cons, List.any_cons,
          Bool.or_assoc]

/-! ## What the operations do to the entries that left -/

/-- The entry `e` has been staged, after making room for it. -/
structure Stages (cfg : Config) (s s' : State) (e : SensorData) : Prop where
  contained : Contained cfg s'
  leftStaged : leftStaged s' = leftStaged s ++ evictedStaged cfg s
  staged : ∀ a ∈ staged s', a ∈ staged s ∨ a = e
  wakeUpNeeded : s'.wakeUpNeeded =
    (s.wakeUpNeeded || ((entries s).take (evictCount cfg s)).any (·.has flagWakeup))
  bypassNeeded : s'.bypassNeeded = s.bypassNeeded

theorem SameEntries.leftStaged (h : SameEntries s s') : leftStaged s' = leftStaged s := by
  rw [MotionSense.leftStaged, MotionSense.leftStaged, h.gone, h.committed]

theorem Contained.stages (h : Contained cfg s) (hsame : SameStage s t)
    (hwrote : Wrote cfg (fifoEnsureSpace cfg t) s' e) : Stages cfg s s' e := by
  have ht := hsame.contained h
  have hall : entries t = entries s := by
    rw [entries, entries, hsame.committed, hsame.staged]
  obtain ⟨-, -, hkept⟩ := ht.ensureSpace
  have hevicts := ht.evicts (evictCount_le cfg t)
  rw [← ht.ensureSpace_eq] at hevicts
  refine ⟨hwrote.contained, ?_, fun a ha => ?_, ?_, ?_⟩
  · rw [leftStaged, hwrote.gone, hwrote.committed, ← leftStaged, hevicts.leftStaged,
      hsame.leftStaged, ← hsame.evictedStaged cfg]
    rfl
  · rw [hwrote.staged, hkept, hsame.keptStaged] at ha
    split_ifs at ha with hshort
    · rcases List.mem_append.mp ha with ha | ha
      · exact Or.inl (List.mem_of_mem_drop ha)
      · exact Or.inr (List.mem_singleton.mp ha)
    · cases ha
  · rw [hwrote.wakeUpNeeded, hevicts.wakeUpNeeded, hsame.wakeUpNeeded, hall, hsame.evictCount]
  · rw [hwrote.bypassNeeded, hevicts.bypassNeeded, hsame.bypassNeeded]

/-- What an operation does: it stages an entry, it commits, it resets the flags, or it leaves the
flags alone. -/
inductive Urges (cfg : Config) (s : State) (op : Op) : Prop
  | stages {e : SensorData} (hmark : ∀ mark, op.markAfter s mark = mark)
      (hwrites : op.writes cfg s = some e) (hstages : Stages cfg s (opStep cfg s op) e)
  | commits (hmark : ∀ mark, op.markAfter s mark = mark) (hwrites : op.writes cfg s = none)
      (hcommits : Commits cfg s (opStep cfg s op))
  | resets (hop : op = .resetNeededFlags)
  | keeps (hmark : ∀ mark, op.markAfter s mark = mark) (hwrites : op.writes cfg s = none)
      (hcontained : Contained cfg (opStep cfg s op))
      (hleft : leftStaged (opStep cfg s op) = leftStaged s)
      (hstaged : staged (opStep cfg s op) = staged s)
      (hwake : (opStep cfg s op).wakeUpNeeded = s.wakeUpNeeded)
      (hbypass : (opStep cfg s op).bypassNeeded = s.bypassNeeded)

theorem SameStage.urges {op : Op} (hsame : SameStage s (opStep cfg s op)) (h : Contained cfg s)
    (hmark : ∀ mark, op.markAfter s mark = mark) (hwrites : op.writes cfg s = none) : Urges cfg s op :=
  .keeps hmark hwrites (hsame.contained h) hsame.leftStaged hsame.staged hsame.wakeUpNeeded
    hsame.bypassNeeded

theorem Contained.urges (h : Contained cfg s) (op : Op) : Urges cfg s op := by
  cases op with
  | noteReadTs now =>
    have hsame : SameStage s (opStep cfg s (.noteReadTs now)) := sameStage_noteReadTs now s
    exact hsame.urges h (fun _ => rfl) rfl
  | noteInterrupt time id sensor =>
    have hsame : SameStage s (opStep cfg s (.noteInterrupt time id sensor)) :=
      sameStage_noteInterrupt time id sensor s
    exact hsame.urges h (fun _ => rfl) rfl
  | stageUnit tablet data sensor validData =>
    have hunit := h.stageUnit tablet data sensor validData
    cases hwrites : unitWrites cfg tablet data sensor validData s with
    | none =>
      rw [hwrites] at hunit
      have hsame : SameStage s (opStep cfg s (.stageUnit tablet data sensor validData)) := hunit
      exact hsame.urges h (fun _ => rfl) hwrites
    | some e =>
      rw [hwrites] at hunit
      obtain ⟨t, hsame, hwrote⟩ := hunit
      exact .stages (fun _ => rfl) hwrites (h.stages hsame hwrote)
  | commitData => exact .commits (fun _ => rfl) rfl h.commits
  | read capacityBytes maxCount =>
    have hreads := h.reads capacityBytes maxCount
    exact .keeps (fun _ => rfl) rfl hreads.contained hreads.leaves hreads.staged
      hreads.wakeUpNeeded hreads.bypassNeeded
  | getInfo reset =>
    have hsame : SameStage s (opStep cfg s (.getInfo reset)) := sameStage_getInfo cfg reset s
    exact hsame.urges h (fun _ => rfl) rfl
  | resetNeededFlags => exact .resets rfl

theorem Contained.opStep (h : Contained cfg s) (op : Op) : Contained cfg (opStep cfg s op) := by
  cases h.urges op with
  | stages _ _ hstages => exact hstages.contained
  | commits _ _ hcommits => exact hcommits.contained
  | resets hop =>
    subst hop
    exact (resetNeededFlags_spec cfg s).2.2.contained h
  | keeps _ _ hcontained => exact hcontained

/-! ## The flags are set for what left -/

def Op.KeepsBypass (cfg : Config) (s : State) (op : Op) : Prop :=
  (op.writes cfg s).isSome = true →
    ∀ a ∈ evictedStaged cfg s, a.has flagBypassFifo = true → s.bypassNeeded = true

/-- The flags are as they should be, and those that left before the reset are among those that
left. -/
structure Remembers (cfg : Config) (p : State × Nat) : Prop where
  contained : Contained cfg p.1
  mark_le : p.2 ≤ (leftStaged p.1).length
  flagged : Flagged p

theorem Flagged.append (h : Flagged (s, mark)) (hmark : mark ≤ (leftStaged s).length)
    (hleft : leftStaged s' = leftStaged s ++ l)
    (hwake : s.wakeUpNeeded = true → s'.wakeUpNeeded = true)
    (hbypass : s.bypassNeeded = true → s'.bypassNeeded = true)
    (hwakes : ∀ a ∈ l, a.has flagWakeup = true → s'.wakeUpNeeded = true)
    (hbypasses : ∀ a ∈ l, a.has flagBypassFifo = true → s'.bypassNeeded = true) :
    Flagged (s', mark) := by
  have hmem : ∀ a ∈ (leftStaged s').drop mark, a ∈ (leftStaged s).drop mark ∨ a ∈ l := by
    intro a ha
    rw [hleft, List.drop_append_of_le_length hmark] at ha
    exact List.mem_append.mp ha
  refine ⟨fun a ha hflag => ?_, fun a ha hflag => ?_⟩
  · exact (hmem a ha).elim (fun hold => hwake (h.wakeUp a hold hflag)) fun hnew =>
      hwakes a hnew hflag
  · exact (hmem a ha).elim (fun hold => hbypass (h.bypass a hold hflag)) fun hnew =>
      hbypasses a hnew hflag

theorem any_has_rewritten {l' : List SensorData} (h : List.Forall₂ Rewritten l l')
    (flags : BitVec 8) : l'.any (·.has flags) = l.any (·.has flags) := by
  induction h with
  | nil => rfl
  | cons hone _ ih => rw [List.any_cons, List.any_cons, has_rewritten hone, ih]

theorem Remembers.urgentStep {p : State × Nat} (h : Remembers cfg p) {op : Op}
    (hok : op.KeepsBypass cfg p.1) : Remembers cfg (urgentStep cfg p op) := by
  obtain ⟨s, mark⟩ := p
  obtain ⟨hcontained, hle, hflagged⟩ := h
  have hafter := hcontained.opStep op
  rw [MotionSense.urgentStep]
  cases hcontained.urges op with
  | stages hmark hwrites hstages =>
    have hleft := hstages.leftStaged
    have hwake := hstages.wakeUpNeeded
    have hbypass := hstages.bypassNeeded
    rw [hmark]
    refine ⟨hafter, ?_, hflagged.append hle hleft (fun hset => ?_) (fun hset => ?_) ?_ ?_⟩
    · rw [hleft, List.length_append]
      exact Nat.le_add_right_of_le hle
    · rw [hwake, hset, Bool.true_or]
    · rw [hbypass, hset]
    -- a staged entry that leaves is evicted, and its pop sets the wake-up flag
    · intro a ha hflag
      have hmem : a ∈ (entries s).take (evictCount cfg s) := by
        rw [entries, List.take_append]
        exact List.mem_append_right _ ha
      rw [hwake, List.any_eq_true.mpr ⟨a, hmem, hflag⟩, Bool.or_true]
    -- but the pop leaves the bypass flag alone
    · intro a ha hflag
      rw [hbypass]
      exact hok (hwrites ▸ rfl) a ha hflag
  | commits hmark hwrites hcommits =>
    obtain ⟨l, hrewritten, hcommitted⟩ := hcommits.committed
    have hwake := hcommits.wakeUpNeeded
    have hbypass := hcommits.bypassNeeded
    have hleft : leftStaged (opStep cfg s op) = leftStaged s ++ l := by
      rw [leftStaged, leftStaged, hcommits.gone, hcommitted, List.append_assoc]
    rw [← any_has_rewritten hrewritten] at hwake hbypass
    rw [hmark]
    refine ⟨hafter, ?_, hflagged.append hle hleft (fun hset => ?_) (fun hset => ?_) ?_ ?_⟩
    · rw [hleft, List.length_append]
      exact Nat.le_add_right_of_le hle
    · rw [hwake, hset, Bool.true_or]
    · rw [hbypass, hset, Bool.true_or]
    -- the commit goes over every entry, for either flag
    · intro a ha hflag
      rw [hwake, List.any_eq_true.mpr ⟨a, ha, hflag⟩, Bool.or_true]
    · intro a ha hflag
      rw [hbypass, List.any_eq_true.mpr ⟨a, ha, hflag⟩, Bool.or_true]
  | resets hop =>
    subst hop
    have hleft : leftStaged (opStep cfg s .resetNeededFlags) = leftStaged s :=
      (resetNeededFlags_spec cfg s).2.2.leftStaged
    have hnone : (leftStaged (opStep cfg s .resetNeededFlags)).drop (leftStaged s).length = [] := by
      rw [hleft, List.drop_length]
    refine ⟨hafter, Nat.le_of_eq (congrArg List.length hleft.symm), fun a ha => ?_, fun a ha => ?_⟩
    · exact absurd (hnone ▸ ha) List.not_mem_nil
    · exact absurd (hnone ▸ ha) List.not_mem_nil
  | keeps hmark hwrites _ hleft hstaged hwake hbypass =>
    rw [hmark]
    refine ⟨hafter, hleft ▸ hle, fun a ha hflag => ?_, fun a ha hflag => ?_⟩
    · exact hwake.trans (hflagged.wakeUp a (hleft ▸ ha) hflag)
    · exact hbypass.trans (hflagged.bypass a (hleft ▸ ha) hflag)

theorem Remembers.keepsBypass {p : State × Nat} (h : Remembers cfg p) {op : Op}
    (hflagged : Flagged (MotionSense.urgentStep cfg p op)) : op.KeepsBypass cfg p.1 := by
  obtain ⟨s, mark⟩ := p
  obtain ⟨hcontained, hle, -⟩ := h
  intro hsome a ha hflag
  cases hcontained.urges op with
  | stages hmark hwrites hstages =>
    have hmem : a ∈ (leftStaged (opStep cfg s op)).drop (op.markAfter s mark) := by
      rw [hmark, hstages.leftStaged, List.drop_append_of_le_length hle]
      exact List.mem_append_right _ ha
    exact hstages.bypassNeeded.symm.trans (hflagged.bypass a hmem hflag)
  | commits _ hwrites => 
    rw [hwrites] at hsome
    cases hsome
  | resets hop =>
    subst hop
    cases hsome
  | keeps _ hwrites =>
    rw [hwrites] at hsome
    cases hsome

/-! ## The wakeup flag and the bypass flag -/

def Op.Pairs (cfg : Config) (s : State) (op : Op) : Prop :=
  ∀ e ∈ op.writes cfg s, Paired e

def Op.KeepsPair (cfg : Config) (s : State) (op : Op) : Prop :=
  (op.writes cfg s).isSome = true →
    ∀ a ∈ (entries s).take (evictCount cfg s), a.has flagWakeup = true → s.bypassNeeded = true

structure KeptPaired (cfg : Config) (s : State) : Prop where
  contained : Contained cfg s
  leftStaged : ∀ a ∈ leftStaged s, Paired a
  staged : ∀ a ∈ staged s, Paired a
  bypasses : BypassesWakeUp s

theorem paired_rewritten {l' : List SensorData} (h : List.Forall₂ Rewritten l l')
    (hl : ∀ a ∈ l, Paired a) : ∀ b ∈ l', Paired b := by
  induction h with
  | nil => exact hl
  | cons hone _ ih =>
    obtain ⟨ha, hrest⟩ := List.forall_mem_cons.mp hl
    refine List.forall_mem_cons.mpr ⟨fun hflag => ?_, ih hrest⟩
    rw [has_rewritten hone] at hflag ⊢
    exact ha hflag

theorem KeptPaired.opStep (h : KeptPaired cfg s) {op : Op} (hpairs : op.Pairs cfg s)
    (hok : op.KeepsPair cfg s) : KeptPaired cfg (opStep cfg s op) := by
  have hafter := h.contained.opStep op
  cases h.contained.urges op with
  | stages _ hwrites hstages =>
    refine ⟨hafter, fun a ha => ?_, fun a ha => ?_, fun hset => ?_⟩
    · rw [hstages.leftStaged] at ha
      rcases List.mem_append.mp ha with ha | ha
      · exact h.leftStaged a ha
      · exact h.staged a (List.mem_of_mem_take ha)
    · rcases hstages.staged a ha with ha | rfl
      · exact h.staged a ha
      · exact hpairs a hwrites
    · rw [hstages.bypassNeeded]
      rw [hstages.wakeUpNeeded, Bool.or_eq_true] at hset
      -- the wake-up flag was set before, or is that of an entry which is evicted now
      rcases hset with hset | hset
      · exact h.bypasses hset
      · obtain ⟨a, ha, hflag⟩ := List.any_eq_true.mp hset
        exact hok (hwrites ▸ rfl) a ha hflag
  | commits _ _ hcommits =>
    obtain ⟨l, hrewritten, hcommitted⟩ := hcommits.committed
    refine ⟨hafter, fun a ha => ?_, fun a ha => ?_, fun hset => ?_⟩
    · rw [MotionSense.leftStaged, hcommits.gone, hcommitted, ← List.append_assoc,
        ← MotionSense.leftStaged] at ha
      rcases List.mem_append.mp ha with ha | ha
      · exact h.leftStaged a ha
      · exact paired_rewritten hrewritten h.staged a ha
    · rw [hcommits.staged] at ha
      cases ha
    · rw [hcommits.bypassNeeded, Bool.or_eq_true]
      rw [hcommits.wakeUpNeeded, Bool.or_eq_true] at hset
      refine hset.imp h.bypasses fun hset => ?_
      obtain ⟨a, ha, hflag⟩ := List.any_eq_true.mp hset
      exact List.any_eq_true.mpr ⟨a, ha, h.staged a ha hflag⟩
  | resets hop =>
    subst hop
    obtain ⟨hwake, -, hsame⟩ := resetNeededFlags_spec cfg s
    refine ⟨hafter, fun a ha => h.leftStaged a (hsame.leftStaged ▸ ha),
      fun a ha => h.staged a (hsame.staged ▸ ha), fun hset => ?_⟩
    exact absurd (hwake.symm.trans hset) Bool.false_ne_true
  | keeps _ _ _ hleft hstaged hwake hbypass =>
    refine ⟨hafter, hleft ▸ h.leftStaged, hstaged ▸ h.staged, fun hset => ?_⟩
    exact hbypass.trans (h.bypasses (hwake.symm.trans hset))

theorem KeptPaired.keepsPair (h : KeptPaired cfg s) {op : Op}
    (hbypasses : BypassesWakeUp (MotionSense.opStep cfg s op)) : op.KeepsPair cfg s := by
  intro hsome a ha hflag
  cases h.contained.urges op with
  | stages _ _ hstages =>
    have hset : (MotionSense.opStep cfg s op).wakeUpNeeded = true := by
      rw [hstages.wakeUpNeeded, List.any_eq_true.mpr ⟨a, ha, hflag⟩, Bool.or_true]
    exact hstages.bypassNeeded.symm.trans (hbypasses hset)
  | commits _ hwrites =>
    rw [hwrites] at hsome
    cases hsome
  | resets hop =>
    subst hop
    cases hsome
  | keeps _ hwrites =>
    rw [hwrites] at hsome
    cases hsome

/-! ## Runs -/

instance (cfg : Config) (s : State) (op : Op) : Decidable (op.KeepsBypass cfg s) :=
  inferInstanceAs (Decidable ((op.writes cfg s).isSome = true →
    ∀ a ∈ evictedStaged cfg s, a.has flagBypassFifo = true → s.bypassNeeded = true))

instance (e : SensorData) : Decidable (Paired e) :=
  inferInstanceAs (Decidable (e.has flagWakeup = true → e.has flagBypassFifo = true))

instance (cfg : Config) (s : State) (op : Op) : Decidable (op.Pairs cfg s) :=
  inferInstanceAs (Decidable (∀ e ∈ op.writes cfg s, Paired e))

instance (cfg : Config) (s : State) (op : Op) : Decidable (op.KeepsPair cfg s) :=
  inferInstanceAs (Decidable ((op.writes cfg s).isSome = true →
    ∀ a ∈ (entries s).take (evictCount cfg s), a.has flagWakeup = true → s.bypassNeeded = true))

theorem leftStaged_start (cfg : Config) (periods : Nat → BitVec 32) (sensors : Nat → Sensor) :
    leftStaged (State.start cfg periods sensors) = [] := by
  rw [leftStaged, committed, State.start, queueCount, BitVec.sub_self]
  rfl

theorem remembers_start (cfg : Config) (periods : Nat → BitVec 32) (sensors : Nat → Sensor) :
    Remembers cfg (State.start cfg periods sensors, 0) := by
  have hnil := leftStaged_start cfg periods sensors
  refine ⟨contained_start cfg periods sensors, Nat.zero_le _, fun a ha => ?_, fun a ha => ?_⟩
  · rw [hnil] at ha
    cases ha
  · rw [hnil] at ha
    cases ha

theorem keptPaired_start (cfg : Config) (periods : Nat → BitVec 32) (sensors : Nat → Sensor) :
    KeptPaired cfg (State.start cfg periods sensors) := by
  refine ⟨contained_start cfg periods sensors, fun a ha => ?_, nofun, nofun⟩
  rw [leftStaged_start] at ha
  cases ha

/-- The flags are set for the entries that left, in every run whose evictions lose no request to
bypass the FIFO; and where the entries are paired, so are the flags, in every run whose evictions
note no request to wake up the AP without the other flag.  After any other operation they are not. -/
theorem urgent_flags (cfg : Config) (periods : Nat → BitVec 32) (sensors : Nat → Sensor) :
    (∀ p, Reach (urgentStep cfg) (fun p op => op.KeepsBypass cfg p.1)
        (State.start cfg periods sensors, 0) p →
      Flagged p ∧ ∀ op : Op, Flagged (urgentStep cfg p op) ↔ op.KeepsBypass cfg p.1) ∧
    ∀ s, Reach (opStep cfg) (fun s op => op.Pairs cfg s ∧ op.KeepsPair cfg s)
        (State.start cfg periods sensors) s →
      BypassesWakeUp s ∧
        ∀ op : Op, op.Pairs cfg s → (BypassesWakeUp (opStep cfg s op) ↔ op.KeepsPair cfg s) := by
  refine ⟨fun p h => ?_, fun s h => ?_⟩
  · have hremembers : Remembers cfg p :=
      h.invariant (remembers_start cfg periods sensors) fun _ _ hp hok => hp.urgentStep hok
    exact ⟨hremembers.flagged,
      fun op => ⟨hremembers.keepsBypass, fun hok => (hremembers.urgentStep hok).flagged⟩⟩
  · have hpaired : KeptPaired cfg s :=
      h.invariant (keptPaired_start cfg periods sensors) fun _ _ hs hok => hs.opStep hok.1 hok.2
    exact ⟨hpaired.bypasses,
      fun op hpairs => ⟨hpaired.keepsPair, fun hok => (hpaired.opStep hpairs hok).bypasses⟩⟩

def fifo1 : Config where
  fifo := ⟨1, 1, ⟨0, by decide, rfl⟩⟩
  tight := false
  tabletMode := false
  maxMotionSensors := 1
  oneCell := rfl

def urgentUnit : Op :=
  .stageUnit false ⟨flagWakeup ||| flagBypassFifo, 0, 0, 0⟩ none 0

def urgentStart : State :=
  State.start fifo1 (fun _ => 0) fun _ => ⟨0, 1, 0, 0⟩

/-- Committed, the entry has both flags set, and a later eviction changes nothing. -/
theorem urgent_flags_committed :
    Flagged ([urgentUnit, .commitData, urgentUnit].foldl (urgentStep fifo1) (urgentStart, 0)) ∧
      BypassesWakeUp ([urgentUnit, .commitData, urgentUnit].foldl (opStep fifo1) urgentStart) :=
  ⟨((urgent_flags fifo1 _ _).1 _ (Reach.allowed (by decide +kernel) .start)).1,
    ((urgent_flags fifo1 _ _).2 _ (Reach.allowed (by decide +kernel) .start)).1⟩

/-- Evicted before it is committed, it wakes up the AP and does not bypass the FIFO. -/
theorem not_flagged_evicted :
    Allowed (opStep fifo1) (Op.Pairs fifo1) urgentStart [urgentUnit, urgentUnit] ∧
      ¬Flagged ([urgentUnit, urgentUnit].foldl (urgentStep fifo1) (urgentStart, 0)) ∧
      ¬BypassesWakeUp ([urgentUnit, urgentUnit].foldl (opStep fifo1) urgentStart) := by
  have hbypass : ([urgentUnit, urgentUnit].foldl (urgentStep fifo1) (urgentStart, 0)).1.bypassNeeded
      = false := by
    decide +kernel
  refine ⟨by decide +kernel, fun h => ?_, fun h => ?_⟩
  · have hset := h.bypass ⟨flagWakeup ||| flagBypassFifo, 0, 0, 0⟩ (by decide +kernel) (by decide)
    exact absurd (hbypass.symm.trans hset) Bool.false_ne_true
  · have hset := h (by decide +kernel)
    exact absurd (hbypass.symm.trans hset) Bool.false_ne_true

end ChromiumEc.MotionSense
