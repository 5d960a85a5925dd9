import ChromiumEc.CortexM.Task
import ChromiumEc.Lib.Reach

/-!
# Wakeup — no event is lost, and the right task runs

A task with events is ready, or whoever set the event is about to make it so.  The ready tasks only
change together with the flag, in the scheduler, or on the way to it.
-/

namespace ChromiumEc.CortexM

open Lib

variable {cfg : Config} {s : State} {t : Nat}

def Setting (s : State) (t : Nat) : Prop :=
  (∃ u, s.pc u = .setEvent t) ∨ .setReady t ∈ s.irqs

def CallsScheduler : TaskPc → Prop
  | .enableAllTasks | .setEvent _ | .waitSchedule _ _ => True
  | _ => False

def Highest (s : State) : Prop :=
  IsGreatest {i | (s.tasksReady &&& s.tasksEnabled).getLsbD i = true} s.current

structure Law (cfg : Config) (s : State) : Prop where
  wakeup : ∀ t < cfg.taskIdCount, s.events t ≠ 0 → s.tasksReady.getLsbD t = true ∨ Setting s t
  highest : s.irqs = [] → s.needResched = false → ¬ CallsScheduler (s.pc s.current) → Highest s

/-! ## The invariant -/

def TaskPc.Ok (cfg : Config) : TaskPc → Prop
  | .setEvent tskid => tskid < cfg.taskIdCount
  | .waitTest _ resched => resched < cfg.taskIdCount
  | .waitSchedule _ resched => resched < cfg.taskIdCount
  | _ => True

structure Inv (cfg : Config) (s : State) : Prop where
  enabled : s.tasksEnabled = allTasks cfg
  current : s.current < cfg.taskIdCount ∧ s.tasksReady.getLsbD s.current = true
  pcs : ∀ u, (s.pc u).Ok cfg
  irqs : ∀ t, .setReady t ∈ s.irqs → t < cfg.taskIdCount
  profiling : cfg.taskProfiling = true → s.needResched = true
  wakeup : ∀ t < cfg.taskIdCount, s.events t ≠ 0 → s.tasksReady.getLsbD t = true ∨ Setting s t
  highest : s.needResched = false → .setFlag ∉ s.irqs → s.pc s.current ≠ .enableAllTasks →
    Highest s

theorem Inv.law (h : Inv cfg s) : Law cfg s := by
  refine ⟨h.wakeup, fun hirqs hflag hpc => h.highest hflag ?_ ?_⟩
  · rw [hirqs]
    exact List.not_mem_nil
  · intro heq
    rw [heq] at hpc
    exact hpc trivial

theorem getLsbD_allTasks (hn : cfg.taskIdCount ≤ 32) (i : Nat) :
    (allTasks cfg).getLsbD i = decide (i < cfg.taskIdCount) := by
  have hone : (1 : BitVec 32).toNat = 1 := rfl
  have hval : (allTasks cfg).toNat = 2 ^ cfg.taskIdCount - 1 := by
    have hpos : 0 < 2 ^ cfg.taskIdCount := Nat.two_pow_pos _
    have hle : 2 ^ cfg.taskIdCount ≤ 2 ^ 32 := Nat.pow_le_pow_right (by decide) hn
    rw [allTasks, BitVec.toNat_sub, BitVec.toNat_twoPow, hone]
    rcases Nat.lt_or_eq_of_le hle with hlt | heq
    · rw [Nat.mod_eq_of_lt hlt]
      omega
    · have hmod : (2 ^ 32 - 1 + 2 ^ 32 % 2 ^ 32) % 2 ^ 32 = 2 ^ 32 - 1 := by decide
      rw [heq, hmod]
  rw [BitVec.getLsbD, hval, Nat.testBit_two_pow_sub_one]

/-! ## The scheduler -/

/-- The scheduler makes a task ready, takes the current one off only if it has no events, and goes
on with the highest one. -/
theorem Inv.svcHandler {desched : Bool} {resched : Nat} (hn : cfg.taskIdCount ≤ 32)
    (henabled : s.tasksEnabled = allTasks cfg) (hresched : resched < cfg.taskIdCount)
    (hpcs : ∀ u, (s.pc u).Ok cfg) (hirqs : ∀ t, .setReady t ∈ s.irqs → t < cfg.taskIdCount)
    (hprofiling : cfg.taskProfiling = true → s.needResched = true)
    (hwakeup : ∀ t < cfg.taskIdCount, s.events t ≠ 0 →
      s.tasksReady.getLsbD t = true ∨ t = resched ∨ Setting s t) :
    Inv cfg (CortexM.svcHandler cfg desched resched s) := by
  have hready : ∀ j, (CortexM.svcHandler cfg desched resched s).tasksReady.getLsbD j =
      (decide (resched = j) || (if desched ∧ s.events s.current = 0 then
        clearBit s.tasksReady s.current else s.tasksReady).getLsbD j) := fun j =>
    getLsbD_setBit (Nat.lt_of_lt_of_le hresched hn) j
  have hbit : ((CortexM.svcHandler cfg desched resched s).tasksReady &&&
      (CortexM.svcHandler cfg desched resched s).tasksEnabled).getLsbD resched = true := by
    have hall : (CortexM.svcHandler cfg desched resched s).tasksEnabled = allTasks cfg := henabled
    rw [BitVec.getLsbD_and, hready, hall, getLsbD_allTasks hn, decide_eq_true rfl,
      decide_eq_true hresched]
    rfl
  have hhighest : Highest (CortexM.svcHandler cfg desched resched s) := fls_isGreatest ⟨resched, hbit⟩
  have hcurrent : ((CortexM.svcHandler cfg desched resched s).tasksReady &&&
      (CortexM.svcHandler cfg desched resched s).tasksEnabled).getLsbD
        (CortexM.svcHandler cfg desched resched s).current = true := hhighest.1
  rw [BitVec.getLsbD_and, Bool.and_eq_true] at hcurrent
  refine ⟨henabled, ⟨?_, hcurrent.1⟩, hpcs, hirqs, ?_, ?_, fun _ _ _ => hhighest⟩
  · have hall : (CortexM.svcHandler cfg desched resched s).tasksEnabled = allTasks cfg := henabled
    have hlt := hcurrent.2
    rw [hall, getLsbD_allTasks hn] at hlt
    exact of_decide_eq_true hlt
  · intro hprof
    exact (if_pos hprof).trans (hprofiling hprof)
  · intro t ht hevents
    have hevents : s.events t ≠ 0 := hevents
    rw [hready]
    rcases hwakeup t ht hevents with hin | rfl | hsetting
    · left
      rw [Bool.or_eq_true]
      right
      split
      · rename_i hcond
        have hne : s.current ≠ t := by
          rintro rfl
          exact hevents hcond.2
        rw [getLsbD_clearBit, decide_eq_false hne, hin]
        rfl
      · exact hin
    · left
      rw [decide_eq_true rfl]
      rfl
    · exact .inr hsetting

/-! ## Steps -/

theorem goto_pc_self {pc : TaskPc} : (s.goto pc).pc s.current = pc :=
  Function.update_self ..

theorem goto_pc_of_ne {pc : TaskPc} {u : Nat} (hu : u ≠ s.current) : (s.goto pc).pc u = s.pc u :=
  Function.update_of_ne hu ..

theorem Setting.goto {pc : TaskPc} (h : Setting s t) (hpc : s.pc s.current ≠ .setEvent t) :
    Setting (s.goto pc) t := by
  rcases h with ⟨u, hu⟩ | hirq
  · left
    refine ⟨u, ?_⟩
    have hne : u ≠ s.current := by
      rintro rfl
      exact hpc hu
    rwa [goto_pc_of_ne hne]
  · exact .inr hirq

theorem pcs_goto {pc : TaskPc} (h : ∀ u, (s.pc u).Ok cfg) (hpc : pc.Ok cfg) (u : Nat) :
    ((s.goto pc).pc u).Ok cfg := by
  by_cases hu : u = s.current
  · rwa [hu, goto_pc_self]
  · rw [goto_pc_of_ne hu]
    exact h u

theorem Inv.goto {pc : TaskPc} {evts : BitVec 32} (h : Inv cfg s) (hpc : pc.Ok cfg)
    (hold : ∀ t, s.pc s.current ≠ .setEvent t) (hrun : s.pc s.current ≠ .enableAllTasks) :
    Inv cfg ({ s with events := Function.update s.events s.current evts }.goto pc) := by
  refine ⟨h.enabled, h.current, pcs_goto h.pcs hpc, h.irqs, h.profiling, ?_,
    fun hflag hirqs _ => h.highest hflag hirqs hrun⟩
  intro t ht hevents
  by_cases heq : t = s.current
  · rw [heq]
    exact .inl h.current.2
  · have hother : s.events t ≠ 0 := fun hzero =>
      hevents ((Function.update_of_ne heq ..).trans hzero)
    exact (h.wakeup t ht hother).imp_right fun hsetting =>
      @Setting.goto { s with events := Function.update s.events s.current evts } t pc hsetting (hold t)

theorem Inv.setEventDisabled (hn : cfg.taskIdCount ≤ 32) (h : Inv cfg s) {call : Nat × BitVec 32}
    (hcall : call.1 < cfg.taskIdCount) : Inv cfg (setEventDisabled cfg s call) := by
  have hready : ∀ j, (CortexM.setEventDisabled cfg s call).tasksReady.getLsbD j =
      (decide (call.1 = j) || s.tasksReady.getLsbD j) := fun j =>
    getLsbD_setBit (Nat.lt_of_lt_of_le hcall hn) j
  have hflag : (CortexM.setEventDisabled cfg s call).needResched = true := by
    have hset : (CortexM.setEventDisabled cfg s call).needResched =
        if cfg.taskProfiling then s.needResched else true := rfl
    rw [hset]
    split
    · rename_i hprof
      exact h.profiling hprof
    · rfl
  refine ⟨h.enabled, ⟨h.current.1, ?_⟩, h.pcs, h.irqs, fun _ => hflag, ?_, fun hclear => ?_⟩
  · rw [hready]
    exact (Bool.or_eq_true ..).mpr (.inr h.current.2)
  · intro t ht hevents
    rw [hready, Bool.or_eq_true]
    by_cases heq : t = call.1
    · exact .inl (.inl (decide_eq_true heq.symm))
    · have hother : s.events t ≠ 0 := fun hzero =>
        hevents ((Function.update_of_ne heq ..).trans hzero)
      exact (h.wakeup t ht hother).imp_left .inr
  · rw [hflag] at hclear
    cases hclear

theorem Inv.section (hn : cfg.taskIdCount ≤ 32) (h : Inv cfg s) {calls : List (Nat × BitVec 32)}
    (hcalls : ∀ call ∈ calls, call.1 < cfg.taskIdCount) :
    Inv cfg (calls.foldl (CortexM.setEventDisabled cfg) s) := by
  induction calls generalizing s with
  | nil => exact h
  | cons call calls ih =>
    exact ih (h.setEventDisabled hn (hcalls call List.mem_cons_self)) fun call' hcall' =>
      hcalls call' (List.mem_cons_of_mem call hcall')

theorem Inv.taskStep (hn : cfg.taskIdCount ≤ 32) (h : Inv cfg s) : Inv cfg (taskStep cfg s) := by
  have hpos : 0 < cfg.taskIdCount := Nat.lt_of_le_of_lt (Nat.zero_le _) h.current.1
  have hok := h.pcs s.current
  unfold CortexM.taskStep
  cases hpc : s.pc s.current with
  | run evt => exact h
  | enableAllTasks =>
    refine Inv.svcHandler hn h.enabled hpos (pcs_goto h.pcs trivial) h.irqs h.profiling ?_
    intro t ht hevents
    refine (h.wakeup t ht hevents).imp_right fun hsetting => .inr (hsetting.goto ?_)
    rw [hpc]
    exact nofun
  | setEvent tskid =>
    rw [hpc] at hok
    refine Inv.svcHandler hn h.enabled hok (pcs_goto h.pcs trivial) h.irqs h.profiling ?_
    intro t ht hevents
    refine (h.wakeup t ht hevents).imp_right fun hsetting => ?_
    -- only the task that is made ready now was waited for by this call
    by_cases heq : t = tskid
    · exact .inl heq
    · refine .inr (hsetting.goto ?_)
      rw [hpc]
      exact fun hsame => heq (TaskPc.setEvent.inj hsame).symm
  | waitTest timeout resched =>
    rw [hpc] at hok
    have hold : ∀ t, s.pc s.current ≠ .setEvent t := by
      rw [hpc]
      exact fun t => nofun
    have hrun : s.pc s.current ≠ .enableAllTasks := by
      rw [hpc]
      exact nofun
    simp only
    split
    · exact h.goto hok hold hrun
    · split
      · exact h.goto trivial hold hrun
      · exact h.goto trivial hold hrun
  | waitSchedule timeout resched =>
    rw [hpc] at hok
    refine Inv.svcHandler hn h.enabled hok (pcs_goto h.pcs hpos) h.irqs h.profiling ?_
    intro t ht hevents
    refine (h.wakeup t ht hevents).imp_right fun hsetting => .inr (hsetting.goto ?_)
    rw [hpc]
    exact nofun
  | waitTimer evt =>
    refine h.goto trivial ?_ ?_
    · rw [hpc]
      exact fun t => nofun
    · rw [hpc]
      exact nofun

theorem Inv.irqs_change {irqs : List Irq} (h : Inv cfg s)
    (hready : ∀ t, .setReady t ∈ irqs ↔ .setReady t ∈ s.irqs)
    (hflag : .setFlag ∈ s.irqs → .setFlag ∈ irqs) : Inv cfg { s with irqs := irqs } := by
  refine ⟨h.enabled, h.current, h.pcs, fun t ht => h.irqs t ((hready t).mp ht), h.profiling, ?_,
    fun hclear hnone => h.highest hclear fun hmem => hnone (hflag hmem)⟩
  intro t ht hevents
  exact (h.wakeup t ht hevents).imp_right fun hsetting => hsetting.imp_right (hready t).mpr

theorem Inv.irqStep (hn : cfg.taskIdCount ≤ 32) (h : Inv cfg s) : Inv cfg (irqStep cfg s) := by
  have hpos : 0 < cfg.taskIdCount := Nat.lt_of_le_of_lt (Nat.zero_le _) h.current.1
  unfold CortexM.irqStep
  cases hirqs : s.irqs with
  | nil => exact h
  | cons irq irqs =>
    have hset := h.irqs
    have hwake := h.wakeup
    rw [hirqs] at hset
    simp only [Setting, hirqs] at hwake
    cases irq with
    | handler => exact h
    | setReady tskid =>
      have hlt := hset tskid List.mem_cons_self
      have hready : ∀ j, (setBit s.tasksReady tskid).getLsbD j =
          (decide (tskid = j) || s.tasksReady.getLsbD j) := fun j =>
        getLsbD_setBit (Nat.lt_of_lt_of_le hlt hn) j
      refine ⟨h.enabled, ⟨h.current.1, ?_⟩, h.pcs, ?_, h.profiling, ?_,
        fun _ hnone => absurd List.mem_cons_self hnone⟩
      · rw [hready]
        exact (Bool.or_eq_true ..).mpr (.inr h.current.2)
      · intro t ht
        exact hset t (List.mem_cons_of_mem _ ((List.mem_cons.mp ht).resolve_left nofun))
      · intro t ht hevents
        simp only [hready, Bool.or_eq_true, Setting]
        rcases hwake t ht hevents with hin | hpc | hirq
        · exact .inl (.inr hin)
        · exact .inr (.inl hpc)
        · rcases List.mem_cons.mp hirq with heq | hmem
          · exact .inl (.inl (decide_eq_true (Irq.setReady.inj heq).symm))
          · exact .inr (.inr (List.mem_cons_of_mem _ hmem))
    | setFlag =>
      have hflag : (setFlag cfg { s with irqs := .handler :: irqs }).needResched = true := by
        have hval : (setFlag cfg { s with irqs := .handler :: irqs }).needResched =
            if cfg.taskProfiling then s.needResched else true := rfl
        rw [hval]
        split
        · rename_i hprof
          exact h.profiling hprof
        · rfl
      refine ⟨h.enabled, h.current, h.pcs, ?_, fun _ => hflag, ?_, fun hclear => ?_⟩
      · intro t ht
        exact hset t (List.mem_cons_of_mem _ ((List.mem_cons.mp ht).resolve_left nofun))
      · intro t ht hevents
        refine (hwake t ht hevents).imp_right fun hsetting => hsetting.imp_right fun hirq => ?_
        exact List.mem_cons_of_mem _ ((List.mem_cons.mp hirq).resolve_left nofun)
      · rw [hflag] at hclear
        cases hclear
    | reschedIfNeeded =>
      have hchange : ∀ {irq' : Irq}, (∀ t, irq' ≠ .setReady t) →
          Inv cfg { s with irqs := irq' :: irqs } := by
        intro irq' hne
        refine h.irqs_change ?_ ?_
        · intro t
          rw [hirqs, List.mem_cons, List.mem_cons]
          exact ⟨fun hmem => .inr (hmem.resolve_left fun heq => hne t heq.symm),
            fun hmem => .inr (hmem.resolve_left nofun)⟩
        · rw [hirqs]
          exact fun hmem => List.mem_cons_of_mem _ ((List.mem_cons.mp hmem).resolve_left nofun)
      simp only
      split
      · exact hchange fun t => nofun
      · exact hchange fun t => nofun
    | svcHandler =>
      refine Inv.svcHandler hn h.enabled hpos h.pcs ?_ h.profiling ?_
      · intro t ht
        exact hset t (List.mem_cons_of_mem _ ht)
      · intro t ht hevents
        refine (hwake t ht hevents).imp_right fun hsetting => .inr ?_
        refine hsetting.imp_right fun hirq => ?_
        have hmem : .setReady t ∈ irqs := (List.mem_cons.mp hirq).resolve_left nofun
        exact hmem
    | leave =>
      refine h.irqs_change ?_ ?_
      · intro t
        rw [hirqs, List.mem_cons]
        exact ⟨.inr, fun hmem => hmem.resolve_left nofun⟩
      · rw [hirqs]
        exact fun hmem => (List.mem_cons.mp hmem).resolve_left nofun

theorem mem_of_handler {irq irq' : Irq} {irqs : List Irq} (h : irqs.head? = some .handler)
    (hne : irq ≠ .handler) : irq ∈ irq' :: irqs.tail ↔ irq = irq' ∨ irq ∈ irqs := by
  cases irqs with
  | nil => cases h
  | cons top irqs =>
    cases h
    rw [List.tail_cons, List.mem_cons, List.mem_cons, or_iff_right hne]

theorem Inv.step (hn : cfg.taskIdCount ≤ 32) (h : Inv cfg s) {a : Action} (ha : a.Ok cfg s) :
    Inv cfg (step cfg s a) := by
  cases a with
  | taskSetEvent tskid event =>
    obtain ⟨_, htskid, evt, hpc⟩ := ha
    refine ⟨h.enabled, h.current, pcs_goto h.pcs htskid, h.irqs, h.profiling, ?_, ?_⟩
    · intro t ht hevents
      by_cases heq : t = tskid
      · refine .inr (.inl ⟨s.current, ?_⟩)
        rw [heq]
        exact @goto_pc_self (postEvent tskid event s) (.setEvent tskid)
      · have hother : s.events t ≠ 0 := fun hzero =>
          hevents ((Function.update_of_ne heq ..).trans hzero)
        refine (h.wakeup t ht hother).imp_right fun hsetting => ?_
        refine @Setting.goto (postEvent tskid event s) t (.setEvent tskid) hsetting ?_
        exact fun hsame => TaskPc.noConfusion (hpc.symm.trans hsame)
    · exact fun hclear hnone _ => h.highest hclear hnone fun heq =>
        TaskPc.noConfusion (hpc.symm.trans heq)
  | taskWaitEvent timeout resched =>
    obtain ⟨_, hresched, evt, hpc⟩ := ha
    have hgoto := @Inv.goto cfg s (.waitTest timeout resched) (s.events s.current) h hresched
      (fun t hsame => TaskPc.noConfusion (hpc.symm.trans hsame))
      fun hsame => TaskPc.noConfusion (hpc.symm.trans hsame)
    rwa [Function.update_eq_self] at hgoto
  | taskRepost event =>
    refine ⟨h.enabled, h.current, h.pcs, h.irqs, h.profiling, ?_, h.highest⟩
    intro t ht hevents
    by_cases heq : t = s.current
    · rw [heq]
      exact .inl h.current.2
    · exact h.wakeup t ht fun hzero => hevents ((Function.update_of_ne heq ..).trans hzero)
  | taskSection calls => exact h.section hn ha.2.1
  | taskStep => exact h.taskStep hn
  | irqEnter =>
    refine h.irqs_change ?_ fun hmem => List.mem_cons_of_mem _ hmem
    intro t
    exact ⟨fun hmem => (List.mem_cons.mp hmem).resolve_left nofun,
      fun hmem => List.mem_cons_of_mem _ hmem⟩
  | irqSetEvent tskid event =>
    obtain ⟨htskid, hhead⟩ := ha
    have hmem : ∀ {t}, .setReady t ∈ .setReady tskid :: s.irqs.tail ↔
        Irq.setReady t = .setReady tskid ∨ .setReady t ∈ s.irqs := mem_of_handler hhead nofun
    refine ⟨h.enabled, h.current, h.pcs, ?_, h.profiling, ?_, ?_⟩
    · intro t ht
      rcases hmem.mp ht with heq | ht
      · rwa [Irq.setReady.inj heq]
      · exact h.irqs t ht
    · intro t ht hevents
      by_cases heq : t = tskid
      · rw [heq]
        exact .inr (.inr List.mem_cons_self)
      · have hother : s.events t ≠ 0 := fun hzero =>
          hevents ((Function.update_of_ne heq ..).trans hzero)
        exact (h.wakeup t ht hother).imp_right fun hsetting => hsetting.imp_right fun hirq =>
          hmem.mpr (.inr hirq)
    · intro hclear hnone hrun
      refine h.highest hclear (fun hflag => hnone ?_) hrun
      exact (@mem_of_handler .setFlag _ _ hhead nofun).mpr (.inr hflag)
  | irqSection calls => exact h.section hn ha.1
  | irqDone =>
    refine h.irqs_change ?_ fun hmem =>
      (@mem_of_handler .setFlag _ _ ha nofun).mpr (.inr hmem)
    intro t
    rw [@mem_of_handler (.setReady t) _ _ ha nofun]
    exact ⟨fun hmem => hmem.resolve_left nofun, .inr⟩
  | irqStep => exact h.irqStep hn

theorem Enabled.inv (hn : cfg.taskIdCount ≤ 32) (h : Enabled cfg s) : Inv cfg s := by
  have hready : ∀ t < cfg.taskIdCount, s.tasksReady.getLsbD t = true := by
    intro t ht
    rw [h.ready, getLsbD_allTasks hn]
    exact decide_eq_true ht
  refine ⟨h.enabled, ⟨h.current, hready _ h.current⟩, ?_, ?_, h.profiling,
    fun t ht _ => .inl (hready t ht), fun _ _ hrun => absurd h.pc hrun⟩
  · intro u
    by_cases hu : u = s.current
    · rw [hu, h.pc]
      trivial
    · obtain ⟨evt, hevt⟩ := h.others u hu
      rw [hevt]
      trivial
  · intro t ht
    rw [h.irqs] at ht
    exact absurd ht List.not_mem_nil

/-- From the state in which all tasks are enabled on, in every state that is reached by steps of tasks
and interrupts in any order: a task with events is ready or about to be made so, and a task that runs
with nothing pending is the highest of the ready ones. -/
theorem scheduler_law {s₀ : State} (hn : cfg.taskIdCount ≤ 32) (h₀ : Enabled cfg s₀)
    (h : Reach (step cfg) (fun s a => a.Ok cfg s) s₀ s) : Law cfg s :=
  (h.invariant (h₀.inv hn) fun _ _ hs ha => hs.step hn ha).law

def demoState : State where
  events := fun _ => 0
  tasksReady := 7
  tasksEnabled := 7
  needResched := false
  current := 1
  pc := fun t => if t = 1 then .enableAllTasks else .run 0
  irqs := []

/-- The highest task goes to sleep, an interrupt sets an event of it while it does, and it goes on. -/
def demoActions : List Action :=
  [.taskStep, .taskWaitEvent false 0, .taskStep, .irqEnter, .irqSetEvent 2 4, .irqStep, .irqStep,
    .irqDone, .irqStep, .irqStep, .taskStep, .taskStep]

theorem scheduler_law_demo :
    Law ⟨3, false⟩ (demoActions.foldl (step ⟨3, false⟩) demoState) ∧
      (demoActions.foldl (step ⟨3, false⟩) demoState).current = 2 ∧
      (demoActions.foldl (step ⟨3, false⟩) demoState).pc 2 = .run 4 := by
  have hallowed : Allowed (step ⟨3, false⟩) (fun s a => a.Ok ⟨3, false⟩ s) demoState demoActions := by
    refine ⟨rfl, ⟨rfl, by decide, 0, rfl⟩, rfl, trivial, ⟨by decide, rfl⟩, trivial, trivial, rfl,
      trivial, trivial, rfl, rfl, trivial⟩
  have henabled : Enabled ⟨3, false⟩ demoState := by
    refine ⟨rfl, rfl, by decide, rfl, fun t ht => ⟨0, if_neg ht⟩, rfl, nofun⟩
  exact ⟨scheduler_law (by decide) henabled (.allowed hallowed .start), by decide +kernel,
    by decide +kernel⟩

end ChromiumEc.CortexM
