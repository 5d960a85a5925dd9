import ChromiumEc.Lightbar.Sandbox

/-!
# Handback — what the lightbar task does after a program

A sequence returns zero when it is over, and otherwise the number of the sequence that comes next.
`HALT` and the errors of a program are not zero, so the task takes them for messages; and only a
program that is left through an instruction gets the brightness back that was set before.
-/

namespace ChromiumEc.Lightbar

/-- `cur_seq` and `prev_seq` -/
structure Task where
  curSeq : Sequence
  prevSeq : Sequence
  deriving DecidableEq, Repr

def isNormalSequence (q : Sequence) : Bool :=
  Sequence.s5.num ≤ q.num ∧ q.num ≤ Sequence.s3s5.num

/-- A round of `lightbar_task`, for what the sequence has returned.  There is no result if that is
not the number of a sequence. -/
def lightbarTask (nextSeq : Nat) (t : Task) : Option Task :=
  if nextSeq ≠ 0 then
    Sequence.table[nextSeq]?.map fun next =>
      if t.curSeq ≠ next then
        { curSeq := next, prevSeq := if isNormalSequence t.curSeq then t.curSeq else t.prevSeq }
      else t
  else
    some <| match t.curSeq with
      | .s5s3 => { t with curSeq := .s3 }
      | .s3s0 => { t with curSeq := .s0 }
      | .s0s3 => { t with curSeq := .s3 }
      | .s3s5 => { t with curSeq := .s5 }
      | .stop | .run | .error | .konami | .tap | .program => { t with curSeq := t.prevSeq }
      | _ => t

def runningProgram (prev : Sequence) : Task := { curSeq := .program, prevSeq := prev }

/-! ## Handing back -/

/-- What is due when `sequence_PROGRAM` returns `rc`, for a message or for none -/
structure HandsBack (prev : Sequence) (saved : UInt8) (msg : Option Nat) (rc : Nat) (s : State) :
    Prop where
  brightness : s.shared.brightness = saved
  message : ∀ m, msg = some m → ∃ q : Sequence, q.num = m ∧
    lightbarTask rc (runningProgram prev) = some { curSeq := q, prevSeq := prev }
  finished : msg = none →
    lightbarTask rc (runningProgram prev) = some { curSeq := prev, prevSeq := prev }
  /-- The code is not taken for the number of another sequence. -/
  noMessage : msg = none → rc ≠ 0 → ∀ q : Sequence, q.num = rc → q = .program

/-- From a wait on, the program hands back if it ends. -/
def HandsBackFrom (prev : Sequence) (saved : UInt8) : Next → List Event → Prop
  | .returned _ _, _ => True
  | .waiting _ _, [] => True
  | .waiting p s, e :: es =>
    match resume e p s with
    | .returned rc s' => HandsBack prev saved (waitOrRet Sequence.program.num e.requests) rc s'
    | .waiting p' s' => HandsBackFrom prev saved (.waiting p' s') es

/-- A program that runs after the sequence `prev` hands back if it ends. -/
def HandsBackRun (prev : Sequence) (nextProg : Program) (x : Shared) (b : Battery)
    (es : List Event) : Prop :=
  match execute b (loadProgram nextProg x) with
  | .returned rc s' => HandsBack prev x.brightness none rc s'
  | .waiting p' s' => HandsBackFrom prev x.brightness (.waiting p' s') es

/-- No instruction ends the program, and a message between two instructions comes when the
brightness is what it was before. -/
def EndsWell (saved : UInt8) : Next → List Event → Prop
  | .returned _ _, _ => True
  | .waiting _ _, [] => True
  | .waiting p s, e :: es =>
    if waitOrRet Sequence.program.num e.requests = none then
      (p = .yield → exitCode { s with shared := e.others s.shared } = ecSuccess) ∧
        EndsWell saved (resume e p s) es
    else p = .yield → (e.others s.shared).brightness = saved

def EndsWellRun (nextProg : Program) (x : Shared) (b : Battery) (es : List Event) : Prop :=
  let s := loadProgram nextProg x
  exitCode s = ecSuccess ∧ EndsWell x.brightness (execute b s) es

/-! ## How a program ends -/

variable {prev : Sequence} {saved : UInt8} {s : State} {b : Battery} {e : Event} {p : Point}

theorem exitCode_values (s : State) :
    exitCode s = ecSuccess ∨ exitCode s = programFinished ∨ exitCode s = ecResInvalidParam := by
  unfold exitCode
  dsimp only
  split
  · exact Or.inr (Or.inr rfl)
  · split
    · exact Or.inr (Or.inr rfl)
    · exact Or.inr (Or.inl rfl)
    all_goals
      split
      · exact Or.inr (Or.inr rfl)
      · exact Or.inl rfl

theorem exitCode_of_not_lt (h : ¬s.pc.toNat < s.program.size.toNat) :
    exitCode s = ecResInvalidParam :=
  if_pos (by omega)

theorem exitCode_clear (s : State) : exitCode s.clear = exitCode s := rfl

theorem afterInst_of_rc {r : Result} (h : r.rc ≠ ecSuccess) :
    afterInst r = .returned r.rc (r.state.setBrightness r.state.savedBrightness) := by
  cases r with
  | waits p u => exact absurd rfl h
  | done rc u => exact if_pos h

theorem afterInst_of_rc_eq {r : Result} (h : r.rc = ecSuccess) :
    ∃ p, afterInst r = .waiting p r.state := by
  cases r with
  | waits p u => exact ⟨p, rfl⟩
  | done rc u => exact ⟨.yield, if_neg (not_not_intro h)⟩

theorem execute_cases (b : Battery) (s : State) :
    (exitCode s = ecSuccess ∧ ∃ p s', execute b s = .waiting p s' ∧
      s'.savedBrightness = s.savedBrightness) ∨
    (exitCode s ≠ ecSuccess ∧ ∃ s', execute b s = .returned (exitCode s) s') := by
  have hsaved := (performs_execute b s).saved_eq
  by_cases hpc : s.pc.toNat < s.program.size.toNat
  · have hdecode := decode8_of_lt (show s.clear.pc.toNat < s.clear.program.size.toNat from hpc)
    cases hop : Opcode.ofByte (s.program.data s.pc.toNat) with
    | none =>
      have hcode : exitCode s = ecResInvalidParam := by
        rw [exitCode, if_neg (Nat.sub_ne_zero_of_lt hpc), hop]
      have hnext : ∃ s', execute b s = .returned ecResInvalidParam s' := by
        unfold execute
        dsimp only
        rw [hdecode]
        dsimp only
        rw [show Opcode.ofByte (s.clear.program.data s.clear.pc.toNat) = none from hop]
        exact ⟨_, rfl⟩
      rw [hcode]
      exact Or.inr ⟨by decide, hnext⟩
    | some op =>
      have hruns := @runs_dispatch s.clear op b hpc hop
      have hnext : execute b s = afterInst (dispatch b (s.clear.advance 1) op) := by
        unfold execute
        dsimp only
        rw [hdecode]
        dsimp only
        rw [show Opcode.ofByte (s.clear.program.data s.clear.pc.toNat) = some op from hop]
      have hrc := hruns.rc_eq
      rw [exitCode_clear] at hrc
      by_cases hcode : exitCode s = ecSuccess
      · obtain ⟨p, hp⟩ := afterInst_of_rc_eq (hrc.trans hcode)
        rw [hnext, hp] at hsaved
        exact Or.inl ⟨hcode, p, _, hnext.trans hp, hsaved⟩
      · have hret := afterInst_of_rc (fun h => hcode (hrc.symm.trans h))
        rw [hrc] at hret
        exact Or.inr ⟨hcode, _, hnext.trans hret⟩
  · have hnext : ∃ s', execute b s = .returned ecResInvalidParam s' := by
      have hend : s.clear.program.size ≤ s.clear.pc :=
        UInt8.le_iff_toNat_le.mpr (Nat.le_of_not_lt hpc)
      unfold execute
      dsimp only
      rw [decode8, if_pos hend]
      exact ⟨_, rfl⟩
    rw [exitCode_of_not_lt hpc]
    exact Or.inr ⟨by decide, hnext⟩

theorem exists_sequence {m : Nat} (h : m < numSequences) :
    ∃ q : Sequence, Sequence.table[m]? = some q ∧ q.num = m := by
  revert m
  decide

theorem waitOrRet_some {m : Nat} {requests : List Nat}
    (h : waitOrRet Sequence.program.num requests = some m) :
    m ≠ 0 ∧ ∃ q : Sequence, Sequence.table[m]? = some q ∧ q.num = m ∧ q ≠ .program := by
  unfold waitOrRet at h
  split at h
  · exact nomatch h
  · next msg hmsg =>
    split at h
    · next hne =>
      obtain rfl := Option.some.inj h
      have hmem := List.mem_of_getLast? hmsg
      rw [List.mem_filter, decide_eq_true_eq] at hmem
      obtain ⟨q, hq, hnum⟩ := exists_sequence hmem.2.2
      refine ⟨Nat.ne_of_gt hmem.2.1, q, hq, hnum, fun hprogram => hne ?_⟩
      rw [← hnum, hprogram]
    · exact nomatch h

theorem resume_message {m : Nat} (h : waitOrRet Sequence.program.num e.requests = some m) :
    ∃ s', resume e p s = .returned m s' ∧
      s'.shared.brightness =
        if p = .yield then (e.others s.shared).brightness else s.savedBrightness := by
  have hm := (waitOrRet_some h).1
  unfold resume
  rw [h]
  cases p with
  | yield => exact ⟨_, rfl, rfl⟩
  | wait | ramp | cycle => exact ⟨_, afterInst_of_rc (show Result.rc (.done m _) ≠ _ from hm), rfl⟩

theorem resume_quiet (h : waitOrRet Sequence.program.num e.requests = none) (hp : p ≠ .yield) :
    ∃ p' s', resume e p s = .waiting p' s' ∧ s'.savedBrightness = s.savedBrightness := by
  have hidle := @idle_resume s e p fun hboth => hp hboth.2
  have hnext : ∃ r : Result, r.rc = ecSuccess ∧ resume e p s = afterInst r := by
    unfold resume
    rw [h]
    cases p with
    | yield => exact absurd rfl hp
    | wait => exact ⟨_, rfl, rfl⟩
    | cycle w => exact ⟨_, rfl, rfl⟩
    | ramp w stopAt =>
      refine ⟨_, ?_, rfl⟩
      unfold rampAllLeds
      split
      · rfl
      · rfl
  obtain ⟨r, hrc, hnext⟩ := hnext
  obtain ⟨p', hp'⟩ := afterInst_of_rc_eq hrc
  obtain ⟨x, hx⟩ := hidle
  rw [hnext, hp'] at hx
  rw [hnext, hp']
  refine ⟨p', r.state, rfl, ?_⟩
  rw [show r.state = _ from hx]

theorem resume_yield (h : waitOrRet Sequence.program.num e.requests = none) :
    resume e .yield s = execute e.battery { s with shared := e.others s.shared } := by
  unfold resume
  rw [h]

/-! ## What is handed back -/

theorem handsBack_message {m : Nat} (h : waitOrRet Sequence.program.num e.requests = some m) :
    HandsBack prev saved (some m) m s ↔ s.shared.brightness = saved := by
  obtain ⟨hm, q, hq, hnum, hne⟩ := waitOrRet_some h
  refine ⟨HandsBack.brightness, fun hbright => ⟨hbright, fun m' hm' => ?_, nofun, nofun⟩⟩
  obtain rfl := Option.some.inj hm'
  refine ⟨q, hnum, ?_⟩
  rw [lightbarTask, if_pos hm, hq, Option.map_some, runningProgram, if_pos hne.symm]
  rfl

theorem not_handsBack_exitCode {u : State} (h : exitCode s ≠ ecSuccess) :
    ¬HandsBack prev saved none (exitCode s) u := by
  intro hback
  rcases exitCode_values s with hcode | hcode | hcode
  · exact h hcode
  · have hq := hback.noMessage rfl h .s3 (by rw [hcode]; rfl)
    exact nomatch hq
  · have hq := hback.noMessage rfl h .s0 (by rw [hcode]; rfl)
    exact nomatch hq

theorem handsBack_execute (es : List Event)
    (ih : ∀ p s', s'.savedBrightness = saved →
      (HandsBackFrom prev saved (.waiting p s') es ↔ EndsWell saved (.waiting p s') es))
    (hsaved : s.savedBrightness = saved) :
    (match execute b s with
      | .returned rc s' => HandsBack prev saved none rc s'
      | .waiting p' s' => HandsBackFrom prev saved (.waiting p' s') es) ↔
      exitCode s = ecSuccess ∧ EndsWell saved (execute b s) es := by
  rcases execute_cases b s with ⟨hcode, p, s', hnext, hs'⟩ | ⟨hcode, s', hnext⟩
  · rw [hnext, and_iff_right hcode]
    exact ih p s' (hs'.trans hsaved)
  · rw [hnext]
    exact iff_of_false (not_handsBack_exitCode hcode) fun h => hcode h.1

theorem handsBackFrom_iff (es : List Event) (hsaved : s.savedBrightness = saved) :
    HandsBackFrom prev saved (.waiting p s) es ↔ EndsWell saved (.waiting p s) es := by
  induction es generalizing p s with
  | nil => exact Iff.rfl
  | cons e es ih =>
    rw [HandsBackFrom, EndsWell]
    cases hmsg : waitOrRet Sequence.program.num e.requests with
    | some m =>
      obtain ⟨s', hnext, hbright⟩ := @resume_message s e p m hmsg
      rw [hnext, if_neg nofun]
      dsimp only
      rw [handsBack_message hmsg, hbright, hsaved]
      by_cases hp : p = .yield
      · rw [if_pos hp]
        exact ⟨fun h _ => h, fun h => h hp⟩
      · rw [if_neg hp]
        exact iff_of_true rfl fun h => absurd h hp
    | none =>
      rw [if_pos rfl]
      by_cases hp : p = .yield
      · subst hp
        rw [resume_yield hmsg]
        have hexec := @handsBack_execute prev saved { s with shared := e.others s.shared } e.battery
          es (fun p s' hs' => ih hs') hsaved
        exact hexec.trans (and_congr_left' ⟨fun h _ => h, fun h => h rfl⟩)
      · obtain ⟨p', s', hnext, hs'⟩ := @resume_quiet s e p hmsg hp
        rw [hnext, and_iff_right fun h => absurd h hp]
        exact ih (hs'.trans hsaved)

/-- A program hands back exactly if it ends well. -/
theorem handsBackRun_iff (prev : Sequence) (nextProg : Program) (x : Shared) (b : Battery)
    (es : List Event) : HandsBackRun prev nextProg x b es ↔ EndsWellRun nextProg x b es :=
  handsBack_execute es (fun _ _ hs' => handsBackFrom_iff es hs') rfl

/-- `HALT` -/
def haltProgram : Program where
  size := 1
  data := fun _ => 16

/-- After `HALT` the task goes to `S3`, though `S0` ran before. -/
theorem not_handsBackRun_halt : ¬HandsBackRun .s0 haltProgram demoShared demoBattery [] := by
  rintro ⟨-, -, hfinished, -⟩
  exact absurd (hfinished rfl) (by decide)

end ChromiumEc.Lightbar
