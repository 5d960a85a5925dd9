import ChromiumEc.CortexM.WaitEvt
import ChromiumEc.Flash.CbiSection
import ChromiumEc.Lib.Reach

/-!
# Rwsig — the task that verifies the RW image and jumps to it

`rwsig_task` of `rwsig.c`, among the other tasks: they change the flash, hash it and send events to
the task.  A change is in two steps, since the task may run between `flash_abort_or_invalidate_hash`
and the work of the chip.

Every change of the RW image asks the task not to jump, unless a hash of the flash is in progress:
then `flash_abort_or_invalidate_hash` stops the hash and forgets the task.
-/

namespace ChromiumEc.Rwsig

open Flash (AccessConfig Chip Machine taskEventAbort)
open VbootHash (flashRangeOk)

abbrev taskEventContinue : BitVec 32 :=
  BitVec.twoPow 32 1

abbrev taskEventTimer : BitVec 32 :=
  BitVec.twoPow 32 31

/-- `enum rwsig_status` -/
inductive RwsigStatus
  | unknown
  | inProgress
  | valid
  | invalid
  | aborted
  deriving DecidableEq

inductive Pc
  | begin
  /-- In `rwsig_check_signature` -/
  | checking
  /-- In `task_wait_event` -/
  | waiting
  /-- Behind it, with the events it returned -/
  | woken (evt : BitVec 32)
  /-- In `rwsig_jump_now` -/
  | jumping
  /-- The RW image runs. -/
  | jumped
  | exit
  deriving DecidableEq

/-! ## Changes of the flash -/

/-- A call of `crec_flash_write` or `crec_flash_erase` -/
inductive Change
  | write (offset size : Int) (data : Nat → UInt8)
  | erase (offset size : Int)

namespace Change

def offset : Change → Int
  | .write offset _ _ => offset
  | .erase offset _ => offset

def size : Change → Int
  | .write _ size _ => size
  | .erase _ size => size

/-- `flash_range_ok` accepts the range. -/
def Accepted (cfg : AccessConfig) : Change → Prop
  | .write offset size _ => flashRangeOk cfg.toFlashConfig offset size cfg.writeSize
  | .erase offset size => flashRangeOk cfg.toFlashConfig offset size cfg.eraseSize

/-- The call goes on behind the check of the range. -/
def Begins (cfg : AccessConfig) : Change → Prop
  | .write offset size _ => flashRangeOk cfg.toFlashConfig offset size cfg.writeSize
  | .erase offset size =>
    cfg.multipleRegion ∨ flashRangeOk cfg.toFlashConfig offset size cfg.eraseSize

instance (cfg : AccessConfig) : ∀ c : Change, Decidable (c.Accepted cfg)
  | .write .. => inferInstanceAs (Decidable (flashRangeOk _ _ _ _))
  | .erase .. => inferInstanceAs (Decidable (flashRangeOk _ _ _ _))

instance (cfg : AccessConfig) : ∀ c : Change, Decidable (c.Begins cfg)
  | .write .. => inferInstanceAs (Decidable (flashRangeOk _ _ _ _))
  | .erase .. => inferInstanceAs (Decidable (_ ∨ _))

variable {σ : Type*}

def physical (cfg : AccessConfig) (P : Chip σ) : Change → Machine σ → Int × Machine σ
  | .write offset size data => Flash.writeRange cfg P offset size data
  | .erase offset size => Flash.eraseRange cfg P offset size

def run (cfg : AccessConfig) (P : Chip σ) : Change → Machine σ → Int × Machine σ
  | .write offset size data => Flash.crecFlashWrite cfg P offset size data
  | .erase offset size => Flash.crecFlashErase cfg P offset size

end Change

/-! ## The tasks -/

/-- The machine, the task, and the changes of the flash that are under way.  `verified` is the flash
when the signature check began. -/
structure World (σ : Type*) where
  machine : Machine σ
  status : RwsigStatus
  pc : Pc
  underWay : List Change
  verified : Nat → UInt8

variable {σ : Type*}

/-- A step of `rwsig_task`.  The answer is that of `system_get_reset_flags`, of
`rwsig_check_signature`, and whether `rwsig_jump_now` gets to `system_run_image_copy`. -/
def rwsigTask (answer : Bool) (w : World σ) : World σ :=
  match w.pc with
  | .begin =>
    if w.machine.imageCopy ≠ .ro then { w with pc := .exit }
    else if answer then { w with status := .aborted, pc := .exit }
    else { w with status := .inProgress, pc := .checking, verified := w.machine.vboot.flash }
  | .checking =>
    if answer then { w with status := .valid, pc := .waiting }
    else { w with status := .invalid, pc := .exit }
  | .waiting =>
    -- the task sleeps until there is an event
    if w.machine.rwsigEvents = 0 then w
    else
      { w with
        pc := .woken w.machine.rwsigEvents
        machine := { w.machine with rwsigEvents := 0 } }
  | .woken evt =>
    if evt = taskEventTimer ∨ evt = taskEventContinue then { w with pc := .jumping }
    else { w with status := .aborted, pc := .exit }
  | .jumping => { w with pc := if answer then .jumped else .exit }
  | .jumped => w
  | .exit => w

inductive Label
  | task (answer : Bool)
  /-- `task_set_event`, by the timer or by any other code -/
  | setEvent (events : BitVec 32)
  /-- A change is asked for. -/
  | call (c : Change)
  /-- The chip does the change that is under way at this place. -/
  | physical (k : Nat)
  /-- A call of `vboot_hash.c` -/
  | hash (e : VbootHash.Event)

/-- The calls of `vboot_hash.c`; changes of the flash have labels of their own. -/
def hashStep (cfg : AccessConfig) (e : VbootHash.Event) (s : VbootHash.State) : VbootHash.State :=
  match e with
  | .write .. => s
  | .erase .. => s
  | e => VbootHash.step cfg.toFlashConfig s e

def step (cfg : AccessConfig) (P : Chip σ) (w : World σ) (l : Label) : World σ :=
  if w.pc = .jumped then w
  else match l with
    | .task answer => rwsigTask answer w
    | .setEvent events =>
      { w with machine := { w.machine with rwsigEvents := w.machine.rwsigEvents ||| events } }
    | .call c =>
      if c.Begins cfg then
        { w with
          machine := Flash.flashAbortOrInvalidateHash cfg c.offset c.size w.machine
          underWay := w.underWay ++ [c] }
      else w
    | .physical k =>
      match w.underWay[k]? with
      | some c =>
        { w with
          machine := (c.physical cfg P w.machine).2
          underWay := w.underWay.eraseIdx k }
      | none => w
    | .hash e => { w with machine := { w.machine with vboot := hashStep cfg e w.machine.vboot } }

def World.boot (m : Machine σ) : World σ where
  machine := m
  status := .unknown
  pc := .begin
  underWay := []
  verified := m.vboot.flash

open CortexM.Wait (Has has_or)
open Flash (AccessConfig Chip Machine Call InRange overlapsRw)
open Lib (Reach)

variable {σ : Type*} {cfg : AccessConfig} {P : Chip σ} {c : Change} {m : Machine σ} {w : World σ}

/-- The byte at `a` is in the RW image. -/
def InRw (cfg : AccessConfig) (a : Nat) : Prop :=
  cfg.writableStorageOff ≤ a ∧ a < cfg.writableStorageOff + cfg.rwSize

instance (cfg : AccessConfig) (a : Nat) : Decidable (InRw cfg a) :=
  inferInstanceAs (Decidable (_ ∧ _))

def Change.MeetsRw (cfg : AccessConfig) (c : Change) : Prop :=
  ∃ a, InRange c.offset c.size a ∧ InRw cfg a

theorem Change.MeetsRw.overlapsRw (h : c.MeetsRw cfg) : overlapsRw cfg c.offset c.size := by
  obtain ⟨a, hrange, hrw⟩ := h
  rw [InRange] at hrange
  rw [InRw] at hrw
  rw [Flash.overlapsRw]
  omega

/-! ## What the chip leaves -/

/-- Of the machine only the flash changes, and the state of the chip. -/
structure OnlyFlash (m m' : Machine σ) : Prop where
  vboot : m'.vboot = { m.vboot with flash := m'.vboot.flash }
  rwsigEvents : m'.rwsigEvents = m.rwsigEvents
  calls : ∃ later, m'.calls = m.calls ++ later ∧ Call.rwsigAbort ∉ later

theorem OnlyFlash.refl (m : Machine σ) : OnlyFlash m m :=
  ⟨rfl, rfl, [], (List.append_nil _).symm, List.not_mem_nil⟩

theorem OnlyFlash.trans {m' m'' : Machine σ} (h : OnlyFlash m m') (h' : OnlyFlash m' m'') :
    OnlyFlash m m'' := by
  obtain ⟨later, hlater, hnot⟩ := h.calls
  obtain ⟨later', hlater', hnot'⟩ := h'.calls
  refine ⟨?_, h'.rwsigEvents.trans h.rwsigEvents, later ++ later', ?_, ?_⟩
  · rw [h'.vboot, h.vboot]
  · rw [hlater', hlater, List.append_assoc]
  · rw [List.mem_append]
    exact fun hmem => hmem.elim hnot hnot'

theorem onlyFlash_call (f : (Nat → UInt8) × σ → Int × ((Nat → UInt8) × σ)) (call : Call)
    (hcall : call ≠ .rwsigAbort) (m : Machine σ) : OnlyFlash m (m.call f call).2 where
  vboot := rfl
  rwsigEvents := rfl
  calls := ⟨[call], rfl, fun hmem => hcall (List.mem_singleton.mp hmem).symm⟩

theorem onlyFlash_aroundCbi {s : Flash.CbiSection} {offset size : Int}
    {before behind : Machine σ → Int × Machine σ} (hbefore : ∀ m, OnlyFlash m (before m).2)
    (hbehind : ∀ m, OnlyFlash m (behind m).2) (m : Machine σ) :
    OnlyFlash m (Flash.aroundCbi s offset size before behind m).2 := by
  have hfirst : OnlyFlash m (if offset < s.offset then before m else (0, m)).2 := by
    split
    · exact hbefore m
    · exact OnlyFlash.refl m
  rw [Flash.aroundCbi]
  generalize (if offset < (s.offset : Int) then before m else (0, m)) = r at hfirst
  split
  · exact hfirst
  · split
    · exact hfirst.trans (hbehind r.2)
    · exact hfirst

theorem onlyFlash_physical (cfg : AccessConfig) (P : Chip σ) (c : Change) (m : Machine σ) :
    OnlyFlash m (c.physical cfg P m).2 := by
  have hwrite : ∀ offset size data (m : Machine σ),
      OnlyFlash m (Flash.physicalWrite P offset size data m).2 := fun offset size data m =>
    onlyFlash_call (P.write offset size data) (.physicalWrite offset size) nofun m
  have herase : ∀ offset size (m : Machine σ),
      OnlyFlash m (Flash.physicalErase P offset size m).2 := fun offset size m =>
    onlyFlash_call (P.erase offset size) (.physicalErase offset size) nofun m
  cases c with
  | write offset size data =>
    rw [Change.physical, Flash.writeRange]
    split
    · split
      · exact onlyFlash_aroundCbi (hwrite _ _ _) (hwrite _ _ _) m
      · exact hwrite offset size data m
    · exact hwrite offset size data m
  | erase offset size =>
    rw [Change.physical, Flash.eraseRange]
    split
    · split
      · exact onlyFlash_aroundCbi (herase _ _) (herase _ _) m
      · exact herase offset size m
    · exact herase offset size m

theorem physical_frame (hP : P.Lawful cfg) (hc : c.Accepted cfg) (m : Machine σ) {a : Nat}
    (ha : ¬ InRange c.offset c.size a) :
    (c.physical cfg P m).2.vboot.flash a = m.vboot.flash a := by
  cases c with
  | write offset size data =>
    exact (Flash.writeRange_changed hP data m hc).frame a fun hin => ha hin.1
  | erase offset size => exact (Flash.eraseRange_changed hP m hc).frame a fun hin => ha hin.1

theorem run_eq (hc : c.Accepted cfg) (m : Machine σ) :
    c.run cfg P m =
      c.physical cfg P (Flash.flashAbortOrInvalidateHash cfg c.offset c.size m) := by
  cases c with
  | write offset size data => exact if_pos hc
  | erase offset size => exact if_pos (Or.inr hc)

/-! ## The task is asked -/

/-- `flash_abort_or_invalidate_hash` gets to its last check. -/
def HashIdle (cfg : AccessConfig) (m : Machine σ) : Prop :=
  ¬ (cfg.vbootHash ∧ (m.vboot.inProgress ∨ cfg.externalStorage ∧ m.systemIsInRw))

instance (cfg : AccessConfig) (m : Machine σ) : Decidable (HashIdle cfg m) :=
  inferInstanceAs (Decidable (¬ (_ ∧ (_ ∨ _))))

/-- The first call that counts, from `m` on, is `rwsig_abort`. -/
def AbortsFirst (m : Machine σ) (r : Int × Machine σ) : Prop :=
  ∃ later, r.2.calls = m.calls ++ .rwsigAbort :: later

theorem hash_idle {offset size : Int} (hidle : HashIdle cfg m) (hrwsig : cfg.taskRwsig)
    (hoverlaps : overlapsRw cfg offset size) :
    (Flash.flashAbortOrInvalidateHash cfg offset size m).calls = m.calls ++ [.rwsigAbort] ∧
      Has (Flash.flashAbortOrInvalidateHash cfg offset size m).rwsigEvents 0 := by
  have habort : ∀ m' : Machine σ, m'.calls = m.calls →
      (Flash.abortJump cfg offset size m').calls = m.calls ++ [.rwsigAbort] ∧
        Has (Flash.abortJump cfg offset size m').rwsigEvents 0 := by
    intro m' hcalls
    rw [Flash.abortJump, if_pos ⟨hrwsig, hoverlaps⟩]
    refine ⟨congrArg (· ++ [Call.rwsigAbort]) hcalls, has_or.mpr (Or.inr ?_)⟩
    simp [Has, Flash.taskEventAbort]
  rw [Flash.flashAbortOrInvalidateHash]
  split_ifs with hhash hprogress hexternal
  · exact absurd ⟨hhash, Or.inl hprogress⟩ hidle
  · exact absurd ⟨hhash, Or.inr hexternal⟩ hidle
  · exact habort _ rfl
  · exact habort m rfl

theorem hash_not_idle {offset size : Int} (hidle : ¬ HashIdle cfg m) :
    (Flash.flashAbortOrInvalidateHash cfg offset size m).calls = m.calls := by
  rw [HashIdle, not_not] at hidle
  rw [Flash.flashAbortOrInvalidateHash, if_pos hidle.1]
  split_ifs with hprogress hexternal
  · rfl
  · rfl
  · exact absurd hidle.2 (not_or.mpr ⟨hprogress, hexternal⟩)

theorem hash_has {offset size : Int} {i : Nat} (h : Has m.rwsigEvents i) :
    Has (Flash.flashAbortOrInvalidateHash cfg offset size m).rwsigEvents i := by
  have habort : ∀ m' : Machine σ, m'.rwsigEvents = m.rwsigEvents →
      Has (Flash.abortJump cfg offset size m').rwsigEvents i := by
    intro m' hevents
    rw [Flash.abortJump]
    split
    · exact has_or.mpr (Or.inl (hevents ▸ h))
    · exact hevents ▸ h
  rw [Flash.flashAbortOrInvalidateHash]
  split_ifs
  · exact h
  · exact h
  · exact habort _ rfl
  · exact habort m rfl

theorem abortsFirst_iff (hrwsig : cfg.taskRwsig) (hc : c.Accepted cfg) (hmeets : c.MeetsRw cfg)
    (m : Machine σ) : AbortsFirst m (c.run cfg P m) ↔ HashIdle cfg m := by
  obtain ⟨later, hlater, hnot⟩ := (onlyFlash_physical cfg P c
    (Flash.flashAbortOrInvalidateHash cfg c.offset c.size m)).calls
  rw [AbortsFirst, run_eq hc, hlater]
  constructor
  · rintro ⟨rest, hrest⟩
    by_contra hidle
    -- the calls are those of the chip
    rw [hash_not_idle hidle, List.append_cancel_left_eq] at hrest
    exact hnot (hrest ▸ List.mem_cons_self)
  · intro hidle
    rw [(hash_idle hidle hrwsig hmeets.overlapsRw).1, List.append_assoc]
    exact ⟨later, rfl⟩

/-! ## No jump to an image that has changed -/

def Pc.Decided : Pc → Prop
  | .woken evt => evt = taskEventTimer ∨ evt = taskEventContinue
  | .jumping => True
  | _ => False

instance : DecidablePred Pc.Decided
  | .woken _ => inferInstanceAs (Decidable (_ ∨ _))
  | .jumping => .isTrue trivial
  | .begin => .isFalse id
  | .checking => .isFalse id
  | .waiting => .isFalse id
  | .jumped => .isFalse id
  | .exit => .isFalse id

/-- Changes of the flash are in accepted ranges, and one of the RW image comes while the hash is idle
and before the task has made its decision. -/
def Orderly (cfg : AccessConfig) (w : World σ) : Label → Prop
  | .call c => c.Begins cfg →
      c.Accepted cfg ∧ (c.MeetsRw cfg → HashIdle cfg w.machine ∧ ¬ w.pc.Decided)
  | _ => True

/-- The RW image has changed since its check began, or it is going to. -/
def World.Spoiled (cfg : AccessConfig) (w : World σ) : Prop :=
  (∃ a, InRw cfg a ∧ w.machine.vboot.flash a ≠ w.verified a) ∨
  ∃ c ∈ w.underWay, c.MeetsRw cfg

/-- The invariant: the task has been asked not to jump to an image that is spoiled. -/
structure Inv (cfg : AccessConfig) (w : World σ) : Prop where
  accepted : ∀ c ∈ w.underWay, c.Accepted cfg
  beginning : w.pc = .begin → (∃ c ∈ w.underWay, c.MeetsRw cfg) → Has w.machine.rwsigEvents 0
  waiting : w.pc = .checking ∨ w.pc = .waiting → w.Spoiled cfg → Has w.machine.rwsigEvents 0
  decided : w.pc.Decided → ¬ w.Spoiled cfg
  jumped : w.pc = .jumped → ∀ a, InRw cfg a → w.machine.vboot.flash a = w.verified a

theorem Inv.boot (m : Machine σ) : Inv cfg (World.boot m) where
  accepted _ hc := absurd hc List.not_mem_nil
  beginning _ := by
    rintro ⟨c, hc, -⟩
    exact absurd hc List.not_mem_nil
  waiting hpc := by simp [World.boot] at hpc
  decided hpc := absurd hpc id
  jumped := nofun

theorem not_decided_of_has {evt : BitVec 32} (h : Has evt 0) :
    ¬ (evt = taskEventTimer ∨ evt = taskEventContinue) := by
  rintro (rfl | rfl)
  · simp [Has] at h
  · simp [Has] at h

/-- What the other code does, apart from new changes: no event is lost, and the image changes only by
what is under way. -/
theorem Inv.others (h : Inv cfg w) (hpc : w.pc ≠ .jumped) {m' : Machine σ} {underWay' : List Change}
    (hsub : ∀ c ∈ underWay', c ∈ w.underWay)
    (hevents : Has w.machine.rwsigEvents 0 → Has m'.rwsigEvents 0)
    (hflash : (∃ a, InRw cfg a ∧ m'.vboot.flash a ≠ w.machine.vboot.flash a) →
      ∃ c ∈ w.underWay, c.MeetsRw cfg) :
    Inv cfg { w with machine := m', underWay := underWay' } := by
  have hmeets : (∃ c ∈ underWay', c.MeetsRw cfg) → ∃ c ∈ w.underWay, c.MeetsRw cfg := by
    rintro ⟨c, hc, hrw⟩
    exact ⟨c, hsub c hc, hrw⟩
  have hspoiled : World.Spoiled cfg { w with machine := m', underWay := underWay' } →
      w.Spoiled cfg := by
    rintro (⟨a, ha, hne⟩ | hc)
    · by_cases hsame : m'.vboot.flash a = w.machine.vboot.flash a
      · exact Or.inl ⟨a, ha, hsame ▸ hne⟩
      · exact Or.inr (hflash ⟨a, ha, hsame⟩)
    · exact Or.inr (hmeets hc)
  exact
    { accepted := fun c hc => h.accepted c (hsub c hc)
      beginning := fun hp hc => hevents (h.beginning hp (hmeets hc))
      waiting := fun hp hs => hevents (h.waiting hp (hspoiled hs))
      decided := fun hp hs => h.decided hp (hspoiled hs)
      jumped := fun hp => absurd hp hpc }

theorem Inv.call (h : Inv cfg w) (hrwsig : cfg.taskRwsig) (hpc : w.pc ≠ .jumped)
    (hc : c.Accepted cfg) (horderly : c.MeetsRw cfg → HashIdle cfg w.machine ∧ ¬ w.pc.Decided) :
    Inv cfg
      { w with
        machine := Flash.flashAbortOrInvalidateHash cfg c.offset c.size w.machine
        underWay := w.underWay ++ [c] } := by
  have hothers : Inv cfg
      { w with machine := Flash.flashAbortOrInvalidateHash cfg c.offset c.size w.machine } :=
    h.others hpc (fun _ => id) hash_has fun ⟨a, _, hne⟩ =>
      absurd (congrFun (Flash.flashAbortOrInvalidateHash_flash c.offset c.size w.machine) a) hne
  -- either the new change does not count, or it comes with an abort
  have hnew : ∀ c', c' ∈ w.underWay ++ [c] → c'.MeetsRw cfg → c' ∈ w.underWay ∨
      c.MeetsRw cfg := by
    intro c' hc' hrw
    rcases List.mem_append.mp hc' with hold | hnew
    · exact Or.inl hold
    · exact Or.inr (List.mem_singleton.mp hnew ▸ hrw)
  have habort : c.MeetsRw cfg →
      Has (Flash.flashAbortOrInvalidateHash cfg c.offset c.size w.machine).rwsigEvents 0 :=
    fun hrw => (hash_idle (horderly hrw).1 hrwsig hrw.overlapsRw).2
  refine ⟨?_, fun hp hs => ?_, fun hp hs => ?_, fun hp hs => ?_, fun hp => absurd hp hpc⟩
  -- in each state of the task, an old change was there before, and the new one has sent the event
  · intro c' hc'
    rcases List.mem_append.mp hc' with hold | hnew
    · exact h.accepted c' hold
    · exact List.mem_singleton.mp hnew ▸ hc
  · obtain ⟨c', hc', hrw⟩ := hs
    rcases hnew c' hc' hrw with hold | hrw
    · exact hothers.beginning hp ⟨c', hold, ‹_›⟩
    · exact habort hrw
  · rcases hs with hmodified | ⟨c', hc', hrw⟩
    · exact hothers.waiting hp (Or.inl hmodified)
    · rcases hnew c' hc' hrw with hold | hrw
      · exact hothers.waiting hp (Or.inr ⟨c', hold, ‹_›⟩)
      · exact habort hrw
  · rcases hs with hmodified | ⟨c', hc', hrw⟩
    · exact hothers.decided hp (Or.inl hmodified)
    · rcases hnew c' hc' hrw with hold | hrw
      · exact hothers.decided hp (Or.inr ⟨c', hold, ‹_›⟩)
      · exact (horderly hrw).2 hp

theorem Inv.physical (h : Inv cfg w) (hP : P.Lawful cfg) (hpc : w.pc ≠ .jumped) {k : Nat}
    (hk : w.underWay[k]? = some c) :
    Inv cfg
      { w with
        machine := (c.physical cfg P w.machine).2
        underWay := w.underWay.eraseIdx k } := by
  have hmem : c ∈ w.underWay := List.mem_of_getElem? hk
  refine h.others hpc (fun c' hc' => List.mem_of_mem_eraseIdx hc') ?_ ?_
  · rw [(onlyFlash_physical cfg P c w.machine).rwsigEvents]
    exact id
  · rintro ⟨a, hrw, hne⟩
    refine ⟨c, hmem, a, ?_, hrw⟩
    by_contra hout
    exact hne (physical_frame hP (h.accepted c hmem) w.machine hout)

/-! ## The hash leaves the flash alone -/

theorem chunk_flash (s : VbootHash.State) (outcome : VbootHash.ChunkOutcome) :
    (s.chunk outcome).flash = s.flash := by
  unfold VbootHash.State.chunk VbootHash.hashNextChunk VbootHash.readAndHashChunk
  dsimp only
  split
  · rfl
  · cases outcome with
    | hashed => rfl
    | busy => rfl
    | readError => exact Flash.vbootHashAbort_flash s
    | error => exact Flash.vbootHashAbort_flash s

theorem allChunks_flash (chunks : Nat → VbootHash.ChunkOutcome) (fuel k : Nat)
    (s : VbootHash.State) : (VbootHash.allChunks chunks fuel k s).flash = s.flash := by
  induction fuel generalizing k s with
  | zero => rfl
  | succ fuel ih =>
    rw [VbootHash.allChunks]
    split
    · rw [ih, chunk_flash]
    · exact chunk_flash s (chunks k)

theorem vbootHashStart_flash (cfg : VbootHash.FlashConfig) (offset size : BitVec 32)
    (nonce : VbootHash.Nonce) (mode : VbootHash.Mode) (s : VbootHash.State) :
    (VbootHash.vbootHashStart cfg offset size nonce mode s).2.flash = s.flash := by
  rw [VbootHash.vbootHashStart]
  cases VbootHash.startCheck cfg offset size s with
  | inval => rfl
  | busy => rfl
  | success =>
    cases mode with
    | deferred =>
      dsimp only
      split <;> rfl
    | blocking chunks =>
      dsimp only [VbootHash.vbootHashAllChunks, VbootHash.State.finish]
      rw [allChunks_flash]
      split <;> rfl

theorem vbootHashNextChunk_flash (outcome : VbootHash.ChunkOutcome) (s : VbootHash.State) :
    (VbootHash.vbootHashNextChunk outcome s).flash = s.flash := by
  have hchunk := chunk_flash s outcome
  rw [VbootHash.vbootHashNextChunk]
  split
  · exact Flash.vbootHashAbort_flash _
  · dsimp only
    split
    · split
      · rw [Flash.vbootHashAbort_flash]
        exact hchunk
      · exact hchunk
    · exact hchunk

theorem hashStep_flash (e : VbootHash.Event) (s : VbootHash.State) :
    (hashStep cfg e s).flash = s.flash := by
  cases e with
  | start offset size nonce mode => exact vbootHashStart_flash _ offset size nonce mode s
  | nextChunk outcome =>
    simp only [hashStep, VbootHash.step]
    split
    · exact vbootHashNextChunk_flash outcome _
    · rfl
  | abort => exact Flash.vbootHashAbort_flash s
  | write offset size contents => rfl
  | erase offset size contents => rfl

/-! ## Every step -/

theorem Inv.task (h : Inv cfg w) (answer : Bool) : Inv cfg (rwsigTask answer w) := by
  -- where the task has left for good, nothing is asked
  have hexit : ∀ status, Inv cfg { w with status := status, pc := .exit } := fun _ =>
    ⟨h.accepted, nofun, fun hp => by simp at hp, fun hp => absurd hp id, nofun⟩
  rw [rwsigTask]
  split
  · rename_i hpc
    split_ifs
    · exact hexit w.status
    · exact hexit _
    · refine ⟨h.accepted, nofun, fun _ hs => ?_, fun hp => absurd hp id, nofun⟩
      -- what is verified is the flash of now; the changes under way have been reported
      rcases hs with ⟨a, _, hne⟩ | hunder
      · exact absurd rfl hne
      · exact h.beginning hpc hunder
  · rename_i hpc
    split
    · exact ⟨h.accepted, nofun, fun _ => h.waiting (Or.inl hpc), fun hp => absurd hp id, nofun⟩
    · exact hexit _
  · rename_i hpc
    split
    · exact h
    · exact ⟨h.accepted, nofun, fun hp => by simp at hp,
        fun hp hs => not_decided_of_has (h.waiting (Or.inr hpc) hs) hp, nofun⟩
  · rename_i evt hpc
    split
    · rename_i hevt
      have hdecided : w.pc.Decided := by
        rw [hpc]
        exact hevt
      exact ⟨h.accepted, nofun, fun hp => by simp at hp, fun _ => h.decided hdecided, nofun⟩
    · exact hexit _
  · rename_i hpc
    have hdecided : w.pc.Decided := by
      rw [hpc]
      trivial
    cases answer with
    | false => exact hexit w.status
    | true =>
      refine ⟨h.accepted, nofun, fun hp => by simp at hp, fun hp => absurd hp id, fun _ a ha => ?_⟩
      by_contra hne
      exact h.decided hdecided (Or.inl ⟨a, ha, hne⟩)
  · exact h
  · exact h

theorem Inv.step (h : Inv cfg w) (hP : P.Lawful cfg) (hrwsig : cfg.taskRwsig) {l : Label}
    (hl : Orderly cfg w l) : Inv cfg (step cfg P w l) := by
  unfold Rwsig.step
  split
  · exact h
  rename_i hpc
  cases l with
  | task answer => exact h.task answer
  | setEvent events =>
    exact h.others hpc (fun _ => id) (fun hevent => has_or.mpr (Or.inl hevent))
      fun ⟨_, _, hne⟩ => absurd rfl hne
  | call c =>
    dsimp only
    split
    · rename_i hbegins
      exact h.call hrwsig hpc (hl hbegins).1 (hl hbegins).2
    · exact h
  | physical k =>
    dsimp only
    split
    · rename_i c hk
      exact h.physical hP hpc hk
    · exact h
  | hash e =>
    exact h.others hpc (fun _ => id) id fun ⟨a, _, hne⟩ =>
      absurd (congrFun (hashStep_flash e w.machine.vboot) a) hne

theorem reach_inv (hP : P.Lawful cfg) (hrwsig : cfg.taskRwsig) (m : Machine σ)
    (hr : Reach (step cfg P) (Orderly cfg) (World.boot m) w) : Inv cfg w :=
  hr.invariant (Inv.boot m) fun _ _ h hl => h.step hP hrwsig hl

/-- A change of the RW image starts with `rwsig_abort` exactly when the hash is idle.  In a run whose
changes of the image all find the hash idle and the task undecided, the task jumps to the image that
it verified. -/
theorem change_aborts_jump (hrwsig : cfg.taskRwsig) :
    (∀ (c : Change) (m : Machine σ), c.Accepted cfg → c.MeetsRw cfg →
      (AbortsFirst m (c.run cfg P m) ↔ HashIdle cfg m)) ∧
    (P.Lawful cfg → ∀ (m : Machine σ) (w : World σ),
      Reach (step cfg P) (Orderly cfg) (World.boot m) w → w.pc = .jumped →
      ∀ a, InRw cfg a → w.machine.vboot.flash a = w.verified a) :=
  ⟨fun _ m hc hmeets => abortsFirst_iff hrwsig hc hmeets m,
    fun hP m _ hr => (reach_inv hP hrwsig m hr).jumped⟩

def demoChange : Change :=
  .write 32 4 fun _ => 1

theorem demoChange_meetsRw : demoChange.MeetsRw Flash.demoConfig :=
  ⟨32, by decide, by decide, by decide⟩

theorem change_aborts_jump_demo :
    AbortsFirst (.demo 0)
      (demoChange.run Flash.demoConfig (.obliging Flash.demoConfig) (.demo 0)) :=
  ((change_aborts_jump (P := .obliging Flash.demoConfig) rfl).1 demoChange (.demo 0) (by decide)
    demoChange_meetsRw).mpr (by decide)

def demoHash : VbootHash.Event :=
  .start 0 8 ⟨[], VbootHash.length_noNonce⟩ .deferred

/-- While the hash is in progress, the task verifies the image, the image is changed, and the task
jumps to it after its timeout. -/
def demoJump : World Unit :=
  [.hash demoHash, .task false, .task true, .call demoChange, .physical 0,
    .setEvent taskEventTimer, .task false, .task false, .task true].foldl
    (step Flash.demoConfig (.obliging Flash.demoConfig)) (.boot (.demo 0))

theorem change_not_aborted :
    (¬ ∀ (c : Change) (m : Machine Unit), c.Accepted Flash.demoConfig →
      c.MeetsRw Flash.demoConfig →
      AbortsFirst m (c.run Flash.demoConfig (.obliging Flash.demoConfig) m)) ∧
    demoJump.pc = .jumped ∧ InRw Flash.demoConfig 32 ∧
      demoJump.machine.vboot.flash 32 ≠ demoJump.verified 32 := by
  refine ⟨fun h => ?_, by decide, by decide, by decide⟩
  have habort := h demoChange
    { Machine.demo 0 with vboot := hashStep Flash.demoConfig demoHash (Machine.demo 0).vboot }
    (by decide) demoChange_meetsRw
  rw [abortsFirst_iff rfl (by decide) demoChange_meetsRw] at habort
  exact habort (by decide)

end ChromiumEc.Rwsig
