import ChromiumEc.EventLog.Interrupted

/-!
# Interleaved — runs with calls inside calls

The invariant of a run: what is published is a lossy FIFO, and what is reserved lies behind it.  The
innermost call is the only one that may still have to discard.  Each kind of step keeps it.
-/

namespace ChromiumEc.EventLog

open Lib

variable {cfg : Config} {start : Nat} {m : Machine cfg} {log : Lossy Event}
  {w : Writer cfg} {ws : List (Writer cfg)}

/-! ## The invariant -/

def headAt (start : Nat) (log : Lossy Event) : Nat :=
  start + total Event.units (log.gone.map Prod.fst)

def tailAt (start : Nat) (log : Lossy Event) : Nat :=
  start + total Event.units log.added

theorem tailAt_eq (start : Nat) (log : Lossy Event) :
    tailAt start log = headAt start log + total Event.units log.queue := by
  rw [tailAt, headAt, Lossy.added, total_append, Nat.add_assoc]

def published (s : State cfg) : State cfg :=
  { s with logTailNext := s.logTail }

theorem dequeue_published (time : Nat) (s : State cfg) :
    (logDequeueEvent time (published s)).1 = (logDequeueEvent time s).1 := by
  by_cases hempty : s.logTail = s.logHead
  · have hempty' : (published s).logTail = (published s).logHead := hempty
    rw [logDequeueEvent, logDequeueEvent, if_pos hempty, if_pos hempty']
  · have hempty' : ¬ (published s).logTail = (published s).logHead := hempty
    rw [logDequeueEvent, logDequeueEvent, if_neg hempty, if_neg hempty']
    rfl

/-- All that is reserved has space, or all but the entry of the innermost call, which then still
discards. -/
def Room (log : Lossy Event) : List (Writer cfg) → Prop
  | [] => True
  | w :: ws =>
    total Event.units log.queue + total Event.units (pending ws) ≤ cfg.unitCount ∧
      (total Event.units log.queue + total Event.units (pending (w :: ws)) ≤ cfg.unitCount ∨
        w.InLoop ∧ w.behind = [])

structure Inv (start : Nat) (m : Machine cfg) (log : Lossy Event) : Prop where
  holds : Holds start (published m.log) log
  next : m.log.logTailNext =
    position cfg (tailAt start log + total Event.units (pending m.writers))
  fits : total Event.units (pending m.writers) ≤ cfg.unitCount
  room : Room log m.writers
  placed : Placed m.log.logEvents (headAt start log) (tailAt start log) log.added.length m.writers
  publishing : ∀ w ∈ m.writers, ∀ tailNext, w.phase = .publish tailNext →
    m.writers = [w] ∧ tailNext = m.log.logTailNext
  reserved : m.reserved = log.added ++ pending m.writers
  finished : ∀ i, i ∈ m.finished ↔ i < m.reserved.length ∧ i ∉ m.writers.map Writer.id

theorem Inv.head (h : Inv start m log) : m.log.logHead = position cfg (headAt start log) :=
  h.holds.head

theorem Inv.tail (h : Inv start m log) : m.log.logTail = position cfg (tailAt start log) :=
  h.holds.tail

theorem Inv.total_lt (h : Inv start m log) :
    total Event.units log.queue + total Event.units (pending m.writers) < 2 * cfg.unitCount := by
  have hroom := h.room
  have hqueue := h.holds.room
  have hpos := cfg.unitCount_pos
  cases hw : m.writers with
  | nil =>
    rw [pending, total_nil]
    omega
  | cons w ws =>
    rw [hw] at hroom
    -- only the entry of the innermost call may be over the ring, and it is shorter than a round
    obtain ⟨hbelow, hall | ⟨-, hbehind⟩⟩ := hroom
    · omega
    · have hlt := cfg.units_lt w.args.event
      rw [total_pending_cons, hbehind, total_nil]
      unfold Writer.units
      omega

theorem Config.two_mul_le (cfg : Config) : 2 * cfg.unitCount ≤ 2 ^ cfg.sizeBits := by
  have hle : 2 ^ (cfg.unitBits + 1) ≤ 2 ^ cfg.sizeBits := Nat.pow_le_pow_right (by decide) cfg.fits
  rw [Nat.pow_succ, Nat.mul_comm] at hle
  exact hle

theorem toNat_position_sub {p k : Nat} (hk : k < 2 * cfg.unitCount) :
    (position cfg (p + k) - position cfg p).toNat = k := by
  have hle := cfg.two_mul_le
  rw [position_sub, BitVec.toNat_ofNat, Nat.mod_eq_of_lt (by omega)]

theorem Inv.toNat_reserved (h : Inv start m log) :
    (m.log.logTailNext - m.log.logHead).toNat =
      total Event.units log.queue + total Event.units (pending m.writers) := by
  rw [h.next, h.head, tailAt_eq, Nat.add_assoc]
  exact toNat_position_sub h.total_lt

theorem Inv.toNat_pending (h : Inv start m log) :
    (m.log.logTailNext - m.log.logTail).toNat = total Event.units (pending m.writers) := by
  have hlt := h.total_lt
  rw [h.next, h.tail]
  exact toNat_position_sub (by omega)

theorem position_inj {p k : Nat} (hk : k < 2 * cfg.unitCount)
    (h : position cfg (p + k) = position cfg p) : k = 0 := by
  have hsub := @toNat_position_sub cfg p k hk
  rw [h, BitVec.sub_self] at hsub
  exact hsub.symm

theorem Inv.head_eq_tail (h : Inv start m log) :
    m.log.logHead = m.log.logTail ↔ log.queue = [] := by
  have hroom := h.holds.room
  have hpos := cfg.unitCount_pos
  rw [h.head, h.tail, tailAt_eq]
  constructor
  · intro heq
    have hzero := position_inj (by omega) heq.symm
    have hlen := length_le_total log.queue
    exact List.length_eq_zero_iff.mp (by omega)
  · intro hnil
    rw [hnil, total_nil, Nat.add_zero]

/-! ## What does not concern the pending entries -/

theorem Inv.pop {x : Event} {l : List Event} {fate : Fate Event} (h : Inv start m log)
    (hqueue : log.queue = x :: l) :
    Inv start { m with log := { m.log with logHead := position cfg (headAt start log + x.units) } }
      ⟨log.gone ++ [(x, fate)], l⟩ := by
  have hadded : (⟨log.gone ++ [(x, fate)], l⟩ : Lossy Event).added = log.added := by
    rw [Lossy.added, Lossy.added, hqueue, List.map_append, List.append_assoc]
    rfl
  have hhead : headAt start ⟨log.gone ++ [(x, fate)], l⟩ = headAt start log + x.units := by
    rw [headAt, headAt, List.map_append, total_append, ← Nat.add_assoc]
    rfl
  have htail : tailAt start ⟨log.gone ++ [(x, fate)], l⟩ = tailAt start log := by
    rw [tailAt, tailAt, hadded]
  have hunits : total Event.units log.queue = x.units + total Event.units l := by
    rw [hqueue, total_cons]
  have hroom := h.holds.room
  have hstored := h.holds.stored
  rw [hqueue] at hstored
  -- what was added stays the same, so the tail and the pending entries keep their positions
  refine ⟨⟨?_, ?_, rfl, ?_, ?_⟩, ?_, h.fits, ?_, ?_, h.publishing, ?_, h.finished⟩
  · exact congrArg (position cfg) hhead.symm
  · exact h.tail.trans (congrArg (position cfg) htail.symm)
  · dsimp only
    omega
  · have hnext := hstored.2
    rw [show start + total Event.units (log.gone.map Prod.fst) + x.units =
      headAt start ⟨log.gone ++ [(x, fate)], l⟩ from hhead.symm] at hnext
    exact hnext
  · rw [htail]
    exact h.next
  · have hold := h.room
    dsimp only
    cases hw : m.writers with
    | nil => trivial
    | cons w ws =>
      rw [hw] at hold
      obtain ⟨hbelow, hall | hloop⟩ := hold
      · exact ⟨by dsimp only; omega, .inl (by dsimp only; omega)⟩
      · exact ⟨by dsimp only; omega, .inr hloop⟩
  · rw [hhead, htail, hadded]
    exact h.placed.congr (Nat.le_add_right _ _) fun _ _ _ => rfl
  · rw [hadded]
    exact h.reserved

theorem Inv.dequeue (h : Inv start m log) (time : Nat) :
    Answers (time, log.queue.head?) (logDequeueEvent time m.log).1 ∧
      Inv start (m.next (.dequeue time)) log.take := by
  have hanswer := (h.holds.logDequeueEvent time).1
  refine ⟨by rw [← dequeue_published]; exact hanswer, ?_⟩
  cases hqueue : log.queue with
  | nil =>
    have hempty : m.log.logTail = m.log.logHead := (h.head_eq_tail.mpr hqueue).symm
    have hstay : m.next (.dequeue time) = m := by
      show { m with log := (logDequeueEvent time m.log).2 } = m
      rw [EventLog.logDequeueEvent, if_pos hempty]
    rw [hstay, Lossy.take, hqueue]
    exact h
  | cons x l =>
    have hne : m.log.logTail ≠ m.log.logHead := by
      intro heq
      have hnil := h.head_eq_tail.mp heq.symm
      rw [hqueue] at hnil
      cases hnil
    have hstored := h.holds.stored
    rw [hqueue] at hstored
    -- the size that moves the head is read from the entry itself
    have hsize : m.log.sizeAt m.log.logHead = x.size := by
      rw [h.head]
      exact sizeAt_position hstored.1
    have hmove : m.next (.dequeue time) = { m with log := { m.log with
        logHead := position cfg (headAt start log + x.units) } } := by
      show { m with log := (logDequeueEvent time m.log).2 } = _
      rw [EventLog.logDequeueEvent, if_neg hne]
      dsimp only
      rw [hsize, h.head, position_add]
      rfl
    rw [hmove, Lossy.take, hqueue]
    exact h.pop hqueue

theorem Inv.call (h : Inv start m log) {a : Args} (hfits : m.CallFits a) :
    Inv start (m.call a) log := by
  obtain ⟨hspace, hring, hpublishing⟩ := hfits
  rw [h.toNat_reserved] at hspace
  rw [h.toNat_pending] at hring
  have hpend : pending (m.call a).writers = pending m.writers ++ [a.event] := rfl
  have htotal : total Event.units (pending (m.call a).writers) =
      total Event.units (pending m.writers) + a.event.units := by
    rw [hpend, total_append, total_cons, total_nil, Nat.add_zero]
  have hlen : m.reserved.length = log.added.length + (pending m.writers).length := by
    rw [h.reserved, List.length_append]
  refine ⟨⟨h.holds.head, h.holds.tail, rfl, h.holds.room, h.holds.stored⟩, ?_, ?_, ?_, ?_, ?_, ?_,
    ?_⟩
  · rw [htotal, ← Nat.add_assoc, ← position_add, ← h.next]
    rfl
  · rw [htotal]
    exact hring
  -- its own units may be too many: it is in front of its loop
  · exact ⟨hspace, .inr ⟨.inl rfl, rfl⟩⟩
  · exact ⟨⟨hlen, h.next, trivial, trivial⟩, fun hcommit =>
      absurd hcommit (Writer.not_committing rfl ⟨nofun, nofun⟩), h.placed⟩
  · intro w hw tailNext hphase
    rcases List.mem_cons.mp hw with rfl | hmem
    · cases hphase
    · obtain ⟨honly, -⟩ := h.publishing w hmem tailNext hphase
      have hnot := hpublishing w (by rw [honly]; rfl)
      rw [Writer.publishing, hphase] at hnot
      cases hnot
  · show m.reserved ++ [a.event] = _
    rw [hpend, h.reserved, List.append_assoc]
  · intro i
    have hids : i ∈ (m.call a).writers.map Writer.id ↔
        i = m.reserved.length ∨ i ∈ m.writers.map Writer.id := List.mem_cons
    have hcount : (m.call a).reserved.length = m.reserved.length + 1 := List.length_append
    rw [hids, hcount, not_or]
    show i ∈ m.finished ↔ _
    rw [h.finished i]
    constructor
    · rintro ⟨hlt, hnone⟩
      exact ⟨by omega, by omega, hnone⟩
    · rintro ⟨hlt, hne, hnone⟩
      exact ⟨by omega, hnone⟩

/-! ## Steps of the innermost call -/

theorem Inv.innermost (h : Inv start m log) (hw : m.writers = w :: ws) :
    w.At m.log.logEvents (headAt start log) (tailAt start log + total Event.units (pending ws))
        (log.added.length + (pending ws).length) ∧
      (w.Committing → ws = []) ∧
      Placed m.log.logEvents (headAt start log) (tailAt start log) log.added.length ws := by
  have hplaced := h.placed
  rw [hw] at hplaced
  exact hplaced

/-- The innermost call goes to another point.  What it stores is neither published nor an entry of
another call. -/
theorem Inv.gotoStored {phase : Phase cfg} {mem : Nat → UInt8} (h : Inv start m log)
    (hw : m.writers = w :: ws)
    (hsame : SameOn cfg.unitCount m.log.logEvents mem (headAt start log)
      (tailAt start log + total Event.units (pending ws)))
    (hbehind : Stored cfg.unitCount mem
      (tailAt start log + total Event.units (pending ws) + w.units) w.behind)
    (hroom : total Event.units log.queue + total Event.units (pending (w :: ws)) ≤ cfg.unitCount ∨
      ({ w with phase := phase } : Writer cfg).InLoop ∧ w.behind = [])
    (hphase : ({ w with phase := phase } : Writer cfg).PhaseAt mem (headAt start log)
      (tailAt start log + total Event.units (pending ws)))
    (hcommit : ({ w with phase := phase } : Writer cfg).Committing → ws = [])
    (hpublish : ∀ tailNext, phase = .publish tailNext → tailNext = m.log.logTailNext) :
    Inv start { m.goto w ws phase with log := { m.log with logEvents := mem } } log := by
  obtain ⟨hat, -, hrest⟩ := h.innermost hw
  have hpend : pending (m.goto w ws phase).writers = pending m.writers := by
    rw [hw]
    rfl
  have hids : (m.goto w ws phase).writers.map Writer.id = m.writers.map Writer.id := by
    rw [hw]
    rfl
  have hroom' := h.room
  rw [hw] at hroom'
  have htail := tailAt_eq start log
  -- what is published lies in front of all pending entries, where `mem` is the same
  have hstored : Stored cfg.unitCount mem (headAt start log) log.queue :=
    h.holds.stored.congr (hsame.mono (Nat.le_refl _) (by
      show headAt start log + total Event.units log.queue ≤ _
      omega))
  have hothers : Placed mem (headAt start log) (tailAt start log) log.added.length ws :=
    hrest.congr (Nat.le_refl _) (hsame.mono (by omega) (Nat.le_refl _))
  refine ⟨⟨h.holds.head, h.holds.tail, rfl, h.holds.room, hstored⟩, ?_, ?_, ⟨hroom'.1, hroom⟩,
    ⟨⟨hat.id, hat.tail, hbehind, hphase⟩, hcommit, hothers⟩, ?_, ?_, ?_⟩
  · exact h.next.trans (congrArg (fun l => position cfg (_ + total Event.units l)) hpend.symm)
  · exact (congrArg (total Event.units) hpend).trans_le h.fits
  · intro v hv tailNext hvphase
    rcases List.mem_cons.mp hv with rfl | hmem
    -- a call that publishes is the outermost one, and the only one
    · have hnil : ws = [] := hcommit (.inr ⟨tailNext, hvphase⟩)
      refine ⟨?_, hpublish tailNext hvphase⟩
      rw [Machine.goto, hnil]
    · -- no other call is about to publish
      obtain ⟨honly, -⟩ := h.publishing v (by rw [hw]; exact List.mem_cons_of_mem _ hmem) tailNext
        hvphase
      rw [hw] at honly
      rw [(List.cons.inj honly).2] at hmem
      cases hmem
  · exact h.reserved.trans (congrArg (log.added ++ ·) hpend.symm)
  · intro i
    rw [hids]
    exact h.finished i

theorem Inv.goto {phase : Phase cfg} (h : Inv start m log) (hw : m.writers = w :: ws)
    (hroom : total Event.units log.queue + total Event.units (pending (w :: ws)) ≤ cfg.unitCount ∨
      ({ w with phase := phase } : Writer cfg).InLoop ∧ w.behind = [])
    (hphase : ({ w with phase := phase } : Writer cfg).PhaseAt m.log.logEvents (headAt start log)
      (tailAt start log + total Event.units (pending ws)))
    (hcommit : ({ w with phase := phase } : Writer cfg).Committing → ws = [])
    (hpublish : ∀ tailNext, phase = .publish tailNext → tailNext = m.log.logTailNext) :
    Inv start (m.goto w ws phase) log :=
  h.gotoStored hw (fun _ _ _ => rfl) (h.innermost hw).1.behind hroom hphase hcommit hpublish

theorem Inv.all_room (h : Inv start m log) (hw : m.writers = w :: ws) (hloop : ¬ w.InLoop) :
    total Event.units log.queue + total Event.units (pending (w :: ws)) ≤ cfg.unitCount := by
  have hroom := h.room
  rw [hw] at hroom
  rcases hroom.2 with hall | ⟨hin, -⟩
  · exact hall
  · exact absurd hin hloop

theorem Inv.space (h : Inv start m log) (hw : m.writers = w :: ws) (hphase : w.phase = .space) :
    Inv start (m.goOn w ws) log := by
  obtain ⟨hat, -, -⟩ := h.innermost hw
  have hroom := h.room
  rw [hw] at hroom
  obtain ⟨hbelow, hall⟩ := hroom
  have hunits := total_pending_cons w ws
  -- `log_tail_next` has no part in the test: what is counted ends in front of the own entry
  have hfree : (BitVec.ofNat _ cfg.unitCount - (w.currentTail - m.log.logHead)).toNat =
      cfg.unitCount - (total Event.units log.queue + total Event.units (pending ws)) := by
    rw [hat.tail, h.head, tailAt_eq, Nat.add_assoc, position_sub]
    exact toNat_free hbelow
  unfold Machine.goOn
  rw [hphase]
  dsimp only
  rw [hfree]
  split
  -- a call with entries behind it has its space, so here there are none
  · rename_i hfull
    have hloop : w.behind = [] := by
      rcases hall with hall | ⟨-, hbehind⟩
      · omega
      · exact hbehind
    refine h.goto hw (.inr ⟨.inr ⟨_, rfl⟩, hloop⟩) ⟨headAt start log, h.head, Nat.le_refl _, ?_, ?_⟩
      (fun hcommit => absurd hcommit (Writer.not_committing rfl ⟨nofun, nofun⟩)) nofun
    · rw [tailAt_eq]
      show headAt start log + cfg.unitCount < _ + w.units
      omega
    · rw [tailAt_eq]
      omega
  · rename_i hspace
    refine h.goto hw (.inl ?_) ?_
      (fun hcommit => absurd hcommit (Writer.not_committing rfl ⟨nofun, nofun⟩)) nofun
    · rcases hall with hall | ⟨-, hbehind⟩
      · exact hall
      · rw [hunits, hbehind, total_nil]
        omega
    · rw [hat.tail, index_position]
      exact Writing.start _ _ _

theorem Inv.exists_oldest {tested : BitVec cfg.sizeBits} (h : Inv start m log)
    (hw : m.writers = w :: ws) (hphase : w.phase = .reclaim tested) (hfits : m.StepFits w) :
    ∃ x l, log.queue = x :: l := by
  obtain ⟨hat, -, -⟩ := h.innermost hw
  have hknown := hat.phase
  unfold Machine.StepFits at hfits
  unfold Writer.PhaseAt at hknown
  rw [hphase] at hfits hknown
  obtain ⟨k, hk, hle, hfull, hroom⟩ := hknown
  have hring := h.fits
  have hqueue := h.holds.room
  have htail := tailAt_eq start log
  rw [hw, total_pending_cons] at hring
  refine List.exists_cons_of_ne_nil ?_
  intro hnil
  rcases hfits with hsame | hne
  · -- the head has not moved since the test
    rw [hnil, total_nil] at htail
    rw [hk, h.head] at hsame
    obtain ⟨d, hd⟩ := Nat.exists_eq_add_of_le hle
    rw [hd] at hsame
    have hzero := position_inj (by omega) hsame
    omega
  · exact hne (h.head_eq_tail.mpr hnil)

theorem Inv.reclaim {tested : BitVec cfg.sizeBits} {x : Event} {l : List Event}
    (h : Inv start m log) (hw : m.writers = w :: ws) (hphase : w.phase = .reclaim tested)
    (hqueue : log.queue = x :: l) :
    Inv start (m.goOn w ws) ⟨log.gone ++ [(x, .discarded w.args.event l)], l⟩ := by
  obtain ⟨hat, -, hrest⟩ := h.innermost hw
  have hstored := h.holds.stored
  rw [hqueue] at hstored
  have hsize : m.log.sizeAt m.log.logHead = x.size := by
    rw [h.head]
    exact sizeAt_position hstored.1
  have hroom := h.room
  rw [hw] at hroom
  -- first back to the test, and then the head moves
  have hspace : Inv start (m.goto w ws .space) log := by
    refine h.goto hw ?_ trivial
      (fun hcommit => absurd hcommit (Writer.not_committing rfl ⟨nofun, nofun⟩)) nofun
    rcases hroom.2 with hall | ⟨-, hbehind⟩
    · exact .inl hall
    · exact .inr ⟨.inl rfl, hbehind⟩
  have hmove : m.goOn w ws = { m.goto w ws .space with log := { (m.goto w ws .space).log with
      logHead := position cfg (headAt start log + x.units) } } := by
    unfold Machine.goOn
    rw [hphase]
    dsimp only
    rw [hsize, h.head, position_add]
    rfl
  rw [hmove]
  exact hspace.pop hqueue

theorem Inv.write {q : Nat × UInt8} {stores : List (Nat × UInt8)} (h : Inv start m log)
    (hw : m.writers = w :: ws) (hphase : w.phase = .write (q :: stores)) (hfits : m.StepFits w) :
    Inv start (m.goOn w ws) log := by
  obtain ⟨hat, -, hrest⟩ := h.innermost hw
  have hall := h.all_room hw (Writer.not_inLoop hphase (Phase.write_not_space _))
  have hring := h.fits
  have hunits := total_pending_cons w ws
  have hhead := tailAt_eq start log
  have hknown := hat.writing hphase
  obtain ⟨p, hp⟩ : ∃ p, tailAt start log + total Event.units (pending ws) = p := ⟨_, rfl⟩
  rw [hp] at hat hknown
  rw [hw] at hring
  obtain ⟨j, hq, hlow, hhigh⟩ := hknown.place (cfg.units_lt w.args.event)
  have hwunits : w.args.event.units = w.units := rfl
  rw [hwunits] at hhigh
  -- a byte behind the entry is in the free unit behind everything
  have hbehind : ¬ j < unitSize * (p + w.units) → w.behind = [] ∧
      j < unitSize * (p + w.units + 1) ∧ total Event.units log.queue +
        total Event.units (pending (w :: ws)) < cfg.unitCount := by
    intro hout
    obtain ⟨hwrap, hj⟩ := hhigh.resolve_left hout
    have hfree : cfg.unitCount < index w.currentTail + w.units ∧ stores.length < unitSize →
        m.log.logTailNext = w.currentTail + BitVec.ofNat _ w.units ∧
          (m.log.logTailNext - m.log.logHead).toNat < cfg.unitCount := by
      unfold Machine.StepFits at hfits
      rw [hphase] at hfits
      exact hfits
    rw [hat.tail, index_position] at hfree
    obtain ⟨hlast, hspace⟩ := hfree hwrap
    rw [h.toNat_reserved, hw] at hspace
    rw [position_add, h.next, hw, hunits, ← Nat.add_assoc, hp, ← Nat.add_assoc] at hlast
    have hzero := position_inj (by omega) hlast
    have hlen := length_le_total w.behind
    exact ⟨List.length_eq_zero_iff.mp (by omega), hj, hspace⟩
  have hsame : SameOn cfg.unitCount m.log.logEvents (Function.update m.log.logEvents q.1 q.2)
      (headAt start log) p := by
    refine sameOn_update hq (.inr hlow) (by omega) ?_
    by_cases hin : j < unitSize * (p + w.units)
    · simp only [unitSize] at *
      omega
    · obtain ⟨hnil, hj, hspace⟩ := hbehind hin
      rw [hnil, total_nil] at hunits
      simp only [unitSize] at *
      omega
  -- the entries behind keep their bytes; if the byte goes behind the entry, there are none
  have hsameBehind : SameOn cfg.unitCount m.log.logEvents
      (Function.update m.log.logEvents q.1 q.2) (p + w.units)
      (p + w.units + total Event.units w.behind) := by
    by_cases hin : j < unitSize * (p + w.units)
    · refine sameOn_update hq (.inl hin) ?_ ?_
      · simp only [unitSize] at *
        omega
      · omega
    · rw [(hbehind hin).1, total_nil]
      intro i hi hlt
      exact absurd hlt (Nat.not_lt.mpr hi)
  have hmove : m.goOn w ws = { m.goto w ws (.write stores) with
      log := { m.log with logEvents := Function.update m.log.logEvents q.1 q.2 } } := by
    unfold Machine.goOn
    rw [hphase]
  rw [hmove]
  rw [← hp] at hsame hsameBehind hknown
  exact h.gotoStored hw hsame ((h.innermost hw).1.behind.congr hsameBehind) (.inl hall) hknown.store
    (fun hcommit => absurd hcommit (Writer.not_committing rfl (Phase.write_not_load _)))
    (fun _ hpublish => absurd hpublish ((Phase.write_not_load _).2 _))

theorem Inv.stored_own (h : Inv start m log) (hw : m.writers = w :: ws)
    (hlies : LiesAt cfg.unitCount m.log.logEvents
      (tailAt start log + total Event.units (pending ws)) w.args.event) :
    Stored cfg.unitCount m.log.logEvents (tailAt start log + total Event.units (pending ws))
      (w.args.event :: w.behind) :=
  ⟨hlies, (h.innermost hw).1.behind⟩

theorem finished_concat {finished ids : List Nat} {id count : Nat}
    (h : ∀ i, i ∈ finished ↔ i < count ∧ i ∉ id :: ids) (hlt : id < count) (hnot : id ∉ ids)
    (i : Nat) : i ∈ finished ++ [id] ↔ i < count ∧ i ∉ ids := by
  have hold := h i
  rw [List.mem_cons, not_or] at hold
  rw [List.mem_append, List.mem_singleton, hold]
  constructor
  · rintro (⟨hlt, -, hnot⟩ | rfl)
    · exact ⟨hlt, hnot⟩
    · exact ⟨hlt, hnot⟩
  · rintro ⟨hlt, hnot⟩
    by_cases heq : i = id
    · exact .inr heq
    · exact .inl ⟨hlt, heq, hnot⟩

theorem Inv.leave (h : Inv start m log) (hw : m.writers = w :: ws) (hphase : w.phase = .write [])
    (hbehind : w.currentTail ≠ m.log.logTail) :
    Inv start { m with writers := leaveBehind w ws, finished := m.finished ++ [w.id] } log := by
  obtain ⟨hat, -, hrest⟩ := h.innermost hw
  -- the outermost call finds its own position at the tail
  have hne : ws ≠ [] := by
    rintro rfl
    refine hbehind ?_
    rw [hat.tail, h.tail, pending, total_nil, Nat.add_zero]
  have hknown := hat.writing hphase
  have hown := h.stored_own hw (hknown.liesAt (cfg.units_lt w.args.event))
  have hall := h.all_room hw (Writer.not_inLoop hphase (Phase.write_not_space _))
  have hpend : pending (leaveBehind w ws) = pending m.writers := by
    rw [hw]
    exact pending_leaveBehind w hne
  have hid := hat.id
  have hlen : m.reserved.length = log.added.length + (pending (w :: ws)).length := by
    rw [h.reserved, List.length_append, hw]
  rw [pending, List.length_append, List.length_cons] at hlen
  have hidnot : w.id ∉ ws.map Writer.id := by
    intro hmem
    have hlt := (hrest.id_lt hmem).2
    omega
  refine ⟨h.holds, ?_, ?_, ?_, ?_, ?_, ?_, ?_⟩
  · exact h.next.trans (congrArg (fun l => position cfg (_ + total Event.units l)) hpend.symm)
  · exact (congrArg (total Event.units) hpend).trans_le h.fits
  -- with all of the innermost entry in place, the outer call has its space, too
  · obtain ⟨outer, ws, rfl⟩ := List.exists_cons_of_ne_nil hne
    have hsum := congrArg (total Event.units) (pending_leaveBehind w hne)
    have hless := total_pending_cons w (outer :: ws)
    have hless' := total_pending_cons outer ws
    refine ⟨by omega, .inl ?_⟩
    show _ + total Event.units (pending (leaveBehind w (outer :: ws))) ≤ _
    omega
  · obtain ⟨outer, ws, rfl⟩ := List.exists_cons_of_ne_nil hne
    obtain ⟨hatOuter, hcommit, hrest⟩ := hrest
    refine ⟨⟨hatOuter.id, hatOuter.tail, ?_, hatOuter.phase⟩, hcommit, hrest⟩
    refine stored_append.mpr ⟨hatOuter.behind, ?_⟩
    rw [total_pending_cons, ← Nat.add_assoc, ← Nat.add_assoc] at hown
    exact hown
  · intro v hv tailNext hvphase
    obtain ⟨outer, ws, rfl⟩ := List.exists_cons_of_ne_nil hne
    have hpublishing : ∀ u ∈ outer :: ws, u.phase ≠ .publish tailNext := by
      intro u hu hphase
      obtain ⟨honly, -⟩ := h.publishing u (by rw [hw]; exact List.mem_cons_of_mem _ hu) tailNext
        hphase
      rw [hw] at honly
      cases (List.cons.inj honly).2
    rcases List.mem_cons.mp hv with rfl | hmem
    · exact absurd hvphase (hpublishing outer List.mem_cons_self)
    · exact absurd hvphase (hpublishing v (List.mem_cons_of_mem _ hmem))
  · exact h.reserved.trans (congrArg (log.added ++ ·) hpend.symm)
  · intro i
    have hids : (leaveBehind w ws).map Writer.id = ws.map Writer.id := by
      cases ws with
      | nil => rfl
      | cons outer ws => rfl
    have hold := h.finished
    rw [hw] at hold
    rw [hids]
    exact finished_concat hold (by omega) hidnot i

theorem Inv.publish {tailNext : BitVec cfg.sizeBits} (h : Inv start m log)
    (hw : m.writers = w :: ws) (hphase : w.phase = .publish tailNext) :
    (m.goOn w ws).writers = [] ∧
      Inv start (m.goOn w ws) ⟨log.gone, log.queue ++ pending m.writers⟩ := by
  obtain ⟨honly, hnext⟩ := h.publishing w (by rw [hw]; exact List.mem_cons_self) tailNext hphase
  have hnil : ws = [] := by
    rw [hw] at honly
    exact (List.cons.inj honly).2
  subst hnil
  obtain ⟨hat, -, -⟩ := h.innermost hw
  have hown := h.stored_own hw (hat.liesAt (.inr ⟨tailNext, hphase⟩))
  have hall := h.all_room hw (Writer.not_inLoop hphase ⟨nofun, nofun⟩)
  have hpend : pending m.writers = w.args.event :: w.behind := by
    rw [hw]
    rfl
  -- what was pending is published in its order, behind what was published before
  have hadded : (⟨log.gone, log.queue ++ pending m.writers⟩ : Lossy Event).added =
      log.added ++ pending m.writers := (List.append_assoc _ _ _).symm
  have htail : tailAt start ⟨log.gone, log.queue ++ pending m.writers⟩ =
      tailAt start log + total Event.units (pending m.writers) := by
    rw [tailAt, tailAt, hadded, total_append, Nat.add_assoc]
  have hmove : m.goOn w [] =
      ⟨{ m.log with logTail := tailNext }, [], m.reserved, m.finished ++ [w.id]⟩ := by
    unfold Machine.goOn
    rw [hphase]
  have hid := hat.id
  have hlen : m.reserved.length = log.added.length + (pending m.writers).length := by
    rw [h.reserved, List.length_append]
  rw [hpend, List.length_cons] at hlen
  rw [hmove]
  refine ⟨rfl, ⟨⟨h.head, ?_, rfl, ?_, ?_⟩, ?_, Nat.zero_le _, trivial, trivial, nofun, ?_, ?_⟩⟩
  · show tailNext = _
    rw [hnext, h.next]
    exact congrArg (position cfg) htail.symm
  · rw [total_append, hpend]
    exact hall
  · refine stored_append.mpr ⟨h.holds.stored, ?_⟩
    rw [hpend]
    rw [pending, total_nil, Nat.add_zero, tailAt_eq] at hown
    exact hown
  · rw [htail]
    exact h.next
  · rw [hadded, pending, List.append_nil]
    exact h.reserved
  · intro i
    have hold := h.finished
    rw [hw] at hold
    refine finished_concat hold ?_ List.not_mem_nil i
    rw [hid, hlen]
    exact Nat.add_lt_add_left (Nat.succ_pos _) _

theorem Inv.compare (h : Inv start m log) (hw : m.writers = w :: ws)
    (hphase : w.phase = .write []) : Inv start (m.goOn w ws) log := by
  obtain ⟨hat, -, -⟩ := h.innermost hw
  have hknown := hat.writing hphase
  have hall := h.all_room hw (Writer.not_inLoop hphase (Phase.write_not_space _))
  unfold Machine.goOn
  rw [hphase]
  dsimp only
  by_cases hfirst : w.currentTail = m.log.logTail
  -- an outer call would have its entry between the tail and this one
  · have hnil : ws = [] := by
      have hring := h.fits
      have hpos := cfg.unitCount_pos
      have hless := total_pending_cons w ws
      rw [hat.tail, h.tail] at hfirst
      rw [hw] at hring
      have hzero := position_inj (by omega) hfirst
      have hlen := length_le_total (pending ws)
      have hnone : (pending ws).length = 0 := by omega
      cases ws with
      | nil => rfl
      | cons outer ws =>
        rw [pending, List.length_append, List.length_cons] at hnone
        omega
    rw [if_pos hfirst]
    exact h.goto hw (.inl hall) (hknown.liesAt (cfg.units_lt w.args.event)) (fun _ => hnil)
      (by rintro _ ⟨⟩)
  · rw [if_neg hfirst]
    exact h.leave hw hphase hfirst

theorem Inv.load (h : Inv start m log) (hw : m.writers = w :: ws) (hphase : w.phase = .load) :
    Inv start (m.goOn w ws) log := by
  obtain ⟨hat, hcommit, -⟩ := h.innermost hw
  have hall := h.all_room hw (Writer.not_inLoop hphase ⟨nofun, nofun⟩)
  unfold Machine.goOn
  rw [hphase]
  refine h.goto hw (.inl hall) (hat.liesAt (.inl hphase)) (fun _ => hcommit (.inl hphase)) ?_
  intro tailNext heq
  cases heq
  rfl

/-! ## Runs -/

theorem Inv.goOn (h : Inv start m log) (hw : m.writers = w :: ws) (hfits : m.StepFits w) :
    ∃ log', Moves m .goOn log log' ∧ Inv start (m.goOn w ws) log' := by
  cases hphase : w.phase with
  | space => exact ⟨log, .stay _ _ nofun, h.space hw hphase⟩
  | reclaim tested =>
    obtain ⟨x, l, hqueue⟩ := h.exists_oldest hw hphase hfits
    refine ⟨_, ?_, h.reclaim hw hphase hqueue⟩
    have hlog : log = ⟨log.gone, x :: l⟩ := by rw [← hqueue]
    rw [hlog]
    exact .discard _ x log.gone l
  | write stores =>
    cases stores with
    | nil => exact ⟨log, .stay _ _ nofun, h.compare hw hphase⟩
    | cons q stores => exact ⟨log, .stay _ _ nofun, h.write hw hphase hfits⟩
  | load => exact ⟨log, .stay _ _ nofun, h.load hw hphase⟩
  | publish tailNext =>
    obtain ⟨hnone, hinv⟩ := h.publish hw hphase
    refine ⟨_, .publish log.gone log.queue ?_, hinv⟩
    show (match m.writers with
      | [] => m
      | w :: ws => m.goOn w ws).writers = []
    rw [hw]
    exact hnone

theorem Inv.step (h : Inv start m log) {e : Next} (hfits : m.Fits e) :
    ∃ log', Moves m e log log' ∧ Inv start (m.next e) log' := by
  cases e with
  | call a => exact ⟨log, .stay _ _ nofun, h.call hfits⟩
  | dequeue time => exact ⟨log.take, .take time log, (h.dequeue time).2⟩
  | goOn =>
    cases hw : m.writers with
    | nil =>
      have hstay : m.next .goOn = m := by
        show (match m.writers with
          | [] => m
          | w :: ws => m.goOn w ws) = m
        rw [hw]
      rw [hstay]
      exact ⟨log, .stay _ _ nofun, h⟩
    | cons w ws =>
      obtain ⟨log', hmoves, hinv⟩ := h.goOn hw (hfits w (by rw [hw]; rfl))
      refine ⟨log', hmoves, ?_⟩
      show Inv start (match m.writers with
        | [] => m
        | w :: ws => m.goOn w ws) log'
      rw [hw]
      exact hinv

theorem Inv.law (h : Inv start m log) : Law start m log where
  reserved := h.reserved
  finished := h.finished
  published := by
    intro i hi
    refine (h.finished i).mpr ⟨?_, ?_⟩
    · rw [h.reserved, List.length_append]
      omega
    -- the numbers of the calls under way begin behind those of the published entries
    · intro hmem
      have hid := (h.placed.id_lt hmem).1
      omega
  returned := by
    intro hw
    rw [h.reserved, hw, pending, List.append_nil]
  head := h.head
  tail := h.tail
  dequeue := fun time => (h.dequeue time).1

theorem inv_start {s : State cfg} (hhead : s.logHead = s.logTail)
    (hnext : s.logTailNext = s.logTail) : Inv s.logTail.toNat (Machine.start s) .empty := by
  have hempty := holds_empty (s := published s) hhead rfl
  refine ⟨hempty, ?_, Nat.zero_le _, trivial, trivial, nofun, rfl, ?_⟩
  · show s.logTailNext = _
    rw [hnext]
    exact hempty.tail
  · intro i
    exact ⟨nofun, fun hi => absurd hi.1 (Nat.not_lt_zero i)⟩

/-- In every run from an empty log whose steps all fit, every entry that was reserved is gone,
published or pending, in order, and each step moves whole entries that are finished: a dequeue takes
the oldest one that is published, and so does a call that needs its space. -/
theorem nested_law (s : State cfg) (hhead : s.logHead = s.logTail)
    (hnext : s.logTailNext = s.logTail) {m : Machine cfg}
    (h : Reach Machine.next Machine.Fits (Machine.start s) m) :
    ∃ log, Law s.logTail.toNat m log ∧
      ∀ e, m.Fits e → ∃ log', Moves m e log log' ∧ Law s.logTail.toNat (m.next e) log' := by
  have hinv : ∃ log, Inv s.logTail.toNat m log := by
    refine h.invariant (I := fun m => ∃ log, Inv s.logTail.toNat m log)
      ⟨_, inv_start hhead hnext⟩ ?_
    rintro m e ⟨log, hm⟩ hfits
    obtain ⟨log', -, hm'⟩ := hm.step hfits
    exact ⟨log', hm'⟩
  obtain ⟨log, hm⟩ := hinv
  refine ⟨log, hm.law, ?_⟩
  intro e hfits
  obtain ⟨log', hmoves, hm'⟩ := hm.step hfits
  exact ⟨log', hmoves, hm'.law⟩

/-! ## Calls inside calls -/

def demoArgs (type : UInt8) : Args :=
  ⟨type, 0, 0, fun _ => 0, 0⟩

def nestedEvents : List Next :=
  .call (demoArgs 1) :: List.replicate 4 .goOn ++ .call (demoArgs 2) :: List.replicate 10 .goOn ++
    List.replicate 8 .goOn

theorem nested_law_demo :
    ∃ log, Law 0 (nestedEvents.foldl Machine.next (Machine.start demoState)) log ∧
      ∀ e, (nestedEvents.foldl Machine.next (Machine.start demoState)).Fits e →
        ∃ log', Moves (nestedEvents.foldl Machine.next (Machine.start demoState)) e log log' ∧
          Law 0 ((nestedEvents.foldl Machine.next (Machine.start demoState)).next e) log' :=
  nested_law demoState rfl rfl (Reach.allowed (by decide +kernel) .start)

/-- A call runs when the one around it has read `log_tail_next`. -/
def lostEvents : List Next :=
  .call (demoArgs 1) :: List.replicate 11 .goOn ++ .call (demoArgs 2) :: List.replicate 11 .goOn

def twiceEvents : List Next :=
  (List.range 8).flatMap (fun i => .call (demoArgs (UInt8.ofNat i)) :: List.replicate 12 .goOn) ++
    [.call ⟨20, 8, 0, fun _ => 0, 0⟩, .call (demoArgs 30)] ++ List.replicate 50 .goOn

def dequeuedTypes : Nat → Machine cfg → List UInt8
  | 0, _ => []
  | n + 1, m => Reply.type (logDequeueEvent 0 m.log).1 :: dequeuedTypes n (m.next (.dequeue 0))

/-- All calls have returned, and an entry is missing that was not discarded; or an entry is given
twice. -/
theorem nested_fails :
    (∃ m, m = lostEvents.foldl Machine.next (Machine.start demoState) ∧ m.writers.length = 0 ∧
      m.finished = [1, 0] ∧ dequeuedTypes 2 m = [1, eventLogNoEntry]) ∧
    ∃ m, m = twiceEvents.foldl Machine.next (Machine.start demoState) ∧ m.writers.length = 0 ∧
      dequeuedTypes 8 m = [30, 3, 4, 5, 6, 7, 20, 30] :=
  ⟨⟨_, rfl, by decide +kernel, by decide +kernel, by decide +kernel⟩,
    ⟨_, rfl, by decide +kernel, by decide +kernel⟩⟩

end ChromiumEc.EventLog
