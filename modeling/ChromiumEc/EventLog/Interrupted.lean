import ChromiumEc.EventLog.Nested

/-!
# Interrupted — the entries that are under way

The entries that are reserved lie behind those that are published, the outermost call first.  What a
call stores is in its own units, and one unit behind them, so everything else stays as it is.
-/

namespace ChromiumEc.EventLog

open Lib

variable {cfg : Config} {mem mem' : Nat → UInt8} {n p lo hi i j : Nat}

/-- The units from `lo` to `hi` have the same bytes. -/
def SameOn (n : Nat) (mem mem' : Nat → UInt8) (lo hi : Nat) : Prop :=
  ∀ i, unitSize * lo ≤ i → i < unitSize * hi → mem' (i % (unitSize * n)) = mem (i % (unitSize * n))

theorem SameOn.mono {lo' hi' : Nat} (h : SameOn n mem mem' lo hi) (hlo : lo ≤ lo')
    (hhi : hi' ≤ hi) : SameOn n mem mem' lo' hi' := by
  intro i hi₁ hi₂
  refine h i ?_ ?_
  · exact Nat.le_trans (Nat.mul_le_mul_left _ hlo) hi₁
  · exact Nat.lt_of_lt_of_le hi₂ (Nat.mul_le_mul_left _ hhi)

theorem mod_ne {m : Nat} (hne : i ≠ j) (hi : i < j + m) (hj : j < i + m) : i % m ≠ j % m := by
  rcases Nat.lt_or_gt_of_ne hne with hlt | hgt
  · have h := @add_mod_ne m i (j - i) (by omega) (by omega)
    rwa [Nat.add_sub_cancel' (Nat.le_of_lt hlt)] at h
  · have h := @add_mod_ne m j (i - j) (by omega) (by omega)
    rw [Nat.add_sub_cancel' (Nat.le_of_lt hgt)] at h
    exact h.symm

theorem sameOn_update {q : Nat × UInt8} (hq : q.1 = j % (unitSize * n))
    (hout : j < unitSize * lo ∨ unitSize * hi ≤ j) (hbelow : unitSize * hi ≤ j + unitSize * n)
    (habove : j < unitSize * lo + unitSize * n) :
    SameOn n mem (Function.update mem q.1 q.2) lo hi := by
  intro i hi₁ hi₂
  have hne : i % (unitSize * n) ≠ j % (unitSize * n) := mod_ne (by omega) (by omega) (by omega)
  rw [hq]
  exact Function.update_of_ne hne _ _

/-! ## The stores of an entry -/

variable {a : Args}

theorem storeAll_entryStores (mem : Nat → UInt8) (n r : Nat) (a : Args) :
    storeAll mem (entryStores n r a) =
      writeEntry n r a.event.units (headerBytes a.timestamp a.type a.size a.data) a.payload mem := by
  unfold entryStores writeEntry firstPiece
  dsimp only
  split
  · rw [storeAll_append, storeAll_append, storeAll_placed, storeAll_placed, storeAll_placed]
  · rw [List.append_nil, storeAll_append, storeAll_placed, storeAll_placed]

theorem round_mod (p : Nat) {k : Nat} (hk : unitSize * (p % n) + k < unitSize * n) :
    (unitSize * p + k) % (unitSize * n) = unitSize * (p % n) + k := by
  rw [← Nat.mod_add_mod, unit_mod, Nat.mod_eq_of_lt hk]

theorem round_mod_wrap (p : Nat) {k : Nat} (hn : 0 < n) (hk : k < unitSize * n) :
    (unitSize * p + (unitSize * (n - p % n) + k)) % (unitSize * n) = k := by
  have hr := Nat.mod_lt p hn
  have hsum : unitSize * (p % n) + (unitSize * (n - p % n) + k) = unitSize * n + k := by
    simp only [unitSize]
    omega
  rw [← Nat.mod_add_mod, unit_mod, hsum, Nat.add_mod_left, Nat.mod_eq_of_lt hk]

theorem mem_placed_at {base lo hi : Nat} {bytes : List UInt8} (p k₀ : Nat)
    (hplace : ∀ k, k < bytes.length → (unitSize * p + (k₀ + k)) % (unitSize * n) = base + k)
    (hlow : lo ≤ unitSize * p + k₀) (hhigh : unitSize * p + k₀ + bytes.length ≤ hi) :
    ∀ q ∈ placed base bytes, ∃ j, lo ≤ j ∧ j < hi ∧ q.1 = j % (unitSize * n) := by
  intro q hq
  obtain ⟨k, hk, hq⟩ := mem_placed hq
  exact ⟨unitSize * p + (k₀ + k), by omega, by omega, hq.trans (hplace k hk).symm⟩

/-- The stores are in the units of the entry, but for those of one unit, the last, if the entry goes
past the end of the ring. -/
theorem entryStores_split (hn : a.event.units < n) (p : Nat) :
    ∃ own extra, entryStores n (p % n) a = own ++ extra ∧
      (∀ q ∈ own, ∃ j, unitSize * p ≤ j ∧ j < unitSize * (p + a.event.units) ∧
        q.1 = j % (unitSize * n)) ∧
      (∀ q ∈ extra, ∃ j, unitSize * (p + a.event.units) ≤ j ∧
        j < unitSize * (p + a.event.units + 1) ∧ q.1 = j % (unitSize * n)) ∧
      extra.length = if n < p % n + a.event.units then unitSize else 0 := by
  have hpos := units_pos a.event
  have hn0 : 0 < n := Nat.lt_of_le_of_lt (Nat.zero_le _) hn
  have hr := Nat.mod_lt p hn0
  obtain ⟨u, hu⟩ : ∃ u, a.event.units = u := ⟨_, rfl⟩
  obtain ⟨first, hfirst⟩ : ∃ f, firstPiece n (p % n) u = f := ⟨_, rfl⟩
  have hmin := hfirst
  unfold firstPiece at hmin
  -- the header and the first piece end in front of the end of the ring
  have hheader : ∀ q ∈ placed (unitSize * (p % n))
      (headerBytes a.timestamp a.type a.size a.data), ∃ j, unitSize * p ≤ j ∧
        j < unitSize * (p + u) ∧ q.1 = j % (unitSize * n) := by
    have hlen : (headerBytes a.timestamp a.type a.size a.data).length = unitSize := rfl
    refine mem_placed_at p 0 (fun k hk => ?_) (Nat.le_refl _) ?_
    · rw [Nat.zero_add, round_mod p (by simp only [unitSize] at *; omega)]
    · simp only [unitSize] at *
      omega
  have hpiece : ∀ q ∈ placed (unitSize * (p % n) + unitSize)
      (load a.payload 0 (first * unitSize)), ∃ j, unitSize * p ≤ j ∧
        j < unitSize * (p + u) ∧ q.1 = j % (unitSize * n) := by
    refine mem_placed_at p unitSize (fun k hk => ?_) (Nat.le_add_right _ _) ?_
    · rw [length_load] at hk
      rw [round_mod p (by simp only [unitSize] at *; omega), Nat.add_assoc]
    · rw [length_load]
      simp only [unitSize] at *
      omega
  unfold entryStores
  dsimp only
  rw [hu, hfirst]
  by_cases hwrap : n < p % n + u
  · -- the second piece goes on at the begin of the ring
    have hlast : n - p % n = first + 1 := by omega
    have hcount : (u - first) * unitSize = (u - 1 - first) * unitSize + unitSize := by
      simp only [unitSize]
      omega
    have hbegin : ∀ k, k < unitSize * n →
        (unitSize * p + (unitSize * (first + 1) + k)) % (unitSize * n) = k := by
      intro k hk
      rw [← hlast]
      exact round_mod_wrap p hn0 hk
    rw [if_pos (by omega), hcount, load_add, placed_append, Nat.zero_add, length_load,
      ← List.append_assoc]
    -- the second piece is one unit too long, and the last unit is behind the entry
    refine ⟨_, _, rfl, fun q hq => ?_, ?_, ?_⟩
    · rcases List.mem_append.mp hq with hfront | hsecond
      · exact (List.mem_append.mp hfront).elim (hheader q) (hpiece q)
      · refine mem_placed_at p (unitSize * (first + 1)) (fun k hk => ?_) ?_ ?_ q hsecond
        · rw [length_load] at hk
          rw [hbegin k (by simp only [unitSize] at *; omega), Nat.zero_add]
        · exact Nat.le_add_right _ _
        · rw [length_load]
          simp only [unitSize] at *
          omega
    · refine mem_placed_at p (unitSize * (first + 1) + (u - 1 - first) * unitSize) (fun k hk => ?_)
        ?_ ?_
      · rw [length_load] at hk
        rw [Nat.add_assoc, hbegin _ (by simp only [unitSize] at *; omega)]
      · simp only [unitSize] at *
        omega
      · rw [length_load]
        simp only [unitSize] at *
        omega
    · rw [length_placed, length_load, if_pos hwrap]
  · rw [if_neg (by omega)]
    refine ⟨_, [], rfl, fun q hq => ?_, fun q hq => absurd hq List.not_mem_nil, ?_⟩
    · exact (List.mem_append.mp hq).elim (hheader q) (hpiece q)
    · rw [if_neg hwrap]
      rfl

/-! ## An entry that is being stored -/

/-- The units of the entry have what was stored so far; `stores` is left to store. -/
def Writing (n : Nat) (mem : Nat → UInt8) (p : Nat) (a : Args) (stores : List (Nat × UInt8)) :
    Prop :=
  ∃ old done, done ++ stores = entryStores n (p % n) a ∧
    SameOn n (storeAll old done) mem p (p + a.event.units)

theorem Writing.start (mem : Nat → UInt8) (p : Nat) (a : Args) :
    Writing n mem p a (entryStores n (p % n) a) :=
  ⟨mem, [], rfl, fun _ _ _ => rfl⟩

theorem Writing.congr {stores : List (Nat × UInt8)} (h : Writing n mem p a stores)
    (hmem : SameOn n mem mem' p (p + a.event.units)) : Writing n mem' p a stores := by
  obtain ⟨old, done, hstores, hsame⟩ := h
  exact ⟨old, done, hstores, fun i hi hlt => (hmem i hi hlt).trans (hsame i hi hlt)⟩

theorem Writing.store {stores : List (Nat × UInt8)} {q : Nat × UInt8}
    (h : Writing n mem p a (q :: stores)) :
    Writing n (Function.update mem q.1 q.2) p a stores := by
  obtain ⟨old, done, hstores, hsame⟩ := h
  refine ⟨old, done ++ [q], ?_, ?_⟩
  · rw [List.append_assoc]
    exact hstores
  · intro i hi hlt
    rw [storeAll_concat]
    -- the byte is stored into the old memory as well, so the two agree in its cell
    by_cases heq : i % (unitSize * n) = q.1
    · rw [heq, Function.update_self, Function.update_self]
    · rw [Function.update_of_ne heq, Function.update_of_ne heq]
      exact hsame i hi hlt

/-- The next byte is in the units of the entry, or in the unit behind them, which is the last one
that is stored. -/
theorem Writing.place {stores : List (Nat × UInt8)} {q : Nat × UInt8}
    (h : Writing n mem p a (q :: stores)) (hn : a.event.units < n) :
    ∃ j, q.1 = j % (unitSize * n) ∧ unitSize * p ≤ j ∧
      (j < unitSize * (p + a.event.units) ∨
        (n < p % n + a.event.units ∧ stores.length < unitSize) ∧
          j < unitSize * (p + a.event.units + 1)) := by
  obtain ⟨own, extra, hsplit, hown, hextra, hcount⟩ := entryStores_split hn p
  obtain ⟨old, done, hstores, -⟩ := h
  rw [hsplit] at hstores
  -- the own bytes are stored first; a byte behind the entry is one of the last
  have hmem : q ∈ own ∨ q ∈ extra ∧ stores.length < extra.length := by
    rcases List.append_eq_append_iff.mp hstores with ⟨mid, hown', hmid⟩ | ⟨mid, -, hextra'⟩
    · cases mid with
      | nil =>
        rw [List.nil_append] at hmid
        rw [← hmid]
        exact .inr ⟨List.mem_cons_self, Nat.lt_succ_self _⟩
      | cons q' mid =>
        obtain ⟨rfl, -⟩ := List.cons.inj hmid
        rw [hown']
        exact .inl (List.mem_append_right _ List.mem_cons_self)
    · rw [hextra', List.length_append, List.length_cons]
      exact .inr ⟨List.mem_append_right _ List.mem_cons_self, by omega⟩
  rcases hmem with hmem | ⟨hmem, hlast⟩
  · obtain ⟨j, hlow, hhigh, hq⟩ := hown q hmem
    exact ⟨j, hq, hlow, .inl hhigh⟩
  · obtain ⟨j, hlow, hhigh, hq⟩ := hextra q hmem
    have hwrap : n < p % n + a.event.units := by
      by_contra hfits
      rw [hcount, if_neg hfits] at hlast
      exact Nat.not_lt_zero _ hlast
    rw [hcount, if_pos hwrap] at hlast
    refine ⟨j, hq, ?_, .inr ⟨⟨hwrap, hlast⟩, hhigh⟩⟩
    exact Nat.le_trans (Nat.mul_le_mul_left _ (Nat.le_add_right p _)) hlow

theorem Writing.liesAt (h : Writing n mem p a []) (hn : a.event.units < n) :
    LiesAt n mem p a.event := by
  obtain ⟨old, done, hstores, hsame⟩ := h
  rw [List.append_nil] at hstores
  have hlen := length_payload_le a.event
  have hlen' := lt_length_payload a.event
  have hpayload : a.event.payload.length = eventLogSize a.size := length_load
  rw [hstores, storeAll_entryStores] at hsame
  have hwritten := @writeEntry_liesAt n p a.event.units
    (headerBytes a.timestamp a.type a.size a.data) a.payload old (eventLogSize a.size) hn rfl
    (by rw [← hpayload]; exact hlen) (by rw [← hpayload]; exact hlen')
  have hbytes : a.event.bytes =
      headerBytes a.timestamp a.type a.size a.data ++ load a.payload 0 (eventLogSize a.size) := rfl
  rw [LiesAt, hbytes, ← hwritten, hpayload]
  refine window_congr ?_
  intro i hi hlt
  refine hsame i hi ?_
  rw [hpayload] at hlen
  simp only [unitSize] at *
  omega

theorem LiesAt.sameOn {e : Event} (h : LiesAt n mem p e)
    (hmem : SameOn n mem mem' p (p + e.units)) : LiesAt n mem' p e := by
  -- one entry is a sequence of entries
  have hstored : Stored n mem p [e] := ⟨h, trivial⟩
  have hunits : total Event.units [e] = e.units := by
    rw [total_cons, total_nil, Nat.add_zero]
  rw [← hunits] at hmem
  exact (hstored.congr hmem).1

/-! ## The calls under way -/

theorem pending_leaveBehind (w : Writer cfg) {ws : List (Writer cfg)} (hne : ws ≠ []) :
    pending (leaveBehind w ws) = pending (w :: ws) := by
  cases ws with
  | nil => exact absurd rfl hne
  | cons outer ws =>
    show pending ws ++ outer.args.event :: (outer.behind ++ w.args.event :: w.behind) =
      pending ws ++ outer.args.event :: outer.behind ++ w.args.event :: w.behind
    rw [List.append_assoc]
    rfl

theorem total_pending_cons (w : Writer cfg) (ws : List (Writer cfg)) :
    total Event.units (pending (w :: ws)) =
      total Event.units (pending ws) + (w.units + total Event.units w.behind) := by
  rw [pending, total_append, total_cons]
  rfl

def Writer.InLoop (w : Writer cfg) : Prop :=
  w.phase = .space ∨ ∃ tested, w.phase = .reclaim tested

def Writer.Committing (w : Writer cfg) : Prop :=
  w.phase = .load ∨ ∃ tailNext, w.phase = .publish tailNext

/-- What is in the units of a call at position `p`, and what it knows of the head.  The head is at
`head` now. -/
def Writer.PhaseAt (mem : Nat → UInt8) (head p : Nat) (w : Writer cfg) : Prop :=
  match w.phase with
  | .space => True
  | .reclaim tested => ∃ h, tested = position cfg h ∧ h ≤ head ∧
      h + cfg.unitCount < p + w.units ∧ p ≤ h + cfg.unitCount
  | .write stores => Writing cfg.unitCount mem p w.args stores
  | .load => LiesAt cfg.unitCount mem p w.args.event
  | .publish _ => LiesAt cfg.unitCount mem p w.args.event

/-- The call numbered `i` has its entry at position `p`, and the entries of inner calls behind it. -/
structure Writer.At (mem : Nat → UInt8) (head p i : Nat) (w : Writer cfg) : Prop where
  id : w.id = i
  tail : w.currentTail = position cfg p
  behind : Stored cfg.unitCount mem (p + w.units) w.behind
  phase : w.PhaseAt mem head p

/-- The calls under way have their entries one behind the other, from position `p` on.  Only the
outermost one finds nobody behind. -/
def Placed (mem : Nat → UInt8) (head p i : Nat) : List (Writer cfg) → Prop
  | [] => True
  | w :: ws =>
    w.At mem head (p + total Event.units (pending ws)) (i + (pending ws).length) ∧
      (w.Committing → ws = []) ∧ Placed mem head p i ws

section Placed

variable {w : Writer cfg} {ws : List (Writer cfg)} {head head' : Nat}

theorem Writer.not_inLoop {phase : Phase cfg} (hphase : w.phase = phase)
    (h : phase ≠ .space ∧ ∀ tested, phase ≠ .reclaim tested) : ¬ w.InLoop := by
  subst hphase
  rintro (hspace | ⟨tested, hreclaim⟩)
  · exact h.1 hspace
  · exact h.2 tested hreclaim

theorem Writer.not_committing {phase : Phase cfg} (hphase : w.phase = phase)
    (h : phase ≠ .load ∧ ∀ tailNext, phase ≠ .publish tailNext) : ¬ w.Committing := by
  subst hphase
  rintro (hload | ⟨tailNext, hpublish⟩)
  · exact h.1 hload
  · exact h.2 tailNext hpublish

theorem Phase.write_not_space (stores : List (Nat × UInt8)) :
    (write stores : Phase cfg) ≠ .space ∧ ∀ tested, (write stores : Phase cfg) ≠ .reclaim tested :=
  ⟨nofun, nofun⟩

theorem Phase.write_not_load (stores : List (Nat × UInt8)) : (write stores : Phase cfg) ≠ .load ∧
    ∀ tailNext, (write stores : Phase cfg) ≠ .publish tailNext :=
  ⟨nofun, nofun⟩

theorem Writer.At.writing {stores : List (Nat × UInt8)} (h : w.At mem head p i)
    (hphase : w.phase = .write stores) : Writing cfg.unitCount mem p w.args stores := by
  have hknown := h.phase
  unfold Writer.PhaseAt at hknown
  rw [hphase] at hknown
  exact hknown

theorem Writer.At.liesAt (h : w.At mem head p i) (hcommit : w.Committing) :
    LiesAt cfg.unitCount mem p w.args.event := by
  have hknown := h.phase
  unfold Writer.PhaseAt at hknown
  rcases hcommit with hphase | ⟨tailNext, hphase⟩
  · rw [hphase] at hknown
    exact hknown
  · rw [hphase] at hknown
    exact hknown

theorem Writer.PhaseAt.congr (h : w.PhaseAt mem head p) (hhead : head ≤ head')
    (hmem : SameOn cfg.unitCount mem mem' p (p + w.units)) : w.PhaseAt mem' head' p := by
  unfold Writer.PhaseAt at h ⊢
  cases hphase : w.phase with
  | space => trivial
  | reclaim tested =>
    rw [hphase] at h
    obtain ⟨k, htested, hle, hfull, hroom⟩ := h
    exact ⟨k, htested, Nat.le_trans hle hhead, hfull, hroom⟩
  | write stores =>
    rw [hphase] at h
    exact Writing.congr h hmem
  | load =>
    rw [hphase] at h
    exact LiesAt.sameOn h hmem
  | publish tailNext =>
    rw [hphase] at h
    exact LiesAt.sameOn h hmem

theorem Writer.At.congr (h : w.At mem head p i) (hhead : head ≤ head')
    (hmem : SameOn cfg.unitCount mem mem' p (p + w.units + total Event.units w.behind)) :
    w.At mem' head' p i := by
  refine ⟨h.id, h.tail, h.behind.congr ?_, h.phase.congr hhead ?_⟩
  · exact hmem.mono (Nat.le_add_right p _) (Nat.le_refl _)
  · exact hmem.mono (Nat.le_refl _) (Nat.le_add_right _ _)

theorem Placed.congr (h : Placed mem head p i ws) (hhead : head ≤ head')
    (hmem : SameOn cfg.unitCount mem mem' p (p + total Event.units (pending ws))) :
    Placed mem' head' p i ws := by
  -- the calls lie one behind the other, and an outer one ends where the inner one starts
  induction ws with
  | nil => trivial
  | cons w ws ih =>
    obtain ⟨hat, hcommit, hrest⟩ := h
    rw [total_pending_cons] at hmem
    refine ⟨hat.congr hhead ?_, hcommit, ih hrest ?_⟩
    · exact hmem.mono (Nat.le_add_right _ _) (by omega)
    · exact hmem.mono (Nat.le_refl _) (by omega)

theorem Placed.id_lt (h : Placed mem head p i ws) {j : Nat} (hj : j ∈ ws.map Writer.id) :
    i ≤ j ∧ j < i + (pending ws).length := by
  induction ws with
  | nil => cases hj
  | cons w ws ih =>
    obtain ⟨hat, -, hrest⟩ := h
    have hid := hat.id
    rw [pending, List.length_append, List.length_cons]
    rcases List.mem_cons.mp hj with rfl | hmem
    · omega
    · have hold := ih hrest hmem
      omega

end Placed

end ChromiumEc.EventLog
