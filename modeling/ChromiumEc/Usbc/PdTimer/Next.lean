import ChromiumEc.Usbc.PdTimer.Run
import Mathlib.Order.Bounds.Basic
import Mathlib.Order.Lattice
import Mathlib.Algebra.Group.Nat.Defs

/-!
# Next — the time until the next timer expires

`pd_timer_next_expiration` takes the minimum of the remaining times of the active timers.  A
remaining time is a difference of two 64-bit times that is narrowed to an `int`, and the greatest
`int` stands for a port without active timers, so a far expiry is taken for a time that has passed
or for no timer at all.
-/

namespace ChromiumEc.Usbc.PdTimer

variable {ports : Nat}

def maxExpire : Int := 0x7FFFFFFF

def noTimeout : Int := -1

def expireNow : Int := 0

/-- The conversion of a `uint64_t` to an `int` -/
def toInt (x : Nat) : Int :=
  (BitVec.ofNat 32 x).toInt

/-- The loop of `pd_timer_next_expiration`, with the timers that are left and `ret_value` -/
def nextLoop (s : Table ports) (port : Fin ports) (now : Nat) : List PdTaskTimer → Int → Int
  | [], retValue => retValue
  | timer :: rest, retValue =>
    -- Only use active timers for the next expired value
    if pdTimerIsActive s port timer then
      let tValue := s.timerExpires port timer
      if tValue ≤ now then expireNow
      else
        let delta := toInt (tValue - now)
        nextLoop s port now rest (if retValue > delta then delta else retValue)
    else nextLoop s port now rest retValue

/-- `pd_timer_next_expiration`, at the time `now` -/
def pdTimerNextExpiration (s : Table ports) (port : Fin ports) (now : Nat) : Int :=
  let retValue := nextLoop s port now PdTaskTimer.all maxExpire
  if retValue = maxExpire then noTimeout else retValue

/-! ## What it is for -/

section Law

variable (s : Table ports) (port : Fin ports) (now : Nat)

def Active (timer : PdTaskTimer) : Prop :=
  pdTimerIsActive s port timer = true

def Due (timer : PdTaskTimer) : Prop :=
  Active s port timer ∧ s.timerExpires port timer ≤ now

def remaining (timer : PdTaskTimer) : Nat :=
  s.timerExpires port timer - now

/-- The answer is the time until the next expiry: never later, and exact where an `int` can hold
it. -/
structure NextLaw : Prop where
  none_iff : pdTimerNextExpiration s port now = noTimeout ↔ ∀ timer, ¬ Active s port timer
  now_iff : pdTimerNextExpiration s port now = expireNow ↔ ∃ timer, Due s port now timer
  in_time : (∃ timer, Active s port timer) → (∀ timer, ¬ Due s port now timer) →
    0 < pdTimerNextExpiration s port now ∧
      ∀ timer, Active s port timer →
        pdTimerNextExpiration s port now ≤ remaining s port now timer
  exact : (∀ timer, ¬ Due s port now timer) → ∀ timer, Active s port timer →
    (∀ t, Active s port t → remaining s port now timer ≤ remaining s port now t) →
    (remaining s port now timer : Int) ≤ maxExpire →
    pdTimerNextExpiration s port now = remaining s port now timer

/-- All remaining times are values of an `int`, and one is not the greatest. -/
def Near : Prop :=
  (∀ timer, Active s port timer → (remaining s port now timer : Int) ≤ maxExpire) ∧
    ∃ timer, Active s port timer ∧ (remaining s port now timer : Int) ≠ maxExpire

/-- The narrowed difference of an active timer that has not expired -/
def deltas (l : List PdTaskTimer) : Set Int :=
  {d | ∃ timer ∈ l, Active s port timer ∧ d = toInt (remaining s port now timer)}

end Law

section Loop

variable {s : Table ports} {port : Fin ports} {now : Nat}

theorem toInt_of_le {x : Nat} (h : (x : Int) ≤ maxExpire) : toInt x = x := by
  have hle : x < 2 ^ 31 := by
    simp only [maxExpire] at h
    omega
  simp only [toInt, BitVec.toInt_eq_toNat_bmod, BitVec.toNat_ofNat, Int.bmod_def]
  omega

theorem toInt_neg {x : Nat} (h : maxExpire < (x : Int)) (hlt : x < 2 ^ 32) : toInt x < 0 := by
  simp only [maxExpire] at h
  simp only [toInt, BitVec.toInt_eq_toNat_bmod, BitVec.toNat_ofNat, Int.bmod_def]
  omega

/-! ## The loop -/

theorem nextLoop_of_due {l : List PdTaskTimer} {retValue : Int}
    (h : ∃ timer ∈ l, Due s port now timer) : nextLoop s port now l retValue = expireNow := by
  induction l generalizing retValue with
  | nil =>
    obtain ⟨timer, hmem, _⟩ := h
    exact absurd hmem List.not_mem_nil
  | cons t rest ih =>
    have hrest : ¬ Due s port now t → ∃ timer ∈ rest, Due s port now timer := by
      intro ht
      obtain ⟨timer, hmem, hdue⟩ := h
      rcases List.mem_cons.mp hmem with rfl | hmem
      · exact absurd hdue ht
      · exact ⟨timer, hmem, hdue⟩
    rw [nextLoop]
    -- the loop returns at the first timer that has expired, whatever it has found before
    by_cases hactive : pdTimerIsActive s port t = true
    · rw [if_pos hactive]
      by_cases htime : s.timerExpires port t ≤ now
      · exact if_pos htime
      · exact (if_neg htime).trans (ih (hrest fun hdue => htime hdue.2))
    · rw [if_neg hactive]
      exact ih (hrest fun hdue => hactive hdue.1)

theorem deltas_cons_of_active {t : PdTaskTimer} {rest : List PdTaskTimer}
    (h : Active s port t) : deltas s port now (t :: rest) =
      insert (toInt (remaining s port now t)) (deltas s port now rest) := by
  ext d
  constructor
  · rintro ⟨timer, hmem, hactive, hd⟩
    rcases List.mem_cons.mp hmem with rfl | hmem
    · exact .inl hd
    · exact .inr ⟨timer, hmem, hactive, hd⟩
  · rintro (hd | ⟨timer, hmem, hactive, hd⟩)
    · exact ⟨t, List.mem_cons_self, h, hd⟩
    · exact ⟨timer, List.mem_cons_of_mem t hmem, hactive, hd⟩

theorem deltas_cons_of_not_active {t : PdTaskTimer} {rest : List PdTaskTimer}
    (h : ¬ Active s port t) : deltas s port now (t :: rest) = deltas s port now rest := by
  ext d
  constructor
  · rintro ⟨timer, hmem, hactive, hd⟩
    rcases List.mem_cons.mp hmem with rfl | hmem
    · exact absurd hactive h
    · exact ⟨timer, hmem, hactive, hd⟩
  · rintro ⟨timer, hmem, hactive, hd⟩
    exact ⟨timer, List.mem_cons_of_mem t hmem, hactive, hd⟩

theorem isLeast_insert_smaller {a b x : Int} {d : Set Int}
    (h : IsLeast (insert (if a > b then b else a) d) x) : IsLeast (insert a (insert b d)) x := by
  have hle := h.2 (Set.mem_insert _ _)
  -- the value that is not kept is above the one that is kept
  by_cases hab : a > b
  · rw [if_pos hab] at h hle
    refine ⟨.inr h.1, ?_⟩
    rintro y (rfl | hy)
    · exact Int.le_trans hle (Int.le_of_lt hab)
    · exact h.2 hy
  · rw [if_neg hab] at h hle
    refine ⟨h.1.imp id .inr, ?_⟩
    rintro y (rfl | rfl | hy)
    · exact hle
    · exact Int.le_trans hle (Int.not_lt.mp hab)
    · exact h.2 (.inr hy)

theorem nextLoop_isLeast {l : List PdTaskTimer} {retValue : Int}
    (h : ∀ timer ∈ l, ¬ Due s port now timer) :
    IsLeast (insert retValue (deltas s port now l)) (nextLoop s port now l retValue) := by
  induction l generalizing retValue with
  | nil =>
    refine ⟨.inl rfl, ?_⟩
    rintro d (rfl | ⟨timer, hmem, _⟩)
    · exact Int.le_refl _
    · exact absurd hmem List.not_mem_nil
  | cons t rest ih =>
    have hrest := fun timer hmem => h timer (List.mem_cons_of_mem t hmem)
    rw [nextLoop]
    by_cases hactive : pdTimerIsActive s port t = true
    · have htime : ¬ s.timerExpires port t ≤ now :=
        fun hle => h t List.mem_cons_self ⟨hactive, hle⟩
      rw [if_pos hactive, deltas_cons_of_active hactive]
      exact (congrArg (IsLeast _) (if_neg htime)).mpr (isLeast_insert_smaller (ih hrest))
    · rw [if_neg hactive, deltas_cons_of_not_active hactive]
      exact ih hrest

/-! ## The answer -/

theorem next_of_due (h : ∃ timer, Due s port now timer) :
    pdTimerNextExpiration s port now = expireNow := by
  obtain ⟨timer, hdue⟩ := h
  have hloop : nextLoop s port now PdTaskTimer.all maxExpire = expireNow :=
    nextLoop_of_due ⟨timer, timer.mem_all, hdue⟩
  rw [pdTimerNextExpiration, hloop]
  exact if_neg (by decide)

/-- Without an expired timer, the answer is the least narrowed difference that is below
`MAX_EXPIRE`, if there is one. -/
theorem next_of_not_due (h : ∀ timer, ¬ Due s port now timer) :
    pdTimerNextExpiration s port now = noTimeout ∧
        (∀ timer, Active s port timer → maxExpire ≤ toInt (remaining s port now timer)) ∨
      ∃ timer, Active s port timer ∧ toInt (remaining s port now timer) < maxExpire ∧
        pdTimerNextExpiration s port now = toInt (remaining s port now timer) ∧
        ∀ t, Active s port t →
          pdTimerNextExpiration s port now ≤ toInt (remaining s port now t) := by
  have hleast : IsLeast _ (nextLoop s port now PdTaskTimer.all maxExpire) :=
    nextLoop_isLeast fun timer _ => h timer
  have hbelow : ∀ timer, Active s port timer →
      nextLoop s port now PdTaskTimer.all maxExpire ≤ toInt (remaining s port now timer) :=
    fun timer hactive => hleast.2 (.inr ⟨timer, timer.mem_all, hactive, rfl⟩)
  have hmax : nextLoop s port now PdTaskTimer.all maxExpire ≤ maxExpire := hleast.2 (.inl rfl)
  rw [pdTimerNextExpiration]
  -- a minimum of `MAX_EXPIRE` is taken for no timer, though it may be a difference
  by_cases hret : nextLoop s port now PdTaskTimer.all maxExpire = maxExpire
  · refine .inl ⟨if_pos hret, fun timer hactive => ?_⟩
    exact hret ▸ hbelow timer hactive
  · rcases hleast.1 with heq | ⟨timer, -, hactive, heq⟩
    · exact absurd heq hret
    · refine .inr ⟨timer, hactive, ?_, ?_, ?_⟩
      · rw [← heq]
        exact lt_of_le_of_ne hmax hret
      · exact (if_neg hret).trans heq
      · intro t ht
        exact (if_neg hret).trans_le (hbelow t ht)

/-- The expiry of an active timer is not more than a `uint32_t` away. -/
def Within (now : Nat) (c : Cell) : Prop :=
  c.active = true → c.expires < now + 2 ^ 32

theorem remaining_bounds {timer : PdTaskTimer} (hactive : Active s port timer)
    (hdue : ¬ Due s port now timer) (hwithin : Within now (cell s (port, timer))) :
    0 < remaining s port now timer ∧ remaining s port now timer < 2 ^ 32 := by
  have htime : ¬ s.timerExpires port timer ≤ now := fun hle => hdue ⟨hactive, hle⟩
  have hlt : s.timerExpires port timer < now + 2 ^ 32 := hwithin hactive
  rw [remaining]
  omega

theorem nextLaw_of_none (h : ∀ timer, ¬ Active s port timer) : NextLaw s port now := by
  have hdue : ∀ timer, ¬ Due s port now timer := fun timer hdue => h timer hdue.1
  rcases next_of_not_due hdue with ⟨hnext, -⟩ | ⟨timer, hactive, -⟩
  · refine ⟨⟨fun _ => h, fun _ => hnext⟩, ⟨fun hnow => ?_, fun ⟨timer, ht⟩ => ?_⟩, ?_, ?_⟩
    · exact absurd (hnext.symm.trans hnow) (by decide)
    · exact absurd ht (hdue timer)
    · rintro ⟨timer, hactive⟩
      exact absurd hactive (h timer)
    · intro _ timer hactive
      exact absurd hactive (h timer)
  · exact absurd hactive (h timer)

theorem nextLaw_of_due (h : ∃ timer, Due s port now timer) : NextLaw s port now := by
  have hnext := next_of_due h
  obtain ⟨timer, hdue⟩ := h
  refine ⟨⟨fun hnone => ?_, fun hactive => ?_⟩, ⟨fun _ => ⟨timer, hdue⟩, fun _ => hnext⟩, ?_, ?_⟩
  · exact absurd (hnext.symm.trans hnone) (by decide)
  · exact absurd hdue.1 (hactive timer)
  · intro _ hnot
    exact absurd hdue (hnot timer)
  · intro hnot
    exact absurd hdue (hnot timer)

theorem nextLaw_of_near (h : Near s port now)
    (hwithin : ∀ timer, Within now (cell s (port, timer)))
    (hdue : ∀ timer, ¬ Due s port now timer) : NextLaw s port now := by
  obtain ⟨hle, far, hfar, hne⟩ := h
  -- nothing is lost by the narrowing
  have hdelta : ∀ timer, Active s port timer →
      toInt (remaining s port now timer) = remaining s port now timer :=
    fun timer hactive => toInt_of_le (hle timer hactive)
  rcases next_of_not_due hdue with ⟨-, hmax⟩ | ⟨timer, hactive, -, hnext, hleast⟩
  -- not all differences are the greatest value, so one of them is the minimum
  · have hfarMax := hmax far hfar
    rw [hdelta far hfar] at hfarMax
    exact absurd (Int.le_antisymm (hle far hfar) hfarMax) hne
  · rw [hdelta timer hactive] at hnext
    have hpos : 0 < pdTimerNextExpiration s port now := by
      rw [hnext]
      exact Int.natCast_pos.mpr (remaining_bounds hactive (hdue timer) (hwithin timer)).1
    have hall : ∀ t, Active s port t →
        pdTimerNextExpiration s port now ≤ remaining s port now t := by
      intro t ht
      rw [← hdelta t ht]
      exact hleast t ht
    refine ⟨⟨fun hnone => ?_, fun hnot => absurd hactive (hnot timer)⟩,
      ⟨fun hnow => ?_, fun ⟨t, ht⟩ => absurd ht (hdue t)⟩, fun _ _ => ⟨hpos, hall⟩, ?_⟩
    · exact absurd (hnone ▸ hpos) (by decide)
    · exact absurd (hnow ▸ hpos) (by decide)
    · intro _ t ht hmin _
      refine Int.le_antisymm (hall t ht) ?_
      rw [hnext]
      exact Int.ofNat_le.mpr (hmin timer hactive)

theorem NextLaw.near (h : NextLaw s port now)
    (hwithin : ∀ timer, Within now (cell s (port, timer)))
    (hactive : ∃ timer, Active s port timer) (hdue : ∀ timer, ¬ Due s port now timer) :
    Near s port now := by
  have hpos := (h.in_time hactive hdue).1
  rcases next_of_not_due hdue with ⟨hnext, -⟩ | ⟨timer, ht, hlt, -, hleast⟩
  · exact absurd (hnext ▸ hpos) (by decide)
  · have hle : ∀ t, Active s port t → (remaining s port now t : Int) ≤ maxExpire := by
      intro t ht
      refine Int.not_lt.mp fun hgt => ?_
      -- a time that an `int` cannot hold is negative, and the minimum is not above it
      have hneg := toInt_neg hgt (remaining_bounds ht (hdue t) (hwithin t)).2
      exact absurd (Int.lt_of_lt_of_le hpos (hleast t ht)) (Int.not_lt.mpr (Int.le_of_lt hneg))
    refine ⟨hle, timer, ht, fun heq => ?_⟩
    rw [toInt_of_le (hle timer ht), heq] at hlt
    exact Int.lt_irrefl _ hlt

/-- The law holds of one table exactly when there is nothing to wait for, or the remaining times
are values of an `int`. -/
theorem nextLaw_iff (hwithin : ∀ timer, Within now (cell s (port, timer))) :
    NextLaw s port now ↔
      (∀ timer, ¬ Active s port timer) ∨ (∃ timer, Due s port now timer) ∨ Near s port now := by
  constructor
  · intro h
    by_cases hactive : ∃ timer, Active s port timer
    · by_cases hdue : ∃ timer, Due s port now timer
      · exact .inr (.inl hdue)
      · exact .inr (.inr (h.near hwithin hactive (not_exists.mp hdue)))
    · exact .inl (not_exists.mp hactive)
  · rintro (hnone | hdue | hnear)
    · exact nextLaw_of_none hnone
    · exact nextLaw_of_due hdue
    · by_cases hdue : ∃ timer, Due s port now timer
      · exact nextLaw_of_due hdue
      · exact nextLaw_of_near hnear hwithin (not_exists.mp hdue)

/-! ## Runs -/

theorem Within.later {t t' : Nat} {c : Cell} (h : Within t c) (ht : t ≤ t') : Within t' c :=
  fun hactive => Nat.lt_of_lt_of_le (h hactive) (Nat.add_le_add_right ht _)

theorem Within.query {t t' : Nat} {c : Cell} (h : Within t c) : Within t (c.query t') := by
  rw [Cell.query]
  by_cases hexpire : c.active = true ∧ c.expires ≤ t'
  · rw [if_pos hexpire]
    exact fun hactive => absurd hactive Bool.false_ne_true
  · rw [if_neg hexpire]
    exact h

theorem Within.run {c : Call ports} {t t' : Nat} {timer : PdTaskTimer}
    (h : Within t (cell s (port, timer))) (hreads : c.Reads t t') :
    Within t' (cell (c.run s) (port, timer)) := by
  rw [cell_run]
  by_cases hcovers : c.Covers port timer
  · rw [if_pos hcovers]
    -- only `pd_timer_enable` sets an expiry, at most a `uint32_t` away from what it reads
    cases c with
    | enable p t expiresUs now =>
      intro _
      exact Nat.add_lt_add_of_le_of_lt hreads.2 expiresUs.isLt
    | isExpired p t now => exact h.query.later hreads.le
    | manageExpired p now => exact h.query.later hreads.le
    | init p => exact fun hactive => absurd hactive Bool.false_ne_true
    | disable p t => exact fun hactive => absurd hactive Bool.false_ne_true
    | disableRange p range => exact fun hactive => absurd hactive Bool.false_ne_true
  · rw [if_neg hcovers]
    exact h.later hreads.le

theorem Within.foldl {cs : List (Call ports)} {t : Nat} {timer : PdTaskTimer}
    (h : Within t (cell s (port, timer))) (hclock : Clocked t cs now) :
    Within now (cell (cs.foldl Call.run s) (port, timer)) := by
  induction hclock generalizing s with
  | nil ht => exact h.later ht
  | cons hreads _ ih => exact ih (h.run hreads)

theorem boot_within (port : Fin ports) (timer : PdTaskTimer) :
    Within 0 (cell (boot ports) (port, timer)) := by
  intro _
  exact Nat.two_pow_pos 32

end Loop

/-- After any run of calls with a clock that does not go back, the answer is right exactly when
there is nothing to wait for, or the remaining times are values of an `int` and not all of them the
greatest. -/
theorem pdTimerNextExpiration_iff {cs : List (Call ports)} {now : Nat} (hclock : Clocked 0 cs now)
    (port : Fin ports) :
    let s := cs.foldl Call.run (boot ports)
    NextLaw s port now ↔
      (∀ timer, ¬ Active s port timer) ∨ (∃ timer, Due s port now timer) ∨ Near s port now :=
  nextLaw_iff fun timer => (boot_within port timer).foldl hclock

def tenthEnabled : List (Call 1) :=
  [.init 0, .enable 0 .tcTimeout 100000 5]

theorem pdTimerNextExpiration_tenth :
    NextLaw (tenthEnabled.foldl Call.run (boot 1)) 0 10 := by
  have hclock : Clocked 0 tenthEnabled 10 :=
    .cons (show Call.Reads 0 0 _ from Nat.le_refl 0)
      (.cons (show Call.Reads 0 5 _ from ⟨Nat.zero_le 5, Nat.le_refl 5⟩) (.nil (by decide)))
  refine (pdTimerNextExpiration_iff hclock 0).mpr (.inr (.inr ⟨fun timer _ => ?_, ?_⟩))
  · cases timer <;> decide
  · exact ⟨.tcTimeout, rfl, by decide⟩

/-- The longest timeout, and the same beside a tenth of a second -/
def longEnabled : List (Call 2) :=
  [.init firstPort, .init secondPort, .enable firstPort .peTimeout 0xFFFFFFFF 5,
    .enable secondPort .peTimeout 0x80000005 5, .enable secondPort .tcTimeout 100000 5]

/-- An active timer is taken for no timer, and an answer is not a time at all. -/
theorem pdTimerNextExpiration_fails :
    (Active (longEnabled.foldl Call.run (boot 2)) 0 .peTimeout ∧
        pdTimerNextExpiration (longEnabled.foldl Call.run (boot 2)) 0 5 = noTimeout) ∧
      pdTimerNextExpiration (longEnabled.foldl Call.run (boot 2)) 1 10 = -2147483648 ∧
      ¬ NextLaw (longEnabled.foldl Call.run (boot 2)) 0 5 := by
  have hactive : Active (longEnabled.foldl Call.run (boot 2)) 0 .peTimeout :=
    (by decide +kernel :
      pdTimerIsActive (longEnabled.foldl Call.run (boot 2)) 0 .peTimeout = true)
  have hnone : pdTimerNextExpiration (longEnabled.foldl Call.run (boot 2)) 0 5 = noTimeout := by
    decide +kernel
  exact ⟨⟨hactive, hnone⟩, by decide +kernel, fun h => h.none_iff.mp hnone _ hactive⟩

end ChromiumEc.Usbc.PdTimer
