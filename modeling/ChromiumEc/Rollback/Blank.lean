import ChromiumEc.Rollback.Survives

/-!
# Blank — flash without a rollback block

When no region carries the cookie, `get_latest_rollback` clears the block of its caller, but
`clear_rollback` clears the secret alone.  The id and the minimum version stay what the stack of the
caller held, and the callers go on with them.
-/

namespace ChromiumEc.Rollback

variable {n : Nat} {f : Flash}

def Blank (n : Nat) (f : Flash) : Prop :=
  ∀ region, (readRollback f region : RollbackData n).cookie ≠ cookie

def Zeroed (d : RollbackData n) : Prop :=
  d.id = 0 ∧ d.rollbackMinVersion = 0 ∧ d.secret = Vector.replicate n 0

theorem Blank.minRegion (h : Blank n f) : minRegion n f = none := by
  have hstep : ∀ best region, latestStep n f best region = best := by
    intro best region
    simp only [latestStep, if_pos (h region)]
  rw [Rollback.minRegion, hstep, hstep]

theorem Blank.get (h : Blank n f) (junk : RollbackData n) :
    getLatestRollback f junk = (0, clearRollback junk) := by
  simp only [getLatestRollback, h.minRegion]

theorem Blank.zeroed_iff (h : Blank n f) (junk : RollbackData n) :
    Zeroed (getLatestRollback f junk).2 ↔ junk.id = 0 ∧ junk.rollbackMinVersion = 0 := by
  rw [h.get]
  constructor
  · rintro ⟨hid, hversion, -⟩
    exact ⟨hid, hversion⟩
  · rintro ⟨hid, hversion⟩
    exact ⟨hid, hversion, rfl⟩

theorem Blank.minimum_iff (h : Blank n f) (junk : RollbackData n) :
    rollbackGetMinimumVersion f junk = 0 ↔ junk.rollbackMinVersion = 0 := by
  have hget : rollbackGetMinimumVersion f junk = junk.rollbackMinVersion.toInt := by
    rw [rollbackGetMinimumVersion, h.get]
    rfl
  rw [hget]
  exact BitVec.toInt_inj (y := 0)

/-! ## The first update -/

section Update

variable {cfg : Config} {env : Env cfg.secretLen} {v : BitVec 32}

structure Proceeds (env : Env n) : Prop where
  allowed : env.rollbackNow = false
  elsewhere : env.unsafeToOverwrite = false
  done : env.fate = .done

def firstBlock (n : Nat) (v : BitVec 32) : RollbackData n :=
  ⟨1, v, Vector.replicate n 0, cookie⟩

def WritesFirst (cfg : Config) (env : Env cfg.secretLen) (v : BitVec 32) (f : Flash) : Prop :=
  (rollbackUpdateVersion cfg env v f).ret = some .success ∧
    ∃ f', (rollbackUpdateVersion cfg env v f).moments.getLast? = some f' ∧
      ∃ region, Latest cfg.secretLen f' region ∧
        readRollback f' region = firstBlock cfg.secretLen v

/-- The block that is written: the id and the versions are compared and counted up as the stack has
them. -/
def nextBlock (junk : RollbackData n) (v : BitVec 32) : RollbackData n :=
  ⟨junk.id + 1, v, Vector.replicate n 0, cookie⟩

theorem Blank.planUpdate (h : Blank cfg.secretLen f) (hproceeds : Proceeds env) :
    planUpdate cfg env v none f =
      if v.toInt < env.junk.rollbackMinVersion.toInt then .error .inval
      else if v = env.junk.rollbackMinVersion then .error .success
      else .ok (1, nextBlock env.junk v) := by
  -- an update of the version adds no entropy
  have hentropy : (if cfg.secretSize.isSome then (none : Option (List UInt8)) else none) = none :=
    ite_self _
  simp only [Rollback.planUpdate, hproceeds.allowed, hproceeds.elsewhere, h.get, hentropy,
    Bool.false_eq_true, if_false]
  rfl

theorem getLast_written {region : Fin 2} {d : RollbackData n} {w m : Nat} :
    ((List.range (m + 1)).map (written w f region d)).getLast? =
      some (written w f region d m) := by
  rw [List.range_succ, List.map_append, List.map_singleton, List.getLast?_concat]

theorem Blank.update_of_lt (h : Blank cfg.secretLen f) (hproceeds : Proceeds env)
    (hlt : env.junk.rollbackMinVersion.toInt < v.toInt) :
    (rollbackUpdateVersion cfg env v f).ret = some .success ∧
      (rollbackUpdateVersion cfg env v f).moments.getLast? =
        some (written cfg.flashWriteSize f 1 (nextBlock env.junk v)
          (block cfg.flashWriteSize (nextBlock env.junk v)).length) := by
  have hplan := h.planUpdate hproceeds (v := v)
  have hne : v ≠ env.junk.rollbackMinVersion := by
    rintro rfl
    exact Int.lt_irrefl _ hlt
  rw [if_neg (Int.not_lt.mpr (Int.le_of_lt hlt)), if_neg hne] at hplan
  simp only [rollbackUpdateVersion, rollbackUpdate, hplan, hproceeds.done]
  exact ⟨trivial, getLast_written⟩

theorem Blank.update_of_not_lt (h : Blank cfg.secretLen f) (hproceeds : Proceeds env)
    (hlt : ¬ env.junk.rollbackMinVersion.toInt < v.toInt) :
    (rollbackUpdateVersion cfg env v f).moments = [] := by
  have hplan := h.planUpdate hproceeds (v := v)
  -- a lower version is refused, and the same one is taken as done already
  by_cases hlow : v.toInt < env.junk.rollbackMinVersion.toInt
  · rw [if_pos hlow] at hplan
    simp only [rollbackUpdateVersion, rollbackUpdate, hplan]
  · have hsame : v = env.junk.rollbackMinVersion :=
      BitVec.toInt_inj.mp (Int.le_antisymm (Int.not_lt.mp hlt) (Int.not_lt.mp hlow))
    rw [if_neg hlow, if_pos hsame] at hplan
    simp only [rollbackUpdateVersion, rollbackUpdate, hplan]

theorem Blank.latest_written (h : Blank n f) {d : RollbackData n} {w : Nat}
    (hcookie : d.cookie = cookie) (hid : 0 ≤ d.id.toInt) :
    Latest n (written w f 1 d (block w d).length) 1 := by
  have hread : readRollback (written w f 1 d (block w d).length) 1 = d :=
    readRollback_written (length_block w d)
  -- region 1 is written, and region 0 still has no cookie
  refine latest_of_newer ⟨?_, ?_⟩ fun hother => ?_
  · rw [hread]
    exact hcookie
  · rw [hread]
    exact hid
  · have hold : (readRollback (written w f 1 d (block w d).length) 0 : RollbackData n) =
        readRollback f 0 := readRollback_written_other (by decide)
    exact absurd ((congrArg RollbackData.cookie hold).symm.trans hother) (h 0)

theorem Blank.eq_of_written (h : Blank n f) {d e : RollbackData n} {w : Nat} {region : Fin 2}
    (hread : readRollback (written w f 1 d (block w d).length) region = e)
    (hcookie : e.cookie = cookie) : d = e := by
  match region with
  | 0 =>
    rw [readRollback_written_other (by decide)] at hread
    exact absurd ((congrArg RollbackData.cookie hread).trans hcookie) (h 0)
  | 1 => exact (readRollback_written (length_block w d)).symm.trans hread

theorem Blank.writesFirst_iff (h : Blank cfg.secretLen f) (hproceeds : Proceeds env) :
    WritesFirst cfg env v f ↔
      env.junk.id = 0 ∧ env.junk.rollbackMinVersion.toInt < v.toInt := by
  by_cases hlt : env.junk.rollbackMinVersion.toInt < v.toInt
  · obtain ⟨hret, hlast⟩ := h.update_of_lt hproceeds hlt
    constructor
    · rintro ⟨-, f', hf', region, -, hread⟩
      cases hlast.symm.trans hf'
      -- the only block with a cookie is the one that was written, so its id is the one counted up
      have hid : env.junk.id + 1 = 1 :=
        congrArg RollbackData.id (h.eq_of_written hread rfl)
      exact ⟨by simpa using hid, hlt⟩
    · rintro ⟨hid, -⟩
      refine ⟨hret, _, hlast, 1, h.latest_written rfl ?_, ?_⟩
      · simp only [nextBlock, hid]
        decide
      · rw [readRollback_written (length_block _ _), nextBlock, hid]
        rfl
  · constructor
    · rintro ⟨-, f', hf', -⟩
      rw [h.update_of_not_lt hproceeds hlt] at hf'
      cases hf'
    · rintro ⟨-, hlt'⟩
      exact absurd hlt' hlt

/-- What the callers get from flash without a block: zeros, the minimum version 0, and a first update
to a version above it -/
structure BlankLaw (cfg : Config) (f : Flash) (data var : RollbackData cfg.secretLen)
    (env : Env cfg.secretLen) (v : BitVec 32) : Prop where
  zeroed : Zeroed (getLatestRollback f data).2
  minimum : rollbackGetMinimumVersion f var = 0
  first : WritesFirst cfg env v f

/-- With `data` the block of a caller, `var` the variable of `rollback_get_minimum_version` and
`env.junk` the block of `rollback_update` before, the law holds exactly when these had the zeros that
it speaks of already. -/
theorem blankLaw_iff {data var : RollbackData cfg.secretLen} (hblank : Blank cfg.secretLen f)
    (hproceeds : Proceeds env) :
    BlankLaw cfg f data var env v ↔
      (data.id = 0 ∧ data.rollbackMinVersion = 0) ∧ var.rollbackMinVersion = 0 ∧
        env.junk.id = 0 ∧ env.junk.rollbackMinVersion.toInt < v.toInt := by
  constructor
  · rintro ⟨hzeroed, hminimum, hfirst⟩
    exact ⟨(hblank.zeroed_iff data).mp hzeroed, (hblank.minimum_iff var).mp hminimum,
      (hblank.writesFirst_iff hproceeds).mp hfirst⟩
  · rintro ⟨hdata, hvar, hjunk⟩
    exact ⟨(hblank.zeroed_iff data).mpr hdata, (hblank.minimum_iff var).mpr hvar,
      (hblank.writesFirst_iff hproceeds).mpr hjunk⟩

end Update

def secretConfig : Config where
  secretSize := some 4
  flashWriteSize := 4
  addEntropy := fun _ _ => none

def staleData : RollbackData 4 :=
  ⟨0x20001000, 7, #v[1, 2, 3, 4], 0x08000000⟩

theorem erased_blank : Blank 4 (fun _ => erased) := by
  intro region
  decide +revert

theorem blankLaw_zeros :
    BlankLaw secretConfig (fun _ => erased) ⟨0, 0, #v[9, 9, 9, 9], 9⟩ ⟨5, 0, #v[9, 9, 9, 9], 9⟩
      ⟨false, false, ⟨0, 0, #v[9, 9, 9, 9], 9⟩, .done⟩ 3 :=
  (@blankLaw_iff (fun _ => erased) secretConfig _ _ _ _ erased_blank ⟨rfl, rfl, rfl⟩).mpr
    (by decide)

/-- Erased flash and a stack with other values in it: the minimum version is the one on the stack, and
a first update to a lower version is refused. -/
theorem blankLaw_fails :
    Blank 4 (fun _ => erased) ∧
      ¬ Zeroed (getLatestRollback (fun _ => erased) staleData).2 ∧
      rollbackGetMinimumVersion (fun _ => erased) staleData = 7 ∧
      (rollbackUpdateVersion secretConfig ⟨false, false, staleData, .done⟩ 3
        (fun _ => erased)).ret = some .inval :=
  ⟨erased_blank, fun h => absurd h.1 (by decide), by decide, by decide⟩

end ChromiumEc.Rollback
