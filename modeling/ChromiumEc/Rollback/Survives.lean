import ChromiumEc.Rollback.Rollback
import Mathlib.Algebra.Group.Int.Defs

/-!
# Survives — the minimum version over updates that are interrupted

The cookie is written last, so a block that was not written to its end is not valid, and the block of
the latest region is not touched.  At every moment the latest valid block is the one of the last
update that was completed.
-/

namespace ChromiumEc.Rollback

open Lib

variable {n : Nat} {f : Flash} {region other : Fin 2} {d : RollbackData n}

/-! ## Blocks -/

theorem length_block (w : Nat) (d : RollbackData n) :
    sizeofRollbackData n ≤ (block w d).length := by
  simp only [block, List.length_append, length_bytesOf, Vector.length_toList,
    List.length_replicate, sizeofRollbackData]
  omega

theorem readRollback_of_load (hid : load (f region) 0 4 = bytesOf d.id)
    (hversion : load (f region) 4 4 = bytesOf d.rollbackMinVersion)
    (hsecret : load (f region) 8 n = d.secret.toList)
    (hcookie : load (f region) (8 + n) 4 = bytesOf d.cookie) : readRollback f region = d := by
  have hsame : (Vector.ofFn fun i : Fin n => f region (8 + i)) = d.secret := by
    refine Vector.ext fun i hi => ?_
    have hbyte : (load (f region) 8 n)[i]? = d.secret.toList[i]? := congrArg (·[i]?) hsecret
    simpa [load, hi] using hbyte
  obtain ⟨id, version, secret, c⟩ := d
  simp only [readRollback, loadWord_of_load hid, loadWord_of_load hversion,
    loadWord_of_load hcookie, hsame]

theorem readRollback_written {w bytes : Nat} (hbytes : sizeofRollbackData n ≤ bytes) :
    readRollback (written w f region d bytes) region = d := by
  have hmem : (written w f region d bytes) region =
      store erased 0 ((block w d).take bytes) := Function.update_self ..
  have hlen : sizeofRollbackData n ≤ ((block w d).take bytes).length := by
    have hblock := length_block w d
    rw [List.length_take]
    omega
  have hpart : ∀ i m, i + m ≤ sizeofRollbackData n →
      load (written w f region d bytes region) i m = ((block w d).drop i).take m := by
    intro i m him
    have hload := @load_store_part erased 0 m ((block w d).take bytes) i (by omega)
    rw [Nat.zero_add] at hload
    rw [hmem, hload, List.drop_take, List.take_take, Nat.min_eq_left (by omega)]
  simp only [sizeofRollbackData] at hpart
  have hparts : block w d = bytesOf d.id ++ (bytesOf d.rollbackMinVersion ++ (d.secret.toList ++
      (bytesOf d.cookie ++ List.replicate ((sizeofRollbackData n + w - 1) / w * w -
        sizeofRollbackData n) 0xff))) := by
    simp only [block, List.append_assoc]
  refine readRollback_of_load ?_ ?_ ?_ ?_
  · rw [hpart 0 4 (by omega), hparts]
    rfl
  · rw [hpart 4 4 (by omega), hparts]
    rfl
  · rw [hpart 8 n (by omega), hparts]
    simp [bytesOf]
  · rw [hpart (8 + n) 4 (by omega), hparts, ← List.drop_drop]
    simp [bytesOf]

theorem cookie_written_ne {w bytes : Nat} (hbytes : bytes < sizeofRollbackData n) :
    (readRollback (written w f region d bytes) region : RollbackData n).cookie ≠ cookie := by
  have hmem : (written w f region d bytes) region =
      store erased 0 ((block w d).take bytes) := Function.update_self ..
  simp only [sizeofRollbackData] at hbytes
  -- the last byte of the cookie is still erased, and the cookie does not end in `0xff`
  have hlast : written w f region d bytes region (8 + n + 3) = 0xff := by
    have hlen : ((block w d).take bytes).length ≤ bytes := List.length_take_le ..
    rw [hmem, store_of_le (by omega)]
    rfl
  intro h
  have hvalue := congrArg BitVec.toNat h
  simp only [readRollback, loadWord, hlast, BitVec.toNat_ofNat] at hvalue
  have h0 := (written w f region d bytes region (8 + n)).toNat_lt
  have h1 := (written w f region d bytes region (8 + n + 1)).toNat_lt
  have h2 := (written w f region d bytes region (8 + n + 2)).toNat_lt
  have hff : (0xff : UInt8).toNat = 255 := rfl
  have hcookie : cookie.toNat = 185672243 := rfl
  rw [hff, hcookie] at hvalue
  omega

theorem readRollback_written_other {w bytes : Nat} (h : other ≠ region) :
    (readRollback (written w f region d bytes) other : RollbackData n) = readRollback f other := by
  simp only [readRollback, written, Function.update_of_ne h]

/-! ## The latest region -/

def Valid (n : Nat) (f : Flash) (region : Fin 2) : Prop :=
  (readRollback f region : RollbackData n).cookie = cookie ∧
    0 ≤ (readRollback f region : RollbackData n).id.toInt

def Latest (n : Nat) (f : Flash) (region : Fin 2) : Prop :=
  Valid n f region ∧ minRegion n f = some region

theorem latest_of_newer {f : Flash} {region : Fin 2} (h : Valid n f region)
    (hother : (readRollback f (region + 1) : RollbackData n).cookie = cookie →
      (readRollback f (region + 1) : RollbackData n).id.toInt <
        (readRollback f region : RollbackData n).id.toInt) : Latest n f region := by
  refine ⟨h, ?_⟩
  obtain ⟨hcookie, hid⟩ := h
  simp only [minRegion, latestStep]
  -- the loop looks at region 0 first, and replaces it only by a newer one
  match region with
  | 0 =>
    have hother : (readRollback f 1 : RollbackData n).cookie = cookie →
      (readRollback f 1 : RollbackData n).id.toInt <
        (readRollback f 0 : RollbackData n).id.toInt := hother
    have hfirst : (readRollback f 0 : RollbackData n).id.toInt > -1 := by omega
    rw [if_neg (not_not_intro hcookie), if_pos hfirst]
    by_cases hc : (readRollback f 1 : RollbackData n).cookie = cookie
    · have hold := hother hc
      rw [if_neg (not_not_intro hc), if_neg (by simp only; omega)]
    · rw [if_pos hc]
  | 1 =>
    have hother : (readRollback f 0 : RollbackData n).cookie = cookie →
      (readRollback f 0 : RollbackData n).id.toInt <
        (readRollback f 1 : RollbackData n).id.toInt := hother
    rw [if_neg (not_not_intro hcookie)]
    refine congrArg Prod.fst (if_pos ?_)
    by_cases hc : (readRollback f 0 : RollbackData n).cookie = cookie
    · have hold := hother hc
      rw [if_neg (not_not_intro hc)]
      by_cases hpos : (readRollback f 0 : RollbackData n).id.toInt > -1
      · rw [if_pos hpos]
        exact hold
      · rw [if_neg hpos]
        simp only
        omega
    · rw [if_pos hc]
      simp only
      omega

def FoundSoFar (n : Nat) (f : Flash) (best : Option (Fin 2) × Int) : Prop :=
  best = (none, -1) ∨ ∃ region, Valid n f region ∧
    best = (some region, (readRollback f region : RollbackData n).id.toInt)

theorem FoundSoFar.step {f : Flash} {best : Option (Fin 2) × Int} (h : FoundSoFar n f best)
    (region : Fin 2) : FoundSoFar n f (latestStep n f best region) ∧
      (Valid n f region ∨ best.1 ≠ none → (latestStep n f best region).1 ≠ none) := by
  have hid : -1 ≤ best.2 := by
    rcases h with rfl | ⟨found, hfound, rfl⟩
    · exact Int.le_refl _
    · exact Int.le_trans (by decide) hfound.2
  simp only [latestStep]
  by_cases hc : (readRollback f region : RollbackData n).cookie = cookie
  · rw [if_neg (not_not_intro hc)]
    by_cases hnew : (readRollback f region : RollbackData n).id.toInt > best.2
    · rw [if_pos hnew]
      exact ⟨.inr ⟨region, ⟨hc, by omega⟩, rfl⟩, fun _ => Option.some_ne_none region⟩
    · rw [if_neg hnew]
      -- a valid region has an id above -1, so it loses only to one that was found before
      refine ⟨h, fun hsome => ?_⟩
      rcases h with rfl | ⟨found, _, rfl⟩
      · have hvalid := hsome.resolve_right fun hne => hne rfl
        have hpos := hvalid.2
        simp only at hnew
        omega
      · exact Option.some_ne_none found
  · rw [if_pos hc]
    exact ⟨h, fun hsome => hsome.resolve_left fun hvalid => hc hvalid.1⟩

theorem exists_latest {f : Flash} (h : ∃ region, Valid n f region) :
    ∃ region, Latest n f region := by
  obtain ⟨hfound, hsome⟩ := @FoundSoFar.step n f (none, -1) (.inl rfl) 0
  obtain ⟨hfound', hsome'⟩ := hfound.step 1
  have hne : minRegion n f ≠ none := by
    obtain ⟨region, hvalid⟩ := h
    match region with
    | 0 => exact hsome' (.inr (hsome (.inl hvalid)))
    | 1 => exact hsome' (.inl hvalid)
  rcases hfound' with hnone | ⟨region, hvalid, heq⟩
  · exact absurd (congrArg Prod.fst hnone) hne
  · exact ⟨region, hvalid, congrArg Prod.fst heq⟩

theorem Latest.get {f : Flash} {region : Fin 2} (h : Latest n f region) (junk : RollbackData n) :
    getLatestRollback f junk = (region, readRollback f region) := by
  simp only [getLatestRollback, h.2]

theorem Latest.version {f : Flash} {region : Fin 2} (h : Latest n f region)
    (junk : RollbackData n) : rollbackGetMinimumVersion f junk =
      (readRollback f region : RollbackData n).rollbackMinVersion.toInt := by
  rw [rollbackGetMinimumVersion, h.get]

/-! ## Updates -/

theorem planUpdate_ok {cfg : Config} {env : Env cfg.secretLen} {next : BitVec 32}
    {entropy : Option (List UInt8)} {f : Flash} {region : Fin 2}
    (hlatest : Latest cfg.secretLen f region) {r : Fin 2 × RollbackData cfg.secretLen}
    (h : planUpdate cfg env next entropy f = .ok r) :
    r.1 = region + 1 ∧ r.2.cookie = cookie ∧
      r.2.id = (readRollback f region : RollbackData cfg.secretLen).id + 1 ∧
      (readRollback f region : RollbackData cfg.secretLen).rollbackMinVersion.toInt ≤
        r.2.rollbackMinVersion.toInt ∧
      (entropy = none → r.2.rollbackMinVersion = next) := by
  unfold planUpdate at h
  rw [hlatest.get] at h
  generalize (readRollback f region : RollbackData cfg.secretLen) = data at h ⊢
  simp only at h
  split at h
  · cases h
  · split at h
    · rename_i bytes hbytes
      -- with entropy, the version is the larger one of the two
      have hsome : entropy ≠ none := by
        rintro rfl
        simp at hbytes
      split at h
      · split at h
        · cases h
        · cases h
          refine ⟨rfl, rfl, rfl, ?_, fun hnone => absurd hnone hsome⟩
          simp only
          split
          · exact Int.le_refl _
          · omega
      · cases h
    · split at h
      · cases h
      · split at h
        · cases h
        · split at h
          · cases h
          · cases h
            exact ⟨rfl, rfl, rfl, by simp only; omega, fun _ => rfl⟩

/-! ## Runs -/

inductive Request
  | version (nextMinVersion : BitVec 32)
  | entropy (data : List UInt8)

structure Update (n : Nat) where
  request : Request
  env : Env n

def Update.plan (cfg : Config) (u : Update cfg.secretLen) (f : Flash) :
    Except EcError (Fin 2 × RollbackData cfg.secretLen) :=
  match u.request with
  | .version nextMinVersion => planUpdate cfg u.env nextMinVersion none f
  | .entropy data => planUpdate cfg u.env (-1) (some data) f

def Update.run (cfg : Config) (u : Update cfg.secretLen) (f : Flash) : Outcome :=
  match u.request with
  | .version nextMinVersion => rollbackUpdateVersion cfg u.env nextMinVersion f
  | .entropy data => rollbackAddEntropy cfg u.env data f

/-- The flash at a moment, and the largest version of the updates that were completed until then.  An
update is complete when its block is written up to the end of the cookie. -/
structure Moment where
  flash : Flash
  completed : Int

def Update.moments (cfg : Config) (u : Update cfg.secretLen) (m : Moment) : List Moment :=
  match u.plan cfg m.flash with
  | .error _ => []
  | .ok r => (u.run cfg m.flash).moments.zipIdx.map fun (f, bytes) =>
    ⟨f, if sizeofRollbackData cfg.secretLen ≤ bytes then
      max m.completed r.2.rollbackMinVersion.toInt else m.completed⟩

def Moment.after (m : Moment) (ms : List Moment) : Moment :=
  ms.getLast?.getD m

def history (cfg : Config) : Moment → List (Update cfg.secretLen) → List Moment
  | _, [] => []
  | m, u :: us => u.moments cfg m ++ history cfg (m.after (u.moments cfg m)) us

/-- There is a latest region, its version is the largest one that was completed, and its id leaves
room for `b` more updates. -/
def Good (n b : Nat) (m : Moment) : Prop :=
  ∃ region, Latest n m.flash region ∧
    (readRollback m.flash region : RollbackData n).rollbackMinVersion.toInt = m.completed ∧
    (readRollback m.flash region : RollbackData n).id.toInt + b < 2 ^ 31

theorem Good.mono {b b' : Nat} {m : Moment} (h : Good n b m) (hb : b' ≤ b) : Good n b' m := by
  obtain ⟨region, hlatest, hversion, hid⟩ := h
  exact ⟨region, hlatest, hversion, by omega⟩

theorem toInt_add_one {x : BitVec 32} (hpos : 0 ≤ x.toInt) (h : x.toInt + 1 < 2 ^ 31) :
    (x + 1).toInt = x.toInt + 1 := by
  have hone : (1 : BitVec 32).toInt = 1 := rfl
  rw [BitVec.toInt_add, hone]
  have hpow : (2 : Int) ^ 31 = 2147483648 := rfl
  rw [Int.bmod_def]
  omega

theorem Good.written {cfg : Config} {b w bytes : Nat} {m : Moment}
    (h : Good cfg.secretLen (b + 1) m) {u : Update cfg.secretLen}
    {r : Fin 2 × RollbackData cfg.secretLen} (hplan : u.plan cfg m.flash = .ok r) :
    m.completed ≤ r.2.rollbackMinVersion.toInt ∧
      Good cfg.secretLen b ⟨Rollback.written w m.flash r.1 r.2 bytes,
        if sizeofRollbackData cfg.secretLen ≤ bytes then
          max m.completed r.2.rollbackMinVersion.toInt else m.completed⟩ := by
  obtain ⟨region, hlatest, hversion, hid⟩ := h
  have hplanned : r.1 = region + 1 ∧ r.2.cookie = cookie ∧
      r.2.id = (readRollback m.flash region : RollbackData cfg.secretLen).id + 1 ∧
      (readRollback m.flash region : RollbackData cfg.secretLen).rollbackMinVersion.toInt ≤
        r.2.rollbackMinVersion.toInt := by
    unfold Update.plan at hplan
    split at hplan
    · obtain ⟨h1, h2, h3, h4, _⟩ := planUpdate_ok hlatest hplan
      exact ⟨h1, h2, h3, h4⟩
    · obtain ⟨h1, h2, h3, h4, _⟩ := planUpdate_ok hlatest hplan
      exact ⟨h1, h2, h3, h4⟩
  obtain ⟨hregion, hcookie, hnext, hge⟩ := hplanned
  have hne : region ≠ r.1 := by
    rw [hregion]
    omega
  have hother : r.1 + 1 = region := by
    rw [hregion]
    omega
  have hkept : (readRollback (Rollback.written w m.flash r.1 r.2 bytes) region :
      RollbackData cfg.secretLen) = readRollback m.flash region := readRollback_written_other hne
  have hpos := hlatest.1.2
  rw [hversion] at hge
  refine ⟨hge, ?_⟩
  -- with its cookie the new block is the latest; without it, it is not valid, and the old one stays
  by_cases hbytes : sizeofRollbackData cfg.secretLen ≤ bytes
  · have hnew : readRollback (Rollback.written w m.flash r.1 r.2 bytes) r.1 = r.2 :=
      readRollback_written hbytes
    have hincrement := toInt_add_one hpos (by omega)
    rw [if_pos hbytes, Int.max_eq_right hge]
    refine ⟨r.1, latest_of_newer ⟨?_, ?_⟩ ?_, ?_, ?_⟩
    · rw [hnew, hcookie]
    · rw [hnew, hnext, hincrement]
      omega
    · intro _
      rw [hother, hkept, hnew, hnext, hincrement]
      omega
    · rw [hnew]
    · rw [hnew, hnext, hincrement]
      omega
  · rw [if_neg hbytes]
    refine ⟨region, latest_of_newer ?_ ?_, ?_, ?_⟩
    · rw [Valid, hkept]
      exact hlatest.1
    · intro hc
      rw [← hregion] at hc
      exact absurd hc (cookie_written_ne (by omega))
    · rw [hkept]
      exact hversion
    · rw [hkept]
      omega

theorem run_moments {cfg : Config} {u : Update cfg.secretLen} {f : Flash}
    {r : Fin 2 × RollbackData cfg.secretLen} (hplan : u.plan cfg f = .ok r) :
    ∃ count, (u.run cfg f).moments =
      (List.range count).map (Rollback.written cfg.flashWriteSize f r.1 r.2) := by
  have hupdate : ∀ {next : BitVec 32} {entropy : Option (List UInt8)},
      planUpdate cfg u.env next entropy f = .ok r →
      ∃ count, (rollbackUpdate cfg u.env next entropy f).moments =
        (List.range count).map (Rollback.written cfg.flashWriteSize f r.1 r.2) := by
    intro next entropy h
    unfold rollbackUpdate
    rw [h]
    obtain ⟨region, d⟩ := r
    cases hfate : u.env.fate with
    | done => exact ⟨_, rfl⟩
    | eraseFails effect =>
      cases effect with
      | true => exact ⟨1, rfl⟩
      | false => exact ⟨0, rfl⟩
    | writeFails bytes => exact ⟨_, rfl⟩
    | powerLoss bytes => exact ⟨_, rfl⟩
  unfold Update.plan at hplan
  unfold Update.run
  cases hrequest : u.request with
  | version next =>
    rw [hrequest] at hplan
    exact hupdate hplan
  | entropy data =>
    rw [hrequest] at hplan
    exact hupdate hplan

theorem Good.moments {cfg : Config} {b : Nat} {m : Moment} (h : Good cfg.secretLen (b + 1) m)
    (u : Update cfg.secretLen) :
    (∀ m' ∈ u.moments cfg m, Good cfg.secretLen b m' ∧ m.completed ≤ m'.completed) ∧
      (u.moments cfg m).Pairwise fun m' m'' => m'.completed ≤ m''.completed := by
  unfold Update.moments
  split
  · exact ⟨fun m' hm' => absurd hm' List.not_mem_nil, .nil⟩
  · rename_i r hplan
    obtain ⟨count, hcount⟩ := run_moments hplan
    obtain ⟨hge, _⟩ := @Good.written cfg b 1 0 m h u r hplan
    rw [hcount, List.zipIdx_eq_zip_range', List.length_map, List.length_range,
      ← List.range_eq_range', ← List.map_id (List.range count), List.map_map, List.zip_map',
      List.map_map]
    constructor
    · intro m' hm'
      obtain ⟨bytes, _, rfl⟩ := List.mem_map.mp hm'
      refine ⟨(h.written hplan).2, ?_⟩
      simp only [Function.comp_apply]
      split
      · exact Int.le_max_left ..
      · exact Int.le_refl _
    -- once the cookie is written, it stays written at the moments that follow
    · refine List.pairwise_map.mpr (List.pairwise_lt_range.imp fun {j j'} hlt => ?_)
      simp only [Function.comp_apply, id_eq]
      rw [Int.max_eq_right hge]
      split
      · exact Int.le_of_eq (if_pos (by omega)).symm
      · split
        · exact hge
        · exact Int.le_refl _

theorem Good.after {b : Nat} {m : Moment} {ms : List Moment} (h : Good n b m)
    (hms : ∀ m' ∈ ms, Good n b m' ∧ m.completed ≤ m'.completed) :
    Good n b (m.after ms) ∧ m.completed ≤ (m.after ms).completed := by
  unfold Moment.after
  cases hlast : ms.getLast? with
  | none => exact ⟨h, Int.le_refl _⟩
  | some m' => exact hms m' (List.mem_of_getLast? hlast)

def final (cfg : Config) (m : Moment) (us : List (Update cfg.secretLen)) : Moment :=
  us.foldl (fun m u => m.after (u.moments cfg m)) m

theorem Good.history {cfg : Config} {b : Nat} {us : List (Update cfg.secretLen)} {m : Moment}
    (h : Good cfg.secretLen (us.length + b) m) :
    Good cfg.secretLen b (final cfg m us) ∧
      (∀ m' ∈ history cfg m us, Good cfg.secretLen 0 m' ∧ m.completed ≤ m'.completed) ∧
      (history cfg m us).Pairwise fun m' m'' => m'.completed ≤ m''.completed := by
  -- each update takes one of the ids that `Good` leaves room for
  induction us generalizing m with
  | nil =>
    rw [List.length_nil, Nat.zero_add] at h
    exact ⟨h, fun m' hm' => absurd hm' List.not_mem_nil, .nil⟩
  | cons u us ih =>
    have hlen : (u :: us).length + b = us.length + b + 1 := by
      rw [List.length_cons]
      omega
    rw [hlen] at h
    obtain ⟨hall, hsorted⟩ := h.moments u
    obtain ⟨hafter, hge⟩ := (h.mono (Nat.le_succ _)).after hall
    obtain ⟨hend, hrest, hrestSorted⟩ := ih hafter
    refine ⟨hend, ?_, ?_⟩
    · intro m' hm'
      rcases List.mem_append.mp hm' with hm' | hm'
      · exact ⟨(hall m' hm').1.mono (Nat.zero_le _), (hall m' hm').2⟩
      · exact ⟨(hrest m' hm').1, Int.le_trans hge (hrest m' hm').2⟩
    · refine List.pairwise_append.mpr ⟨hsorted, hrestSorted, fun m' hm' m'' hm'' => ?_⟩
      have hlast : m'.completed ≤ (m.after (u.moments cfg m)).completed := by
        unfold Moment.after
        cases hget : (u.moments cfg m).getLast? with
        | none =>
          rw [List.getLast?_eq_none_iff.mp hget] at hm'
          exact absurd hm' List.not_mem_nil
        | some last =>
          have hsplit := List.dropLast_append_getLast? last hget
          rw [← hsplit] at hm' hsorted
          rcases List.mem_append.mp hm' with hm' | hm'
          · exact (List.pairwise_append.mp hsorted).2.2 m' hm' last List.mem_cons_self
          · rw [List.mem_singleton.mp hm']
            exact Int.le_refl _
      exact Int.le_trans hlast (hrest m'' hm'').2

theorem Good.version {b : Nat} {m : Moment} (h : Good n b m) (junk : RollbackData n) :
    rollbackGetMinimumVersion m.flash junk = m.completed := by
  obtain ⟨region, hlatest, hversion, _⟩ := h
  rw [hlatest.version, hversion]

theorem Good.update {cfg : Config} {b : Nat} {m : Moment} (h : Good cfg.secretLen (b + 1) m)
    {env : Env cfg.secretLen} {v : BitVec 32} (hv : m.completed < v.toInt)
    (hret : (rollbackUpdateVersion cfg env v m.flash).ret = some .success)
    (junk : RollbackData cfg.secretLen) :
    rollbackGetMinimumVersion (m.after (Update.moments cfg ⟨.version v, env⟩ m)).flash junk =
      v.toInt := by
  obtain ⟨region, hlatest, hversion, hid⟩ := id h
  rw [rollbackUpdateVersion, rollbackUpdate] at hret
  cases hplan : planUpdate cfg env v none m.flash with
  | error e =>
    -- an update that is not planned succeeds only if the version is the current one
    exfalso
    rw [hplan] at hret
    unfold planUpdate at hplan
    rw [hlatest.get] at hplan
    generalize (readRollback m.flash region : RollbackData cfg.secretLen) = data at hversion hplan
    have he : e = .success := Option.some.inj hret
    subst he
    simp only [ite_self] at hplan
    split at hplan
    · cases hplan
    · split at hplan
      · cases hplan
      · split at hplan
        · rename_i heq
          rw [heq, hversion] at hv
          exact Int.lt_irrefl _ hv
        · split at hplan
          · cases hplan
          · cases hplan
  | ok r =>
    rw [hplan] at hret
    obtain ⟨next, d⟩ := r
    -- any other fate returns an error, or does not return
    have hdone : env.fate = .done := by
      cases hfate : env.fate with
      | done => rfl
      | eraseFails effect => simp [hfate] at hret
      | writeFails bytes => simp [hfate] at hret
      | powerLoss bytes => simp [hfate] at hret
    have hu : Update.plan cfg ⟨.version v, env⟩ m.flash = .ok (next, d) := hplan
    have hnew : d.rollbackMinVersion = v := (planUpdate_ok hlatest hplan).2.2.2.2 rfl
    have hmoments : (Update.run cfg ⟨.version v, env⟩ m.flash).moments =
        (List.range ((block cfg.flashWriteSize d).length + 1)).map
          (Rollback.written cfg.flashWriteSize m.flash next d) := by
      simp only [Update.run, rollbackUpdateVersion, rollbackUpdate, hplan, hdone]
    have hlast : m.after (Update.moments cfg ⟨.version v, env⟩ m) =
        ⟨Rollback.written cfg.flashWriteSize m.flash next d (block cfg.flashWriteSize d).length,
          max m.completed v.toInt⟩ := by
      unfold Update.moments Moment.after
      rw [hu]
      simp only [hmoments]
      rw [List.range_succ, List.map_append, List.zipIdx_append, List.map_append]
      simp [length_block, hnew]
    have hgood := (@Good.written cfg b cfg.flashWriteSize (block cfg.flashWriteSize d).length m h
      ⟨.version v, env⟩ (next, d) hu).2
    rw [if_pos (length_block cfg.flashWriteSize d), hnew] at hgood
    rw [hlast, hgood.version]
    exact Int.max_eq_right (Int.le_of_lt hv)

/-- Over any run of updates that are done, fail or are interrupted, there is a valid region at every
moment, the minimum version is the largest version that was completed, and it does not go down.  At
the end of the run, a version above the current one that is written becomes the current one. -/
theorem rollback_law {cfg : Config} {f : Flash} {us : List (Update cfg.secretLen)}
    {junk : RollbackData cfg.secretLen} (hvalid : ∃ region, Valid cfg.secretLen f region)
    (hids : ∀ region, Valid cfg.secretLen f region →
      (readRollback f region : RollbackData cfg.secretLen).id.toInt + (us.length + 1) < 2 ^ 31) :
    let m : Moment := ⟨f, rollbackGetMinimumVersion f junk⟩
    (∀ m' ∈ m :: history cfg m us, (∃ region, Valid cfg.secretLen m'.flash region) ∧
      ∀ junk : RollbackData cfg.secretLen,
        rollbackGetMinimumVersion m'.flash junk = m'.completed) ∧
      ((m :: history cfg m us).map Moment.completed).Pairwise (· ≤ ·) ∧
      ∀ env v, (final cfg m us).completed < v.toInt →
        (rollbackUpdateVersion cfg env v (final cfg m us).flash).ret = some .success →
        ∀ junk : RollbackData cfg.secretLen, rollbackGetMinimumVersion
          ((final cfg m us).after
            (Update.moments cfg ⟨.version v, env⟩ (final cfg m us))).flash junk = v.toInt := by
  intro m
  obtain ⟨region, hlatest⟩ := exists_latest hvalid
  have hgood : Good cfg.secretLen (us.length + 1) m :=
    ⟨region, hlatest, (hlatest.version junk).symm, by exact_mod_cast hids region hlatest.1⟩
  obtain ⟨hend, hall, hsorted⟩ := hgood.history
  have hevery : ∀ m' ∈ m :: history cfg m us, Good cfg.secretLen 0 m' := by
    intro m' hm'
    rcases List.mem_cons.mp hm' with rfl | hm'
    · exact hgood.mono (Nat.zero_le _)
    · exact (hall m' hm').1
  refine ⟨fun m' hm' => ⟨?_, (hevery m' hm').version⟩, ?_, ?_⟩
  · obtain ⟨region, hlatest, _⟩ := hevery m' hm'
    exact ⟨region, hlatest.1⟩
  · exact List.pairwise_map.mpr (.cons (fun m' hm' => (hall m' hm').2) hsorted)
  · intro env v hv hret junk
    exact hend.update hv hret junk

def demoConfig : Config where
  secretSize := none
  flashWriteSize := 8
  addEntropy := fun _ _ => none

def demoFlash : Flash :=
  written 8 (fun _ => erased) ⟨0, Nat.two_pos⟩ (⟨0, 1, #v[], cookie⟩ : RollbackData 0) 16

def demoUpdates : List (Update demoConfig.secretLen) :=
  [⟨.version 5, false, false, ⟨0, 0, #v[], 0⟩, .powerLoss 10⟩,
    ⟨.version 3, false, false, ⟨0, 0, #v[], 0⟩, .done⟩]

theorem rollback_law_demo :
    let m : Moment :=
      ⟨demoFlash, rollbackGetMinimumVersion demoFlash (⟨0, 0, #v[], 0⟩ : RollbackData 0)⟩
    (∀ m' ∈ m :: history demoConfig m demoUpdates,
      (∃ region, Valid demoConfig.secretLen m'.flash region) ∧
        ∀ junk : RollbackData demoConfig.secretLen,
          rollbackGetMinimumVersion m'.flash junk = m'.completed) ∧
      (m :: history demoConfig m demoUpdates).map Moment.completed =
        List.replicate 24 1 ++ List.replicate 5 3 := by
  intro m
  have hids : ∀ region, (readRollback demoFlash region : RollbackData 0).id.toInt ≤ 0 := by
    decide
  have hlaw := @rollback_law demoConfig demoFlash demoUpdates ⟨0, 0, #v[], 0⟩
    ⟨0, by decide, by decide⟩
    (fun region _ => Int.lt_of_le_of_lt (Int.add_le_add_right (hids region) _) (by decide))
  exact ⟨hlaw.1, by decide +kernel⟩

end ChromiumEc.Rollback
