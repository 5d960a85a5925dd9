import Mathlib.Data.List.Induction
import Mathlib.Data.List.TakeWhile
import ChromiumEc.Usbc.Discovery.Record

/-!
# Consume — the SVIDs and the modes of any partner

`dfp_consume_svids` and `dfp_consume_modes` over whole discoveries, whatever the partner answers.
The record stays well formed, and an answer with modes changes the modes of the SVID that was asked
for or none.  `dfp_consume_modes` reads through the result of `pd_get_next_mode`, which is no record
once nothing is left to ask for.
-/

namespace ChromiumEc.Usbc.Discovery

/-! ## What is consumed -/

/-- The data objects of an ACK: the VDM header, and up to `VDO_MAX_OBJECTS` VDOs -/
structure Ack where
  objects : List UInt32
  pos : 1 ≤ objects.length
  le : objects.length ≤ vdoMaxSize

namespace Ack

def cnt (a : Ack) : Nat := a.objects.length

def header (a : Ack) : UInt32 := a.objects.getD 0 0

def vdos (a : Ack) : List UInt32 := a.objects.drop 1

end Ack

inductive Answer
  | svids (a : Ack)
  | modes (a : Ack)

def Answer.IsSvids : Answer → Prop
  | svids _ => True
  | modes _ => False

instance : DecidablePred Answer.IsSvids
  | .svids _ => .isTrue trivial
  | .modes _ => .isFalse id

namespace PdDiscovery

def dfpConsumeSvids (a : Ack) (d : PdDiscovery) : PdDiscovery :=
  d.consumeSvids a.cnt a.objects

/-- `dfp_consume_modes`.  The SVID that is compared is read through the pointer which
`pd_get_next_mode` returns: there is no result if that is `NULL`. -/
def dfpConsumeModes (a : Ack) (d : PdDiscovery) : Option PdDiscovery :=
  if d.getNextMode = none then none else some (d.consumeModes a.cnt a.objects)

/-- `pd_get_mode_vdo_for_svid`: the words that are copied to `vdo_out`, and the result.  A type for
which nothing is stored has no record. -/
def getModeVdoForSvid (svid : UInt32) : Option PdDiscovery → List UInt32 × Nat
  | none => ([], 0)
  | some d =>
    match d.svids.find? fun m => m.svid = svid with
    | none => ([], 0)
    | some m => (m.modeVdo.take m.modeCnt, m.modeCnt)

end PdDiscovery

def consume : Answer → PdDiscovery → Option PdDiscovery
  | .svids a, d => some (d.dfpConsumeSvids a)
  | .modes a, d => d.dfpConsumeModes a

/-- The record after some answers, the newest first, starting from the empty record -/
def afterAnswers : List Answer → Option PdDiscovery
  | [] => some PdDiscovery.init
  | answer :: older => (afterAnswers older).bind (consume answer)

/-! ## What the record has to be -/

def SvidModeData.modes (m : SvidModeData) : List UInt32 :=
  m.modeVdo.take m.modeCnt

def halves (vdos : List UInt32) : List UInt32 :=
  vdos.flatMap fun vdo : UInt32 => [vdo >>> 16, vdo &&& 0xffff]

/-- The distinct SVIDs in front of the first zero half word -/
def Ack.svids (a : Ack) : List UInt32 :=
  ((halves a.vdos).takeWhile (· ≠ 0)).eraseDups

structure WellFormed (d : PdDiscovery) : Prop where
  svidCnt_le : d.svids.length ≤ svidDiscoveryMax
  nodup : (d.svids.map SvidModeData.svid).Nodup
  ne_zero : ∀ m ∈ d.svids, m.svid ≠ 0
  modeCnt_le : ∀ m ∈ d.svids, m.modeCnt ≤ m.modeVdo.length ∧ m.modeVdo.length ≤ vdoMaxObjects

/-- `pd_get_mode_vdo_for_svid` writes at most `VDO_MAX_OBJECTS` words, as many as it returns. -/
def CopiesFit (d : PdDiscovery) : Prop :=
  ∀ svid, (PdDiscovery.getModeVdoForSvid svid (some d)).2 ≤ vdoMaxObjects ∧
    (PdDiscovery.getModeVdoForSvid svid (some d)).1.length =
      (PdDiscovery.getModeVdoForSvid svid (some d)).2

/-- What an answer has to change: the SVIDs are stored, or the modes of the SVID in the header of
the answer, if they were asked for. -/
def Stored : Answer → PdDiscovery → PdDiscovery → Prop
  | .svids a, _, d' =>
    d'.svids.map (fun m => (m.svid, m.modes)) = a.svids.map fun svid => (svid, [])
  | .modes a, d, d' =>
    d'.svids.map (fun m => (m.svid, m.modes)) = d.svids.map fun m =>
      (m.svid,
        if m.svid = pdVdoVid a.header ∧ d.getNextMode.map SvidModeData.svid = some m.svid then
          a.vdos
        else m.modes)

/-- One answer of a discovery leaves a well-formed record with what it has to store. -/
def Consumed (answer : Answer) (older : List Answer) : Prop :=
  ∃ d d', afterAnswers older = some d ∧ consume answer d = some d' ∧
    WellFormed d' ∧ CopiesFit d' ∧ Stored answer d d'

def ConsumedRun (answers : List Answer) : Prop :=
  ∀ answer older, answer :: older <:+ answers → Consumed answer older

/-- Modes are consumed only while `pd_get_next_mode` asks for some. -/
def ModesAsked (answers : List Answer) : Prop :=
  ∀ a older, Answer.modes a :: older <:+ answers →
    ∀ d, afterAnswers older = some d → d.getNextMode ≠ none

/-! ## SVIDs -/

variable {a : Ack} {d d' : PdDiscovery} {svids : List SvidModeData} {x : UInt32}

theorem consumeSvidVdos_eq {i : Nat} {vdos : List UInt32} (hi : i + 2 * vdos.length ≤ 12) :
    PdDiscovery.consumeSvidVdos i svids vdos =
      ((halves vdos).takeWhile (· ≠ 0)).foldl (fun svids x => PdDiscovery.addSvid x svids)
        svids := by
  induction vdos generalizing i svids with
  | nil => rfl
  | cons vdo vdos ih =>
    rw [List.length_cons] at hi
    have hin : ¬(svids.length + 12 ≤ i ∨ svidDiscoveryMax ≤ i) := by
      unfold svidDiscoveryMax
      omega
    rw [PdDiscovery.consumeSvidVdos, if_neg hin, halves, List.flatMap_cons, ← halves]
    by_cases hhigh : vdo >>> 16 = 0
    · simp [hhigh]
    · by_cases hlow : vdo &&& 0xffff = 0
      · simp [hhigh, hlow]
      · rw [if_neg hhigh, if_neg hlow, ih (by omega)]
        simp [hhigh, hlow]

section EraseDups

variable {α : Type*} [BEq α] [LawfulBEq α] {l : List α}

theorem eraseDups_concat [DecidableEq α] (l : List α) (x : α) :
    (l ++ [x]).eraseDups = if x ∈ l then l.eraseDups else l.eraseDups ++ [x] := by
  rw [List.eraseDups_append]
  by_cases hx : x ∈ l
  · simp [List.removeAll, hx]
  · simp [List.removeAll, hx, List.eraseDups_cons]

theorem length_eraseDups_le : l.eraseDups.length ≤ l.length := by
  classical
  induction l using List.reverseRecOn with
  | nil => exact le_rfl
  | append_singleton l x ih =>
    rw [eraseDups_concat]
    split
    · rw [List.length_append]
      exact ih.trans (Nat.le_add_right _ _)
    · rw [List.length_append, List.length_append]
      exact Nat.add_le_add_right ih _

theorem nodup_eraseDups : l.eraseDups.Nodup := by
  classical
  induction l using List.reverseRecOn with
  | nil => exact List.nodup_nil
  | append_singleton l x ih =>
    rw [eraseDups_concat]
    split
    · exact ih
    · next hx =>
      have hnew : x ∉ l.eraseDups := mt List.mem_eraseDups.mp hx
      rw [List.nodup_append]
      refine ⟨ih, by simp, fun y hy z hz => ?_⟩
      rw [List.mem_singleton.mp hz]
      exact fun heq => hnew (heq ▸ hy)

end EraseDups

def freshEntry (svid : UInt32) : SvidModeData :=
  ⟨svid, 0, [], .needed⟩

theorem foldl_addSvid (xs : List UInt32) :
    xs.foldl (fun svids x => PdDiscovery.addSvid x svids) [] = xs.eraseDups.map freshEntry := by
  induction xs using List.reverseRecOn with
  | nil => rfl
  | append_singleton xs x ih =>
    have hany : ((xs.eraseDups.map freshEntry).any fun m => m.svid = x) = true ↔ x ∈ xs := by
      simp only [freshEntry, List.any_map, List.any_eq_true, List.mem_eraseDups,
        Function.comp_apply]
      constructor
      · rintro ⟨y, hy, heq⟩
        exact of_decide_eq_true heq ▸ hy
      · exact fun hx => ⟨x, hx, decide_eq_true rfl⟩
    rw [List.foldl_append, ih, eraseDups_concat]
    simp only [List.foldl_cons, List.foldl_nil, PdDiscovery.addSvid]
    by_cases hx : x ∈ xs
    · rw [if_pos (hany.mpr hx), if_pos hx]
    · rw [if_neg (mt hany.mp hx), if_neg hx, List.map_append]
      rfl

theorem length_vdos_le (a : Ack) : a.vdos.length ≤ vdoMaxObjects := by
  have hle := a.le
  rw [Ack.vdos, List.length_drop]
  unfold vdoMaxSize at hle
  unfold vdoMaxObjects
  omega

theorem take_vdos (a : Ack) : (a.objects.drop 1).take (a.cnt - 1) = a.vdos := by
  refine List.take_of_length_le ?_
  rw [List.length_drop, Ack.cnt]

theorem length_halves (vdos : List UInt32) : (halves vdos).length = 2 * vdos.length := by
  induction vdos with
  | nil => rfl
  | cons vdo vdos ih =>
    rw [halves, List.flatMap_cons, ← halves, List.length_append, ih, List.length_cons]
    simp only [List.length_cons, List.length_nil]
    omega

theorem svids_dfpConsumeSvids (h : d.svids = []) :
    (d.dfpConsumeSvids a).svids = a.svids.map freshEntry := by
  have hlen := length_vdos_le a
  unfold vdoMaxObjects at hlen
  have hstored : (d.dfpConsumeSvids a).svids =
      PdDiscovery.consumeSvidVdos d.svids.length d.svids a.vdos := by
    rw [← take_vdos a]
    rfl
  rw [hstored, h, List.length_nil, consumeSvidVdos_eq (by omega), foldl_addSvid]
  rfl

theorem length_svids_le (a : Ack) : a.svids.length ≤ 12 := by
  have hvdos := length_vdos_le a
  unfold vdoMaxObjects at hvdos
  calc
    a.svids.length ≤ ((halves a.vdos).takeWhile (· ≠ 0)).length := length_eraseDups_le
    _ ≤ (halves a.vdos).length := (List.takeWhile_sublist _).length_le
    _ = 2 * a.vdos.length := length_halves a.vdos
    _ ≤ 12 := by omega

theorem wellFormed_fresh {xs : List UInt32} (hd : d.svids = xs.map freshEntry)
    (hlen : xs.length ≤ svidDiscoveryMax) (hnodup : xs.Nodup) (hzero : ∀ x ∈ xs, x ≠ 0) :
    WellFormed d := by
  have hentry : ∀ m ∈ d.svids, ∃ x ∈ xs, freshEntry x = m := by
    rw [hd]
    exact fun m => List.mem_map.mp
  refine ⟨?_, ?_, ?_, ?_⟩
  · rwa [hd, List.length_map]
  · rw [hd, List.map_map]
    have hid : SvidModeData.svid ∘ freshEntry = id := rfl
    rwa [hid, List.map_id]
  · intro m hm
    obtain ⟨x, hx, rfl⟩ := hentry m hm
    exact hzero x hx
  · intro m hm
    obtain ⟨x, -, rfl⟩ := hentry m hm
    exact ⟨le_rfl, Nat.zero_le _⟩

theorem wellFormed_dfpConsumeSvids (h : d.svids = []) : WellFormed (d.dfpConsumeSvids a) := by
  refine wellFormed_fresh (svids_dfpConsumeSvids h) ?_ nodup_eraseDups ?_
  · exact (length_svids_le a).trans (by decide)
  · intro x hx
    have hmem := List.mem_eraseDups.mp hx
    simpa using List.mem_takeWhile_imp hmem

/-! ## Modes -/

section Modes

variable {β : Type*} {svid : UInt32} {st : DiscState} {ms : List SvidModeData}

theorem map_setModesDiscovery (f : SvidModeData → β)
    (hf : ∀ m st, f { m with discovery := st } = f m) (svid : UInt32) (st : DiscState)
    (d : PdDiscovery) : (d.setModesDiscovery svid st).svids.map f = d.svids.map f := by
  have hgo : ∀ ms, (PdDiscovery.setModesDiscovery.go svid st ms).map f = ms.map f := by
    intro ms
    induction ms with
    | nil => rfl
    | cons m ms ih =>
      unfold PdDiscovery.setModesDiscovery.go
      split
      · rw [List.map_cons, List.map_cons, hf]
      · rw [List.map_cons, List.map_cons, ih]
  exact hgo d.svids

def storedEntry (svid : UInt32) (cnt : Nat) (modes : List UInt32) (m : SvidModeData) :
    SvidModeData :=
  if m.svid = svid then { m with modeCnt := cnt, modeVdo := copyWords modes m.modeVdo } else m

theorem svid_storedEntry (cnt : Nat) (modes : List UInt32) (m : SvidModeData) :
    (storedEntry svid cnt modes m).svid = m.svid := by
  unfold storedEntry
  split <;> rfl

theorem svids_storeModes (hnodup : (d.svids.map SvidModeData.svid).Nodup) (svid : UInt32)
    (cnt : Nat) (modes : List UInt32) :
    (d.storeModes svid cnt modes).svids = d.svids.map (storedEntry svid cnt modes) := by
  have hgo : ∀ ms : List SvidModeData, (ms.map SvidModeData.svid).Nodup →
      PdDiscovery.storeModes.go svid cnt modes ms = ms.map (storedEntry svid cnt modes) := by
    intro ms hms
    induction ms with
    | nil => rfl
    | cons m ms ih =>
      rw [List.map_cons, List.nodup_cons] at hms
      unfold PdDiscovery.storeModes.go
      rw [List.map_cons]
      split
      · next heq =>
        have hrest : ms.map (storedEntry svid cnt modes) = ms := by
          refine (List.map_congr_left fun x hx => ?_).trans (List.map_id ms)
          have hother : x.svid ≠ svid := by
            intro hx'
            refine hms.1 ?_
            rw [heq, ← hx']
            exact List.mem_map_of_mem hx
          rw [storedEntry, if_neg hother, id]
        rw [hrest, storedEntry, if_pos heq]
      · next hne => rw [ih hms.2, storedEntry, if_neg hne]
  exact hgo d.svids hnodup

/-- What is known of an SVID, without the state of its discovery -/
def SvidModeData.known (m : SvidModeData) : UInt32 × Nat × List UInt32 :=
  (m.svid, m.modeCnt, m.modeVdo)

theorem WellFormed.of_known (h : WellFormed d)
    (heq : d'.svids.map SvidModeData.known = d.svids.map SvidModeData.known) : WellFormed d' := by
  have hlen : d'.svids.length = d.svids.length := by
    simpa using congrArg List.length heq
  have hsvid : d'.svids.map SvidModeData.svid = d.svids.map SvidModeData.svid := by
    simpa [Function.comp_def, SvidModeData.known] using congrArg (List.map Prod.fst) heq
  have hmem : ∀ m' ∈ d'.svids, ∃ m ∈ d.svids, m.known = m'.known := by
    intro m' hm'
    have hknown : m'.known ∈ d'.svids.map SvidModeData.known := List.mem_map_of_mem hm'
    rw [heq] at hknown
    exact List.mem_map.mp hknown
  refine ⟨hlen ▸ h.svidCnt_le, hsvid ▸ h.nodup, ?_, ?_⟩
  · intro m' hm'
    obtain ⟨m, hm, hknown⟩ := hmem m' hm'
    have hsame : m.svid = m'.svid := congrArg Prod.fst hknown
    exact hsame ▸ h.ne_zero m hm
  · intro m' hm'
    obtain ⟨m, hm, hknown⟩ := hmem m' hm'
    have hcnt : m.modeCnt = m'.modeCnt := congrArg (·.2.1) hknown
    have hvdo : m.modeVdo = m'.modeVdo := congrArg (·.2.2) hknown
    exact hcnt ▸ hvdo ▸ h.modeCnt_le m hm

end Modes

section ConsumeModes

variable {requested : SvidModeData}

theorem getNextMode_mem (h : d.getNextMode = some requested) : requested ∈ d.svids := by
  unfold PdDiscovery.getNextMode at h
  split at h
  · next hfind =>
    cases h
    exact List.mem_of_find?_eq_some hfind
  · split at h
    · cases h
    · exact List.mem_of_find?_eq_some h

/-- What `dfp_consume_modes` leaves of each SVID: the modes are stored with the SVID in the header,
if it is the one that was asked for. -/
theorem known_consumeModes (h : WellFormed d) (hnext : d.getNextMode = some requested) :
    (d.consumeModes a.cnt a.objects).svids.map SvidModeData.known =
      if requested.svid = pdVdoVid a.header then
        d.svids.map fun m =>
          (storedEntry (pdVdoVid a.header) (a.cnt - 1) a.vdos m).known
      else d.svids.map SvidModeData.known := by
  have hmark : ∀ (svid : UInt32) (st : DiscState) (d : PdDiscovery),
      (d.setModesDiscovery svid st).svids.map SvidModeData.known =
        d.svids.map SvidModeData.known :=
    map_setModesDiscovery SvidModeData.known fun _ _ => rfl
  have hstore := svids_storeModes (d := d) h.nodup (pdVdoVid a.header) (a.cnt - 1)
  unfold PdDiscovery.consumeModes
  simp only [hnext]
  rw [show a.objects.getD 0 0 = a.header from rfl, take_vdos]
  by_cases hsame : requested.svid = pdVdoVid a.header
  · have hguard : ¬((d.svids.all fun m => m.svid ≠ pdVdoVid a.header) = true ∨
        requested.svid ≠ pdVdoVid a.header) := by
      rintro (hall | hne)
      · exact of_decide_eq_true (List.all_eq_true.mp hall requested (getNextMode_mem hnext)) hsame
      · exact hne hsame
    rw [if_neg hguard, if_pos hsame]
    split
    · next hcnt =>
      have hnil : a.vdos = [] := by
        rw [Ack.vdos, List.drop_eq_nil_iff]
        unfold Ack.cnt at hcnt
        omega
      rw [hmark, hstore, List.map_map, hnil]
      rfl
    · rw [hmark, hstore, List.map_map]
      rfl
  · rw [if_pos (Or.inr hsame), if_neg hsame, hmark]

theorem length_copyWords_le {src dst : List UInt32} (hsrc : src.length ≤ vdoMaxObjects)
    (hdst : dst.length ≤ vdoMaxObjects) : (copyWords src dst).length ≤ vdoMaxObjects := by
  rw [copyWords, List.length_append, List.length_drop]
  omega

theorem cnt_sub_one (a : Ack) : a.cnt - 1 = a.vdos.length := by
  rw [Ack.vdos, List.length_drop, Ack.cnt]

theorem WellFormed.consumeModes (h : WellFormed d) (hnext : d.getNextMode = some requested) :
    WellFormed (d.consumeModes a.cnt a.objects) := by
  have hknown := known_consumeModes (a := a) h hnext
  split at hknown
  · let stored : PdDiscovery :=
      { d with svids := d.svids.map (storedEntry (pdVdoVid a.header) (a.cnt - 1) a.vdos) }
    have hsvid : stored.svids.map SvidModeData.svid = d.svids.map SvidModeData.svid := by
      rw [List.map_map]
      exact List.map_congr_left fun m _ => svid_storedEntry _ _ m
    have hstored : WellFormed stored := by
      refine ⟨?_, hsvid ▸ h.nodup, ?_, ?_⟩
      · exact (List.length_map _).trans_le h.svidCnt_le
      · intro m' hm'
        obtain ⟨m, hm, rfl⟩ := List.mem_map.mp hm'
        rw [svid_storedEntry]
        exact h.ne_zero m hm
      · intro m' hm'
        obtain ⟨m, hm, rfl⟩ := List.mem_map.mp hm'
        have hold := h.modeCnt_le m hm
        unfold storedEntry
        split
        · refine ⟨?_, length_copyWords_le (length_vdos_le a) hold.2⟩
          rw [cnt_sub_one, copyWords, List.length_append]
          exact Nat.le_add_right _ _
        · exact hold
    refine hstored.of_known (hknown.trans ?_)
    rw [List.map_map]
    rfl
  · exact h.of_known hknown

theorem stored_consumeModes (h : WellFormed d) (hnext : d.getNextMode = some requested) :
    Stored (.modes a) d (d.consumeModes a.cnt a.objects) := by
  let read : UInt32 × Nat × List UInt32 → UInt32 × List UInt32 := fun k => (k.1, k.2.2.take k.2.1)
  have hread : ∀ ms : List SvidModeData,
      ms.map (fun m => (m.svid, m.modes)) = (ms.map SvidModeData.known).map read := by
    intro ms
    rw [List.map_map]
    rfl
  rw [Stored, hread, known_consumeModes h hnext, hnext]
  split
  · next hsame =>
    rw [List.map_map]
    refine List.map_congr_left fun m _ => ?_
    by_cases hm : m.svid = pdVdoVid a.header
    · have hasked : some requested.svid = some m.svid := by
        rw [hsame, hm]
      have hmodes : (copyWords a.vdos m.modeVdo).take (a.cnt - 1) = a.vdos := by
        rw [cnt_sub_one, copyWords, List.take_left']
        rfl
      rw [if_pos ⟨hm, hasked⟩]
      simp only [read, SvidModeData.known, storedEntry, if_pos hm, Function.comp_apply, hmodes]
    · rw [if_neg fun hboth => hm hboth.1]
      simp only [read, SvidModeData.known, storedEntry, if_neg hm, Function.comp_apply,
        SvidModeData.modes]
  · next hother =>
    rw [← hread]
    refine List.map_congr_left fun m _ => ?_
    have hnot : ¬(m.svid = pdVdoVid a.header ∧
        (some requested).map SvidModeData.svid = some m.svid) := by
      rintro ⟨hm, hasked⟩
      exact hother ((Option.some.inj hasked).trans hm)
    rw [if_neg hnot]

end ConsumeModes

/-! ## Whole discoveries -/

theorem WellFormed.copiesFit (h : WellFormed d) : CopiesFit d := by
  intro svid
  simp only [PdDiscovery.getModeVdoForSvid]
  split
  · exact ⟨Nat.zero_le _, rfl⟩
  · next m hfind =>
    obtain ⟨hcnt, hlen⟩ := h.modeCnt_le m (List.mem_of_find?_eq_some hfind)
    exact ⟨hcnt.trans hlen, List.length_take_of_le hcnt⟩

theorem stored_dfpConsumeSvids (h : d.svids = []) : Stored (.svids a) d (d.dfpConsumeSvids a) := by
  rw [Stored, svids_dfpConsumeSvids h, List.map_map]
  rfl

theorem getNextMode_of_svids_nil (h : d.svids = []) : d.getNextMode = none := by
  simp [PdDiscovery.getNextMode, h]

variable {answers : List Answer}

theorem countP_svids_cons (a : Ack) (older : List Answer) :
    (Answer.svids a :: older).countP Answer.IsSvids = older.countP Answer.IsSvids + 1 :=
  List.countP_cons_of_pos (decide_eq_true trivial)

theorem countP_modes_cons (a : Ack) (older : List Answer) :
    (Answer.modes a :: older).countP Answer.IsSvids = older.countP Answer.IsSvids :=
  List.countP_cons_of_neg fun h => of_decide_eq_true h

theorem svids_afterAnswers (hcount : answers.countP Answer.IsSvids = 0)
    (h : afterAnswers answers = some d) : d.svids = [] := by
  induction answers generalizing d with
  | nil =>
    cases h
    rfl
  | cons answer older ih =>
    cases answer with
    | svids a =>
      rw [countP_svids_cons] at hcount
      omega
    | modes a =>
      have hold : older.countP Answer.IsSvids = 0 :=
        (countP_modes_cons a older).symm.trans hcount
      obtain ⟨d₀, hd₀, hconsume⟩ := Option.bind_eq_some_iff.mp h
      have hnone := getNextMode_of_svids_nil (ih hold hd₀)
      simp [consume, PdDiscovery.dfpConsumeModes, hnone] at hconsume

theorem consume_spec {answer : Answer} {older : List Answer}
    (hcount : (answer :: older).countP Answer.IsSvids ≤ 1) (hold : afterAnswers older = some d)
    (hwf : WellFormed d) (h : consume answer d = some d') :
    WellFormed d' ∧ Stored answer d d' := by
  cases answer with
  | svids a =>
    cases h
    rw [countP_svids_cons] at hcount
    have hempty := svids_afterAnswers (by omega) hold
    exact ⟨wellFormed_dfpConsumeSvids hempty, stored_dfpConsumeSvids hempty⟩
  | modes a =>
    simp only [consume, PdDiscovery.dfpConsumeModes] at h
    split at h
    · cases h
    · next hnext =>
      cases h
      obtain ⟨requested, hrequested⟩ := Option.ne_none_iff_exists'.mp hnext
      exact ⟨hwf.consumeModes hrequested, stored_consumeModes hwf hrequested⟩

theorem countP_older_le {answer : Answer} {older : List Answer}
    (hcount : (answer :: older).countP Answer.IsSvids ≤ 1) :
    older.countP Answer.IsSvids ≤ 1 :=
  (List.sublist_cons_self answer older).countP_le.trans hcount

theorem wellFormed_init : WellFormed PdDiscovery.init := by
  have hempty : PdDiscovery.init.svids = [].map freshEntry := rfl
  exact wellFormed_fresh hempty (Nat.zero_le _) List.nodup_nil fun _ h => nomatch h

theorem wellFormed_afterAnswers (hcount : answers.countP Answer.IsSvids ≤ 1)
    (h : afterAnswers answers = some d) : WellFormed d := by
  induction answers generalizing d with
  | nil =>
    cases h
    exact wellFormed_init
  | cons answer older ih =>
    obtain ⟨d₀, hd₀, hconsume⟩ := Option.bind_eq_some_iff.mp h
    exact (consume_spec hcount hd₀ (ih (countP_older_le hcount) hd₀) hconsume).1

theorem exists_afterAnswers (h : ModesAsked answers) : ∃ d, afterAnswers answers = some d := by
  induction answers with
  | nil => exact ⟨PdDiscovery.init, rfl⟩
  | cons answer older ih =>
    obtain ⟨d, hd⟩ := ih fun a older' hsuffix =>
      h a older' (hsuffix.trans (List.suffix_cons answer older))
    cases answer with
    | svids a => exact ⟨d.dfpConsumeSvids a, by rw [afterAnswers, hd]; rfl⟩
    | modes a =>
      have hnext := h a older (List.suffix_refl _) d hd
      refine ⟨d.consumeModes a.cnt a.objects, ?_⟩
      rw [afterAnswers, hd, Option.bind_some, consume, PdDiscovery.dfpConsumeModes,
        if_neg hnext]

/-- For every discovery with SVIDs consumed at most once, whatever the partner answers: each answer
leaves a well-formed record with what it has to store, if and only if modes are consumed only while
`pd_get_next_mode` asks for some. -/
theorem consumedRun_iff (answers : List Answer) (hcount : answers.countP Answer.IsSvids ≤ 1) :
    ConsumedRun answers ↔ ModesAsked answers := by
  constructor
  · intro h a older hsuffix d hd hnone
    obtain ⟨d₀, d', hd₀, hconsume, -⟩ := h (.modes a) older hsuffix
    have heq : d₀ = d := Option.some.inj (hd₀.symm.trans hd)
    subst heq
    simp [consume, PdDiscovery.dfpConsumeModes, hnone] at hconsume
  · intro h answer older hsuffix
    have hasked : ModesAsked (answer :: older) := fun a older' hsub =>
      h a older' (hsub.trans hsuffix)
    have hcount' : (answer :: older).countP Answer.IsSvids ≤ 1 :=
      hsuffix.sublist.countP_le.trans hcount
    obtain ⟨d', hd'⟩ := exists_afterAnswers hasked
    obtain ⟨d, hd, hconsume⟩ := Option.bind_eq_some_iff.mp hd'
    have hwf := wellFormed_afterAnswers (countP_older_le hcount') hd
    obtain ⟨hwf', hstored⟩ := consume_spec hcount' hd hwf hconsume
    exact ⟨d, d', hd, hconsume, hwf', hwf'.copiesFit, hstored⟩

def modesAck : Ack where
  objects := [0xff018003, 0x00000c05]
  pos := by decide
  le := by decide

def svidsAck : Ack where
  objects := [0xff008002, 0xff010000]
  pos := by decide
  le := by decide

theorem consumedRun_iff_displayPort :
    [Answer.modes modesAck, .svids svidsAck].countP Answer.IsSvids ≤ 1 ∧
      (ConsumedRun [Answer.modes modesAck, .svids svidsAck] ↔
        ModesAsked [Answer.modes modesAck, .svids svidsAck]) :=
  ⟨by decide, consumedRun_iff [.modes modesAck, .svids svidsAck] (by decide)⟩

/-- An ACK with modes that nobody asked for: nothing is there to compare its SVID with. -/
theorem not_consumedRun_unsolicited :
    ¬∀ answers : List Answer, answers.countP Answer.IsSvids ≤ 1 → ConsumedRun answers := by
  intro h
  obtain ⟨d, d', hd, hconsume, -⟩ :=
    h [.modes modesAck] (by decide) (.modes modesAck) [] (List.suffix_refl _)
  cases hd
  cases hconsume

end ChromiumEc.Usbc.Discovery
