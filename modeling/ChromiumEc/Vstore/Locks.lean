import ChromiumEc.Sysjump.Tags
import Mathlib.Logic.Function.Basic
import Mathlib.Data.Nat.Bitwise

/-!
# Locks — the store for verified boot, from one image to the next

The slots of `vstore.c` are written once and then locked up to the next reset of the chipset.  At
a jump to another image they are kept in a jump tag, all of them in one.  A tag holds at most 255
bytes and a slot takes 65, so from four slots on the tag is refused, and no slot is locked in the
next image.
-/

namespace ChromiumEc.Vstore

open Lib Sysjump

/-- `EC_VSTORE_SLOT_SIZE` -/
def slotSize : Nat := 64
/-- `EC_VSTORE_SLOT_MAX` -/
def slotMax : Nat := 32
/-- `sizeof(struct vstore_slot)`: the lock and the data -/
def sizeofSlot : Nat := 65
/-- `VSTORE_SYSJUMP_TAG` -/
def sysjumpTag : UInt16 := 0x5653
/-- `VSTORE_HOOK_VERSION` -/
def hookVersion : Nat := 1

/-- The bytes of `vstore_slots` -/
abbrev Slots := Nat → UInt8

def slotAddr (i : Nat) : Nat := sizeofSlot * i

/-- `vstore_slots[i].locked` -/
def isLocked (i : Nat) (m : Slots) : Bool :=
  m (slotAddr i) != 0

/-- `vstore_slots[i].data` -/
def slotData (i : Nat) (m : Slots) : List UInt8 :=
  load m (slotAddr i + 1) slotSize

def vstoreSize (count : Nat) : Nat := sizeofSlot * count

abbrev Data := { data : List UInt8 // data.length = slotSize }

/-! ## The host commands and the hooks -/

inductive EcStatus
  | success
  | invalidParam
  | accessDenied
  deriving DecidableEq, Repr

inductive Answer
  | status (s : EcStatus)
  | info (slotCount : Nat) (slotLocked : BitVec 32)
  | read (data : List UInt8)
  /-- The event is not a command. -/
  | nothing
  deriving DecidableEq

def vstoreInfo (count : Nat) (m : Slots) : Answer :=
  .info count ((List.range count).foldl
    (fun slotLocked i => if isLocked i m then slotLocked ||| (1#32 <<< i) else slotLocked) 0)

def vstoreRead (count slot : Nat) (m : Slots) : Answer :=
  if count ≤ slot then .status .invalidParam else .read (slotData slot m)

def vstoreWrite (count slot : Nat) (data : Data) (m : Slots) : Answer × Slots :=
  if count ≤ slot then (.status .invalidParam, m)
  else if isLocked slot m then (.status .accessDenied, m)
  else
    (.status .success,
      store (store m (slotAddr slot) [1]) (slotAddr slot + 1) data.1)

def vstoreClearLock (count : Nat) (m : Slots) : Slots :=
  (List.range count).foldl (fun m i => store m (slotAddr i) [0]) m

/-- The tag that `vstore_preserve_state` adds -/
def vstorePreserveState (count : Nat) (m : Slots) : Add :=
  ⟨sysjumpTag, hookVersion, vstoreSize count, m⟩

/-- `vstore_init`, with the slots cleared at the start of an image -/
def vstoreInit (count minAddress : Nat) (s : State) : Slots :=
  match (systemGetJumpTag minAddress sysjumpTag s).2 with
  | none => fun _ => 0
  | some prev =>
    if prev.version = hookVersion ∧ prev.size = vstoreSize count then
      store (fun _ => 0) 0 (load s.mem prev.data (vstoreSize count))
    else fun _ => 0

/-- A sysjump: the jump data before, the tags that other hooks add before and after, and room for
all tags -/
structure Jump (count : Nat) where
  minAddress : Nat
  jdata : Nat
  state : State
  before : List Add
  after : List Add
  jdata_eq : state.jdata = some jdata
  addr : jdata < addrSpace
  min_le : minAddress ≤ jdata
  versions : ∀ a ∈ before ++ after, a.version ≤ 255
  names : ∀ a ∈ before ++ after, a.tag ≠ sysjumpTag
  noWrap : NoWrap minAddress jdata before
  /-- There is room for the slots and for what is added after them. -/
  room : minAddress + (addAll minAddress (fillJumpData state, []) before).1.jumpTagTotal +
    newEntrySize (vstoreSize count) + (after.map fun a => newEntrySize a.size).sum ≤ jdata

def Jump.slots {count : Nat} (j : Jump count) (m : Slots) : Slots :=
  vstoreInit count j.minAddress (addAll j.minAddress (fillJumpData j.state, [])
    (j.before ++ vstorePreserveState count m :: j.after)).1

inductive Event (count : Nat)
  | write (slot : Nat) (data : Data)
  | read (slot : Nat)
  | info
  | sysjump (j : Jump count)
  | chipsetReset

variable {count : Nat}

def step (m : Slots) : Event count → Answer × Slots
  | .write slot data => vstoreWrite count slot data m
  | .read slot => (vstoreRead count slot m, m)
  | .info => (vstoreInfo count m, m)
  | .sysjump j => (.nothing, j.slots m)
  | .chipsetReset => (.nothing, vstoreClearLock count m)

/-! ## What the store has to be -/

/-- The data of the slots that were written since the last reset -/
abbrev Box := Nat → Option (List UInt8)

def Box.empty : Box := fun _ => none

/-- A slot is written once; a sysjump changes nothing. -/
def boxStep (box : Box) : Event count → Box
  | .write slot data =>
    if slot < count ∧ box slot = none then Function.update box slot (some data.1) else box
  | .chipsetReset => .empty
  | _ => box

/-- What the host has to get.  The data of a slot that was not written is not promised. -/
def Fits (box : Box) (answer : Answer) : Event count → Prop
  | .write slot _ => answer = .status
      (if count ≤ slot then .invalidParam
      else if (box slot).isSome then .accessDenied else .success)
  | .read slot =>
    if count ≤ slot then answer = .status .invalidParam
    else ∃ data, answer = .read data ∧ ∀ written, box slot = some written → data = written
  | .info => ∃ mask, answer = .info count mask ∧
      ∀ i, mask.getLsbD i = true ↔ i < count ∧ (box i).isSome
  | _ => answer = .nothing

/-- The slots that were written are locked, with their data, and no others are. -/
def Keeps (count : Nat) (m : Slots) (box : Box) : Prop :=
  ∀ i < count, (isLocked i m = true ↔ (box i).isSome) ∧
    ∀ written, box i = some written → slotData i m = written

/-- In every state of a run the slots keep what was written, and every answer fits. -/
def Law (m : Slots) (box : Box) : List (Event count) → Prop
  | [] => Keeps count m box
  | e :: es => Keeps count m box ∧ Fits box (step m e).1 e ∧ Law (step m e).2 (boxStep box e) es

/-- The slots fit a tag, or nothing was written that could be lost. -/
def Safe (box : Box) : Event count → Prop
  | .sysjump _ => vstoreSize count ≤ jumpTagMaxSize ∨ ∀ i < count, box i = none
  | _ => True

def AllSafe (box : Box) : List (Event count) → Prop
  | [] => True
  | e :: es => Safe box e ∧ AllSafe (boxStep box e) es

/-! ## The commands -/

section Commands

variable {m m' : Slots} {box : Box} {i slot : Nat} {data : Data}

theorem getLsbD_slotLocked (hcount : count ≤ slotMax) (i : Nat) :
    ((List.range count).foldl (fun slotLocked i =>
      if isLocked i m then slotLocked ||| (1#32 <<< i) else slotLocked) 0).getLsbD i = true ↔
        i < count ∧ isLocked i m = true := by
  induction count with
  | zero => simp
  | succ n ih =>
    have hn : n < 32 := hcount
    rw [List.range_succ, List.foldl_append, List.foldl_cons, List.foldl_nil]
    have hbit : (1#32 <<< n).getLsbD i = true ↔ i = n := by
      rw [BitVec.getLsbD_shiftLeft]
      simp
      omega
    split
    · next hlocked =>
      rw [BitVec.getLsbD_or, Bool.or_eq_true, ih (by omega), hbit]
      constructor
      · rintro (⟨hi, h⟩ | rfl)
        · exact ⟨by omega, h⟩
        · exact ⟨by omega, hlocked⟩
      · rintro ⟨hi, h⟩
        by_cases hin : i = n
        · exact .inr hin
        · exact .inl ⟨by omega, h⟩
    · next hlocked =>
      rw [ih (by omega)]
      constructor
      · exact fun ⟨hi, h⟩ => ⟨by omega, h⟩
      · rintro ⟨hi, h⟩
        by_cases hin : i = n
        · exact absurd (hin ▸ h) hlocked
        · exact ⟨by omega, h⟩

theorem fits_info (hcount : count ≤ slotMax) (h : Keeps count m box) :
    Fits box (vstoreInfo count m) (.info : Event count) := by
  refine ⟨_, rfl, fun i => (getLsbD_slotLocked hcount i).trans ?_⟩
  constructor
  · exact fun ⟨hi, hlocked⟩ => ⟨hi, (h i hi).1.mp hlocked⟩
  · exact fun ⟨hi, hsome⟩ => ⟨hi, (h i hi).1.mpr hsome⟩

theorem fits_read (h : Keeps count m box) (slot : Nat) :
    Fits box (vstoreRead count slot m) (.read slot : Event count) := by
  simp only [Fits, vstoreRead]
  split
  · rfl
  · next hslot => exact ⟨_, rfl, (h slot (Nat.lt_of_not_le hslot)).2⟩

def written (slot : Nat) (data : Data) (m : Slots) : Slots :=
  store (store m (slotAddr slot) [1]) (slotAddr slot + 1) data.1

theorem written_self : isLocked slot (written slot data m) = true ∧
    slotData slot (written slot data m) = data.1 := by
  constructor
  · rw [isLocked, written, store_of_lt (Nat.lt_succ_self _)]
    simp [store]
  · have hload := load_store (store m (slotAddr slot) [1]) (slotAddr slot + 1) data.1
    rwa [data.2] at hload

theorem written_of_ne (hne : i ≠ slot) : isLocked i (written slot data m) = isLocked i m ∧
    slotData i (written slot data m) = slotData i m := by
  have hlen := data.2
  have haway : slotAddr i + sizeofSlot ≤ slotAddr slot ∨
      slotAddr slot + sizeofSlot ≤ slotAddr i := by
    unfold slotAddr sizeofSlot
    omega
  unfold sizeofSlot at haway
  unfold slotSize at hlen
  constructor
  · rw [isLocked, isLocked, written]
    obtain haway | haway := haway
    · rw [store_of_lt (by omega), store_of_lt (by omega)]
    · rw [store_of_le (by omega), store_of_le (by simp; omega)]
  · rw [slotData, slotData, written, load_store_of_disjoint, load_store_of_disjoint]
    · simp only [List.length_singleton]
      unfold slotSize
      omega
    · unfold slotSize
      omega

theorem write_spec (h : Keeps count m box) (slot : Nat) (data : Data) :
    Fits box (vstoreWrite count slot data m).1 (.write slot data : Event count) ∧
      Keeps count (vstoreWrite count slot data m).2
        (boxStep box (.write slot data : Event count)) := by
  simp only [Fits, vstoreWrite, boxStep]
  by_cases hslot : count ≤ slot
  · rw [if_pos hslot, if_pos hslot, if_neg fun hboth => Nat.not_lt_of_le hslot hboth.1]
    exact ⟨rfl, h⟩
  · have hlt := Nat.lt_of_not_le hslot
    have hlocked := (h slot hlt).1
    rw [if_neg hslot, if_neg hslot]
    by_cases hsome : (box slot).isSome
    · rw [if_pos (hlocked.mpr hsome), if_pos hsome, if_neg]
      · exact ⟨rfl, h⟩
      · rintro ⟨-, hnone⟩
        simp [hnone] at hsome
    · have hnone : box slot = none := by simpa using hsome
      rw [if_neg (mt hlocked.mp hsome), if_neg hsome, if_pos ⟨hlt, hnone⟩]
      refine ⟨rfl, fun i hi => ?_⟩
      by_cases hne : i = slot
      · subst hne
        obtain ⟨hself, hdata⟩ : isLocked i (written i data m) = true ∧
            slotData i (written i data m) = data.1 := written_self
        rw [Function.update_self]
        refine ⟨⟨fun _ => rfl, fun _ => hself⟩, fun d hd => ?_⟩
        cases hd
        exact hdata
      · obtain ⟨hother, hdata⟩ : isLocked i (written slot data m) = isLocked i m ∧
            slotData i (written slot data m) = slotData i m := written_of_ne hne
        rw [Function.update_of_ne hne]
        refine ⟨?_, fun d hd => hdata.trans ((h i hi).2 d hd)⟩
        exact (Bool.eq_iff_iff.mp hother).trans (h i hi).1

theorem keeps_vstoreClearLock (m : Slots) : Keeps count (vstoreClearLock count m) .empty := by
  have hclear : ∀ n i, i < n → isLocked i (vstoreClearLock n m) = false := by
    intro n
    induction n with
    | zero => exact fun i hi => absurd hi (Nat.not_lt_zero i)
    | succ n ih =>
      intro i hi
      rw [vstoreClearLock, List.range_succ, List.foldl_append, ← vstoreClearLock, List.foldl_cons,
        List.foldl_nil, isLocked]
      by_cases hin : i = n
      · subst hin
        simp [store]
      · rw [store_of_lt (by unfold slotAddr sizeofSlot; omega)]
        exact ih i (by omega)
  intro i hi
  refine ⟨?_, fun written hwritten => by cases hwritten⟩
  rw [hclear count i hi]
  simp [Box.empty]

end Commands

/-! ## A sysjump -/

section Sysjump

variable {m m' : Slots} {box : Box}

theorem Jump.finds (j : Jump count) (m : Slots) :
    let r := addAll j.minAddress (fillJumpData j.state, [])
      (j.before ++ vstorePreserveState count m :: j.after)
    Finds r.1.mem (j.jdata - r.1.jumpTagTotal) j.jdata
      (systemGetJumpTag j.minAddress sysjumpTag r.1).2
      (if jumpTagMaxSize < vstoreSize count then none
        else some (vstorePreserveState count m).toTag) := by
  intro r
  let v := vstorePreserveState count m
  let r₁ := addAll j.minAddress (fillJumpData j.state, []) j.before
  have hroom : j.minAddress + r₁.1.jumpTagTotal + newEntrySize v.size +
    (j.after.map fun a => newEntrySize a.size).sum ≤ j.jdata := j.room
  -- the tags before, the slots, and the tags after
  have hbefore : Ready j.minAddress j.jdata r₁.1 r₁.2 :=
    (Ready.foldl (ready_fillJumpData j.jdata_eq j.addr j.min_le)
      (fun a ha => j.versions a (List.mem_append_left _ ha))
      (j.noWrap.imp_right fun h => by simpa [fillJumpData] using h)).1
  have hrun : (v.run j.minAddress r₁.1).1 =
      if jumpTagMaxSize < vstoreSize count then .inval else .success :=
    hbefore.run_eq (a := v) (by omega)
  obtain ⟨hslots, -, -, htotal⟩ := @Ready.step _ _ _ _ v
    (j.after.map fun a => newEntrySize a.size).sum hbefore (show 1 ≤ 255 by decide)
    (.inr (by omega))
  have hr : r = addAll j.minAddress (Add.log j.minAddress r₁ v) j.after := by
    simp only [r, r₁, v, addAll, List.foldl_append, List.foldl_cons]
  have hready : Ready j.minAddress j.jdata r.1 r.2 := by
    rw [hr]
    exact (Ready.foldl hslots (fun a ha => j.versions a (List.mem_append_right _ ha))
      (.inr (by omega))).1
  have hfind : r.2.find? (Tag.named sysjumpTag) =
      if jumpTagMaxSize < vstoreSize count then none else some v.toTag := by
    have hnone : r₁.2.find? (Tag.named sysjumpTag) = none :=
      find?_addAll (fun a ha => j.names a (List.mem_append_left _ ha)) _ _
    rw [hr, find?_addAll fun a ha => j.names a (List.mem_append_right _ ha), Add.log, hrun]
    by_cases hsize : jumpTagMaxSize < vstoreSize count
    · rw [if_pos hsize, if_pos hsize]
      exact hnone
    · rw [if_neg hsize, if_neg hsize]
      rfl
  rw [← hfind]
  exact (hready.get sysjumpTag).2

theorem Jump.slots_eq (j : Jump count) (m : Slots) {x : Nat} (hx : x < vstoreSize count) :
    j.slots m x = if jumpTagMaxSize < vstoreSize count then 0 else m x := by
  have hfinds := j.finds m
  simp only at hfinds
  unfold Jump.slots vstoreInit
  generalize addAll j.minAddress (fillJumpData j.state, [])
    (j.before ++ vstorePreserveState count m :: j.after) = r at hfinds
  split at hfinds
  · next hsize =>
    rw [if_pos hsize]
    cases hfound : (systemGetJumpTag j.minAddress sysjumpTag r.1).2 with
    | none => rfl
    | some prev =>
      rw [hfound] at hfinds
      exact hfinds.elim
  · next hsize =>
    rw [if_neg hsize]
    cases hfound : (systemGetJumpTag j.minAddress sysjumpTag r.1).2 with
    | none =>
      rw [hfound] at hfinds
      exact hfinds.elim
    | some prev =>
      rw [hfound] at hfinds
      obtain ⟨hversion, hlen, hload, -, -⟩ := hfinds
      have hprev : prev.size = vstoreSize count := hlen.trans length_load
      rw [hprev] at hload
      dsimp only
      rw [if_pos ⟨hversion, hprev⟩, hload]
      have hbyte := store_load (fun _ => 0) m 0 0 (vstoreSize count) x
      rw [if_pos hx, Nat.zero_add] at hbyte
      exact hbyte

theorem keeps_sysjump_iff (j : Jump count) (h : Keeps count m box) :
    Keeps count (j.slots m) box ↔ Safe box (.sysjump j) := by
  have hinside : ∀ i < count, slotAddr i + sizeofSlot ≤ vstoreSize count := by
    intro i hi
    unfold slotAddr vstoreSize sizeofSlot
    omega
  unfold Safe
  by_cases hsize : jumpTagMaxSize < vstoreSize count
  · have hcleared : ∀ i < count, isLocked i (j.slots m) = false := by
      intro i hi
      have haddr := hinside i hi
      rw [isLocked, j.slots_eq m (by unfold sizeofSlot at haddr; omega), if_pos hsize]
      rfl
    constructor
    · intro hkeeps
      refine .inr fun i hi => ?_
      have hnone := (hkeeps i hi).1
      rw [hcleared i hi] at hnone
      simpa using hnone
    · rintro (hfits | hnone)
      · omega
      · refine fun i hi => ⟨?_, fun d hd => ?_⟩
        · rw [hcleared i hi, hnone i hi]
          simp
        · rw [hnone i hi] at hd
          cases hd
  · refine iff_of_true (fun i hi => ?_) (.inl (by omega))
    have haddr := hinside i hi
    have hsame : ∀ x, slotAddr i ≤ x → x < slotAddr i + sizeofSlot → j.slots m x = m x := by
      intro x _ hx
      rw [j.slots_eq m (by omega), if_neg hsize]
    have hlocked : isLocked i (j.slots m) = isLocked i m := by
      rw [isLocked, isLocked, hsame _ (Nat.le_refl _) (by unfold sizeofSlot; omega)]
    have hdata : slotData i (j.slots m) = slotData i m := by
      refine load_congr fun x hx hx' => hsame x (by omega) ?_
      unfold slotSize at hx'
      unfold sizeofSlot
      omega
    rw [hlocked, hdata]
    exact h i hi

end Sysjump

/-! ## Runs -/

section Run

variable {m : Slots} {box : Box}

theorem step_spec (hcount : count ≤ slotMax) (h : Keeps count m box) (e : Event count) :
    Fits box (step m e).1 e ∧ (Keeps count (step m e).2 (boxStep box e) ↔ Safe box e) := by
  cases e with
  | write slot data =>
    obtain ⟨hfits, hkeeps⟩ := write_spec h slot data
    exact ⟨hfits, iff_of_true hkeeps trivial⟩
  | read slot => exact ⟨fits_read h slot, iff_of_true h trivial⟩
  | info => exact ⟨fits_info hcount h, iff_of_true h trivial⟩
  | sysjump j => exact ⟨rfl, keeps_sysjump_iff j h⟩
  | chipsetReset => exact ⟨rfl, iff_of_true (keeps_vstoreClearLock m) trivial⟩

theorem Law.keeps {es : List (Event count)} (h : Law m box es) : Keeps count m box := by
  cases es with
  | nil => exact h
  | cons e es => exact h.1

theorem law_iff (hcount : count ≤ slotMax) (h : Keeps count m box) (es : List (Event count)) :
    Law m box es ↔ AllSafe box es := by
  induction es generalizing m box with
  | nil => exact iff_of_true h trivial
  | cons e es ih =>
    obtain ⟨hfits, hkeeps⟩ := step_spec hcount h e
    constructor
    · rintro ⟨-, -, hrest⟩
      have hsafe := hkeeps.mp hrest.keeps
      exact ⟨hsafe, (ih (hkeeps.mpr hsafe)).mp hrest⟩
    · rintro ⟨hsafe, hrest⟩
      exact ⟨h, hfits, (ih (hkeeps.mpr hsafe)).mpr hrest⟩

theorem keeps_zero (count : Nat) : Keeps count (fun _ => 0) .empty :=
  fun _ _ => ⟨by simp [isLocked, Box.empty], nofun⟩

end Run

/-- For every number of slots and every run, from slots that are cleared: the slots keep what is
written up to the next reset and all answers fit, exactly when at each sysjump the slots fit a jump
tag or none is locked. -/
theorem vstore_law (count : Nat) (hcount : 1 ≤ count ∧ count ≤ slotMax)
    (es : List (Event count)) : Law (fun _ => 0) .empty es ↔ AllSafe .empty es :=
  law_iff hcount.2 (keeps_zero count) es

theorem plainJump_noWrap : NoWrap 300 10000 [] :=
  .inr (Nat.zero_le _)

theorem plainJump_room {count : Nat} (h : newEntrySize (vstoreSize count) ≤ 9000) :
    300 + (addAll 300 (fillJumpData ⟨some 10000, 0, 0, fun _ => 0⟩, []) []).1.jumpTagTotal +
      newEntrySize (vstoreSize count) + (([] : List Add).map fun a => newEntrySize a.size).sum ≤
        10000 := by
  simp only [addAll, List.foldl_nil, fillJumpData, List.map_nil, List.sum_nil]
  omega

def plainJump (count : Nat) (h : newEntrySize (vstoreSize count) ≤ 9000) : Jump count where
  minAddress := 300
  jdata := 10000
  state := ⟨some 10000, 0, 0, fun _ => 0⟩
  before := []
  after := []
  jdata_eq := rfl
  addr := by decide
  min_le := by decide
  versions := nofun
  names := nofun
  noWrap := plainJump_noWrap
  room := plainJump_room h

def writeAndJump (count : Nat) (h : newEntrySize (vstoreSize count) ≤ 9000) : List (Event count) :=
  [.write 0 ⟨List.replicate 64 7, rfl⟩, .sysjump (plainJump count h)]

theorem vstore_law_three :
    (1 ≤ 3 ∧ 3 ≤ slotMax) ∧ (Law (fun _ => 0) .empty (writeAndJump 3 (by decide)) ↔
      AllSafe .empty (writeAndJump 3 (by decide))) :=
  ⟨by decide, vstore_law 3 (by decide) _⟩

/-- With four slots the tag is refused, and the slot can be written again. -/
theorem not_law_four :
    ¬∀ (count : Nat) (es : List (Event count)), 1 ≤ count ∧ count ≤ slotMax →
      Law (fun _ => 0) .empty es := by
  intro h
  have hlaw := h 4 (writeAndJump 4 (by decide)) (by decide)
  have hsafe := (law_iff (by decide) (keeps_zero 4) _).mp hlaw
  obtain hfits | hnone := hsafe.2.1
  · exact absurd hfits (by decide)
  · exact absurd (hnone 0 (by decide)) (by decide)

end ChromiumEc.Vstore
