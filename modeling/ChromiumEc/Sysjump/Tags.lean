import ChromiumEc.Lib.Memory
import Mathlib.Algebra.GroupWithZero.Nat

/-!
# Tags — data that is kept for the next image

Before a jump to another image, tags with data are pushed below the jump data at the end of RAM.
The next image searches them from the lowest address on.

The tags are a list, the last one added first.  An add pushes a tag or leaves everything alone, and
a search walks the list up to the first tag with its name, within the bytes of the tags.
-/

namespace ChromiumEc.Sysjump

open Lib

def jumpDataMagic : BitVec 32 := 0x706d754a
def jumpTagMaxSize : Nat := 255
/-- `sizeof(struct jump_tag)` -/
def sizeofJumpTag : Nat := 4
def addrSpace : Nat := 4294967296

/-- `EC_SUCCESS` and the errors -/
inductive EcError
  | success
  | unknown
  | inval
  deriving DecidableEq, Repr

/-- The pointer to the jump data, the fields of the jump data, and the memory below it -/
structure State where
  jdata : Option Nat
  magic : BitVec 32
  jumpTagTotal : Nat
  mem : Nat → UInt8

/-- What a search returns: a pointer to the data, `*version` and `*size` -/
structure Found where
  data : Nat
  version : Nat
  size : Nat
  deriving DecidableEq, Repr

def subAddr (x y : Nat) : Nat :=
  (x + addrSpace - y % addrSpace) % addrSpace

def roundup4 (x : Nat) : Nat :=
  (x + 3) / 4 * 4

def newEntrySize (size : Nat) : Nat :=
  roundup4 size + sizeofJumpTag

/-- The bytes of a `struct jump_tag` -/
def header (tag : UInt16) (version size : Nat) : List UInt8 :=
  [UInt8.ofNat (tag.toNat % 256), UInt8.ofNat (tag.toNat / 256), UInt8.ofNat size,
    UInt8.ofNat version]

/-- `t->tag` -/
def tagAt (mem : Nat → UInt8) (t : Nat) : UInt16 :=
  UInt16.ofNat ((mem t).toNat + 256 * (mem (t + 1)).toNat)

/-- `t->data_size` -/
def dataSizeAt (mem : Nat → UInt8) (t : Nat) : Nat :=
  (mem (t + 2)).toNat

/-- `t->data_version` -/
def dataVersionAt (mem : Nat → UInt8) (t : Nat) : Nat :=
  (mem (t + 3)).toNat

/-! ## The functions -/

def systemUsableRamEnd (s : State) (jdata : Nat) : Nat :=
  subAddr jdata s.jumpTagTotal

/-- The preserved data is filled in, before the hooks of a jump are called. -/
def fillJumpData (s : State) : State :=
  { s with magic := jumpDataMagic, jumpTagTotal := 0 }

/-- `system_add_jump_tag`; `data` are the bytes at the pointer. -/
def systemAddJumpTag (minAddress : Nat) (tag : UInt16) (version size : Nat) (data : Nat → UInt8)
    (s : State) : EcError × State :=
  match s.jdata with
  | none => (.unknown, s)
  | some jdata =>
    if s.magic ≠ jumpDataMagic then (.unknown, s)
    else if size > jumpTagMaxSize then (.inval, s)
    else if subAddr (systemUsableRamEnd s jdata) (newEntrySize size) < minAddress then (.inval, s)
    else
      let s := { s with jumpTagTotal := s.jumpTagTotal + newEntrySize size }
      let t := systemUsableRamEnd s jdata
      let mem := store s.mem t (header tag version size)
      let mem :=
        if size ≠ 0 then store mem (t + sizeofJumpTag) (load data 0 size) else mem
      (.success, { s with mem := mem })

/-- The loop of `system_get_jump_tag`: the tags that it looks at, and what it finds -/
def searchTags (s : State) (jdata : Nat) (tag : UInt16) (used : Nat) : List Nat × Option Found :=
  if used < s.jumpTagTotal then
    let t := (systemUsableRamEnd s jdata + used) % addrSpace
    if tagAt s.mem t ≠ tag then
      let r := searchTags s jdata tag (used + (sizeofJumpTag + roundup4 (dataSizeAt s.mem t)))
      (t :: r.1, r.2)
    else ([t], some ⟨t + sizeofJumpTag, dataVersionAt s.mem t, dataSizeAt s.mem t⟩)
  else ([], none)
termination_by s.jumpTagTotal - used
decreasing_by
  simp only [sizeofJumpTag]
  omega

/-- `system_get_jump_tag`, with the addresses of the tags that it looks at -/
def systemGetJumpTag (minAddress : Nat) (tag : UInt16) (s : State) : List Nat × Option Found :=
  match s.jdata with
  | none => ([], none)
  | some jdata =>
    if systemUsableRamEnd s jdata < minAddress then ([], none)
    else searchTags s jdata tag 0

/-! ## The list -/

structure Tag where
  tag : UInt16
  version : Nat
  data : List UInt8
  deriving DecidableEq, Repr

def Tag.named (tag : UInt16) (t : Tag) : Bool :=
  t.tag == tag

/-- From the address on and up to the jump data, the memory holds the tags. -/
inductive Holds (mem : Nat → UInt8) (jdata : Nat) : Nat → List Tag → Prop
  | nil : Holds mem jdata jdata []
  | cons {a : Nat} {t : Tag} {ts : List Tag} :
      t.version ≤ 255 → t.data.length ≤ jumpTagMaxSize →
      load mem a sizeofJumpTag = header t.tag t.version t.data.length →
      load mem (a + sizeofJumpTag) t.data.length = t.data →
      Holds mem jdata (a + newEntrySize t.data.length) ts → Holds mem jdata a (t :: ts)

variable {mem mem' : Nat → UInt8} {jdata a minAddress : Nat} {ts : List Tag} {s : State}

theorem Holds.le (h : Holds mem jdata a ts) : a ≤ jdata := by
  induction h with
  | nil => exact Nat.le_refl _
  | cons _ _ _ _ _ ih => exact Nat.le_trans (Nat.le_add_right _ _) ih

theorem le_roundup4 (n : Nat) : n ≤ roundup4 n := by
  simp only [roundup4]
  omega

theorem Holds.congr (h : Holds mem jdata a ts) (hmem : ∀ x, a ≤ x → x < jdata → mem x = mem' x) :
    Holds mem' jdata a ts := by
  induction h with
  | nil => exact .nil
  | @cons a t ts hversion hsize hheader hdata hrest ih =>
    have hle := hrest.le
    have hround := le_roundup4 t.data.length
    simp only [newEntrySize, sizeofJumpTag] at hle
    have hsame : ∀ b n, a ≤ b → b + n ≤ jdata → load mem b n = load mem' b n :=
      fun b n hb hn => load_congr fun x hx hx' => hmem x (by omega) (by omega)
    refine .cons hversion hsize ?_ ?_ (ih fun x hx hx' => hmem x (by omega) hx')
    · rw [← hsame a sizeofJumpTag (Nat.le_refl a) (by simp only [sizeofJumpTag]; omega)]
      exact hheader
    · rw [← hsame _ _ (Nat.le_add_right _ _) (by simp only [sizeofJumpTag]; omega)]
      exact hdata

theorem header_fields {tag : UInt16} {version size : Nat} (hversion : version ≤ 255)
    (hsize : size ≤ jumpTagMaxSize) (h : load mem a sizeofJumpTag = header tag version size) :
    tagAt mem a = tag ∧ dataSizeAt mem a = size ∧ dataVersionAt mem a = version := by
  have hbytes : [mem a, mem (a + 1), mem (a + 2), mem (a + 3)] = header tag version size := h
  simp only [header, List.cons.injEq, and_true] at hbytes
  obtain ⟨hlow, hhigh, hlen, hver⟩ := hbytes
  have htag := tag.toNat_lt
  simp only [jumpTagMaxSize] at hsize
  refine ⟨?_, ?_, ?_⟩
  · have hvalue : (mem a).toNat + 256 * (mem (a + 1)).toNat = tag.toNat := by
      rw [hlow, hhigh, UInt8.toNat_ofNat', UInt8.toNat_ofNat']
      omega
    rw [tagAt, hvalue, UInt16.ofNat_toNat]
  · rw [dataSizeAt, hlen, UInt8.toNat_ofNat']
    omega
  · rw [dataVersionAt, hver, UInt8.toNat_ofNat']
    omega

/-! ## The search -/

/-- The pointer, version and size are those of the tag, and the data is at the pointer, below the
jump data. -/
def Finds (mem : Nat → UInt8) (first jdata : Nat) : Option Found → Option Tag → Prop
  | none, none => True
  | some f, some t => f.version = t.version ∧ f.size = t.data.length ∧
      load mem f.data f.size = t.data ∧ first ≤ f.data ∧ f.data + f.size ≤ jdata
  | _, _ => False

theorem subAddr_of_le {x y : Nat} (h : y ≤ x) (hx : x < addrSpace) : subAddr x y = x - y := by
  simp only [subAddr, addrSpace] at hx ⊢
  omega

theorem searchTags_holds {tag : UInt16} {used : Nat} (hjdata : jdata < addrSpace)
    (htotal : s.jumpTagTotal ≤ jdata)
    (h : Holds s.mem jdata (jdata - s.jumpTagTotal + used) ts) :
    (∀ t ∈ (searchTags s jdata tag used).1,
      jdata - s.jumpTagTotal ≤ t ∧ t + sizeofJumpTag ≤ jdata) ∧
      Finds s.mem (jdata - s.jumpTagTotal) jdata (searchTags s jdata tag used).2
        (ts.find? (Tag.named tag)) := by
  have hend : systemUsableRamEnd s jdata = jdata - s.jumpTagTotal := subAddr_of_le htotal hjdata
  generalize ha : jdata - s.jumpTagTotal + used = a at h
  induction h generalizing used with
  | nil =>
    have hover : ¬ used < s.jumpTagTotal := by omega
    rw [searchTags, if_neg hover]
    exact ⟨fun t ht => absurd ht List.not_mem_nil, trivial⟩
  | @cons a t ts hversion hsize hheader hdata hrest ih =>
    have hle := hrest.le
    have hround := le_roundup4 t.data.length
    obtain ⟨htag, hlen, hver⟩ := header_fields hversion hsize hheader
    simp only [newEntrySize, sizeofJumpTag] at hle
    have hmore : used < s.jumpTagTotal := by omega
    have haddr : (systemUsableRamEnd s jdata + used) % addrSpace = a := by
      rw [hend, ha]
      exact Nat.mod_eq_of_lt (by omega)
    have hinside : jdata - s.jumpTagTotal ≤ a ∧ a + sizeofJumpTag ≤ jdata := by
      simp only [sizeofJumpTag]
      omega
    rw [searchTags, if_pos hmore]
    simp only [haddr, htag, hlen, hver]
    by_cases hname : t.tag = tag
    · -- the first tag with the name
      have hbeq : Tag.named tag t = true := beq_iff_eq.mpr hname
      rw [if_neg (not_not_intro hname), List.find?_cons_of_pos hbeq]
      refine ⟨?_, rfl, rfl, hdata, ?_, ?_⟩
      · intro t' ht'
        rw [List.mem_singleton.mp ht']
        exact hinside
      · simp only [sizeofJumpTag]
        omega
      · simp only [sizeofJumpTag]
        omega
    · have hbeq : ¬ Tag.named tag t = true := fun h => hname (beq_iff_eq.mp h)
      have hnext : jdata - s.jumpTagTotal + (used + (sizeofJumpTag + roundup4 t.data.length)) =
          a + newEntrySize t.data.length := by
        simp only [newEntrySize, sizeofJumpTag]
        omega
      obtain ⟨hreads, hfinds⟩ := ih hnext
      rw [if_pos hname, List.find?_cons_of_neg hbeq]
      refine ⟨?_, hfinds⟩
      intro t' ht'
      rcases List.mem_cons.mp ht' with rfl | ht'
      · exact hinside
      · exact hreads t' ht'

/-! ## Adding -/

structure Ready (minAddress jdata : Nat) (s : State) (ts : List Tag) : Prop where
  jdata_eq : s.jdata = some jdata
  magic : s.magic = jumpDataMagic
  addr : jdata < addrSpace
  room : minAddress + s.jumpTagTotal ≤ jdata
  holds : Holds s.mem jdata (jdata - s.jumpTagTotal) ts

def pushed (jdata : Nat) (t : Tag) (s : State) : State :=
  let a := jdata - (s.jumpTagTotal + newEntrySize t.data.length)
  { s with
    jumpTagTotal := s.jumpTagTotal + newEntrySize t.data.length
    mem := store (store s.mem a (header t.tag t.version t.data.length)) (a + sizeofJumpTag) t.data }

theorem pushed_mem {t : Tag} (h : s.jumpTagTotal + newEntrySize t.data.length ≤ jdata) {x : Nat}
    (hx : x < jdata - (s.jumpTagTotal + newEntrySize t.data.length) ∨
      jdata - s.jumpTagTotal ≤ x) : (pushed jdata t s).mem x = s.mem x := by
  have hround := le_roundup4 t.data.length
  simp only [newEntrySize, sizeofJumpTag] at h hx
  simp only [pushed, newEntrySize, sizeofJumpTag]
  rcases hx with hx | hx
  · rw [store_of_lt (by omega), store_of_lt hx]
  · have hlen : (header t.tag t.version t.data.length).length = 4 := rfl
    rw [store_of_le (by omega), store_of_le (by omega)]

theorem Ready.pushed {t : Tag} (h : Ready minAddress jdata s ts) (hversion : t.version ≤ 255)
    (hsize : t.data.length ≤ jumpTagMaxSize)
    (hroom : minAddress + s.jumpTagTotal + newEntrySize t.data.length ≤ jdata) :
    Ready minAddress jdata (pushed jdata t s) (t :: ts) where
  jdata_eq := h.jdata_eq
  magic := h.magic
  addr := h.addr
  room := by
    simp only [Sysjump.pushed]
    omega
  holds := by
    have hnext : jdata - (s.jumpTagTotal + newEntrySize t.data.length) +
        newEntrySize t.data.length = jdata - s.jumpTagTotal := by omega
    refine .cons hversion hsize ?_ ?_ ?_
    · exact (load_store_of_disjoint (.inl (Nat.le_refl _))).trans (load_store _ _ _)
    · exact load_store _ _ _
    · simp only [Sysjump.pushed] at hnext ⊢
      rw [hnext]
      exact h.holds.congr fun x hx _ => (pushed_mem (by omega) (.inr hx)).symm

structure Add where
  tag : UInt16
  version : Nat
  size : Nat
  data : Nat → UInt8

def Add.toTag (a : Add) : Tag :=
  ⟨a.tag, a.version, load a.data 0 a.size⟩

def Add.run (minAddress : Nat) (a : Add) (s : State) : EcError × State :=
  systemAddJumpTag minAddress a.tag a.version a.size a.data s

theorem Ready.add {a : Add} (h : Ready minAddress jdata s ts)
    (hfits : newEntrySize a.size ≤ jdata - s.jumpTagTotal ∨ jumpTagMaxSize < a.size) :
    a.run minAddress s = (.inval, s) ∨
      a.size ≤ jumpTagMaxSize ∧ minAddress + s.jumpTagTotal + newEntrySize a.size ≤ jdata ∧
        a.run minAddress s = (.success, Sysjump.pushed jdata a.toTag s) := by
  have hroom := h.room
  have haddr := h.addr
  have hend : systemUsableRamEnd s jdata = jdata - s.jumpTagTotal :=
    subAddr_of_le (by omega) haddr
  have hmagic : ¬ s.magic ≠ jumpDataMagic := not_not_intro h.magic
  simp only [Add.run, systemAddJumpTag, h.jdata_eq, if_neg hmagic]
  by_cases hsize : a.size > jumpTagMaxSize
  · rw [if_pos hsize]
    exact .inl rfl
  · rw [if_neg hsize, hend, subAddr_of_le (hfits.resolve_right hsize) (by omega)]
    by_cases hspace : jdata - s.jumpTagTotal - newEntrySize a.size < minAddress
    · rw [if_pos hspace]
      exact .inl rfl
    · have hfit := hfits.resolve_right hsize
      have htop : ∀ j m, systemUsableRamEnd ⟨j, m, s.jumpTagTotal + newEntrySize a.size, s.mem⟩
          jdata = jdata - (s.jumpTagTotal + newEntrySize a.size) :=
        fun j m => subAddr_of_le (by simp only; omega) haddr
      rw [if_neg hspace, htop]
      refine .inr ⟨by omega, by omega, ?_⟩
      simp only [Sysjump.pushed, Add.toTag, length_load, h.jdata_eq]
      by_cases hzero : a.size = 0
      · simp [hzero, load]
      · rw [if_pos hzero]

/-! ## A sysjump -/

/-- An add, and the tags that were added with it, the last one first -/
def Add.log (minAddress : Nat) (r : State × List Tag) (a : Add) : State × List Tag :=
  let added := a.run minAddress r.1
  (added.2, if added.1 = .success then a.toTag :: r.2 else r.2)

def addAll (minAddress : Nat) (r : State × List Tag) (adds : List Add) : State × List Tag :=
  adds.foldl (Add.log minAddress) r

/-- No address of a tag is below zero: the lowest address for the tags leaves room for any tag, or
there is room for all of the tags. -/
def NoWrap (minAddress jdata : Nat) (adds : List Add) : Prop :=
  newEntrySize jumpTagMaxSize ≤ minAddress ∨ (adds.map fun a => newEntrySize a.size).sum ≤ jdata

theorem newEntrySize_mono {m n : Nat} (h : m ≤ n) : newEntrySize m ≤ newEntrySize n := by
  simp only [newEntrySize, roundup4, sizeofJumpTag]
  omega

theorem Ready.step {a : Add} {room : Nat} (h : Ready minAddress jdata s ts)
    (hversion : a.version ≤ 255)
    (hroom : newEntrySize jumpTagMaxSize ≤ minAddress ∨
      s.jumpTagTotal + newEntrySize a.size + room ≤ jdata) :
    let added := a.run minAddress s
    Ready minAddress jdata added.2 (if added.1 = .success then a.toTag :: ts else ts) ∧
      (added.1 ≠ .success → added.2 = s) ∧
      (∀ x, x < minAddress → added.2.mem x = s.mem x) ∧
      added.2.jumpTagTotal ≤ s.jumpTagTotal + newEntrySize a.size := by
  intro added
  have hbelow := h.room
  have hfits : newEntrySize a.size ≤ jdata - s.jumpTagTotal ∨ jumpTagMaxSize < a.size := by
    by_cases hsize : a.size ≤ jumpTagMaxSize
    · have hmono := newEntrySize_mono hsize
      exact .inl (by omega)
    · exact .inr (by omega)
  have hlen : a.toTag.data.length = a.size := length_load
  rcases h.add hfits with heq | ⟨hsize, hspace, heq⟩
  · have hadded : added = (.inval, s) := heq
    rw [hadded]
    exact ⟨h, fun _ => rfl, fun _ _ => rfl, Nat.le_add_right _ _⟩
  · have hadded : added = (.success, Sysjump.pushed jdata a.toTag s) := heq
    rw [hadded]
    refine ⟨?_, fun hne => absurd rfl hne, ?_, ?_⟩
    · exact h.pushed hversion (by rw [hlen]; exact hsize) (by rw [hlen]; exact hspace)
    · intro x hx
      exact pushed_mem (by rw [hlen]; omega) (.inl (by rw [hlen]; omega))
    · simp only [Sysjump.pushed, hlen]
      exact Nat.le_refl _

theorem Ready.foldl {adds : List Add} (h : Ready minAddress jdata s ts)
    (hversions : ∀ a ∈ adds, a.version ≤ 255)
    (hroom : newEntrySize jumpTagMaxSize ≤ minAddress ∨
      s.jumpTagTotal + (adds.map fun a => newEntrySize a.size).sum ≤ jdata) :
    Ready minAddress jdata (addAll minAddress (s, ts) adds).1 (addAll minAddress (s, ts) adds).2 ∧
      (newEntrySize jumpTagMaxSize ≤ minAddress ∨
        (addAll minAddress (s, ts) adds).1.jumpTagTotal ≤
          s.jumpTagTotal + (adds.map fun a => newEntrySize a.size).sum) := by
  induction adds generalizing s ts with
  | nil => exact ⟨h, .inr (Nat.le_add_right _ _)⟩
  | cons a adds ih =>
    simp only [List.map_cons, List.sum_cons] at hroom ⊢
    obtain ⟨hready, _, _, htotal⟩ := @Ready.step _ _ _ _ _
      (adds.map fun a => newEntrySize a.size).sum h (hversions a List.mem_cons_self)
      (hroom.imp id fun h => by omega)
    obtain ⟨hend, hused⟩ := ih hready (fun a' ha' => hversions a' (List.mem_cons_of_mem a ha'))
      (hroom.imp id fun h => by omega)
    refine ⟨hend, hused.imp id fun h => ?_⟩
    exact Nat.le_trans h (by omega)

/-- A search finds the first tag with the name, and looks at tags between the lowest one and the
jump data only. -/
theorem Ready.get (h : Ready minAddress jdata s ts) (tag : UInt16) :
    (∀ t ∈ (systemGetJumpTag minAddress tag s).1,
      jdata - s.jumpTagTotal ≤ t ∧ t + sizeofJumpTag ≤ jdata) ∧
      Finds s.mem (jdata - s.jumpTagTotal) jdata (systemGetJumpTag minAddress tag s).2
        (ts.find? (Tag.named tag)) := by
  have hroom := h.room
  have haddr := h.addr
  have hend : systemUsableRamEnd s jdata = jdata - s.jumpTagTotal := subAddr_of_le (by omega) haddr
  have hbounds : ¬ systemUsableRamEnd s jdata < minAddress := by
    rw [hend]
    omega
  simp only [systemGetJumpTag, h.jdata_eq, if_neg hbounds]
  exact @searchTags_holds _ _ _ tag 0 haddr (by omega) h.holds

theorem ready_fillJumpData (hjdata : s.jdata = some jdata) (haddr : jdata < addrSpace)
    (hmin : minAddress ≤ jdata) : Ready minAddress jdata (fillJumpData s) [] :=
  ⟨hjdata, rfl, haddr, by simpa [fillJumpData] using hmin, by
    simp only [fillJumpData, Nat.sub_zero]
    exact .nil⟩

theorem find?_addAll {adds : List Add} {tag : UInt16} (h : ∀ a ∈ adds, a.tag ≠ tag) (s : State)
    (ts : List Tag) :
    (addAll minAddress (s, ts) adds).2.find? (Tag.named tag) = ts.find? (Tag.named tag) := by
  induction adds generalizing s ts with
  | nil => rfl
  | cons a adds ih =>
    obtain ⟨ha, hadds⟩ := List.forall_mem_cons.mp h
    have hnamed : ¬Tag.named tag a.toTag = true := fun hname => ha (beq_iff_eq.mp hname)
    rw [addAll, List.foldl_cons, ← addAll, Add.log, ih hadds]
    simp only
    split
    · rw [List.find?_cons_of_neg hnamed]
    · rfl

theorem Ready.run_eq {a : Add} (h : Ready minAddress jdata s ts)
    (hroom : minAddress + s.jumpTagTotal + newEntrySize a.size ≤ jdata) :
    (a.run minAddress s).1 = if jumpTagMaxSize < a.size then .inval else .success := by
  have hbelow := h.room
  have haddr := h.addr
  have hend : systemUsableRamEnd s jdata = jdata - s.jumpTagTotal :=
    subAddr_of_le (by omega) haddr
  simp only [Add.run, systemAddJumpTag, h.jdata_eq, if_neg (not_not_intro h.magic)]
  split
  · rfl
  · rw [hend, subAddr_of_le (by omega) (by omega), if_neg (by omega)]

/-- After any adds of a sysjump, a search finds the data, the size and the version of the last add
of its tag that did not fail, or nothing if there was none.  It looks at tags between the lowest one
and the jump data only.  Another add that fails changes nothing, and no add writes below the
lowest address for tags. -/
theorem jump_tag_law {minAddress jdata : Nat} {s : State} {adds : List Add} {a : Add}
    (hjdata : s.jdata = some jdata) (haddr : jdata < addrSpace) (hmin : minAddress ≤ jdata)
    (hversions : ∀ a' ∈ a :: adds, a'.version ≤ 255)
    (hwrap : NoWrap minAddress jdata (a :: adds)) :
    let r := addAll minAddress (fillJumpData s, []) adds
    (∀ tag, Finds r.1.mem (jdata - r.1.jumpTagTotal) jdata
        (systemGetJumpTag minAddress tag r.1).2 (r.2.find? (Tag.named tag))) ∧
      (∀ tag, ∀ t ∈ (systemGetJumpTag minAddress tag r.1).1,
        jdata - r.1.jumpTagTotal ≤ t ∧ t + sizeofJumpTag ≤ jdata) ∧
      ((a.run minAddress r.1).1 ≠ .success → (a.run minAddress r.1).2 = r.1) ∧
      ∀ x, x < minAddress → (a.run minAddress r.1).2.mem x = r.1.mem x := by
  intro r
  have hstart : Ready minAddress jdata (fillJumpData s) [] :=
    ready_fillJumpData hjdata haddr hmin
  simp only [NoWrap, List.map_cons, List.sum_cons] at hwrap
  have hall := @Ready.foldl _ _ _ _ adds hstart
    (fun a' ha' => hversions a' (List.mem_cons_of_mem a ha'))
    (hwrap.imp id fun h => by simp only [fillJumpData]; omega)
  obtain ⟨hready, hused⟩ : Ready minAddress jdata r.1 r.2 ∧
      (newEntrySize jumpTagMaxSize ≤ minAddress ∨ r.1.jumpTagTotal ≤
        (fillJumpData s).jumpTagTotal + (adds.map fun a => newEntrySize a.size).sum) := hall
  obtain ⟨_, hfail, hwrite, _⟩ := @Ready.step _ _ _ _ a 0 hready
    (hversions a List.mem_cons_self) (by
      rcases hwrap with h | h
      · exact .inl h
      · refine hused.imp id fun hused => ?_
        simp only [fillJumpData] at hused
        omega)
  exact ⟨fun tag => (hready.get tag).2, fun tag => (hready.get tag).1, hfail, hwrite⟩

def demo : State :=
  ⟨some 1000, 0, 16, fun _ => 0⟩

/-- Tag 7 is added twice, with another tag between. -/
def demoAdds : List Add :=
  [⟨7, 1, 3, fun i => UInt8.ofNat i⟩, ⟨8, 1, 0, fun _ => 0⟩,
    ⟨7, 2, 5, fun i => UInt8.ofNat (9 - i)⟩]

theorem jump_tag_law_demo :
    Finds (addAll 300 (fillJumpData demo, []) demoAdds).1.mem
      (1000 - (addAll 300 (fillJumpData demo, []) demoAdds).1.jumpTagTotal) 1000
      (systemGetJumpTag 300 7 (addAll 300 (fillJumpData demo, []) demoAdds).1).2
      (some ⟨7, 2, [9, 8, 7, 6, 5]⟩) := by
  have hlast : (addAll 300 (fillJumpData demo, []) demoAdds).2.find? (Tag.named 7) =
      some ⟨7, 2, [9, 8, 7, 6, 5]⟩ := by decide +kernel
  have h := @jump_tag_law 300 1000 demo demoAdds ⟨9, 0, 256, fun _ => 0⟩ rfl (by decide)
    (by decide) (by simp [demoAdds]) (.inl (by decide))
  rw [← hlast]
  exact h.1 7

end ChromiumEc.Sysjump
