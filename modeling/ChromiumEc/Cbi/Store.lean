import ChromiumEc.Cbi.Safe
import Mathlib.Data.List.Nodup
import Mathlib.Logic.Function.Basic

/-!
# Store — the entries of an image as a finite map

A well-formed image is a header, entries of distinct tags, and the rest of the block.  To set a tag
updates the map from tags to values, as long as the tag is one that the byte of an entry can hold.
-/

namespace ChromiumEc.Cbi

/-! ## Entries and their bytes -/

structure Entry where
  tag : UInt8
  value : List UInt8
  value_ne_nil : value ≠ []
  length_lt : value.length < 2 ^ 8

/-- `struct cbi_data` -/
def Entry.bytes (e : Entry) : List UInt8 :=
  e.tag :: UInt8.ofNat e.value.length :: e.value

def entriesBytes (entries : List Entry) : List UInt8 :=
  entries.flatMap Entry.bytes

def valueOf : List Entry → Nat → Option (List UInt8)
  | [], _ => none
  | e :: entries, tag => if e.tag.toNat = tag then some e.value else valueOf entries tag

def setValue (m : Nat → Option (List UInt8)) (tag : Nat) (value : List UInt8) :
    Nat → Option (List UInt8) :=
  Function.update m tag (if value = [] then none else some value)

/-- The image is tiled by its header and the entries, up to `total_size`. -/
structure Holds (image : List UInt8) (entries : List Entry) : Prop where
  tiled : ∃ header rest, header.length = sizeofHeader ∧
    image = header ++ entriesBytes entries ++ rest
  total : totalSize image = sizeofHeader + (entriesBytes entries).length
  distinct : (entries.map Entry.tag).Nodup

variable {cfg : Config} {image image' buf value : List UInt8} {entries pre post : List Entry}
  {e : Entry} {tag p q n : Nat}

@[simp] theorem Entry.length_bytes : e.bytes.length = sizeofData + e.value.length := by
  simp only [Entry.bytes, List.length_cons, sizeofData]
  omega

@[simp] theorem entriesBytes_append :
    entriesBytes (pre ++ post) = entriesBytes pre ++ entriesBytes post :=
  List.flatMap_append

@[simp] theorem entriesBytes_cons : entriesBytes (e :: post) = e.bytes ++ entriesBytes post :=
  List.flatMap_cons

@[simp] theorem entriesBytes_nil : entriesBytes [] = [] :=
  rfl

/-! ## The map -/

theorem valueOf_append (tag : Nat) :
    valueOf (pre ++ post) tag = (valueOf pre tag).or (valueOf post tag) := by
  induction pre with
  | nil => rfl
  | cons e pre ih =>
    rw [List.cons_append, valueOf, valueOf, ih]
    by_cases htag : e.tag.toNat = tag
    · rw [if_pos htag, if_pos htag]
      rfl
    · rw [if_neg htag, if_neg htag]

theorem valueOf_absent (h : ∀ e ∈ entries, e.tag.toNat ≠ tag) : valueOf entries tag = none := by
  induction entries with
  | nil => rfl
  | cons e entries ih =>
    rw [valueOf, if_neg (h e List.mem_cons_self)]
    exact ih fun e' he' => h e' (List.mem_cons_of_mem e he')

theorem ne_of_distinct (h : ((pre ++ e :: post).map Entry.tag).Nodup) :
    ∀ e' ∈ pre ++ post, e'.tag ≠ e.tag := by
  intro e' he'
  rw [List.map_append, List.map_cons, List.nodup_middle] at h
  have hnot := (List.nodup_cons.mp h).1
  rw [← List.map_append] at hnot
  exact fun heq => hnot (heq ▸ List.mem_map_of_mem he')

theorem valueOf_entry (h : ((pre ++ e :: post).map Entry.tag).Nodup) :
    valueOf (pre ++ e :: post) e.tag.toNat = some e.value := by
  have hpre : valueOf pre e.tag.toNat = none := by
    refine valueOf_absent fun e' he' heq => ?_
    exact ne_of_distinct h e' (List.mem_append_left _ he') (UInt8.toNat_inj.mp heq)
  rw [valueOf_append, hpre, valueOf, if_pos rfl]
  rfl

theorem valueOf_removed (h : ((pre ++ e :: post).map Entry.tag).Nodup) :
    valueOf (pre ++ post) = Function.update (valueOf (pre ++ e :: post)) e.tag.toNat none := by
  funext tag
  by_cases htag : tag = e.tag.toNat
  · rw [htag, Function.update_self]
    refine valueOf_absent fun e' he' heq => ?_
    exact ne_of_distinct h e' he' (UInt8.toNat_inj.mp heq)
  · rw [Function.update_of_ne htag, valueOf_append, valueOf_append, valueOf,
      if_neg (Ne.symm htag)]

theorem valueOf_replaced {e' : Entry} (h : ((pre ++ e :: post).map Entry.tag).Nodup)
    (htag : e'.tag = e.tag) :
    valueOf (pre ++ e' :: post) =
      Function.update (valueOf (pre ++ e :: post)) e.tag.toNat (some e'.value) := by
  have h' : ((pre ++ e' :: post).map Entry.tag).Nodup := by
    rw [List.map_append, List.map_cons] at h ⊢
    rwa [htag]
  funext tag
  by_cases heq : tag = e.tag.toNat
  · rw [heq, Function.update_self, ← htag]
    exact valueOf_entry h'
  · rw [Function.update_of_ne heq, valueOf_append, valueOf_append, valueOf, valueOf,
      if_neg (Ne.symm heq), htag, if_neg (Ne.symm heq)]

theorem valueOf_appended (h : ∀ e' ∈ entries, e'.tag ≠ e.tag) :
    valueOf (entries ++ [e]) = Function.update (valueOf entries) e.tag.toNat (some e.value) := by
  funext tag
  by_cases heq : tag = e.tag.toNat
  · have habsent : valueOf entries e.tag.toNat = none :=
      valueOf_absent fun e' he' htag => h e' he' (UInt8.toNat_inj.mp htag)
    rw [heq, Function.update_self, valueOf_append, habsent, valueOf, if_pos rfl]
    rfl
  · rw [Function.update_of_ne heq, valueOf_append, valueOf, if_neg (Ne.symm heq), valueOf,
      Option.or_none]

/-! ## Entries in the image -/

theorem byteAt_append (l l' : List UInt8) (i : Nat) :
    byteAt (l ++ l') (l.length + i) = byteAt l' i := by
  unfold byteAt
  rw [List.getD_eq_getElem?_getD, List.getElem?_append_right (Nat.le_add_right _ _),
    Nat.add_sub_cancel_left, ← List.getD_eq_getElem?_getD]

theorem entry_at (l rest : List UInt8) (e : Entry) :
    byteAt (l ++ (e.bytes ++ rest)) l.length = e.tag ∧
      dataSize (l ++ (e.bytes ++ rest)) l.length = e.value.length ∧
      dataValue (l ++ (e.bytes ++ rest)) l.length = e.value := by
  have htag : byteAt (l ++ (e.bytes ++ rest)) l.length = e.tag :=
    byteAt_append l (e.bytes ++ rest) 0
  have hsize : dataSize (l ++ (e.bytes ++ rest)) l.length = e.value.length := by
    unfold dataSize
    rw [byteAt_append]
    show (UInt8.ofNat e.value.length).toNat = _
    rw [UInt8.toNat_ofNat']
    exact Nat.mod_eq_of_lt e.length_lt
  refine ⟨htag, hsize, ?_⟩
  unfold dataValue
  rw [hsize, ← List.drop_drop, List.drop_left]
  show (e.value ++ rest).take e.value.length = e.value
  exact List.take_left

theorem totalSize_append {header l : List UInt8} (h : header.length = sizeofHeader) :
    totalSize (header ++ l) = totalSize header := by
  have hbyte : ∀ i, i < sizeofHeader → byteAt (header ++ l) i = byteAt header i := by
    intro i hi
    unfold byteAt
    rw [List.getD_eq_getElem?_getD, List.getElem?_append_left (by omega),
      ← List.getD_eq_getElem?_getD]
  unfold totalSize
  rw [hbyte 6 (by decide), hbyte 7 (by decide)]

theorem setTotalSize_append {header l : List UInt8} (h : header.length = sizeofHeader) :
    setTotalSize n (header ++ l) = setTotalSize n header ++ l := by
  unfold sizeofHeader at h
  unfold setTotalSize
  rw [List.set_append_left _ _ (by omega),
    List.set_append_left _ _ (by rw [List.length_set]; omega)]

theorem holds_setTotalSize {header rest : List UInt8} (hheader : header.length = sizeofHeader)
    (hdistinct : (entries.map Entry.tag).Nodup)
    (hn : n = sizeofHeader + (entriesBytes entries).length) (hlt : n < 2 ^ 16) :
    Holds (setTotalSize n (header ++ entriesBytes entries ++ rest)) entries where
  tiled := by
    refine ⟨setTotalSize n header, rest, ?_, ?_⟩
    · rw [length_setTotalSize, hheader]
    · rw [List.append_assoc, setTotalSize_append hheader, List.append_assoc]
  total := by
    rw [totalSize_setTotalSize _ hlt, hn]
    rw [List.append_assoc, List.length_append]
    omega
  distinct := hdistinct

namespace Holds

theorem le_total (h : Holds image entries) : sizeofHeader ≤ totalSize image := by
  have htotal := h.total
  omega

theorem total_le (h : Holds image entries) : totalSize image ≤ image.length := by
  obtain ⟨header, rest, hheader, htiled⟩ := h.tiled
  rw [h.total, htiled, List.length_append, List.length_append]
  omega

theorem split (h : Holds image (pre ++ e :: post)) : ∃ header rest,
    header.length = sizeofHeader ∧
      image = header ++ entriesBytes pre ++ (e.bytes ++ (entriesBytes post ++ rest)) := by
  obtain ⟨header, rest, hheader, htiled⟩ := h.tiled
  refine ⟨header, rest, hheader, ?_⟩
  rw [htiled, entriesBytes_append, entriesBytes_cons]
  simp only [List.append_assoc]

theorem read (h : Holds image (pre ++ e :: post)) :
    byteAt image (sizeofHeader + (entriesBytes pre).length) = e.tag ∧
      dataSize image (sizeofHeader + (entriesBytes pre).length) = e.value.length ∧
      dataValue image (sizeofHeader + (entriesBytes pre).length) = e.value := by
  obtain ⟨header, rest, hheader, heq⟩ := h.split
  rw [heq, ← hheader, ← List.length_append]
  exact entry_at _ _ _

theorem nextEntry_eq (h : Holds image (pre ++ e :: post)) :
    nextEntry image (sizeofHeader + (entriesBytes pre).length) =
      sizeofHeader + (entriesBytes (pre ++ [e])).length := by
  unfold nextEntry
  rw [h.read.2.1, entriesBytes_append, List.length_append, entriesBytes_cons, entriesBytes_nil,
    List.append_nil, Entry.length_bytes]
  omega

theorem entry_of_entryFrom (h : Holds image (pre ++ post))
    (hq : EntryFrom image (sizeofHeader + (entriesBytes pre).length) q) :
    ∃ l e l', post = l ++ e :: l' ∧ q = sizeofHeader + (entriesBytes (pre ++ l)).length := by
  induction post generalizing pre with
  | nil =>
    have hle := hq.le
    have hlt := hq.lt_totalSize
    have htotal := h.total
    rw [List.append_nil] at htotal
    omega
  | cons e post ih =>
    rcases hq.eq_or_next with rfl | hq
    · exact ⟨[], e, post, rfl, by rw [List.append_nil]⟩
    · rw [h.nextEntry_eq] at hq
      have h' : Holds image ((pre ++ [e]) ++ post) := by simpa using h
      obtain ⟨l, e', l', hpost, hqeq⟩ := ih h' hq
      exact ⟨e :: l, e', l', by rw [hpost, List.cons_append], by simpa using hqeq⟩

theorem entryFrom_of_entry {l l' : List Entry} (h : Holds image (pre ++ (l ++ e :: l'))) :
    EntryFrom image (sizeofHeader + (entriesBytes pre).length)
      (sizeofHeader + (entriesBytes (pre ++ l)).length) := by
  have hlt : ∀ {pre e post}, Holds image (pre ++ e :: post) →
      sizeofHeader + (entriesBytes pre).length + sizeofData < totalSize image := by
    intro pre e post h
    have hpos := List.length_pos_iff.mpr e.value_ne_nil
    have htotal := h.total
    rw [entriesBytes_append, List.length_append, entriesBytes_cons, List.length_append,
      Entry.length_bytes] at htotal
    omega
  induction l generalizing pre with
  | nil =>
    rw [List.append_nil]
    exact .here (hlt h)
  | cons e' l ih =>
    have h' : Holds image ((pre ++ [e']) ++ (l ++ e :: l')) := by simpa using h
    have hnext := ih h'
    rw [← h.nextEntry_eq] at hnext
    refine .next (hlt h) ?_
    simpa using hnext

theorem find (h : Holds image entries) (tag : Nat) :
    ((∀ e ∈ entries, e.tag.toNat ≠ tag) ∧
        ∃ accesses, cbiFindTag image tag = some (none, accesses)) ∨
      ∃ pre e post accesses, entries = pre ++ e :: post ∧ e.tag.toNat = tag ∧
        cbiFindTag image tag =
          some (some (sizeofHeader + (entriesBytes pre).length), accesses) := by
  obtain ⟨found, accesses, hfind, -, hfound⟩ := cbiFindTag_spec h.le_total tag
  cases found with
  | none =>
    refine .inl ⟨?_, accesses, hfind⟩
    intro e he
    obtain ⟨l, l', rfl⟩ := List.append_of_mem he
    have hentry := @entryFrom_of_entry _ [] _ l l' h
    rw [← h.read.1]
    exact hfound _ hentry
  | some d =>
    obtain ⟨hentry, htag, -⟩ := hfound
    have h' : Holds image ([] ++ entries) := h
    obtain ⟨l, e, l', rfl, rfl⟩ := entry_of_entryFrom h' hentry
    refine .inr ⟨l, e, l', accesses, rfl, ?_, hfind⟩
    rw [← h.read.1]
    exact htag

end Holds

/-! ## Reading a value -/

/-- The value, with the rest of the buffer cleared, if it fits; else an error and the old buffer -/
def GetResult.Answers (result : GetResult) (buf : List UInt8) : Option (List UInt8) → Prop
  | some value =>
    if value.length ≤ buf.length then
      result.status = .success ∧ result.size = value.length ∧
        result.buf = value ++ List.replicate (buf.length - value.length) 0
    else result.status ≠ .success ∧ result.buf = buf
  | none => result.status ≠ .success ∧ result.buf = buf

theorem memcpy_memset (buf value : List UInt8) :
    Lib.memcpy (Lib.memset buf 0 0 buf.length) 0 value =
      value ++ List.replicate (buf.length - value.length) 0 := by
  have hclear : Lib.memset buf 0 0 buf.length = List.replicate buf.length 0 := by
    simp [Lib.memset, Lib.memcpy]
  rw [hclear]
  simp [Lib.memcpy]

theorem Holds.get (h : Holds image entries) (tag : Nat) (buf : List UInt8) :
    ∃ result, cbiGetBoardInfo cfg tag buf ⟨image, .synced⟩ = some (result, ⟨image, .synced⟩) ∧
      result.Answers buf (valueOf entries tag) := by
  rcases h.find tag with ⟨habsent, accesses, hfind⟩ | ⟨pre, e, post, accesses, rfl, rfl, hfind⟩
  · refine ⟨_, cbiGetBoardInfo_absent hfind, ?_⟩
    rw [valueOf_absent habsent]
    exact ⟨nofun, rfl⟩
  · obtain ⟨-, hsize, hvalue⟩ := h.read
    rw [valueOf_entry h.distinct]
    by_cases hfits : e.value.length ≤ buf.length
    · refine ⟨_, cbiGetBoardInfo_found hfind (hsize ▸ hfits), ?_⟩
      show if _ ≤ _ then _ else _
      rw [if_pos hfits, hsize, hvalue]
      exact ⟨rfl, rfl, memcpy_memset buf e.value⟩
    · refine ⟨_, cbiGetBoardInfo_short hfind (by rw [hsize]; omega), ?_⟩
      show if _ ≤ _ then _ else _
      rw [if_neg hfits]
      exact ⟨nofun, rfl⟩

/-! ## Setting a value -/

/-- What an operation makes of an image: the map is updated at the tag, and the entries of the other
tags stay, in their order. -/
structure Updates (entries : List Entry) (tag : Nat) (value : List UInt8) (image' : List UInt8)
    (entries' : List Entry) : Prop where
  holds : Holds image' entries'
  valueOf_eq : valueOf entries' = setValue (valueOf entries) tag value
  others : entries'.filter (·.tag.toNat ≠ tag) = entries.filter (·.tag.toNat ≠ tag)

theorem filter_singleton_of_tag (h : e.tag.toNat = tag) :
    [e].filter (·.tag.toNat ≠ tag) = [] := by
  simp [h]

theorem appendItem_updates (h : Holds image entries) (hblock : image.length < 2 ^ 16)
    (habsent : ∀ e ∈ entries, e.tag.toNat ≠ tag)
    (htag : tag < 2 ^ 8 ∨ value = []) (hvalue : value.length < 2 ^ 8)
    (hok : (appendItem tag value image).1 = .success) :
    (appendItem tag value image).2.1.length = image.length ∧
      ∃ entries', Updates entries tag value (appendItem tag value image).2.1 entries' := by
  obtain ⟨header, rest, hheader, himage⟩ := h.tiled
  have htotal := h.total
  have hend : (header ++ entriesBytes entries).length = totalSize image := by
    rw [List.length_append, hheader, htotal]
  revert hok
  unfold appendItem
  split
  · nofun
  · rename_i hfit
    intro _
    unfold cbiSetData
    dsimp only
    -- an empty value is not stored: only `total_size` is written again
    by_cases hnil : value = []
    · rw [if_pos (by rw [hnil]; rfl)]
      dsimp only
      refine ⟨length_setTotalSize, entries, ?_, ?_, rfl⟩
      · rw [Nat.mod_eq_of_lt (totalSize_lt image)]
        nth_rewrite 2 [himage]
        exact holds_setTotalSize hheader h.distinct htotal (totalSize_lt image)
      · unfold setValue
        rw [if_pos hnil, ← valueOf_absent habsent, Function.update_eq_self]
    · have hlt : tag < 2 ^ 8 := htag.resolve_right hnil
      have hne : value.length ≠ 0 := fun hlen => hnil (List.length_eq_zero_iff.mp hlen)
      let e : Entry := ⟨UInt8.ofNat tag, value, hnil, hvalue⟩
      have htagEq : e.tag.toNat = tag := by
        show (UInt8.ofNat tag).toNat = tag
        rw [UInt8.toNat_ofNat']
        exact Nat.mod_eq_of_lt hlt
      -- a tag that has no entry stays the only one of its kind
      have hdistinct : ∀ e' ∈ entries, e'.tag ≠ e.tag := by
        intro e' he' heq
        exact habsent e' he' (heq ▸ htagEq)
      rw [if_neg hne]
      dsimp only
      constructor
      · rw [length_setTotalSize]
        refine Lib.length_memcpy ?_
        simp only [List.length_cons]
        unfold sizeofData at hfit
        omega
      · refine ⟨entries ++ [e], ?_, ?_, ?_⟩
        · have hcopy : Lib.memcpy image (totalSize image) e.bytes =
              header ++ entriesBytes (entries ++ [e]) ++ rest.drop e.bytes.length := by
            rw [← hend]
            nth_rewrite 1 [himage]
            rw [Lib.memcpy_append, entriesBytes_append, entriesBytes_cons, entriesBytes_nil,
              List.append_nil]
            simp only [List.append_assoc]
          have hsum : totalSize image + sizeofData + value.length =
              sizeofHeader + (entriesBytes (entries ++ [e])).length := by
            have hlength : e.bytes.length = sizeofData + value.length := e.length_bytes
            rw [entriesBytes_append, List.length_append, entriesBytes_cons, entriesBytes_nil,
              List.append_nil, hlength, htotal]
            omega
          show Holds (setTotalSize _ (Lib.memcpy image (totalSize image) e.bytes)) _
          rw [hcopy, Nat.mod_eq_of_lt (by omega)]
          refine holds_setTotalSize hheader ?_ hsum (by omega)
          rw [List.map_append, List.map_cons, List.map_nil, List.nodup_append]
          refine ⟨h.distinct, List.nodup_singleton _, ?_⟩
          intro t ht t' ht'
          obtain ⟨e', he', rfl⟩ := List.mem_map.mp ht
          rw [List.mem_singleton.mp ht']
          exact hdistinct e' he'
        · unfold setValue
          rw [if_neg hnil, valueOf_appended hdistinct, htagEq]
        · rw [List.filter_append, filter_singleton_of_tag htagEq, List.append_nil]

theorem cbiRemoveTag_holds (h : Holds image (pre ++ e :: post)) :
    Holds (cbiRemoveTag (sizeofHeader + (entriesBytes pre).length) image).1 (pre ++ post) := by
  obtain ⟨header, rest, hheader, heq⟩ := h.split
  have hsize := h.read.2.1
  have htotal := h.total
  have hlt := totalSize_lt image
  rw [entriesBytes_append, entriesBytes_cons, List.length_append, List.length_append,
    Entry.length_bytes] at htotal
  have hpre : (header ++ entriesBytes pre).length = sizeofHeader + (entriesBytes pre).length := by
    rw [List.length_append, hheader]
  have hentry : (header ++ entriesBytes pre ++ e.bytes).length =
      sizeofHeader + (entriesBytes pre).length + (sizeofData + e.value.length) := by
    rw [List.length_append, hpre, Entry.length_bytes]
  -- the entries behind are moved over the one that is removed, up to `total_size`
  have hmoved : (image.drop (sizeofHeader + (entriesBytes pre).length +
      (sizeofData + e.value.length))).take (entriesBytes post).length = entriesBytes post := by
    rw [← hentry, heq, ← List.append_assoc, List.drop_left]
    exact List.take_left
  have hcopy : Lib.memcpy image (sizeofHeader + (entriesBytes pre).length) (entriesBytes post) =
      header ++ entriesBytes (pre ++ post) ++
        (e.bytes ++ (entriesBytes post ++ rest)).drop (entriesBytes post).length := by
    rw [← hpre, heq, Lib.memcpy_append, entriesBytes_append]
    simp only [List.append_assoc]
  -- the subtractions do not wrap, as the entry lies in front of `total_size`
  have hbytes : (totalSize image + 2 ^ 32 - (sizeofHeader + (entriesBytes pre).length +
      (sizeofData + e.value.length))) % 2 ^ 32 = (entriesBytes post).length := by
    omega
  have hresult : (cbiRemoveTag (sizeofHeader + (entriesBytes pre).length) image).1 =
      setTotalSize (sizeofHeader + (entriesBytes (pre ++ post)).length)
        (header ++ entriesBytes (pre ++ post) ++
          (e.bytes ++ (entriesBytes post ++ rest)).drop (entriesBytes post).length) := by
    have hnew : (totalSize image + 2 ^ 16 - (sizeofData + e.value.length)) % 2 ^ 16 =
        sizeofHeader + (entriesBytes (pre ++ post)).length := by
      rw [entriesBytes_append, List.length_append]
      omega
    unfold cbiRemoveTag
    dsimp only
    rw [hsize, hbytes, hmoved, hcopy, hnew]
  rw [hresult]
  refine holds_setTotalSize hheader ?_ rfl ?_
  · refine List.Nodup.sublist ?_ h.distinct
    exact ((List.sublist_cons_self e post).append_left pre).map Entry.tag
  · rw [entriesBytes_append, List.length_append]
    omega

theorem overwrite_holds (h : Holds image (pre ++ e :: post))
    (hsize : e.value.length = value.length) (hnil : value ≠ []) (hvalue : value.length < 2 ^ 8) :
    Holds (Lib.memcpy image (sizeofHeader + (entriesBytes pre).length + sizeofData) value)
      (pre ++ ⟨e.tag, value, hnil, hvalue⟩ :: post) := by
  obtain ⟨header, rest, hheader, heq⟩ := h.split
  have hstart : (header ++ entriesBytes pre ++ [e.tag, UInt8.ofNat e.value.length]).length =
      sizeofHeader + (entriesBytes pre).length + sizeofData := by
    rw [List.length_append, List.length_append, hheader]
    rfl
  have hvalueAt : image = header ++ entriesBytes pre ++ [e.tag, UInt8.ofNat e.value.length] ++
      (e.value ++ (entriesBytes post ++ rest)) := by
    rw [heq]
    simp only [Entry.bytes, List.append_assoc, List.cons_append, List.nil_append]
  -- tag and size stay, so the entries tile the image as before
  have htiled : Lib.memcpy image (sizeofHeader + (entriesBytes pre).length + sizeofData) value =
      header ++ entriesBytes (pre ++ ⟨e.tag, value, hnil, hvalue⟩ :: post) ++ rest := by
    rw [← hstart, hvalueAt, Lib.memcpy_append, ← hsize, List.drop_left]
    simp only [entriesBytes_append, entriesBytes_cons, Entry.bytes, hsize, List.append_assoc,
      List.cons_append, List.nil_append]
  refine ⟨⟨header, rest, hheader, htiled⟩, ?_, ?_⟩
  · have htotal := h.total
    have hkeep : totalSize (Lib.memcpy image
        (sizeofHeader + (entriesBytes pre).length + sizeofData) value) = totalSize image := by
      rw [htiled, heq]
      simp only [List.append_assoc]
      rw [totalSize_append hheader, totalSize_append hheader]
    rw [hkeep, htotal]
    simp only [entriesBytes_append, entriesBytes_cons, List.length_append, Entry.length_bytes,
      hsize]
  · have hdistinct := h.distinct
    rw [List.map_append, List.map_cons] at hdistinct ⊢
    exact hdistinct

theorem filter_others {l : List Entry} (hl : ∀ e' ∈ l, e'.tag.toNat = tag) :
    (pre ++ (l ++ post)).filter (·.tag.toNat ≠ tag) =
      (pre ++ post).filter (·.tag.toNat ≠ tag) := by
  have hnone : l.filter (·.tag.toNat ≠ tag) = [] := by
    rw [List.filter_eq_nil_iff]
    intro e' he'
    simp [hl e' he']
  rw [List.filter_append, List.filter_append, hnone, List.nil_append, List.filter_append]

theorem resized_updates (h : Holds image (pre ++ e :: post)) (hblock : image.length < 2 ^ 16)
    (heTag : e.tag.toNat = tag) (htag : tag < 2 ^ 8 ∨ value = []) (hvalue : value.length < 2 ^ 8)
    (hok : (appendItem tag value
      (cbiRemoveTag (sizeofHeader + (entriesBytes pre).length) image).1).1 = .success) :
    (appendItem tag value
        (cbiRemoveTag (sizeofHeader + (entriesBytes pre).length) image).1).2.1.length =
        image.length ∧
      ∃ entries', Updates (pre ++ e :: post) tag value (appendItem tag value
        (cbiRemoveTag (sizeofHeader + (entriesBytes pre).length) image).1).2.1 entries' := by
  have hothers : ∀ e' ∈ pre ++ post, e'.tag.toNat ≠ tag := by
    intro e' he' heq
    exact ne_of_distinct h.distinct e' he' (UInt8.toNat_inj.mp (heq.trans heTag.symm))
  have hend : nextEntry image (sizeofHeader + (entriesBytes pre).length) ≤ totalSize image := by
    have htotal := h.total
    rw [h.nextEntry_eq, htotal]
    simp only [entriesBytes_append, entriesBytes_cons, entriesBytes_nil, List.append_nil,
      List.length_append]
    omega
  have hlength := length_cbiRemoveTag hend h.total_le
  obtain ⟨hlength', entries', hupdates⟩ := appendItem_updates (cbiRemoveTag_holds h)
    (by rw [hlength]; exact hblock) hothers htag hvalue hok
  refine ⟨hlength'.trans hlength, entries', hupdates.holds, ?_, ?_⟩
  · -- what the removal has taken out of the map is set again
    rw [hupdates.valueOf_eq, valueOf_removed h.distinct, heTag]
    unfold setValue
    rw [Function.update_idem]
  · rw [hupdates.others]
    exact (filter_others (l := [e]) (by simpa using heTag)).symm

theorem overwritten_updates (h : Holds image (pre ++ e :: post)) (heTag : e.tag.toNat = tag)
    (hsize : e.value.length = value.length) (hvalue : value.length < 2 ^ 8) :
    (Lib.memcpy image (sizeofHeader + (entriesBytes pre).length + sizeofData) value).length =
        image.length ∧
      ∃ entries', Updates (pre ++ e :: post) tag value
        (Lib.memcpy image (sizeofHeader + (entriesBytes pre).length + sizeofData) value)
        entries' := by
  have hnil : value ≠ [] := by
    rintro rfl
    exact e.value_ne_nil (List.length_eq_zero_iff.mp hsize)
  constructor
  · refine Lib.length_memcpy ?_
    have htotal := h.total
    have hle := h.total_le
    simp only [entriesBytes_append, entriesBytes_cons, List.length_append,
      Entry.length_bytes] at htotal
    omega
  · refine ⟨_, overwrite_holds h hsize hnil hvalue, ?_, ?_⟩
    · unfold setValue
      rw [if_neg hnil, ← heTag]
      exact valueOf_replaced h.distinct rfl
    · -- the entry had the tag before, and has it still
      have hnew := @filter_others pre post tag [⟨e.tag, value, hnil, hvalue⟩]
        (by simpa using heTag)
      have hold := @filter_others pre post tag [e] (by simpa using heTag)
      exact hnew.trans hold.symm

theorem cbiSetBoardInfo_updates (h : Holds image entries) (hblock : image.length < 2 ^ 16)
    (htag : tag < 2 ^ 8 ∨ value = []) (hvalue : value.length < 2 ^ 8) {accesses : List Access}
    (hset : cbiSetBoardInfo tag value image = some (.success, image', accesses)) :
    image'.length = image.length ∧ ∃ entries', Updates entries tag value image' entries' := by
  rcases h.find tag with ⟨habsent, accesses', hfind⟩ | ⟨pre, e, post, accesses', rfl, heTag, hfind⟩
  · rw [cbiSetBoardInfo_absent hfind] at hset
    simp only [Option.some.injEq, Prod.mk.injEq] at hset
    obtain ⟨hok, rfl, -⟩ := hset
    exact appendItem_updates h hblock habsent htag hvalue hok
  by_cases hresized : dataSize image (sizeofHeader + (entriesBytes pre).length) ≠ value.length
  · rw [cbiSetBoardInfo_resized hfind hresized] at hset
    simp only [Option.some.injEq, Prod.mk.injEq] at hset
    obtain ⟨hok, rfl, -⟩ := hset
    exact resized_updates h hblock heTag htag hvalue hok
  · have hsize : e.value.length = value.length := by
      rw [← h.read.2.1]
      exact not_not.mp hresized
    rw [cbiSetBoardInfo_overwritten hfind (not_not.mp hresized)] at hset
    simp only [Option.some.injEq, Prod.mk.injEq, true_and] at hset
    obtain ⟨rfl, -⟩ := hset
    exact overwritten_updates h heTag hsize hvalue

/-! ## Runs -/

/-- The values of the operations, one after the other; no image if one of them fails -/
def setAll : List (Nat × List UInt8) → List UInt8 → Option (List UInt8)
  | [], image => some image
  | (tag, value) :: ops, image =>
    match cbiSetBoardInfo tag value image with
    | some (.success, image', _) => setAll ops image'
    | _ => none

/-- The tag of an operation fits the tag byte of an entry, if it makes one. -/
def Storable (op : Nat × List UInt8) : Prop :=
  op.1 < 2 ^ 8 ∨ op.2 = []

structure FiniteMap (cfg : Config) (entries : List Entry) (ops : List (Nat × List UInt8))
    (image' : List UInt8) : Prop where
  wellFormed : ∃ entries', Holds image' entries' ∧
    entries'.filter (fun e => ∀ op ∈ ops, e.tag.toNat ≠ op.1) =
      entries.filter (fun e => ∀ op ∈ ops, e.tag.toNat ≠ op.1)
  get : ∀ tag buf, ∃ result,
    cbiGetBoardInfo cfg tag buf ⟨image', .synced⟩ = some (result, ⟨image', .synced⟩) ∧
      result.Answers buf (ops.foldl (fun m op => setValue m op.1 op.2) (valueOf entries) tag)

theorem setAll_updates {ops : List (Nat × List UInt8)} (h : Holds image entries)
    (hblock : image.length < 2 ^ 16) (hvalues : ∀ op ∈ ops, op.2.length < 2 ^ 8)
    (hstorable : ∀ op ∈ ops, Storable op) (hrun : setAll ops image = some image') :
    ∃ entries', Holds image' entries' ∧
      valueOf entries' = ops.foldl (fun m op => setValue m op.1 op.2) (valueOf entries) ∧
      entries'.filter (fun e => ∀ op ∈ ops, e.tag.toNat ≠ op.1) =
        entries.filter (fun e => ∀ op ∈ ops, e.tag.toNat ≠ op.1) := by
  induction ops generalizing image entries with
  | nil =>
    cases hrun
    exact ⟨entries, h, rfl, rfl⟩
  | cons op ops ih =>
    obtain ⟨tag, value⟩ := op
    have hop : (tag, value) ∈ (tag, value) :: ops := List.mem_cons_self
    unfold setAll at hrun
    split at hrun
    · rename_i image₁ accesses hset
      obtain ⟨hlength, entries₁, hupdates⟩ :=
        cbiSetBoardInfo_updates h hblock (hstorable _ hop) (hvalues _ hop) hset
      obtain ⟨entries', hholds, hvalue, hothers⟩ := ih hupdates.holds (by omega)
        (fun op h => hvalues op (List.mem_cons_of_mem _ h))
        (fun op h => hstorable op (List.mem_cons_of_mem _ h)) hrun
      refine ⟨entries', hholds, ?_, ?_⟩
      · rw [hvalue, hupdates.valueOf_eq]
        rfl
      · -- the entries that neither this operation nor a later one names
        have hsplit : ∀ l : List Entry,
            l.filter (fun e => ∀ op ∈ (tag, value) :: ops, e.tag.toNat ≠ op.1) =
              (l.filter (fun e => ∀ op ∈ ops, e.tag.toNat ≠ op.1)).filter
                (·.tag.toNat ≠ tag) := by
          intro l
          rw [List.filter_filter]
          refine List.filter_congr fun e _ => ?_
          rw [Bool.eq_iff_iff, Bool.and_eq_true, decide_eq_true_iff, decide_eq_true_iff,
            decide_eq_true_iff]
          exact List.forall_mem_cons
        have hcomm : ∀ l : List Entry,
            (l.filter (fun e => ∀ op ∈ ops, e.tag.toNat ≠ op.1)).filter (·.tag.toNat ≠ tag) =
              (l.filter (·.tag.toNat ≠ tag)).filter
                (fun e => ∀ op ∈ ops, e.tag.toNat ≠ op.1) := by
          intro l
          rw [List.filter_filter, List.filter_filter]
          exact List.filter_congr fun e _ => Bool.and_comm _ _
        rw [hsplit, hsplit, hothers, hcomm, hcomm, hupdates.others]
    · cases hrun

/-- Successful operations on a well-formed image, with tags that an entry can hold, keep it a finite
map. -/
theorem finiteMap_of_setAll {ops : List (Nat × List UInt8)} (h : Holds image entries)
    (hblock : image.length < 2 ^ 16) (hvalues : ∀ op ∈ ops, op.2.length < 2 ^ 8)
    (hstorable : ∀ op ∈ ops, Storable op) (hrun : setAll ops image = some image') :
    FiniteMap cfg entries ops image' := by
  obtain ⟨entries', hholds, hvalue, hothers⟩ := setAll_updates h hblock hvalues hstorable hrun
  refine ⟨⟨entries', hholds, hothers⟩, fun tag buf => ?_⟩
  rw [← hvalue]
  exact hholds.get tag buf

def emptyImage : List UInt8 :=
  [0x43, 0x42, 0x49, 0, 0, 0, 8, 0] ++ List.replicate 12 0

theorem holds_emptyImage : Holds emptyImage [] where
  tiled := ⟨[0x43, 0x42, 0x49, 0, 0, 0, 8, 0], List.replicate 12 0, rfl, rfl⟩
  total := by decide
  distinct := List.nodup_nil

/-- Two tags are set, the first of them again with a longer value. -/
theorem finiteMap_of_setAll_twice :
    ∃ image', setAll [(5, [1]), (2, [7]), (5, [3, 4])] emptyImage = some image' ∧
      FiniteMap (storageOf []) [] [(5, [1]), (2, [7]), (5, [3, 4])] image' := by
  refine ⟨[0x43, 0x42, 0x49, 0, 0, 0, 15, 0, 2, 1, 7, 5, 2, 3, 4, 0, 0, 0, 0, 0], ?_, ?_⟩
  · decide +kernel
  · refine finiteMap_of_setAll holds_emptyImage (by decide) (by decide) ?_ (by decide +kernel)
    intro op hop
    refine .inl ?_
    revert op
    decide

/-- A tag that does not fit is stored as another one. -/
theorem not_finiteMap_wideTag :
    ∃ image', setAll [(257, [7])] emptyImage = some image' ∧
      ¬ FiniteMap (storageOf []) [] [(257, [7])] image' := by
  refine ⟨[0x43, 0x42, 0x49, 0, 0, 0, 11, 0, 1, 1, 7, 0, 0, 0, 0, 0, 0, 0, 0, 0], ?_, ?_⟩
  · decide +kernel
  · intro h
    obtain ⟨result, hget, hanswers⟩ := h.get 257 [0]
    have hresult : result.status = .errorUnknown := by
      have heq : (cbiGetBoardInfo (storageOf []) 257 [0]
          ⟨[0x43, 0x42, 0x49, 0, 0, 0, 11, 0, 1, 1, 7, 0, 0, 0, 0, 0, 0, 0, 0, 0], .synced⟩).map
            (·.1.status) = some .errorUnknown := by
        decide +kernel
      rw [hget] at heq
      exact Option.some.inj heq
    have hsome : [(257, [(7 : UInt8)])].foldl (fun m op => setValue m op.1 op.2) (valueOf []) 257 =
        some [7] := by
      decide +kernel
    rw [hsome] at hanswers
    have hstatus := hanswers.1
    rw [hresult] at hstatus
    cases hstatus

end ChromiumEc.Cbi
