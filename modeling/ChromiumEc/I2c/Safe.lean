import ChromiumEc.I2c.Passthru
import Mathlib.Tactic.SplitIfs

/-!
# Safe — the passthru command stays in its buffers

Whatever the request says and the drivers answer, the command writes inside the response, hands each
message its own bytes, respects the filter of a protected port, and leaves the port unlocked.  It
reads inside the request when the bytes that it looks at before it has checked the lengths are there.
-/

namespace ChromiumEc.I2c

/-! ## What is asked -/

/-- The bytes to write of the messages before `i`. -/
def writeBefore (a : HandlerArgs) : Nat → Nat
  | 0 => 0
  | i + 1 => writeBefore a i + (a.msg i).writeLen

/-- The bytes to read of the messages before `i`. -/
def readBefore (a : HandlerArgs) : Nat → Nat
  | 0 => 0
  | i + 1 => readBefore a i + (a.msg i).readLen

/-- The bytes of the request up to `n` are enough for the action. -/
def Action.ReadInside (n : Nat) : Action → Prop
  | .read off len => len = 0 ∨ off + len ≤ n
  | _ => True

/-- The bytes of the response up to `n` are enough for the action. -/
def Action.WriteInside (n : Nat) : Action → Prop
  | .write off bytes => bytes = [] ∨ off + bytes.length ≤ n
  | _ => True

/-- A transfer is handed the bytes that follow those of the earlier write messages. -/
def Action.Handed (a : HandlerArgs) : Action → Prop
  | .xfer x => x.msgnum < a.numMsgs ∧ x.out = a.size + writeBefore a x.msgnum ∧
      x.writeLen = (a.msg x.msgnum).writeLen
  | _ => True

instance (n : Nat) : DecidablePred (Action.ReadInside n)
  | .read off len => inferInstanceAs (Decidable (len = 0 ∨ off + len ≤ n))
  | .write _ _ => inferInstanceAs (Decidable True)
  | .i2cLock _ _ => inferInstanceAs (Decidable True)
  | .xfer _ => inferInstanceAs (Decidable True)

def Action.lockAfter (locked : Bool) : Action → Bool
  | .i2cLock _ lock => lock
  | _ => locked

def portLocked (trace : List Action) : Bool :=
  trace.foldl Action.lockAfter false

/-- The state in which the turn of the message `i` comes, but for the lock and the trace. -/
def stateAt (a : HandlerArgs) (i : Nat) : XferState :=
  ⟨i, readBefore a i, a.size + writeBefore a i, false, []⟩

/-- The virtual battery or the driver completes the message `i`. -/
def Completes (b : Board) (a : HandlerArgs) (i : Nat) : Prop :=
  (virtualBattery b a (stateAt a i)).2 = some true ∨
    (virtualBattery b a (stateAt a i)).2 = some false ∧
      (b.i2cXferUnlocked (xferOf a (stateAt a i))).1 = .success

structure Safe (b : Board) (a : HandlerArgs) (r : PassthruResult) : Prop where
  reads : ∀ act ∈ r.trace, act.ReadInside a.paramsSize.toNat
  writes : ∀ act ∈ r.trace, act.WriteInside a.responseMax.toNat
  completed : r.status = .success → r.numMsgs ≤ a.numMsgs ∧ (∀ i < r.numMsgs, Completes b a i) ∧
    (r.numMsgs < a.numMsgs → ¬ Completes b a r.numMsgs)
  responseSize : r.status = .success →
    r.responseSize = responseHeaderSize + readBefore a r.numMsgs
  handed : ∀ act ∈ r.trace, act.Handed a
  allowed : b.portProtected a.port = true → (∃ x, Action.xfer x ∈ r.trace) →
    ∃ p allowed, b.getI2cPort a.port = some p ∧ p.passthruAllowed = some allowed ∧
      ∀ i < a.numMsgs, allowed i (a.msg i).addrFlags = true
  unlocked : portLocked r.trace = false

/-- The command byte that the filter is given for the message `i`: the first byte of the last write
message up to it. -/
def cmdAt (b : Board) (a : HandlerArgs) : Nat → UInt8
  | 0 => 0xff
  | i + 1 =>
    if b.restricted && !(a.msg i).isRead then a.params (a.size + writeBefore a i)
    else cmdAt b a i

/-- The filter refuses the message `i`. -/
def Refused (b : Board) (a : HandlerArgs) (i : Nat) : Prop :=
  (b.restricted && b.systemIsLocked &&
    !b.boardAllowI2cPassthru i ⟨a.port, (a.msg i).addrFlags, cmdAt b a (i + 1)⟩) = true

/-- The write messages whose first byte is looked at for the filter begin in the request. -/
def CommandsInside (b : Board) (a : HandlerArgs) : Prop :=
  ∀ i < a.numMsgs, (∀ j < i, ¬ Refused b a j) → (a.msg i).isRead = false →
    a.size + writeBefore a i < a.paramsSize.toNat

section Sizes

variable {a : HandlerArgs} {i n : Nat}

theorem writeBefore_mono (h : i ≤ n) : writeBefore a i ≤ writeBefore a n := by
  induction h with
  | refl => exact Nat.le_refl _
  | step _ ih => exact Nat.le_trans ih (Nat.le_add_right _ _)

theorem readBefore_mono (h : i ≤ n) : readBefore a i ≤ readBefore a n := by
  induction h with
  | refl => exact Nat.le_refl _
  | step _ ih => exact Nat.le_trans ih (Nat.le_add_right _ _)

theorem msgOffset_le (h : i < a.numMsgs) : HandlerArgs.msgOffset i + msgSize ≤ a.size := by
  have hle : i * msgSize + msgSize ≤ a.numMsgs * msgSize := by
    rw [← Nat.succ_mul]
    exact Nat.mul_le_mul_right _ h
  rw [HandlerArgs.msgOffset, HandlerArgs.size]
  omega

end Sizes

/-! ## The check -/

section Check

variable {b : Board} {a : HandlerArgs} {n : Nat}

def Action.IsRead : Action → Prop
  | .read _ _ => True
  | _ => False

theorem Action.IsRead.cases {act : Action} (h : act.IsRead) :
    (∀ m, act.WriteInside m) ∧ act.Handed a ∧ ∀ x, act ≠ .xfer x := by
  cases act with
  | read off len => exact ⟨fun _ => trivial, trivial, nofun⟩
  | _ => exact h.elim

theorem Action.IsRead.lockAfter {act : Action} (h : act.IsRead) (locked : Bool) :
    act.lockAfter locked = locked := by
  cases act with
  | read off len => rfl
  | _ => exact h.elim

/-- The lengths and the command before the message `i`. -/
def checkAt (b : Board) (a : HandlerArgs) (i : Nat) : CheckState :=
  ⟨readBefore a i, writeBefore a i, cmdAt b a i⟩

/-- What the loop of the check reads for the message `i`. -/
def checkReads (b : Board) (a : HandlerArgs) (i : Nat) : List Action :=
  [.read 1 1, .read (HandlerArgs.msgOffset i) 2, .read (HandlerArgs.msgOffset i + 2) 2] ++
    (if b.restricted && !(a.msg i).isRead then [.read (a.size + writeBefore a i) 1] else []) ++
    if b.restricted && b.systemIsLocked then [.read 0 1] else []

theorem checkReads_isRead (i : Nat) : ∀ act ∈ checkReads b a i, act.IsRead := by
  intro act hact
  simp only [checkReads, List.mem_append, List.mem_cons, List.not_mem_nil, or_false] at hact
  rcases hact with ((rfl | rfl | rfl) | hlook) | hdesc
  · trivial
  · trivial
  · trivial
  · split_ifs at hlook
    · rw [List.mem_singleton.mp hlook]
      trivial
    · exact absurd hlook List.not_mem_nil
  · split_ifs at hdesc
    · rw [List.mem_singleton.mp hdesc]
      trivial
    · exact absurd hdesc List.not_mem_nil

theorem checkReads_inside_iff {i : Nat} (hi : i < a.numMsgs) (hsize : a.size ≤ n) :
    (∀ act ∈ checkReads b a i, act.ReadInside n) ↔
      (b.restricted = true → (a.msg i).isRead = false → a.size + writeBefore a i < n) := by
  have hfield := msgOffset_le hi
  have hheader : paramsHeaderSize ≤ a.size := Nat.le_add_right _ _
  rw [paramsHeaderSize] at hheader
  rw [msgSize] at hfield
  -- the checks of the port and the fields lie within the descriptors, which `hsize` covers
  have hdesc : ∀ act ∈ (if b.restricted && b.systemIsLocked then [Action.read 0 1] else []),
      act.ReadInside n := by
    intro act hact
    split_ifs at hact
    · rw [List.mem_singleton.mp hact]
      exact .inr (by omega)
    · exact absurd hact List.not_mem_nil
  have hfields : ∀ act ∈ [Action.read 1 1, .read (HandlerArgs.msgOffset i) 2,
      .read (HandlerArgs.msgOffset i + 2) 2], act.ReadInside n := by
    intro act hact
    simp only [List.mem_cons, List.not_mem_nil, or_false] at hact
    rcases hact with rfl | rfl | rfl
    · exact .inr (by omega)
    · exact .inr (by omega)
    · exact .inr (by omega)
  rw [checkReads, List.forall_mem_append, List.forall_mem_append]
  constructor
  -- what is left is the first byte of a write, which a restricted port looks at
  · rintro ⟨⟨-, hlook⟩, -⟩ hrestricted hwrite
    have hread := hlook (.read (a.size + writeBefore a i) 1) (by simp [hrestricted, hwrite])
    exact hread.resolve_left (by decide)
  · intro hlook
    refine ⟨⟨hfields, fun act hact => ?_⟩, hdesc⟩
    split_ifs at hact with hlooks
    · rw [Bool.and_eq_true, Bool.not_eq_true'] at hlooks
      rw [List.mem_singleton.mp hact]
      exact .inr (hlook hlooks.1 hlooks.2)
    · exact absurd hact List.not_mem_nil

instance (b : Board) (a : HandlerArgs) (i : Nat) : Decidable (Refused b a i) :=
  inferInstanceAs (Decidable (_ = true))

theorem checkMsgs_succ (fuel i : Nat) :
    checkMsgs b a (fuel + 1) i (checkAt b a i) =
      if Refused b a i then (checkReads b a i, .error .accessDenied)
      else
        (checkReads b a i ++ (checkMsgs b a fuel (i + 1) (checkAt b a (i + 1))).1,
          (checkMsgs b a fuel (i + 1) (checkAt b a (i + 1))).2) := by
  rw [checkMsgs]
  rfl

theorem checkMsgs_isRead (fuel i : Nat) :
    ∀ act ∈ (checkMsgs b a fuel i (checkAt b a i)).1, act.IsRead := by
  induction fuel generalizing i with
  | zero =>
    intro act hact
    rw [checkMsgs, List.mem_singleton] at hact
    rw [hact]
    trivial
  | succ fuel ih =>
    rw [checkMsgs_succ]
    split_ifs
    · exact checkReads_isRead i
    · exact List.forall_mem_append.mpr ⟨checkReads_isRead i, ih (i + 1)⟩

theorem checkMsgs_result {fuel i : Nat} (hfuel : i + fuel = a.numMsgs) :
    (checkMsgs b a fuel i (checkAt b a i)).2 = .error .accessDenied ∨
      (checkMsgs b a fuel i (checkAt b a i)).2 = .ok (checkAt b a a.numMsgs) := by
  induction fuel generalizing i with
  | zero =>
    refine .inr ?_
    rw [← hfuel]
    rfl
  | succ fuel ih =>
    rw [checkMsgs_succ]
    split_ifs
    · exact .inl rfl
    · exact ih (by omega)

/-- The loop reads inside the request when the messages up to the first one that is refused begin
there. -/
theorem checkMsgs_inside_iff {fuel i : Nat} (hfuel : i + fuel = a.numMsgs) (hsize : a.size ≤ n) :
    (∀ act ∈ (checkMsgs b a fuel i (checkAt b a i)).1, act.ReadInside n) ↔
      ∀ k, i ≤ k → k < a.numMsgs → (∀ j, i ≤ j → j < k → ¬ Refused b a j) →
        b.restricted = true → (a.msg k).isRead = false → a.size + writeBefore a k < n := by
  induction fuel generalizing i with
  | zero =>
    have hheader : paramsHeaderSize ≤ a.size := Nat.le_add_right _ _
    rw [paramsHeaderSize] at hheader
    refine ⟨fun _ k hik hk => absurd hk (by omega), fun _ act hact => ?_⟩
    rw [checkMsgs, List.mem_singleton] at hact
    rw [hact]
    exact .inr (by omega)
  | succ fuel ih =>
    have hi : i < a.numMsgs := by omega
    rw [checkMsgs_succ]
    split_ifs with hrefused
    · rw [checkReads_inside_iff hi hsize]
      constructor
      · intro hlook k hik hk hnone
        -- no message after the refused one is looked at
        rcases Nat.eq_or_lt_of_le hik with rfl | hlt
        · exact hlook
        · exact absurd hrefused (hnone i (Nat.le_refl _) hlt)
      · intro hall
        exact hall i (Nat.le_refl _) hi fun j hij hji => absurd hji (by omega)
    · rw [List.forall_mem_append, checkReads_inside_iff hi hsize, ih (by omega)]
      constructor
      · rintro ⟨hlook, hrest⟩ k hik hk hnone
        rcases Nat.eq_or_lt_of_le hik with rfl | hlt
        · exact hlook
        · exact hrest k hlt hk fun j hij => hnone j (by omega)
      · intro hall
        refine ⟨hall i (Nat.le_refl _) hi fun j hij hji => absurd hji (by omega), ?_⟩
        intro k hik hk hnone
        refine hall k (by omega) hk fun j hij hjk => ?_
        rcases Nat.eq_or_lt_of_le hij with rfl | hlt
        · exact hrefused
        · exact hnone j hlt hjk

theorem checkI2cParams_of_size (h : a.size ≤ a.paramsSize.toNat) :
    (checkI2cParams b a).1 =
        .read 1 1 :: (checkMsgs b a a.numMsgs 0 (checkAt b a 0)).1 ∧
      ((checkI2cParams b a).2 = .success →
        responseHeaderSize + readBefore a a.numMsgs ≤ a.responseMax.toNat ∧
          a.size + writeBefore a a.numMsgs ≤ a.paramsSize.toNat) := by
  have hheader : paramsHeaderSize ≤ a.size := Nat.le_add_right _ _
  have hstart : (⟨0, 0, 0xff⟩ : CheckState) = checkAt b a 0 := rfl
  simp only [checkI2cParams, if_neg (show ¬ a.paramsSize.toNat < paramsHeaderSize by omega),
    if_neg (Nat.not_lt.mpr h), hstart]
  rcases checkMsgs_result (b := b) (Nat.zero_add a.numMsgs) with herr | hok
  · rw [herr]
    exact ⟨rfl, nofun⟩
  · rw [hok]
    by_cases hread : a.responseMax.toNat < responseHeaderSize + (checkAt b a a.numMsgs).readLen
    · simp only [if_pos hread]
      exact ⟨trivial, nofun⟩
    · by_cases hwrite : a.paramsSize.toNat < a.size + (checkAt b a a.numMsgs).writeLen
      · simp only [if_neg hread, if_pos hwrite]
        exact ⟨trivial, nofun⟩
      · simp only [if_neg hread, if_neg hwrite]
        exact ⟨trivial, fun _ => ⟨Nat.not_lt.mp hread, Nat.not_lt.mp hwrite⟩⟩

theorem checkI2cParams_of_short (h : a.paramsSize.toNat < a.size) :
    checkI2cParams b a = ([], .invalidParam) ∨
      paramsHeaderSize ≤ a.paramsSize.toNat ∧
        checkI2cParams b a = ([.read 1 1], .invalidParam) := by
  rw [checkI2cParams, if_pos h]
  split_ifs with hshort
  · exact .inl rfl
  · exact .inr ⟨Nat.not_lt.mp hshort, rfl⟩

theorem checkI2cParams_isRead : ∀ act ∈ (checkI2cParams b a).1, act.IsRead := by
  by_cases h : a.size ≤ a.paramsSize.toNat
  · rw [(checkI2cParams_of_size h).1, List.forall_mem_cons]
    exact ⟨trivial, checkMsgs_isRead _ _⟩
  · rcases checkI2cParams_of_short (b := b) (Nat.lt_of_not_le h) with hnone | ⟨-, hcount⟩
    · rw [hnone]
      exact List.forall_mem_nil _
    · rw [hcount, List.forall_mem_singleton]
      trivial

theorem size_of_success (h : (checkI2cParams b a).2 = .success) :
    a.size ≤ a.paramsSize.toNat := by
  refine Nat.le_of_not_lt fun hshort => ?_
  rcases checkI2cParams_of_short (b := b) hshort with hnone | ⟨-, hcount⟩
  · rw [hnone] at h
    contradiction
  · rw [hcount] at h
    contradiction

theorem checkI2cParams_inside_iff :
    (∀ act ∈ (checkI2cParams b a).1, act.ReadInside a.paramsSize.toNat) ↔
      b.restricted = false ∨ a.paramsSize.toNat < a.size ∨ CommandsInside b a := by
  have hheader : paramsHeaderSize ≤ a.size := Nat.le_add_right _ _
  rw [paramsHeaderSize] at hheader
  by_cases h : a.size ≤ a.paramsSize.toNat
  · have hcount : (Action.read 1 1).ReadInside a.paramsSize.toNat := .inr (by omega)
    rw [(checkI2cParams_of_size h).1, List.forall_mem_cons,
      checkMsgs_inside_iff (Nat.zero_add _) h]
    constructor
    · rintro ⟨-, hall⟩
      cases hrestricted : b.restricted with
      | false => exact .inl rfl
      | true =>
        exact .inr (.inr fun k hk hnone =>
          hall k (Nat.zero_le k) hk (fun j _ hjk => hnone j hjk) hrestricted)
    · rintro (hopen | hshort | hall)
      · exact ⟨hcount, fun k _ _ _ hrestricted => absurd (hopen.symm.trans hrestricted) (by decide)⟩
      · exact absurd hshort (by omega)
      · exact ⟨hcount, fun k _ hk hnone _ => hall k hk fun j hjk => hnone j (Nat.zero_le j) hjk⟩
  · refine ⟨fun _ => .inr (.inl (by omega)), fun _ => ?_⟩
    rcases checkI2cParams_of_short (b := b) (Nat.lt_of_not_le h) with hnone | ⟨hpos, hcount⟩
    · rw [hnone]
      exact List.forall_mem_nil _
    · rw [paramsHeaderSize] at hpos
      rw [hcount, List.forall_mem_singleton]
      exact .inr (by omega)

end Check

/-! ## The transfers -/

section Transfers

variable {b : Board} {a : HandlerArgs} {s : XferState}

/-- The lengths fit into the request and the response. -/
structure Fits (a : HandlerArgs) : Prop where
  size : a.size ≤ a.paramsSize.toNat
  reads : responseHeaderSize + readBefore a a.numMsgs ≤ a.responseMax.toNat
  writes : a.size + writeBefore a a.numMsgs ≤ a.paramsSize.toNat

/-- The action stays in the buffers, and a transfer has its own bytes. -/
structure Fine (a : HandlerArgs) (act : Action) : Prop where
  reads : act.ReadInside a.paramsSize.toNat
  writes : act.WriteInside a.responseMax.toNat
  handed : act.Handed a

/-- The variables of the loop when the turn of the next message comes. -/
structure XferInv (a : HandlerArgs) (s : XferState) : Prop where
  inLen : s.inLen = readBefore a s.numMsgs
  out : s.out = a.size + writeBefore a s.numMsgs
  locked : portLocked s.trace = s.portIsLocked
  fine : ∀ act ∈ s.trace, Fine a act

theorem portLocked_append (t t' : List Action) :
    portLocked (t ++ t') = t'.foldl Action.lockAfter (portLocked t) :=
  List.foldl_append

theorem XferInv.act {acts : List Action} (h : XferInv a s) (hfine : ∀ act ∈ acts, Fine a act)
    (hlock : ∀ act ∈ acts, ∀ locked, act.lockAfter locked = locked) :
    XferInv a { s with trace := s.trace ++ acts } := by
  refine ⟨h.inLen, h.out, ?_, List.forall_mem_append.mpr ⟨h.fine, hfine⟩⟩
  change portLocked (s.trace ++ acts) = s.portIsLocked
  rw [portLocked_append, h.locked]
  generalize s.portIsLocked = locked
  induction acts with
  | nil => rfl
  | cons act acts ih =>
    rw [List.foldl_cons, hlock act List.mem_cons_self,
      ih (fun x hx => hfine x (List.mem_cons_of_mem act hx))
        fun x hx => hlock x (List.mem_cons_of_mem act hx)]

theorem fine_read {off len : Nat} (h : len = 0 ∨ off + len ≤ a.paramsSize.toNat) :
    Fine a (.read off len) :=
  ⟨h, trivial, trivial⟩

theorem fine_write {off : Nat} {bytes : List UInt8}
    (h : bytes = [] ∨ off + bytes.length ≤ a.responseMax.toNat) : Fine a (.write off bytes) :=
  ⟨trivial, h, trivial⟩

theorem fine_writeHeader (hfits : Fits a) {off : Nat} (v : UInt8) (hoff : off < 2) :
    Fine a (.write off [v]) := by
  have hreads := hfits.reads
  rw [responseHeaderSize] at hreads
  refine fine_write (.inr ?_)
  rw [List.length_singleton]
  omega

theorem XferInv.xferOf_eq (h : XferInv a s) : xferOf a s = xferOf a (stateAt a s.numMsgs) := by
  rw [xferOf, xferOf, h.inLen, h.out]
  rfl

theorem XferInv.virtualBattery_eq (h : XferInv a s) :
    (virtualBattery b a s).2 = (virtualBattery b a (stateAt a s.numMsgs)).2 := by
  rw [virtualBattery, virtualBattery, h.xferOf_eq]
  split_ifs <;> rfl

theorem XferInv.fields (hfits : Fits a) (h : XferInv a s) (hi : s.numMsgs < a.numMsgs) :
    XferInv a { s with
      trace := s.trace ++ [.read 1 1, .read (HandlerArgs.msgOffset s.numMsgs) 2,
        .read (HandlerArgs.msgOffset s.numMsgs + 2) 2, .read 0 1] } := by
  have hfield := msgOffset_le hi
  have hsize := hfits.size
  have hheader : paramsHeaderSize ≤ a.size := Nat.le_add_right _ _
  rw [paramsHeaderSize] at hheader
  rw [msgSize] at hfield
  refine h.act ?_ ?_
  · simp only [List.forall_mem_cons]
    exact ⟨fine_read (.inr (by omega)), fine_read (.inr (by omega)), fine_read (.inr (by omega)),
      fine_read (.inr (by omega)), List.forall_mem_nil _⟩
  · simp only [List.forall_mem_cons]
    exact ⟨fun _ => rfl, fun _ => rfl, fun _ => rfl, fun _ => rfl, List.forall_mem_nil _⟩

theorem mem_virtualBattery {act : Action} (hact : act ∈ (virtualBattery b a s).1) :
    (∃ v, act = .write 0 [v]) ∨ ∃ bytes, act = .write responseHeaderSize bytes ∧
      bytes.length ≤ s.inLen + (a.msg s.numMsgs).readLen := by
  rw [virtualBattery] at hact
  by_cases hvb : b.isVirtualBattery a.port (xferOf a s).addrFlags
  · simp only [if_pos hvb] at hact
    rcases List.mem_append.mp hact with hstatus | hdata
    · rw [Option.mem_toList, Option.map_eq_some_iff] at hstatus
      obtain ⟨v, -, rfl⟩ := hstatus
      exact .inl ⟨v, rfl⟩
    · by_cases hnil : (b.virtualBatteryHandler (xferOf a s).msgnum).data = []
      · rw [if_pos hnil] at hdata
        exact absurd hdata List.not_mem_nil
      · rw [if_neg hnil] at hdata
        exact .inr ⟨_, List.mem_singleton.mp hdata, List.length_take_le _ _⟩
  · simp only [if_neg hvb] at hact
    exact absurd hact List.not_mem_nil

theorem XferInv.afterVirtualBattery (hfits : Fits a) (h : XferInv a s)
    (hi : s.numMsgs < a.numMsgs) :
    XferInv a { s with trace := s.trace ++ (virtualBattery b a s).1 } := by
  have hread : readBefore a (s.numMsgs + 1) ≤ readBefore a a.numMsgs := readBefore_mono hi
  have hreads := hfits.reads
  have hin := h.inLen
  rw [readBefore] at hread
  refine h.act ?_ ?_
  · intro act hact
    rcases mem_virtualBattery hact with ⟨v, rfl⟩ | ⟨bytes, rfl, hlen⟩
    · exact fine_writeHeader hfits v (by decide)
    · exact fine_write (.inr (by omega))
  · intro act hact locked
    rcases mem_virtualBattery hact with ⟨v, rfl⟩ | ⟨bytes, rfl, -⟩
    · rfl
    · rfl

theorem XferInv.transfer (hfits : Fits a) (h : XferInv a s) (hi : s.numMsgs < a.numMsgs) :
    XferInv a (transfer b a s).2 := by
  have hread : readBefore a (s.numMsgs + 1) ≤ readBefore a a.numMsgs := readBefore_mono hi
  have hwrite : writeBefore a (s.numMsgs + 1) ≤ writeBefore a a.numMsgs := writeBefore_mono hi
  have hreads := hfits.reads
  have hwrites := hfits.writes
  have hsize := hfits.size
  have hheader : paramsHeaderSize ≤ a.size := Nat.le_add_right _ _
  have hin := h.inLen
  have hout := h.out
  rw [paramsHeaderSize] at hheader
  rw [readBefore] at hread
  rw [writeBefore] at hwrite
  have hport : Fine a (.read 0 1) := fine_read (.inr (by omega))
  have hlock : ∀ act ∈ (if s.portIsLocked then [] else [Action.read 0 1, .i2cLock a.port true]),
      Fine a act := by
    split_ifs
    · exact List.forall_mem_nil _
    · simp only [List.forall_mem_cons]
      exact ⟨hport, ⟨trivial, trivial, trivial⟩, List.forall_mem_nil _⟩
  have hcall : Fine a (.xfer (xferOf a s)) := ⟨trivial, trivial, hi, hout, rfl⟩
  -- what is sent lies within the parameters, and what is received within the response
  have hsent : Fine a (.read (xferOf a s).out (xferOf a s).writeLen) :=
    fine_read (.inr (by simp only [xferOf]; omega))
  have hgot : Fine a (.write (xferOf a s).inOff
      ((b.i2cXferUnlocked (xferOf a s)).2.take (xferOf a s).readLen)) := by
    have hlen := List.length_take_le (xferOf a s).readLen (b.i2cXferUnlocked (xferOf a s)).2
    refine fine_write (.inr ?_)
    simp only [xferOf] at hlen ⊢
    omega
  refine ⟨hin, hout, ?_, ?_⟩
  · simp only [I2c.transfer, portLocked_append, h.locked]
    cases s.portIsLocked with
    | true => rfl
    | false => rfl
  · simp only [I2c.transfer, List.forall_mem_append, List.forall_mem_cons]
    exact ⟨h.fine, hlock, hport, hcall, hsent, hgot, List.forall_mem_nil _⟩

theorem XferInv.nextMsg (hfits : Fits a) (h : XferInv a s) : XferInv a (nextMsg a s) := by
  have hfine : ∀ act ∈ [Action.write 1 [UInt8.ofNat (s.numMsgs + 1)]], Fine a act := by
    simpa using fine_writeHeader hfits _ (by decide)
  have hcount := h.act hfine (by simp [Action.lockAfter])
  refine ⟨?_, ?_, hcount.locked, hcount.fine⟩
  · simp only [I2c.nextMsg, readBefore, h.inLen]
  · simp only [I2c.nextMsg, writeBefore, h.out, Nat.add_assoc]

/-- The messages from one on that are completed, up to the one where the loop ends. -/
structure CompletesTo (b : Board) (a : HandlerArgs) (i j : Nat) : Prop where
  le : i ≤ j
  le_numMsgs : j ≤ a.numMsgs
  completes : ∀ k, i ≤ k → k < j → Completes b a k
  ends : j < a.numMsgs → ¬ Completes b a j

theorem CompletesTo.cons {i j : Nat} (hi : Completes b a i) (h : CompletesTo b a (i + 1) j) :
    CompletesTo b a i j := by
  refine ⟨Nat.le_of_succ_le h.le, h.le_numMsgs, fun k hik hk => ?_, h.ends⟩
  rcases Nat.eq_or_lt_of_le hik with rfl | hlt
  · exact hi
  · exact h.completes k hlt hk

theorem CompletesTo.stop {i j : Nat} (hj : j = i) (hi : i < a.numMsgs) (h : ¬ Completes b a i) :
    CompletesTo b a i j := by
  subst hj
  exact ⟨Nat.le_refl _, Nat.le_of_lt hi, fun k hik hk => absurd hk (by omega), fun _ => h⟩

theorem xferMsgs_spec (hfits : Fits a) {fuel : Nat} (h : XferInv a s)
    (hfuel : s.numMsgs + fuel = a.numMsgs) :
    XferInv a (xferMsgs b a fuel s) ∧ CompletesTo b a s.numMsgs (xferMsgs b a fuel s).numMsgs := by
  induction fuel generalizing s with
  | zero =>
    have hsize := hfits.size
    have hheader : paramsHeaderSize ≤ a.size := Nat.le_add_right _ _
    rw [paramsHeaderSize] at hheader
    refine ⟨h.act ?_ ?_, ?_⟩
    · rw [List.forall_mem_singleton]
      exact fine_read (.inr (by omega))
    · rw [List.forall_mem_singleton]
      exact fun _ => rfl
    · exact ⟨Nat.le_refl _, Nat.le_of_eq hfuel, fun k hik hk => absurd hk (Nat.not_lt.mpr hik),
        fun hlt => absurd hlt (Nat.not_lt.mpr (Nat.le_of_eq hfuel.symm))⟩
  | succ fuel ih =>
    have hi : s.numMsgs < a.numMsgs := by omega
    have hfields := h.fields hfits hi
    have hvb := hfields.afterVirtualBattery (b := b) hfits hi
    have hanswer := hfields.virtualBattery_eq (b := b)
    rw [xferMsgs]
    -- the reads of the fields, then the attempt at the virtual battery
    generalize hs₁ : ({ s with trace := s.trace ++ _ } : XferState) = s₁ at hfields hvb hanswer ⊢
    have hnum₁ : s₁.numMsgs = s.numMsgs := by rw [← hs₁]
    simp only
    generalize hs₂ : ({ s₁ with trace := s₁.trace ++ _ } : XferState) = s₂ at hvb ⊢
    have hnum₂ : s₂.numMsgs = s.numMsgs := by rw [← hs₂, ← hnum₁]
    rw [hnum₁] at hanswer
    -- a message that is completed is followed by the rest of the loop
    have hon (s' : XferState) (hs' : XferInv a s') (hnum : s'.numMsgs = s.numMsgs)
        (hdone : Completes b a s.numMsgs) :
        XferInv a (xferMsgs b a fuel (nextMsg a s')) ∧
          CompletesTo b a s.numMsgs (xferMsgs b a fuel (nextMsg a s')).numMsgs := by
      have hnext : (nextMsg a s').numMsgs = s.numMsgs + 1 := congrArg (· + 1) hnum
      obtain ⟨hinv, hto⟩ := ih (hs'.nextMsg hfits) (by omega)
      rw [hnext] at hto
      exact ⟨hinv, hto.cons hdone⟩
    cases hvb₁ : (virtualBattery b a s₁).2 with
    | none =>
      refine ⟨hvb, .stop hnum₂ hi ?_⟩
      rintro (hdone | ⟨hleft, -⟩)
      · exact absurd (hvb₁.symm.trans (hanswer.trans hdone)) (by decide)
      · exact absurd (hvb₁.symm.trans (hanswer.trans hleft)) (by decide)
    | some done =>
      cases done with
      | true => exact hon s₂ hvb hnum₂ (.inl (hanswer.symm.trans hvb₁))
      | false =>
        have hcall : xferOf a s₂ = xferOf a (stateAt a s.numMsgs) := by
          rw [hvb.xferOf_eq, hnum₂]
        have hxfer := hvb.transfer (b := b) hfits (by omega)
        have hcompletes : Completes b a s.numMsgs ↔ (transfer b a s₂).1 = .success := by
          rw [Completes, ← hanswer, hvb₁, ← hcall]
          simp [transfer]
        have hnum₃ : (transfer b a s₂).2.numMsgs = s.numMsgs := hnum₂
        -- one that fails writes a status and leaves the loop
        have hend (status : UInt8) (hfail : (transfer b a s₂).1 ≠ .success) :
            XferInv a { (transfer b a s₂).2 with
                trace := (transfer b a s₂).2.trace ++ [.write 0 [status]] } ∧
              CompletesTo b a s.numMsgs (transfer b a s₂).2.numMsgs := by
          refine ⟨hxfer.act ?_ ?_, .stop hnum₃ hi (mt hcompletes.mp hfail)⟩
          · rw [List.forall_mem_singleton]
            exact fine_writeHeader hfits status (by decide)
          · rw [List.forall_mem_singleton]
            exact fun _ => rfl
        cases hrv : (transfer b a s₂).1 with
        | success => exact hon _ hxfer hnum₃ (hcompletes.mpr hrv)
        | timeout => exact hend ecI2cStatusTimeout (by rw [hrv]; decide)
        | failure => exact hend ecI2cStatusNak (by rw [hrv]; decide)

end Transfers

/-! ## The command -/

section Command

variable {b : Board} {a : HandlerArgs}

theorem checkAllowed_spec {allowed : Nat → UInt16 → Bool} (hsize : a.size ≤ a.paramsSize.toNat)
    {fuel i : Nat} (hfuel : i + fuel = a.numMsgs) :
    (∀ act ∈ (checkAllowed a allowed fuel i).1,
      act.IsRead ∧ act.ReadInside a.paramsSize.toNat) ∧
      ((checkAllowed a allowed fuel i).2 = true →
        ∀ k, i ≤ k → k < a.numMsgs → allowed k (a.msg k).addrFlags = true) := by
  have hheader : paramsHeaderSize ≤ a.size := Nat.le_add_right _ _
  rw [paramsHeaderSize] at hheader
  have hcount : (Action.read 1 1).IsRead ∧ (Action.read 1 1).ReadInside a.paramsSize.toNat :=
    ⟨trivial, .inr (by omega)⟩
  induction fuel generalizing i with
  | zero =>
    refine ⟨?_, fun _ k hik hk => absurd hk (by omega)⟩
    rw [checkAllowed, List.forall_mem_singleton]
    exact hcount
  | succ fuel ih =>
    have hi : i < a.numMsgs := by omega
    have hfield := msgOffset_le hi
    rw [msgSize] at hfield
    have hfields : ∀ act ∈ [Action.read 1 1, .read (HandlerArgs.msgOffset i) 2],
        act.IsRead ∧ act.ReadInside a.paramsSize.toNat := by
      simp only [List.forall_mem_cons]
      exact ⟨hcount, ⟨trivial, .inr (by omega)⟩, List.forall_mem_nil _⟩
    obtain ⟨hreads, hall⟩ := ih (i := i + 1) (by omega)
    rw [checkAllowed]
    by_cases hallowed : allowed i (a.msg i).addrFlags = true
    · simp only [if_pos hallowed]
      refine ⟨List.forall_mem_append.mpr ⟨hfields, hreads⟩, fun hok k hik hk => ?_⟩
      rcases Nat.eq_or_lt_of_le hik with rfl | hlt
      · exact hallowed
      · exact hall hok k hlt hk
    · simp only [if_neg hallowed]
      exact ⟨hfields, nofun⟩

theorem checkProtected_spec (hsize : a.size ≤ a.paramsSize.toNat) (p : I2cPort) :
    (∀ act ∈ (checkProtected b a p).1, act.IsRead ∧ act.ReadInside a.paramsSize.toNat) ∧
      ((checkProtected b a p).2 = true → b.portProtected a.port = true →
        ∃ allowed, p.passthruAllowed = some allowed ∧
          ∀ i < a.numMsgs, allowed i (a.msg i).addrFlags = true) := by
  have hheader : paramsHeaderSize ≤ a.size := Nat.le_add_right _ _
  rw [paramsHeaderSize] at hheader
  have hport : (Action.read 0 1).IsRead ∧ (Action.read 0 1).ReadInside a.paramsSize.toNat :=
    ⟨trivial, .inr (by omega)⟩
  rw [checkProtected]
  by_cases hprot : b.portProtected a.port = true
  · rw [if_pos hprot]
    cases hallowed : p.passthruAllowed with
    | none => exact ⟨by simpa using hport, nofun⟩
    | some allowed =>
      have hspec := @checkAllowed_spec _ allowed hsize
      obtain ⟨hreads, hall⟩ := hspec (Nat.zero_add _)
      refine ⟨List.forall_mem_cons.mpr ⟨hport, hreads⟩, fun hok _ => ⟨allowed, rfl, ?_⟩⟩
      exact fun i hi => hall hok i (Nat.zero_le i) hi
  · rw [if_neg hprot]
    exact ⟨by simpa using hport, fun _ hno => absurd hno hprot⟩

theorem portLocked_of_isRead {t : List Action} (h : ∀ act ∈ t, act.IsRead) (locked : Bool) :
    t.foldl Action.lockAfter locked = locked := by
  induction t with
  | nil => rfl
  | cons act t ih =>
    rw [List.foldl_cons, (h act List.mem_cons_self).lockAfter,
      ih fun x hx => h x (List.mem_cons_of_mem act hx)]

theorem safe_iff_of_isRead {r : PassthruResult} (hstatus : r.status ≠ .success)
    (h : ∀ act ∈ r.trace, act.IsRead) :
    Safe b a r ↔ ∀ act ∈ r.trace, act.ReadInside a.paramsSize.toNat := by
  refine ⟨Safe.reads, fun hreads => ⟨hreads, ?_, ?_, ?_, ?_, ?_, ?_⟩⟩
  · exact fun act hact => ((h act hact).cases (a := a)).1 _
  · exact fun hok => absurd hok hstatus
  · exact fun hok => absurd hok hstatus
  · exact fun act hact => (h act hact).cases.2.1
  · rintro - ⟨x, hx⟩
    exact absurd rfl (((h _ hx).cases (a := a)).2.2 x)
  · exact portLocked_of_isRead h false

theorem performXfers_spec (hfits : Fits a) :
    (∀ act ∈ (performXfers b a).trace, Fine a act) ∧ portLocked (performXfers b a).trace = false ∧
      CompletesTo b a 0 (performXfers b a).numMsgs ∧
      (performXfers b a).responseSize =
        responseHeaderSize + readBefore a (performXfers b a).numMsgs := by
  have hsize := hfits.size
  have hreads := hfits.reads
  have hheader : paramsHeaderSize ≤ a.size := Nat.le_add_right _ _
  rw [paramsHeaderSize] at hheader
  have hstart : XferInv a
      { numMsgs := 0, inLen := 0, out := a.size, portIsLocked := false,
        trace := [.write 0 [0], .read 1 1, .write 1 [0]] } := by
    refine ⟨rfl, rfl, rfl, ?_⟩
    simp only [List.forall_mem_cons]
    exact ⟨fine_writeHeader hfits 0 (by decide), fine_read (.inr (by omega)),
      fine_writeHeader hfits 0 (by decide), List.forall_mem_nil _⟩
  obtain ⟨hinv, hto⟩ := xferMsgs_spec (b := b) hfits hstart (Nat.zero_add _)
  have hle := readBefore_mono (a := a) hto.le_numMsgs
  have hmax := a.responseMax.toNat_lt
  rw [performXfers]
  simp only
  generalize xferMsgs b a a.numMsgs _ = s at hinv hto hle ⊢
  refine ⟨?_, ?_, hto, ?_⟩
  · refine List.forall_mem_append.mpr ⟨hinv.fine, ?_⟩
    split_ifs
    · simp only [List.forall_mem_cons]
      exact ⟨fine_read (.inr (by omega)), ⟨trivial, trivial, trivial⟩, List.forall_mem_nil _⟩
    · exact List.forall_mem_nil _
  · rw [portLocked_append, hinv.locked]
    cases s.portIsLocked with
    | true => rfl
    | false => rfl
  · rw [hinv.inLen, Nat.mod_eq_of_lt (by omega)]

theorem readInside_port (n : Nat) : (Action.read 0 1).ReadInside n ↔ 0 < n := by
  constructor
  · intro h
    exact h.resolve_left (by decide)
  · exact fun h => .inr h

theorem safe_of_check {p : I2cPort} (hport : b.getI2cPort a.port = some p)
    (hcheck : (checkI2cParams b a).2 = .success)
    (hreads : ∀ act ∈ .read 0 1 :: (checkI2cParams b a).1, act.ReadInside a.paramsSize.toNat) :
    Safe b a
      (if (checkProtected b a p).2 = false then
        ⟨.accessDenied, 0, 0, .read 0 1 :: (checkI2cParams b a).1 ++ (checkProtected b a p).1⟩
      else
        { performXfers b a with
          trace := .read 0 1 :: (checkI2cParams b a).1 ++ (checkProtected b a p).1 ++
            (performXfers b a).trace }) := by
  have hsize := size_of_success hcheck
  obtain ⟨hread, hwrite⟩ := (checkI2cParams_of_size hsize).2 hcheck
  obtain ⟨hprotReads, hprotAllowed⟩ := checkProtected_spec (b := b) hsize p
  have hbefore : ∀ act ∈ .read 0 1 :: (checkI2cParams b a).1 ++ (checkProtected b a p).1,
      act.IsRead := by
    refine List.forall_mem_append.mpr ⟨List.forall_mem_cons.mpr ⟨trivial, ?_⟩, ?_⟩
    · exact checkI2cParams_isRead
    · exact fun act hact => (hprotReads act hact).1
  have hinside : ∀ act ∈ .read 0 1 :: (checkI2cParams b a).1 ++ (checkProtected b a p).1,
      act.ReadInside a.paramsSize.toNat :=
    List.forall_mem_append.mpr ⟨hreads, fun act hact => (hprotReads act hact).2⟩
  split_ifs with hdenied
  · exact (safe_iff_of_isRead (by simp) hbefore).mpr hinside
  · obtain ⟨hfine, hlock, hto, hresponse⟩ := performXfers_spec (b := b) ⟨hsize, hread, hwrite⟩
    have hquiet (act : Action)
        (hact : act ∈ .read 0 1 :: (checkI2cParams b a).1 ++ (checkProtected b a p).1) :
        Fine a act :=
      ⟨hinside act hact, (hbefore act hact).cases (a := a).1 _, (hbefore act hact).cases.2.1⟩
    have hall : ∀ act ∈ .read 0 1 :: (checkI2cParams b a).1 ++ (checkProtected b a p).1 ++
        (performXfers b a).trace, Fine a act :=
      List.forall_mem_append.mpr ⟨hquiet, hfine⟩
    refine ⟨fun act hact => (hall act hact).reads, fun act hact => (hall act hact).writes,
      fun _ => ⟨hto.le_numMsgs, fun i hi => hto.completes i (Nat.zero_le i) hi, hto.ends⟩,
      fun _ => hresponse, fun act hact => (hall act hact).handed, ?_, ?_⟩
    · intro hprot _
      obtain ⟨allowed, hfilter, hyes⟩ :=
        hprotAllowed (eq_true_of_ne_false hdenied) hprot
      exact ⟨p, allowed, hport, hfilter, hyes⟩
    · rw [portLocked_append]
      have hopen : portLocked (.read 0 1 :: (checkI2cParams b a).1 ++ (checkProtected b a p).1) =
          false := portLocked_of_isRead hbefore false
      rw [hopen]
      exact hlock

/-- The command is safe exactly when it does not look at the request at all, because the battery is
cut off, or when the port's byte is there and the write messages whose first byte is looked at for
the filter begin in the request. -/
theorem i2cCommandPassthru_safe_iff (b : Board) (a : HandlerArgs) :
    Safe b a (i2cCommandPassthru b a) ↔
      b.batteryIsCutOff = true ∨ 0 < a.paramsSize.toNat ∧
        (b.getI2cPort a.port = none ∨ b.restricted = false ∨ a.paramsSize.toNat < a.size ∨
          CommandsInside b a) := by
  rw [i2cCommandPassthru]
  cases hcut : b.batteryIsCutOff with
  | true =>
    refine ⟨fun _ => .inl rfl, fun _ => ?_⟩
    exact (safe_iff_of_isRead (by simp) (List.forall_mem_nil _)).mpr (List.forall_mem_nil _)
  | false =>
    simp only [Bool.false_eq_true, if_false, false_or]
    cases hport : b.getI2cPort a.port with
    | none =>
      rw [safe_iff_of_isRead (by simp) (List.forall_mem_singleton.mpr trivial)]
      simp [readInside_port]
    | some p =>
      have hinside : (∀ act ∈ .read 0 1 :: (checkI2cParams b a).1,
          act.ReadInside a.paramsSize.toNat) ↔ 0 < a.paramsSize.toNat ∧
            (some p = none ∨ b.restricted = false ∨ a.paramsSize.toNat < a.size ∨
              CommandsInside b a) := by
        rw [List.forall_mem_cons, readInside_port, checkI2cParams_inside_iff]
        simp
      by_cases hcheck : (checkI2cParams b a).2 = .success
      · simp only [ne_eq, hcheck, not_true_eq_false, if_false]
        rw [← hinside]
        refine ⟨fun h act hact => h.reads act ?_, safe_of_check hport hcheck⟩
        split_ifs
        · exact List.mem_append_left _ hact
        · exact List.mem_append_left _ (List.mem_append_left _ hact)
      · simp only [ne_eq, hcheck, not_false_eq_true, if_true]
        rw [safe_iff_of_isRead hcheck
          (List.forall_mem_cons.mpr ⟨trivial, checkI2cParams_isRead⟩), hinside]

end Command

/-- A board with one port and no protection; its drivers answer with zeros. -/
def openBoard (restricted : Bool) : Board where
  restricted := restricted
  systemIsLocked := true
  boardAllowI2cPassthru := fun _ _ => true
  batteryIsCutOff := false
  getI2cPort := fun port => if port = 0 then some ⟨none⟩ else none
  portProtected := fun _ => false
  isVirtualBattery := fun _ _ => false
  virtualBatteryHandler := fun _ => ⟨false, .failure, none, []⟩
  i2cXferUnlocked := fun x => (.success, List.replicate x.readLen 0)

/-- One write message of one byte to the address 0x0B, of which only the first bytes are sent. -/
def writeOne (paramsSize : UInt16) : HandlerArgs where
  params := fun i => [0, 1, 0x0B, 0, 1, 0, 0x5A].getD i 0
  paramsSize := paramsSize
  responseMax := 16

/-- The first byte of the data is looked at although it was not sent; the port is looked at in an
empty request. -/
theorem passthru_reads_outside :
    ¬ Safe (openBoard true) (writeOne 6) (i2cCommandPassthru (openBoard true) (writeOne 6)) ∧
      ¬ Safe (openBoard false) (writeOne 0) (i2cCommandPassthru (openBoard false) (writeOne 0)) := by
  refine ⟨fun h => ?_, fun h => ?_⟩
  · have hread := h.reads (.read 6 1) (by decide)
    exact absurd hread (by decide)
  · have hread := h.reads (.read 0 1) (by decide)
    exact absurd hread (by decide)

end ChromiumEc.I2c
