import ChromiumEc.Lightbar.Lightbyte
import Mathlib.Tactic.Common

/-!
# Sandbox — what an instruction reads and writes

Every byte that is decoded is below the size of the program, whatever the program does with `pc`.
The size itself is not looked at when the host sets a program, and `SET_COLOR_SINGLE` takes a fourth
color channel.
-/

namespace ChromiumEc.Lightbar

/-! ## The sandbox -/

def Result.state : Result → State
  | .done _ s => s
  | .waits _ s => s

/-- The code of an instruction; a wait is no error. -/
def Result.rc : Result → Nat
  | .done rc _ => rc
  | .waits _ _ => ecSuccess

def Next.state : Next → State
  | .waiting _ s => s
  | .returned _ s => s

/-- The bytes behind an opcode, from the table of the opcodes -/
def Opcode.operandBytes : Opcode → Nat
  | .jump | .jumpIfCharging | .setBrightness => 1
  | .jumpBattery | .setColorSingle => 2
  | .setWaitDelay | .setRampDelay | .setColorRgb => 4
  | _ => 0

/-- The bytes that an instruction at `pc` decodes: an instruction that goes beyond the size of the
program is decoded to there, or not at all if its operand is a word. -/
def decoded (s : State) : Nat :=
  if s.program.size ≤ s.pc then 0
  else
    match Opcode.ofByte (s.program.data s.pc.toNat) with
    | none => 1
    | some .setWaitDelay | some .setRampDelay =>
      if s.program.size.toNat ≤ s.pc.toNat + 4 then 1 else 5
    | some op => min (1 + op.operandBytes) (s.program.size.toNat - s.pc.toNat)

/-- The operand with a location, if the instruction has one -/
def location (s : State) : UInt8 := s.program.data (s.pc.toNat + 1)

/-- What the instruction at `pc` returns, unless it waits: the program ends with it, if it is not
zero. -/
def exitCode (s : State) : Nat :=
  let left := s.program.size.toNat - s.pc.toNat
  if left = 0 then ecResInvalidParam
  else
    match Opcode.ofByte (s.program.data s.pc.toNat) with
    | none => ecResInvalidParam
    | some .halt => programFinished
    | some .cycle => if s.rampDelay = 0 then ecResInvalidParam else ecSuccess
    | some .setColorSingle =>
      if left ≤ 2 ∨ contMax ≤ packedControl (location s) then ecResInvalidParam else ecSuccess
    | some .setColorRgb =>
      if left ≤ 4 ∨ contMax ≤ packedControl (location s) then ecResInvalidParam else ecSuccess
    | some op => if left ≤ op.operandBytes then ecResInvalidParam else ecSuccess

/-- The instruction at `pc` names this color of `led_desc`. -/
def Named (s : State) (led control color : Nat) : Prop :=
  match Opcode.ofByte (s.program.data s.pc.toNat) with
  | some .setColorSingle =>
    (packedLed (location s)).testBit led ∧ control = packedControl (location s) ∧
      color = packedColor (location s)
  | some .setColorRgb => (packedLed (location s)).testBit led ∧ control = packedControl (location s)
  | some .getColors => control = contColor0
  | some .swapColors => control = contColor0 ∨ control = contColor1
  | _ => False

/-- What an instruction may do: it reads bytes of `data` below the size of the program, and it
writes colors of `led_desc` that it names. -/
structure Sandboxed (s : State) (next : Next) : Prop where
  program_eq : next.state.program = s.program
  saved_eq : next.state.savedBrightness = s.savedBrightness
  reads : ∀ i ∈ next.state.reads, i < ecLbProgLen ∧ i < s.program.size.toNat
  writes : ∀ x ∈ next.state.writes, ∃ led control color, led < numLeds ∧ control < contMax ∧
    color < 3 ∧ Named s led control color ∧ x = ledIndex led control color
  frame : ∀ x, x ∉ next.state.writes → next.state.ledDesc x = s.ledDesc x

/-- Behind a wait inside an instruction only the LEDs are changed. -/
def Idle (s : State) (next : Next) : Prop :=
  ∃ x, next.state = { s with shared := x }

/-- The instruction at `pc` ends inside `data`, and is no `SET_COLOR_SINGLE` of a fourth channel. -/
structure Contained (s : State) : Prop where
  inside : ∀ i < decoded s, s.pc.toNat + i < ecLbProgLen
  channel : s.pc.toNat + 2 < s.program.size.toNat →
    Opcode.ofByte (s.program.data s.pc.toNat) = some .setColorSingle →
      packedControl (location s) < contMax → packedLed (location s) ≠ 0 →
        packedColor (location s) ≠ 3

/-- The bytes of `led_desc` that the instruction at `pc` writes for one LED, the last one first -/
def writtenLed (s : State) (i : Nat) : List Nat :=
  let control := packedControl (location s)
  let left := s.program.size.toNat - s.pc.toNat
  match Opcode.ofByte (s.program.data s.pc.toNat) with
  | some .setColorSingle =>
    if 2 < left ∧ control < contMax ∧ (packedLed (location s)).testBit i then
      [ledIndex i control (packedColor (location s))]
    else []
  | some .setColorRgb =>
    if 4 < left ∧ control < contMax ∧ (packedLed (location s)).testBit i then
      [ledIndex i control 2, ledIndex i control 1, ledIndex i control 0]
    else []
  | some .getColors =>
    if 0 < left then [ledIndex i contColor0 2, ledIndex i contColor0 1, ledIndex i contColor0 0]
    else []
  | some .swapColors =>
    if 0 < left then
      [ledIndex i contColor1 2, ledIndex i contColor0 2, ledIndex i contColor1 1,
        ledIndex i contColor0 1, ledIndex i contColor1 0, ledIndex i contColor0 0]
    else []
  | _ => []

/-- The bytes of `led_desc` that the instruction at `pc` writes, the last one first -/
def written (s : State) : List Nat :=
  (List.range numLeds).reverse.flatMap (writtenLed s)

/-- `P` holds of every instruction in a run, and `Q` of every other step. -/
def RunAll (P : Battery → State → Prop) (Q : State → Next → Prop) : Next → List Event → Prop
  | .returned _ _, _ => True
  | .waiting _ _, [] => True
  | .waiting p s, e :: es =>
    (if waitOrRet Sequence.program.num e.requests = none ∧ p = .yield then
      P e.battery { s with shared := e.others s.shared }
    else Q s (resume e p s)) ∧
      RunAll P Q (resume e p s) es

/-- The program stays in the sandbox, whatever happens during its waits. -/
def SandboxedRun (nextProg : Program) (x : Shared) (b : Battery) (es : List Event) : Prop :=
  let s := loadProgram nextProg x
  Sandboxed s (execute b s) ∧
    RunAll (fun b s => Sandboxed s (execute b s)) Idle (execute b s) es

/-- Every instruction that is executed is contained. -/
def ContainedRun (nextProg : Program) (x : Shared) (b : Battery) (es : List Event) : Prop :=
  let s := loadProgram nextProg x
  Contained s ∧ RunAll (fun _ s => Contained s) (fun _ _ => True) (execute b s) es

/-! ## Decoding -/

variable {s t u : State} {n : Nat}

/-- `n` bytes at `pc` are read. -/
def State.advance (n : Nat) (s : State) : State :=
  { s with
    pc := s.pc + UInt8.ofNat n
    reads := (List.range n).reverse.map (s.pc.toNat + ·) ++ s.reads }

theorem pc_advance (h : s.pc.toNat + n < 256) :
    (s.advance n).pc.toNat = s.pc.toNat + n := by
  rw [State.advance, UInt8.toNat_add, UInt8.toNat_ofNat']
  omega

theorem fetch_advance (h : s.pc.toNat + n < 256) :
    fetch (s.advance n) = (s.program.data (s.pc.toNat + n), s.advance (n + 1)) := by
  have hsucc : s.pc + UInt8.ofNat n + 1 = s.pc + UInt8.ofNat (n + 1) := by
    rw [UInt8.ofNat_add, UInt8.add_assoc]
    rfl
  rw [fetch, pc_advance h, State.advance, State.advance]
  dsimp only
  rw [hsucc, List.range_succ, List.reverse_append, List.map_append]
  rfl

theorem decode8_advance (h : s.pc.toNat + n ≤ s.program.size.toNat) :
    decode8 (s.advance n) =
      if s.program.size.toNat ≤ s.pc.toNat + n then none
      else some (s.program.data (s.pc.toNat + n), s.advance (n + 1)) := by
  have hlt : s.pc.toNat + n < 256 := Nat.lt_of_le_of_lt h s.program.size.toNat_lt
  have hiff : (s.advance n).program.size ≤ (s.advance n).pc ↔
      s.program.size.toNat ≤ s.pc.toNat + n := by
    rw [UInt8.le_iff_toNat_le, pc_advance hlt]
    rfl
  rw [decode8]
  by_cases hend : s.program.size.toNat ≤ s.pc.toNat + n
  · rw [if_pos (hiff.mpr hend), if_pos hend]
  · rw [if_neg (mt hiff.mp hend), if_neg hend, fetch_advance hlt]

theorem decode8_of_lt (h : s.pc.toNat < s.program.size.toNat) :
    decode8 s = some (s.program.data s.pc.toNat, s.advance 1) := by
  rw [decode8, if_neg (by rw [UInt8.le_iff_toNat_le]; omega)]
  rfl

theorem decode32_advance (h : s.pc.toNat + n ≤ s.program.size.toNat) :
    ∃ w, decode32 (s.advance n) = if s.program.size.toNat ≤ s.pc.toNat + n + 3 then none
      else some (w, s.advance (n + 4)) := by
  have hsize := s.program.size.toNat_lt
  have hlt : s.pc.toNat + n < 256 := Nat.lt_of_le_of_lt h hsize
  rw [decode32, pc_advance hlt]
  by_cases hend : s.program.size.toNat ≤ s.pc.toNat + n + 3
  · exact ⟨0, by rw [if_pos hend]; exact if_pos hend⟩
  · rw [if_neg (show ¬(s.advance n).program.size.toNat ≤ _ from hend), fetch_advance hlt]
    dsimp only
    rw [fetch_advance (by omega)]
    dsimp only
    rw [fetch_advance (by omega)]
    dsimp only
    rw [fetch_advance (by omega)]
    exact ⟨_, (if_neg hend).symm⟩

/-! ## Instructions -/

/-- From `s` to `t`, `n` bytes at `pc` are read and the bytes `ws` of `led_desc` are written. -/
structure Performs (s : State) (n : Nat) (ws : List Nat) (t : State) : Prop where
  program_eq : t.program = s.program
  saved_eq : t.savedBrightness = s.savedBrightness
  reads_eq : t.reads = (List.range n).reverse.map (s.pc.toNat + ·) ++ s.reads
  writes_eq : t.writes = ws ++ s.writes
  frame : ∀ x, x ∉ ws → t.ledDesc x = s.ledDesc x

namespace Performs

variable {ws : List Nat}

theorem advance (s : State) (n : Nat) : Performs s n [] (s.advance n) :=
  ⟨rfl, rfl, rfl, rfl, fun _ _ => rfl⟩

theorem setLedDesc (h : Performs s n ws t) (led control color : Nat) (value : UInt8) :
    Performs s n (ledIndex led control color :: ws) (t.setLedDesc led control color value) where
  program_eq := h.program_eq
  saved_eq := h.saved_eq
  reads_eq := h.reads_eq
  writes_eq := congrArg _ h.writes_eq
  frame := fun x hx => by
    obtain ⟨hne, hmem⟩ := not_or.mp (mt List.mem_cons.mpr hx)
    rw [State.setLedDesc]
    dsimp only
    rw [Function.update_of_ne hne]
    exact h.frame x hmem

theorem forLeds (f : Nat → State → State) (l : Nat → List Nat) (h : Performs s n [] t)
    (hf : ∀ i ws u, Performs s n ws u → Performs s n (l i ++ ws) (f i u)) :
    Performs s n ((List.range numLeds).reverse.flatMap l) (forLeds f t) := by
  have hloop : ∀ k, Performs s n ((List.range k).reverse.flatMap l)
      ((List.range k).foldl (fun s i => f i s) t) := by
    intro k
    induction k with
    | zero => exact h
    | succ k ih =>
      rw [List.range_succ, List.reverse_append, List.foldl_append]
      exact hf k _ _ ih
  exact hloop numLeds

theorem setRgb (h : Performs s n [] t) (rgb : Nat → State → Nat → UInt8) :
    Performs s n [] (Lightbar.forLeds (fun i s => s.setRgb i (rgb i s)) t) := by
  have hloop := h.forLeds (fun i s => s.setRgb i (rgb i s)) (fun _ => [])
    fun _ _ _ hu => ⟨hu.program_eq, hu.saved_eq, hu.reads_eq, hu.writes_eq, hu.frame⟩
  rw [show (List.range numLeds).reverse.flatMap (fun _ => ([] : List Nat)) = [] from rfl] at hloop
  exact hloop

theorem setAllLeds (h : Performs s n [] t) (control : Nat) :
    Performs s n [] (setAllLeds control t) :=
  h.setRgb fun i s color => s.ledDesc (ledIndex i control color)

theorem cycleLeds (h : Performs s n [] t) (w : Nat) : Performs s n [] (cycleLeds w t).state :=
  h.setRgb fun i s color => getInterpValue s i color
    (cycle010 (w % 256 + (s.ledDesc (ledIndex i contPhase color)).toNat))

theorem rampAllLeds (h : Performs s n [] t) (w stopAt : Nat) :
    Performs s n [] (rampAllLeds w stopAt t).state := by
  unfold Lightbar.rampAllLeds
  split
  · exact h.setRgb _
  · exact h

end Performs

theorem Performs.of_eq {ws : List Nat} (h : Performs s n ws t) (hprogram : u.program = t.program)
    (hsaved : u.savedBrightness = t.savedBrightness) (hreads : u.reads = t.reads)
    (hwrites : u.writes = t.writes) (hled : u.ledDesc = t.ledDesc) : Performs s n ws u :=
  ⟨hprogram.trans h.program_eq, hsaved.trans h.saved_eq, hreads.trans h.reads_eq,
    hwrites.trans h.writes_eq, fun x hx => (congrFun hled x).trans (h.frame x hx)⟩

section Dispatch

variable {op : Opcode} {b : Battery}

theorem decoded_eq (hpc : s.pc.toNat < s.program.size.toNat)
    (hop : Opcode.ofByte (s.program.data s.pc.toNat) = some op)
    (hword : op ≠ .setWaitDelay ∧ op ≠ .setRampDelay) :
    decoded s = min (1 + op.operandBytes) (s.program.size.toNat - s.pc.toNat) := by
  rw [decoded, if_neg (by rw [UInt8.le_iff_toNat_le]; omega), hop]
  split
  · next heq => exact nomatch heq
  · next heq => exact absurd (Option.some.inj heq) hword.1
  · next heq => exact absurd (Option.some.inj heq) hword.2
  · next heq => rw [Option.some.inj heq]

theorem written_eq_nil (h : ∀ i, writtenLed s i = []) : written s = [] := by
  rw [written, funext h]
  rfl

theorem writtenLed_eq_nil (hop : Opcode.ofByte (s.program.data s.pc.toNat) = some op)
    (hne : op ≠ .setColorSingle ∧ op ≠ .setColorRgb ∧ op ≠ .getColors ∧ op ≠ .swapColors)
    (i : Nat) : writtenLed s i = [] := by
  rw [writtenLed, hop]
  split
  · next heq => exact absurd (Option.some.inj heq) hne.1
  · next heq => exact absurd (Option.some.inj heq) hne.2.1
  · next heq => exact absurd (Option.some.inj heq) hne.2.2.1
  · next heq => exact absurd (Option.some.inj heq) hne.2.2.2
  · rfl

theorem ne_word (h : op.operandBytes ≠ 4) : op ≠ .setWaitDelay ∧ op ≠ .setRampDelay :=
  ⟨fun heq => h (by rw [heq]; rfl), fun heq => h (by rw [heq]; rfl)⟩

theorem exitCode_eq (hpc : s.pc.toNat < s.program.size.toNat)
    (hop : Opcode.ofByte (s.program.data s.pc.toNat) = some op)
    (hne : op ≠ .halt ∧ op ≠ .cycle ∧ op ≠ .setColorSingle ∧ op ≠ .setColorRgb) :
    exitCode s =
      if s.program.size.toNat ≤ s.pc.toNat + op.operandBytes then ecResInvalidParam
      else ecSuccess := by
  have hiff : s.program.size.toNat - s.pc.toNat ≤ op.operandBytes ↔
      s.program.size.toNat ≤ s.pc.toNat + op.operandBytes := by omega
  rw [exitCode, if_neg (Nat.sub_ne_zero_of_lt hpc), hop]
  split
  · next heq => exact nomatch heq
  · next heq => exact absurd (Option.some.inj heq) hne.1
  · next heq => exact absurd (Option.some.inj heq) hne.2.1
  · next heq => exact absurd (Option.some.inj heq) hne.2.2.1
  · next heq => exact absurd (Option.some.inj heq) hne.2.2.2
  · next heq =>
    rw [← Option.some.inj heq]
    exact if_congr hiff rfl rfl

/-- An instruction from its opcode on: what it reads and writes, and its code -/
structure Runs (s : State) (ws : List Nat) (r : Result) : Prop where
  performs : Performs s (decoded s) ws r.state
  rc_eq : r.rc = exitCode s

theorem performs_plain (hpc : s.pc.toNat < s.program.size.toNat)
    (hop : Opcode.ofByte (s.program.data s.pc.toNat) = some op) (hbytes : op.operandBytes = 0) :
    Performs s (decoded s) [] (s.advance 1) := by
  rw [decoded_eq hpc hop (ne_word (by omega)), hbytes, Nat.min_eq_left (by omega)]
  exact Performs.advance s 1

theorem exitCode_plain (hpc : s.pc.toNat < s.program.size.toNat)
    (hop : Opcode.ofByte (s.program.data s.pc.toNat) = some op) (hbytes : op.operandBytes = 0)
    (hne : op ≠ .halt ∧ op ≠ .cycle ∧ op ≠ .setColorSingle ∧ op ≠ .setColorRgb) :
    exitCode s = ecSuccess := by
  rw [exitCode_eq hpc hop hne, hbytes, if_neg (by omega)]

theorem runs_byte (hpc : s.pc.toNat < s.program.size.toNat)
    (hop : Opcode.ofByte (s.program.data s.pc.toNat) = some op) (hbytes : op.operandBytes = 1)
    (hne : op ≠ .halt ∧ op ≠ .cycle ∧ op ≠ .setColorSingle ∧ op ≠ .setColorRgb)
    {f : State → Result} {g : UInt8 → State → State}
    (hf : ∀ u, f u = match decode8 u with
      | none => .done ecResInvalidParam u
      | some (x, u) => .done ecSuccess (g x u))
    (hg : ∀ n x u, Performs s n [] u → Performs s n [] (g x u)) :
    Runs s [] (f (s.advance 1)) := by
  have hcode := exitCode_eq hpc hop hne
  have hdecoded := decoded_eq hpc hop (ne_word (by omega))
  rw [hbytes] at hcode hdecoded
  rw [hf, decode8_advance hpc]
  by_cases hend : s.program.size.toNat ≤ s.pc.toNat + 1
  · rw [if_pos hend] at hcode ⊢
    rw [Nat.min_eq_right (by omega), show s.program.size.toNat - s.pc.toNat = 1 by omega]
      at hdecoded
    exact ⟨hdecoded ▸ Performs.advance s 1, hcode.symm⟩
  · rw [if_neg hend] at hcode ⊢
    rw [Nat.min_eq_left (by omega)] at hdecoded
    have hperforms := hg _ (s.program.data (s.pc.toNat + 1)) _ (Performs.advance s 2)
    exact ⟨by rw [hdecoded]; exact hperforms, hcode.symm⟩

theorem runs_word (hpc : s.pc.toNat < s.program.size.toNat)
    (hop : Opcode.ofByte (s.program.data s.pc.toNat) = some .setWaitDelay ∨
      Opcode.ofByte (s.program.data s.pc.toNat) = some .setRampDelay)
    {f : State → Result} {g : UInt32 → State → State}
    (hf : ∀ u, f u = match decode32 u with
      | none => .done ecResInvalidParam u
      | some (x, u) => .done ecSuccess (g x u))
    (hg : ∀ n x u, Performs s n [] u → Performs s n [] (g x u)) :
    Runs s [] (f (s.advance 1)) := by
  have hdecoded : decoded s = if s.program.size.toNat ≤ s.pc.toNat + 4 then 1 else 5 := by
    rw [decoded, if_neg (by rw [UInt8.le_iff_toNat_le]; omega)]
    rcases hop with hop | hop <;> rw [hop]
  have hcode : exitCode s = if s.program.size.toNat ≤ s.pc.toNat + 4 then ecResInvalidParam
      else ecSuccess := by
    rcases hop with hop | hop
    · exact exitCode_eq hpc hop (by decide)
    · exact exitCode_eq hpc hop (by decide)
  obtain ⟨w, hw⟩ := decode32_advance (show s.pc.toNat + 1 ≤ s.program.size.toNat from hpc)
  rw [hf, hw]
  by_cases hend : s.program.size.toNat ≤ s.pc.toNat + 4
  · rw [if_pos hend] at hdecoded hcode
    rw [if_pos (show _ ≤ s.pc.toNat + 1 + 3 from hend)]
    exact ⟨hdecoded ▸ Performs.advance s 1, hcode.symm⟩
  · rw [if_neg hend] at hdecoded hcode
    rw [if_neg (show ¬_ ≤ s.pc.toNat + 1 + 3 from hend)]
    have hperforms := hg _ w _ (Performs.advance s 5)
    exact ⟨by rw [hdecoded]; exact hperforms, hcode.symm⟩

theorem performs_cut (hpc : s.pc.toNat < s.program.size.toNat)
    (hop : Opcode.ofByte (s.program.data s.pc.toNat) = some op)
    (hword : op ≠ .setWaitDelay ∧ op ≠ .setRampDelay)
    (hn : s.program.size.toNat = s.pc.toNat + n) (hle : n ≤ op.operandBytes) :
    Performs s (decoded s) [] (s.advance n) := by
  rw [decoded_eq hpc hop hword,
    show min (1 + op.operandBytes) (s.program.size.toNat - s.pc.toNat) = n by omega]
  exact Performs.advance s n

theorem performs_full (hpc : s.pc.toNat < s.program.size.toNat)
    (hop : Opcode.ofByte (s.program.data s.pc.toNat) = some op)
    (hword : op ≠ .setWaitDelay ∧ op ≠ .setRampDelay)
    (hle : ¬s.program.size.toNat ≤ s.pc.toNat + op.operandBytes) :
    Performs s (decoded s) [] (s.advance (1 + op.operandBytes)) := by
  rw [decoded_eq hpc hop hword, Nat.min_eq_left (by omega)]
  exact Performs.advance s _

/-- The operand behind `n` bytes: without it the instruction ends, and nothing is written. -/
theorem runs_operand {ws : List Nat} {next : UInt8 → State → Result}
    (hpc : s.pc.toNat < s.program.size.toNat)
    (hop : Opcode.ofByte (s.program.data s.pc.toNat) = some op)
    (hword : op ≠ .setWaitDelay ∧ op ≠ .setRampDelay) (hn : n ≤ op.operandBytes)
    (hin : s.pc.toNat + n ≤ s.program.size.toNat)
    (hcut : s.program.size.toNat ≤ s.pc.toNat + op.operandBytes →
      ws = [] ∧ exitCode s = ecResInvalidParam)
    (hnext : ¬s.program.size.toNat ≤ s.pc.toNat + n →
      Runs s ws (next (s.program.data (s.pc.toNat + n)) (s.advance (n + 1)))) :
    Runs s ws (match decode8 (s.advance n) with
      | none => .done ecResInvalidParam (s.advance n)
      | some (x, u) => next x u) := by
  rw [decode8_advance hin]
  by_cases hend : s.program.size.toNat ≤ s.pc.toNat + n
  · rw [if_pos hend]
    obtain ⟨hnil, hcode⟩ := hcut (by omega)
    exact ⟨hnil ▸ performs_cut hpc hop hword (by omega) hn, hcode.symm⟩
  · rw [if_neg hend]
    exact hnext hend

theorem runs_jumpBattery (hpc : s.pc.toNat < s.program.size.toNat)
    (hop : Opcode.ofByte (s.program.data s.pc.toNat) = some .jumpBattery) :
    Runs s [] (lightbyteJumpBattery b (s.advance 1)) := by
  have hcode := exitCode_eq hpc hop (by decide)
  have hcut : s.program.size.toNat ≤ s.pc.toNat + Opcode.jumpBattery.operandBytes →
      ([] : List Nat) = [] ∧ exitCode s = ecResInvalidParam :=
    fun hend => ⟨rfl, hcode.trans (if_pos hend)⟩
  refine runs_operand hpc hop (by decide) (by decide) hpc hcut fun h₁ => ?_
  refine runs_operand hpc hop (by decide) (by decide) (by omega) hcut fun h₂ => ?_
  have hfull := performs_full hpc hop (by decide) h₂
  rw [if_neg (show ¬_ ≤ s.pc.toNat + Opcode.jumpBattery.operandBytes from h₂)] at hcode
  dsimp only
  split_ifs
  · exact ⟨hfull.of_eq rfl rfl rfl rfl rfl, hcode.symm⟩
  · exact ⟨hfull.of_eq rfl rfl rfl rfl rfl, hcode.symm⟩
  · exact ⟨hfull.of_eq rfl rfl rfl rfl rfl, hcode.symm⟩

/-- The colors of the LEDs in `packed_loc` are set, if there is such a control. -/
theorem runs_setLeds {l : Nat → List Nat} {f : Nat → State → State}
    (h : Performs s (decoded s) [] t)
    (hcode : exitCode s =
      if contMax ≤ packedControl (location s) then ecResInvalidParam else ecSuccess)
    (hled : ∀ i, writtenLed s i =
      if packedControl (location s) < contMax ∧ (packedLed (location s)).testBit i then l i
      else [])
    (hf : ∀ i ws u, Performs s (decoded s) ws u → Performs s (decoded s) (l i ++ ws) (f i u)) :
    Runs s (written s) (if contMax ≤ packedControl (location s) then .done ecResInvalidParam t
      else .done ecSuccess
        (forLeds (fun i u => if (packedLed (location s)).testBit i then f i u else u) t)) := by
  by_cases hcontrol : contMax ≤ packedControl (location s)
  · rw [if_pos hcontrol] at hcode ⊢
    rw [written_eq_nil fun i => by rw [hled, if_neg (by omega)]]
    exact ⟨h, hcode.symm⟩
  · rw [if_neg hcontrol] at hcode ⊢
    refine ⟨h.forLeds _ (writtenLed s) fun i ws u hu => ?_, hcode.symm⟩
    rw [hled]
    by_cases hbit : (packedLed (location s)).testBit i
    · rw [if_pos ⟨Nat.lt_of_not_le hcontrol, hbit⟩, if_pos hbit]
      exact hf i ws u hu
    · rw [if_neg fun h => hbit h.2, if_neg hbit]
      exact hu

theorem runs_setColorSingle (hpc : s.pc.toNat < s.program.size.toNat)
    (hop : Opcode.ofByte (s.program.data s.pc.toNat) = some .setColorSingle) :
    Runs s (written s) (lightbyteSetColorSingle (s.advance 1)) := by
  have hled : writtenLed s = fun i =>
      if 2 < s.program.size.toNat - s.pc.toNat ∧ packedControl (location s) < contMax ∧
        (packedLed (location s)).testBit i then
        [ledIndex i (packedControl (location s)) (packedColor (location s))]
      else [] := by
    funext i
    rw [writtenLed, hop]
  have hcode : exitCode s =
      if s.program.size.toNat - s.pc.toNat ≤ 2 ∨ contMax ≤ packedControl (location s) then
        ecResInvalidParam
      else ecSuccess := by
    rw [exitCode, if_neg (Nat.sub_ne_zero_of_lt hpc), hop]
  have hcut : s.program.size.toNat ≤ s.pc.toNat + 2 →
      written s = [] ∧ exitCode s = ecResInvalidParam := fun hend =>
    ⟨written_eq_nil fun i => by rw [hled]; exact if_neg (by omega), by rw [hcode, if_pos (by omega)]⟩
  refine runs_operand hpc hop (by decide) (by decide) hpc hcut fun h₁ => ?_
  refine runs_operand hpc hop (by decide) (by decide) (by omega) hcut fun h₂ => ?_
  refine runs_setLeds
    (l := fun i => [ledIndex i (packedControl (location s)) (packedColor (location s))])
    (performs_full hpc hop (by decide) h₂) ?_ (fun i => ?_) fun i _ _ hu => hu.setLedDesc i _ _ _
  · rw [hcode]
    exact if_congr (or_iff_right (by omega)) rfl rfl
  · rw [hled]
    exact if_congr (and_iff_right (by omega)) rfl rfl

theorem runs_setColorRgb (hpc : s.pc.toNat < s.program.size.toNat)
    (hop : Opcode.ofByte (s.program.data s.pc.toNat) = some .setColorRgb) :
    Runs s (written s) (lightbyteSetColorRgb (s.advance 1)) := by
  have hled : writtenLed s = fun i =>
      if 4 < s.program.size.toNat - s.pc.toNat ∧ packedControl (location s) < contMax ∧
        (packedLed (location s)).testBit i then
        [ledIndex i (packedControl (location s)) 2, ledIndex i (packedControl (location s)) 1,
          ledIndex i (packedControl (location s)) 0]
      else [] := by
    funext i
    rw [writtenLed, hop]
  have hcode : exitCode s =
      if s.program.size.toNat - s.pc.toNat ≤ 4 ∨ contMax ≤ packedControl (location s) then
        ecResInvalidParam
      else ecSuccess := by
    rw [exitCode, if_neg (Nat.sub_ne_zero_of_lt hpc), hop]
  have hcut : s.program.size.toNat ≤ s.pc.toNat + 4 →
      written s = [] ∧ exitCode s = ecResInvalidParam := fun hend =>
    ⟨written_eq_nil fun i => by rw [hled]; exact if_neg (by omega), by rw [hcode, if_pos (by omega)]⟩
  refine runs_operand hpc hop (by decide) (by decide) hpc hcut fun h₁ => ?_
  refine runs_operand hpc hop (by decide) (by decide) (by omega) hcut fun h₂ => ?_
  refine runs_operand hpc hop (by decide) (by decide) (by omega) hcut fun h₃ => ?_
  refine runs_operand hpc hop (by decide) (by decide) (by omega) hcut fun h₄ => ?_
  refine runs_setLeds (l := fun i => [ledIndex i (packedControl (location s)) 2,
      ledIndex i (packedControl (location s)) 1, ledIndex i (packedControl (location s)) 0])
    (performs_full hpc hop (by decide) h₄) ?_ (fun i => ?_)
    fun i _ _ hu => ((hu.setLedDesc i _ 0 _).setLedDesc i _ 1 _).setLedDesc i _ 2 _
  · rw [hcode]
    exact if_congr (or_iff_right (by omega)) rfl rfl
  · rw [hled]
    exact if_congr (and_iff_right (by omega)) rfl rfl

theorem performs_getColors (hpc : s.pc.toNat < s.program.size.toNat)
    (hop : Opcode.ofByte (s.program.data s.pc.toNat) = some .getColors) :
    Performs s (decoded s) (written s) (lightbyteGetColors (s.advance 1)).state := by
  refine (performs_plain hpc hop rfl).forLeds _ (writtenLed s) fun i ws u hu => ?_
  rw [writtenLed, hop]
  dsimp only
  rw [if_pos (Nat.sub_pos_of_lt hpc)]
  exact ((hu.setLedDesc i _ 0 _).setLedDesc i _ 1 _).setLedDesc i _ 2 _

theorem Performs.swapColor {ws : List Nat} (h : Performs s n ws t) (i j : Nat) :
    Performs s n (ledIndex i contColor1 j :: ledIndex i contColor0 j :: ws) (swapColor i j t) :=
  (h.setLedDesc i contColor0 j _).setLedDesc i contColor1 j _

theorem performs_swapColors (hpc : s.pc.toNat < s.program.size.toNat)
    (hop : Opcode.ofByte (s.program.data s.pc.toNat) = some .swapColors) :
    Performs s (decoded s) (written s) (lightbyteSwapColors (s.advance 1)).state := by
  refine (performs_plain hpc hop rfl).forLeds _ (writtenLed s) fun i ws u hu => ?_
  rw [writtenLed, hop]
  dsimp only
  rw [if_pos (Nat.sub_pos_of_lt hpc)]
  exact ((hu.swapColor i 0).swapColor i 1).swapColor i 2

theorem runs_dispatch (hpc : s.pc.toNat < s.program.size.toNat)
    (hop : Opcode.ofByte (s.program.data s.pc.toNat) = some op) :
    Runs s (written s) (dispatch b (s.advance 1) op) := by
  have hnil := fun hne => written_eq_nil (writtenLed_eq_nil hop hne)
  have hplain := performs_plain hpc hop
  have hzero := fun hbytes hne => (exitCode_plain hpc hop hbytes hne).symm
  cases op with
  | on | off =>
    rw [hnil (by decide)]
    exact ⟨(hplain rfl).of_eq rfl rfl rfl rfl rfl, hzero rfl (by decide)⟩
  | jump =>
    rw [hnil (by decide)]
    exact runs_byte hpc hop rfl (by decide) (fun _ => rfl) fun _ _ _ hu =>
      hu.of_eq rfl rfl rfl rfl rfl
  | jumpBattery =>
    rw [hnil (by decide)]
    exact runs_jumpBattery hpc hop
  | jumpIfCharging =>
    rw [hnil (by decide)]
    refine runs_byte hpc hop rfl (by decide) (fun _ => rfl) fun _ _ u hu => ?_
    split
    · exact hu.of_eq rfl rfl rfl rfl rfl
    · exact hu
  | setWaitDelay =>
    rw [hnil (by decide)]
    exact runs_word hpc (Or.inl hop) (fun _ => rfl) fun _ _ _ hu => hu.of_eq rfl rfl rfl rfl rfl
  | setRampDelay =>
    rw [hnil (by decide)]
    exact runs_word hpc (Or.inr hop) (fun _ => rfl) fun _ _ _ hu => hu.of_eq rfl rfl rfl rfl rfl
  | wait =>
    rw [hnil (by decide), dispatch, lightbyteWait]
    split
    · exact ⟨hplain rfl, hzero rfl (by decide)⟩
    · exact ⟨hplain rfl, hzero rfl (by decide)⟩
  | setBrightness =>
    rw [hnil (by decide)]
    exact runs_byte hpc hop rfl (by decide) (fun _ => rfl) fun _ _ _ hu =>
      hu.of_eq rfl rfl rfl rfl rfl
  | setColorSingle => exact runs_setColorSingle hpc hop
  | setColorRgb => exact runs_setColorRgb hpc hop
  | getColors => exact ⟨performs_getColors hpc hop, hzero rfl (by decide)⟩
  | swapColors => exact ⟨performs_swapColors hpc hop, hzero rfl (by decide)⟩
  | rampOnce =>
    rw [hnil (by decide), dispatch, lightbyteRampOnce]
    split
    · exact ⟨(hplain rfl).setAllLeds contColor1, hzero rfl (by decide)⟩
    · exact ⟨(hplain rfl).rampAllLeds 0 128, hzero rfl (by decide)⟩
  | cycleOnce =>
    rw [hnil (by decide), dispatch, lightbyteCycleOnce]
    split
    · exact ⟨(hplain rfl).setAllLeds contColor0, hzero rfl (by decide)⟩
    · exact ⟨(hplain rfl).rampAllLeds 0 256, hzero rfl (by decide)⟩
  | cycle =>
    have hcode : exitCode s = if s.rampDelay = 0 then ecResInvalidParam else ecSuccess := by
      rw [exitCode, if_neg (Nat.sub_ne_zero_of_lt hpc), hop]
    rw [hnil (by decide), dispatch, lightbyteCycle]
    by_cases hdelay : s.rampDelay = 0
    · rw [if_pos hdelay] at hcode
      rw [if_pos (show (s.advance 1).rampDelay = 0 from hdelay)]
      exact ⟨hplain rfl, hcode.symm⟩
    · rw [if_neg hdelay] at hcode
      rw [if_neg (show ¬(s.advance 1).rampDelay = 0 from hdelay)]
      exact ⟨(hplain rfl).cycleLeds 0, hcode.symm⟩
  | halt =>
    have hcode : exitCode s = programFinished := by
      rw [exitCode, if_neg (Nat.sub_ne_zero_of_lt hpc), hop]
    rw [hnil (by decide)]
    exact ⟨hplain rfl, hcode.symm⟩

end Dispatch

/-! ## The loop -/

theorem Performs.afterInst {r : Result} {ws : List Nat} (h : Performs s n ws r.state) :
    Performs s n ws (afterInst r).state := by
  cases r with
  | waits p u => exact h
  | done rc u =>
    dsimp only [Lightbar.afterInst]
    split
    · exact h.of_eq rfl rfl rfl rfl rfl
    · exact h

theorem written_of_not_lt (hpc : ¬s.pc.toNat < s.program.size.toNat) : written s = [] := by
  refine written_eq_nil fun i => ?_
  rw [writtenLed]
  split
  · exact if_neg fun h => by omega
  · exact if_neg fun h => by omega
  · exact if_neg (by omega)
  · exact if_neg (by omega)
  · rfl

theorem performs_execute (b : Battery) (s : State) :
    Performs s.clear (decoded s) (written s) (execute b s).state := by
  unfold execute
  dsimp only
  by_cases hpc : s.pc.toNat < s.program.size.toNat
  · rw [decode8_of_lt (show s.clear.pc.toNat < s.clear.program.size.toNat from hpc)]
    dsimp only
    split
    · next hop =>
      have hop : Opcode.ofByte (s.program.data s.pc.toNat) = none := hop
      have hdecoded : decoded s = 1 := by
        rw [decoded, if_neg (by rw [UInt8.le_iff_toNat_le]; omega), hop]
      have hnil : written s = [] := written_eq_nil fun i => by rw [writtenLed, hop]
      rw [hdecoded, hnil]
      exact (Performs.advance s.clear 1).of_eq rfl rfl rfl rfl rfl
    · next op hop =>
      have hruns := @runs_dispatch s.clear op b hpc hop
      exact hruns.performs.afterInst
  · have hend : s.program.size ≤ s.pc := UInt8.le_iff_toNat_le.mpr (Nat.le_of_not_lt hpc)
    rw [decode8, if_pos (show s.clear.program.size ≤ s.clear.pc from hend), written_of_not_lt hpc,
      decoded, if_pos hend]
    exact ⟨rfl, rfl, rfl, rfl, fun _ _ => rfl⟩

theorem lt_size_of_lt_decoded {i : Nat} (hi : i < decoded s) :
    s.pc.toNat + i < s.program.size.toNat := by
  by_cases hend : s.program.size ≤ s.pc
  · rw [decoded, if_pos hend] at hi
    exact absurd hi (Nat.not_lt_zero i)
  · have hlt := mt UInt8.le_iff_toNat_le.mpr hend
    rw [decoded, if_neg hend] at hi
    split at hi
    · omega
    · split at hi <;> omega
    · split at hi <;> omega
    · omega

theorem mem_written {x : Nat} : x ∈ written s ↔ ∃ i < numLeds, x ∈ writtenLed s i := by
  rw [written, List.mem_flatMap]
  simp only [List.mem_reverse, List.mem_range]

theorem packedColor_lt (loc : UInt8) : packedColor loc < 4 := Nat.mod_lt _ (by decide)

theorem exists_testBit {loc : UInt8} (h : packedLed loc ≠ 0) :
    ∃ i < numLeds, (packedLed loc).testBit i := by
  have hlt : packedLed loc < 16 := Nat.div_lt_of_lt_mul loc.toNat_lt
  have hall : ∀ n < 16, n ≠ 0 → ∃ i < numLeds, n.testBit i := by decide
  exact hall _ hlt h

theorem named_of_mem_writtenLed (hcontained : Contained s) {i x : Nat}
    (hx : x ∈ writtenLed s i) :
    ∃ control color, control < contMax ∧ color < 3 ∧ Named s i control color ∧
      x = ledIndex i control color := by
  unfold writtenLed at hx
  dsimp only at hx
  split at hx
  · next hop =>
    split at hx
    · next hcond =>
      have hleds : packedLed (location s) ≠ 0 := by
        intro hzero
        rw [hzero, Nat.zero_testBit] at hcond
        exact Bool.noConfusion hcond.2.2
      have hne := hcontained.channel (by omega) hop hcond.2.1 hleds
      have hlt := packedColor_lt (location s)
      refine ⟨_, _, hcond.2.1, by omega, ?_, List.mem_singleton.mp hx⟩
      rw [Named, hop]
      exact ⟨hcond.2.2, rfl, rfl⟩
    · exact nomatch hx
  · next hop =>
    split at hx
    · next hcond =>
      have hnamed : ∀ color, Named s i (packedControl (location s)) color := by
        intro color
        rw [Named, hop]
        exact ⟨hcond.2.2, rfl⟩
      simp only [List.mem_cons, List.not_mem_nil, or_false] at hx
      rcases hx with rfl | rfl | rfl
      · exact ⟨_, 2, hcond.2.1, by decide, hnamed 2, rfl⟩
      · exact ⟨_, 1, hcond.2.1, by decide, hnamed 1, rfl⟩
      · exact ⟨_, 0, hcond.2.1, by decide, hnamed 0, rfl⟩
    · exact nomatch hx
  · next hop =>
    split at hx
    · have hnamed : ∀ color, Named s i contColor0 color := by
        intro color
        rw [Named, hop]
      simp only [List.mem_cons, List.not_mem_nil, or_false] at hx
      rcases hx with rfl | rfl | rfl
      · exact ⟨_, 2, by decide, by decide, hnamed 2, rfl⟩
      · exact ⟨_, 1, by decide, by decide, hnamed 1, rfl⟩
      · exact ⟨_, 0, by decide, by decide, hnamed 0, rfl⟩
    · exact nomatch hx
  · next hop =>
    split at hx
    · have hnamed : ∀ color, Named s i contColor0 color ∧ Named s i contColor1 color := by
        intro color
        rw [Named, Named, hop]
        exact ⟨Or.inl rfl, Or.inr rfl⟩
      simp only [List.mem_cons, List.not_mem_nil, or_false] at hx
      rcases hx with rfl | rfl | rfl | rfl | rfl | rfl
      · exact ⟨_, 2, by decide, by decide, (hnamed 2).2, rfl⟩
      · exact ⟨_, 2, by decide, by decide, (hnamed 2).1, rfl⟩
      · exact ⟨_, 1, by decide, by decide, (hnamed 1).2, rfl⟩
      · exact ⟨_, 1, by decide, by decide, (hnamed 1).1, rfl⟩
      · exact ⟨_, 0, by decide, by decide, (hnamed 0).2, rfl⟩
      · exact ⟨_, 0, by decide, by decide, (hnamed 0).1, rfl⟩
    · exact nomatch hx
  · exact nomatch hx

theorem sandboxed_execute_iff (b : Battery) (s : State) :
    Sandboxed s (execute b s) ↔ Contained s := by
  have h := performs_execute b s
  have hreads : ∀ i, i ∈ (execute b s).state.reads ↔ ∃ k < decoded s, s.pc.toNat + k = i := by
    intro i
    rw [h.reads_eq, show s.clear.reads = [] from rfl, List.append_nil, List.mem_map]
    simp only [List.mem_reverse, List.mem_range]
    rfl
  have hwrites : (execute b s).state.writes = written s := by
    rw [h.writes_eq]
    exact List.append_nil _
  constructor
  · intro hbox
    refine ⟨fun i hi => (hbox.reads _ ((hreads _).mpr ⟨i, hi, rfl⟩)).1, ?_⟩
    intro hsize hop hcontrol hleds hcolor
    obtain ⟨i, hi, hbit⟩ := exists_testBit hleds
    have hmem : ledIndex i (packedControl (location s)) (packedColor (location s)) ∈ written s := by
      refine mem_written.mpr ⟨i, hi, ?_⟩
      rw [writtenLed, hop]
      dsimp only
      rw [if_pos ⟨by omega, hcontrol, hbit⟩]
      exact List.mem_singleton.mpr rfl
    obtain ⟨led, control, color, -, -, hlt, hnamed, -⟩ := hbox.writes _ (hwrites ▸ hmem)
    rw [Named, hop] at hnamed
    have heq := hnamed.2.2
    omega
  · intro hcontained
    refine ⟨h.program_eq, h.saved_eq, fun i hi => ?_, fun x hx => ?_, fun x hx => ?_⟩
    · obtain ⟨k, hk, rfl⟩ := (hreads i).mp hi
      exact ⟨hcontained.inside k hk, lt_size_of_lt_decoded hk⟩
    · obtain ⟨i, hi, hmem⟩ := mem_written.mp (hwrites ▸ hx)
      obtain ⟨control, color, hcontrol, hcolor, hnamed, heq⟩ :=
        named_of_mem_writtenLed hcontained hmem
      exact ⟨i, control, color, hi, hcontrol, hcolor, hnamed, heq⟩
    · exact h.frame x (hwrites ▸ hx)

/-! ## Runs -/

theorem forLeds_setRgb (rgb : Nat → State → Nat → UInt8) (s : State) :
    ∃ x, forLeds (fun i s => s.setRgb i (rgb i s)) s = { s with shared := x } := by
  have hloop : ∀ k, ∃ x, (List.range k).foldl (fun s i => s.setRgb i (rgb i s)) s =
      { s with shared := x } := by
    intro k
    induction k with
    | zero => exact ⟨s.shared, rfl⟩
    | succ k ih =>
      obtain ⟨x, hx⟩ := ih
      rw [List.range_succ, List.foldl_append, hx]
      exact ⟨_, rfl⟩
  exact hloop numLeds

theorem Idle.afterInst {r : Result} (h : ∃ x, r.state = { s with shared := x }) :
    Idle s (afterInst r) := by
  obtain ⟨x, hx⟩ := h
  cases r with
  | waits p u => exact ⟨x, hx⟩
  | done rc u =>
    obtain rfl : u = { s with shared := x } := hx
    dsimp only [Lightbar.afterInst]
    split
    · exact ⟨_, rfl⟩
    · exact ⟨_, rfl⟩

theorem idle_resume {e : Event} {p : Point}
    (h : ¬(waitOrRet Sequence.program.num e.requests = none ∧ p = .yield)) :
    Idle s (resume e p s) := by
  unfold resume
  dsimp only
  split
  · exact ⟨_, rfl⟩
  · exact Idle.afterInst ⟨_, rfl⟩
  · exact Idle.afterInst ⟨_, rfl⟩
  · refine Idle.afterInst ?_
    unfold rampAllLeds
    split
    · exact forLeds_setRgb (fun i s color => getInterpValue s i color _) _
    · exact ⟨_, rfl⟩
  · exact Idle.afterInst (forLeds_setRgb (fun i s color => getInterpValue s i color
      (cycle010 (_ % 256 + (s.ledDesc (ledIndex i contPhase color)).toNat))) _)
  · next hnone => exact absurd ⟨hnone, rfl⟩ h

theorem runAll_congr {P P' : Battery → State → Prop} {Q Q' : State → Next → Prop}
    (hP : ∀ b s, P b s ↔ P' b s) (hQ : ∀ s next, Idle s next → (Q s next ↔ Q' s next))
    (next : Next) (es : List Event) : RunAll P Q next es ↔ RunAll P' Q' next es := by
  induction es generalizing next with
  | nil =>
    cases next with
    | returned rc s => exact Iff.rfl
    | waiting p s => exact Iff.rfl
  | cons e es ih =>
    cases next with
    | returned rc s => exact Iff.rfl
    | waiting p s =>
      rw [RunAll, RunAll, ih]
      refine and_congr_left' ?_
      by_cases h : waitOrRet Sequence.program.num e.requests = none ∧ p = .yield
      · rw [if_pos h, if_pos h]
        exact hP _ _
      · rw [if_neg h, if_neg h]
        exact hQ _ _ (idle_resume h)

/-- A program stays in the sandbox exactly if each instruction of its run is contained. -/
theorem sandboxedRun_iff (nextProg : Program) (x : Shared) (b : Battery) (es : List Event) :
    SandboxedRun nextProg x b es ↔ ContainedRun nextProg x b es :=
  and_congr (sandboxed_execute_iff b _)
    (runAll_congr sandboxed_execute_iff (fun _ _ h => iff_of_true h trivial) _ es)

/-! ### Two programs that leave the sandbox -/

def demoShared : Shared where
  on := true
  brightness := 192
  current := fun _ _ => 0
  batteryLevel := 2
  batteryIsCharging := false

def demoBattery : Battery where
  demoMode := true
  charger := none
  threshold := fun _ => 0
  backlight := none

def quiet : Event where
  requests := []
  others := id
  battery := demoBattery

/-- `JUMP 192`, with a size of 193 -/
def longProgram : Program where
  size := 193
  data := fun i => if i = 0 then 2 else 192

/-- `SET_COLOR_SINGLE` of the fourth channel of `COLOR0` -/
def channelProgram : Program where
  size := 3
  data := fun i => if i = 0 then 9 else 0x13

/-- A byte behind `data` is executed, and a color of `COLOR1` is written. -/
theorem not_sandboxedRun : ¬SandboxedRun longProgram demoShared demoBattery [quiet] ∧
    ¬SandboxedRun channelProgram demoShared demoBattery [] := by
  constructor
  · rintro ⟨-, hrun, -⟩
    rw [if_pos ⟨by decide, rfl⟩] at hrun
    have hcontained := (sandboxed_execute_iff _ _).mp hrun
    exact absurd (hcontained.inside 0 (by decide)) (by decide)
  · rintro ⟨hfirst, -⟩
    have hcontained := (sandboxed_execute_iff _ _).mp hfirst
    exact hcontained.channel (by decide) rfl (by decide) (by decide) rfl

end ChromiumEc.Lightbar
