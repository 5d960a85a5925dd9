import Mathlib.Algebra.Order.Group.Nat
import Mathlib.Tactic.Ring

/-!
# Format — numbers written backwards, and the conversions of a format

`uint64_to_str` of `printf.c` writes a number from the end of a buffer on, and does not look at the
beginning of the buffer before each character.  The model keeps every index that is written.

`vfnprintf` of `printf.c`.  A format is the list of its characters in front of the `NUL`.  An
argument has the type that it was passed with, and `va_arg` of another type is undefined.
-/

namespace ChromiumEc.Printf

/-- The buffer behind `str`: the text up to the terminator, and the indices that were written -/
structure Writer where
  str : Int
  text : List Char
  writes : List Int
  deriving DecidableEq, Repr

/-- `*(--str) = c` -/
def Writer.put (w : Writer) (c : Char) : Writer :=
  ⟨w.str - 1, c :: w.text, (w.str - 1) :: w.writes⟩

/-- What `uint64_to_str` leaves: the buffer, and whether the result is the string and not `NULL` -/
structure Converted where
  buf : Writer
  ok : Bool
  deriving DecidableEq, Repr

def digitChar (digit : Nat) (uppercase : Bool) : Char :=
  if digit < 10 then Char.ofNat ('0'.toNat + digit)
  else if uppercase then Char.ofNat ('A'.toNat + digit - 10)
  else Char.ofNat ('a'.toNat + digit - 10)

/-- The digits to the right of the decimal point, which are decimal for every base -/
def fractionLoop : Nat → Nat → Writer → Nat × Writer
  | 0, val, w => (val, w)
  | i + 1, val, w => fractionLoop i (val / 10) (w.put (digitChar (val % 10) false))

/-- The digits that are left.  The base is at least 2 here. -/
def integerLoop (base : Nat) (uppercase : Bool) (val : Nat) (w : Writer) : Converted :=
  if _h : val ≠ 0 ∧ 1 < base then
    if w.str ≤ 0 then ⟨w, false⟩
    else integerLoop base uppercase (val / base) (w.put (digitChar (val % base) uppercase))
  else ⟨w, true⟩
termination_by val
decreasing_by exact Nat.div_lt_self (Nat.pos_of_ne_zero _h.1) _h.2

def uint64ToStr (bufLen : Int) (val : Nat) (precision : Int) (base : Nat) (uppercase : Bool) :
    Converted :=
  if bufLen ≤ 1 then ⟨⟨bufLen, [], []⟩, false⟩
  else if base ≤ 1 then ⟨⟨bufLen, [], []⟩, false⟩
  else
    -- the terminator
    let w : Writer := ⟨bufLen - 1, [], [bufLen - 1]⟩
    if bufLen - 3 < precision ∧ bufLen - 3 < 0 then ⟨w, false⟩
    else
      -- space for `0.` and the terminator
      let precision := if bufLen - 3 < precision then bufLen - 3 else precision
      let (val, w) := fractionLoop precision.toNat val w
      let w := if 0 ≤ precision then w.put '.' else w
      let w := if val = 0 then w.put '0' else w
      integerLoop base uppercase val w

/-! ## What is written -/

variable {val base lo i : Nat} {uppercase : Bool} {w : Writer} {bufLen : Int}

/-- Everything written is from `str` on and in front of the end. -/
def Writer.Upward (w : Writer) (bufLen : Int) : Prop :=
  ∀ a ∈ w.writes, w.str ≤ a ∧ a < bufLen

theorem Writer.Upward.put (h : w.Upward bufLen) (hend : w.str ≤ bufLen) (c : Char) :
    (w.put c).Upward bufLen := by
  have hstr : (w.put c).str = w.str - 1 := rfl
  intro a ha
  rcases List.mem_cons.mp ha with rfl | hmem
  · omega
  · have hold := h a hmem
    omega

theorem fractionLoop_spec (hw : w.Upward bufLen) (hend : w.str ≤ bufLen) :
    (fractionLoop i val w).1 = val / 10 ^ i ∧ (fractionLoop i val w).2.str = w.str - i ∧
      (fractionLoop i val w).2.Upward bufLen := by
  induction i generalizing val w with
  | zero =>
    refine ⟨?_, ?_, hw⟩
    · rw [Nat.pow_zero, Nat.div_one]
      rfl
    · show w.str = w.str - ((0 : Nat) : Int)
      omega
  | succ i ih =>
    have hstr : (w.put (digitChar (val % 10) false)).str = w.str - 1 := rfl
    -- the last digit is written first, so the rest of the loop is in front of it
    obtain ⟨hval, hplace, hup⟩ := @ih (val / 10) _ (hw.put hend (digitChar (val % 10) false))
      (by omega)
    refine ⟨?_, ?_, hup⟩
    · show (fractionLoop i (val / 10) _).1 = _
      rw [hval, Nat.div_div_eq_div_mul, Nat.pow_succ, Nat.mul_comm]
    · show (fractionLoop i (val / 10) _).2.str = _
      rw [hplace, hstr]
      omega

theorem integerLoop_spec (hbase : 2 ≤ base) {room : Nat} (hroom : w.str = lo + room)
    (hval : val < base ^ room) (hw : w.Upward bufLen) (hend : w.str ≤ bufLen) :
    (integerLoop base uppercase val w).ok = true ∧
      lo ≤ (integerLoop base uppercase val w).buf.str ∧
      (integerLoop base uppercase val w).buf.str ≤ w.str ∧
      (integerLoop base uppercase val w).buf.Upward bufLen := by
  -- by the places that are left: each digit takes one, and divides the number
  induction room generalizing val w with
  | zero =>
    have hzero : val = 0 := by
      rw [Nat.pow_zero] at hval
      omega
    have hlo : (lo : Int) ≤ w.str := by omega
    rw [integerLoop, dif_neg (by omega)]
    exact ⟨rfl, hlo, le_refl _, hw⟩
  | succ room ih =>
    by_cases hmore : val = 0
    · have hlo : (lo : Int) ≤ w.str := by omega
      rw [integerLoop, dif_neg (by omega)]
      exact ⟨rfl, hlo, le_refl _, hw⟩
    · have hstr : (w.put (digitChar (val % base) uppercase)).str = w.str - 1 := rfl
      have hdiv : val / base < base ^ room := by
        rw [Nat.div_lt_iff_lt_mul (by omega), ← Nat.pow_succ]
        exact hval
      obtain ⟨hok, hlow, hhigh, hup⟩ := ih (by rw [hstr]; omega) hdiv
        (hw.put hend (digitChar (val % base) uppercase)) (by omega)
      rw [integerLoop, dif_pos ⟨hmore, hbase⟩, if_neg (by omega)]
      exact ⟨hok, hlow, by omega, hup⟩

theorem div_pow_lt (hval : val < 2 ^ 64) (hbase : 10 ≤ base) {p room : Nat}
    (hroom : 20 ≤ p + room) : val / 10 ^ p < base ^ room := by
  -- 64 bits are not more than 20 decimal digits
  have hdec : val < 10 ^ p * 10 ^ room := by
    have hpow : 10 ^ 20 ≤ 10 ^ (p + room) := Nat.pow_le_pow_right (by decide) hroom
    rw [← Nat.pow_add]
    omega
  have hle : (10 : Nat) ^ room ≤ base ^ room := Nat.pow_le_pow_left hbase room
  have hdiv : val / 10 ^ p < 10 ^ room := Nat.div_lt_of_lt_mul hdec
  omega

theorem integerDigits_spec {left room : Nat} (hbase : 2 ≤ base) (hroom : w.str = lo + room)
    (hone : 0 < room) (hleft : left < base ^ room) (hw : w.Upward bufLen) (hend : w.str ≤ bufLen) :
    (integerLoop base uppercase left (if left = 0 then w.put '0' else w)).ok = true ∧
      lo ≤ (integerLoop base uppercase left (if left = 0 then w.put '0' else w)).buf.str ∧
      (integerLoop base uppercase left (if left = 0 then w.put '0' else w)).buf.str ≤ w.str ∧
      (integerLoop base uppercase left (if left = 0 then w.put '0' else w)).buf.Upward bufLen ∧
      (left = 0 → (integerLoop base uppercase left (if left = 0 then w.put '0' else w)).buf.str =
        w.str - 1) := by
  by_cases hzero : left = 0
  · -- the only digit is 0
    have hend' : integerLoop base uppercase left (w.put '0') = ⟨w.put '0', true⟩ := by
      rw [integerLoop, dif_neg (by omega)]
    have hput : (w.put '0').str = w.str - 1 := rfl
    have hlo : lo ≤ (w.put '0').str ∧ (w.put '0').str ≤ w.str := by omega
    rw [if_pos hzero, hend']
    exact ⟨rfl, hlo.1, hlo.2, hw.put hend '0', fun _ => rfl⟩
  · rw [if_neg hzero]
    obtain ⟨hok, hlow, hhigh, hup⟩ :=
      @integerLoop_spec left base lo uppercase w bufLen hbase room hroom hleft hw hend
    exact ⟨hok, hlow, hhigh, hup, fun hleft => absurd hleft hzero⟩

/-- The buffer of 34 characters with the terminator -/
def terminated : Writer :=
  ⟨34 - 1, [], [34 - 1]⟩

theorem fraction_spec (val : Nat) (precision : Int) :
    (fractionLoop (min precision 31).toNat val terminated).1 =
        val / 10 ^ (min precision 31).toNat ∧
      ∀ w, (if 0 ≤ min precision 31 then
          (fractionLoop (min precision 31).toNat val terminated).2.put '.'
        else (fractionLoop (min precision 31).toNat val terminated).2) = w →
        w.Upward 34 ∧
          w.str = if 0 ≤ precision then 32 - ((min precision 31).toNat : Int) else 33 := by
  have hinit : terminated.Upward 34 := by
    intro a ha
    rw [List.mem_singleton.mp ha]
    decide
  have hstr : terminated.str = 33 := rfl
  obtain ⟨hleft, hplace, hup⟩ :=
    @fractionLoop_spec val (min precision 31).toNat _ 34 hinit (by decide)
  refine ⟨hleft, ?_⟩
  rintro w rfl
  -- without a precision there are no digits behind the point, and no point
  by_cases hneg : 0 ≤ precision
  · rw [if_pos (by omega), if_pos hneg]
    refine ⟨hup.put (by omega) '.', ?_⟩
    show (fractionLoop _ val terminated).2.str - 1 = _
    omega
  · rw [if_neg (by omega), if_neg hneg]
    exact ⟨hup, by omega⟩

theorem uint64ToStr_eq (hbase : 10 ≤ base) (val : Nat) (precision : Int) (uppercase : Bool) :
    uint64ToStr 34 val precision base uppercase =
      integerLoop base uppercase (fractionLoop (min precision 31).toNat val terminated).1
        (if (fractionLoop (min precision 31).toNat val terminated).1 = 0 then
          (if 0 ≤ min precision 31 then
            (fractionLoop (min precision 31).toNat val terminated).2.put '.'
          else (fractionLoop (min precision 31).toNat val terminated).2).put '0'
        else if 0 ≤ min precision 31 then
          (fractionLoop (min precision 31).toNat val terminated).2.put '.'
        else (fractionLoop (min precision 31).toNat val terminated).2) := by
  have hmin : (if (34 : Int) - 3 < precision then 34 - 3 else precision) = min precision 31 := by
    omega
  unfold uint64ToStr
  rw [if_neg (by decide), if_neg (by omega)]
  dsimp only
  rw [if_neg (by omega), hmin]
  rfl

/-- A 64-bit number is converted in a buffer of 34 characters.  The string begins at the first of
them if the precision is 31 or more, and behind it otherwise. -/
theorem uint64ToStr_spec (hval : val < 2 ^ 64) (hbase : 10 ≤ base) (precision : Int)
    (uppercase : Bool) :
    (uint64ToStr 34 val precision base uppercase).ok = true ∧
      (if 31 ≤ precision then (uint64ToStr 34 val precision base uppercase).buf.str = 0
        else 1 ≤ (uint64ToStr 34 val precision base uppercase).buf.str) ∧
      (uint64ToStr 34 val precision base uppercase).buf.str ≤ 33 ∧
      (uint64ToStr 34 val precision base uppercase).buf.Upward 34 := by
  obtain ⟨hleft, hpoint⟩ := fraction_spec val precision
  obtain ⟨hup, hstr⟩ := hpoint _ rfl
  rw [uint64ToStr_eq hbase]
  generalize (if 0 ≤ min precision 31 then
    (fractionLoop (min precision 31).toNat val terminated).2.put '.'
    else (fractionLoop (min precision 31).toNat val terminated).2) = w at hup hstr ⊢
  generalize (fractionLoop (min precision 31).toNat val terminated).1 = left at hleft ⊢
  by_cases hfull : 31 ≤ precision
  · -- with 31 digits nothing is left
    have hp : (min precision 31).toNat = 31 := by omega
    rw [if_pos (by omega), hp] at hstr
    have hzero : left = 0 := by
      rw [hleft, hp]
      exact Nat.div_eq_of_lt (by omega)
    obtain ⟨hok, -, hhigh, hupEnd, hplace⟩ :=
      @integerDigits_spec base 0 uppercase w 34 left 1 (by omega) (by omega) Nat.one_pos
        (by rw [hzero]; exact Nat.pow_pos (by omega)) hup (by omega)
    rw [if_pos hfull]
    exact ⟨hok, by rw [hplace hzero]; omega, by omega, hupEnd⟩
  -- a place stays free for the sign, and the others are enough for what is left
  · have hplaces : 2 ≤ w.str ∧ w.str ≤ 33 ∧ 20 ≤ (min precision 31).toNat + (w.str - 1).toNat := by
      split at hstr
      · omega
      · omega
    obtain ⟨room, hroom⟩ : ∃ room : Nat, w.str = ((1 : Nat) : Int) + room :=
      ⟨(w.str - 1).toNat, by omega⟩
    have hfits : left < base ^ room := by
      rw [hleft]
      exact div_pow_lt hval hbase (by omega)
    obtain ⟨hok, hlow, hhigh, hupEnd, -⟩ :=
      @integerDigits_spec base 1 uppercase w 34 left room (by omega) hroom (by omega) hfits hup
        (by omega)
    rw [if_neg hfull]
    exact ⟨hok, hlow, by omega, hupEnd⟩

/-! ## Arguments -/

/-- An argument: an `int`, a 64-bit integer, a pointer, or a string that may be `NULL` -/
inductive Arg
  | int (v : BitVec 32)
  | long (v : BitVec 64)
  | pointer (v : BitVec 64)
  | text (s : Option (List Char))
  deriving DecidableEq

/-- Why a conversion is not made: `format = error_str`, or there is no argument of its type -/
inductive Stop
  | badFormat
  | badArgument
  deriving DecidableEq

/-- `sizeof(long)` (and that of pointers), `sizeof(size_t)` and `CONFIG_PRINTF_LONG_IS_32BITS` -/
structure Config where
  longIs64 : Bool
  sizeTIs64 : Bool
  longIs32Bits : Bool

def vaInt : List Arg → Except Stop (BitVec 32 × List Arg)
  | .int v :: args => .ok (v, args)
  | _ => .error .badArgument

def vaLong : List Arg → Except Stop (BitVec 64 × List Arg)
  | .long v :: args => .ok (v, args)
  | _ => .error .badArgument

def vaPointer : List Arg → Except Stop (BitVec 64 × List Arg)
  | .pointer v :: args => .ok (v, args)
  | _ => .error .badArgument

def vaText : List Arg → Except Stop (Option (List Char) × List Arg)
  | .text s :: args => .ok (s, args)
  | _ => .error .badArgument

/-! ## The fields of a conversion -/

def nul : Char :=
  Char.ofNat 0

/-- The character `c`, and the format behind it -/
structure Cursor where
  c : Char
  format : List Char
  deriving DecidableEq

/-- `c = *format++` -/
def next : List Char → Cursor
  | [] => ⟨nul, []⟩
  | c :: format => ⟨c, format⟩

def Cursor.accept (flag : Char) (s : Cursor) : Bool × Cursor :=
  if s.c = flag then (true, next s.format) else (false, s)

def isDigit (c : Char) : Bool :=
  '0' ≤ c && c ≤ '9'

/-- `10 * n + c - '0'` of 32 bits, which wrap -/
def addDigit (n : Int) (c : Char) : Int :=
  (10 * n + c.toNat - '0'.toNat).bmod (2 ^ 32)

/-- The number in the format, from the digit `c` on -/
def takeDigits (n : Int) : Char → List Char → Int × Cursor
  | c, [] => if isDigit c then (addDigit n c, next []) else (n, ⟨c, []⟩)
  | c, c' :: format =>
    if isDigit c then takeDigits (addDigit n c) c' format else (n, ⟨c, c' :: format⟩)

/-- A width or a precision: the next argument for `*`, or the number in the format -/
def takeNumber (s : Cursor) (args : List Arg) : Except Stop (Int × Cursor × List Arg) :=
  if s.c = '*' then do
    let (v, args) ← vaInt args
    .ok (v.toInt, next s.format, args)
  else
    let (n, s) := takeDigits 0 s.c s.format
    .ok (n, s, args)

def maxFormat : Int := 1024

def check (n : Int) : Except Stop Unit :=
  if n < 0 ∨ maxFormat < n then .error .badFormat else .ok ()

def takePrecision (s : Cursor) (args : List Arg) : Except Stop (Int × Cursor × List Arg) :=
  if s.c = '.' then do
    let (n, s, args) ← takeNumber (next s.format) args
    check n
    .ok (n, s, args)
  else .ok (-1, s, args)

def takeLength (cfg : Config) (s : Cursor) : Except Stop (Bool × Cursor) :=
  if s.c = 'l' then
    let s := next s.format
    let (is64, s) := if s.c = 'l' then (true, next s.format) else (cfg.longIs64, s)
    -- without `CONFIG_PRINTF_LONG_IS_32BITS`, a `%l` of 32 bits is an error
    if cfg.longIs32Bits = false ∧ is64 = false then .error .badFormat else .ok (is64, s)
  else if s.c = 'z' then .ok (cfg.sizeTIs64, next s.format)
  else .ok (false, s)

def takeValue (cfg : Config) (c : Char) (is64 : Bool) (args : List Arg) :
    Except Stop (BitVec 64 × List Arg) :=
  if c = 'p' then do
    let (v, args) ← vaPointer args
    .ok (if cfg.longIs64 then v else (v.setWidth 32).setWidth 64, args)
  else if is64 then vaLong args
  else do
    let (v, args) ← vaInt args
    .ok (v.setWidth 64, args)

structure Field where
  left : Bool
  padZero : Bool
  padWidth : Int
  precision : Int
  deriving DecidableEq

structure Number where
  value : BitVec 64
  base : Nat
  sign : Option Char
  uppercase : Bool
  base_eq : base = 10 ∨ base = 16
  deriving DecidableEq

/-- The sign of a number: `-`, or `+` if there is a flag for it.  The least number is its own
negative. -/
def signed (is64 plus : Bool) (v : BitVec 64) : Number :=
  let unsigned : Option Char := if plus then some '+' else none
  if is64 then
    if v.toInt < 0 then
      ⟨if v ≠ BitVec.ofNat 64 (2 ^ 63) then -v else v, 10, some '-', false, .inl rfl⟩
    else ⟨v, 10, unsigned, false, .inl rfl⟩
  else
    if (v.setWidth 32).toInt < 0 then
      ⟨if v ≠ BitVec.ofNat 64 (2 ^ 31) then (-(v.setWidth 32)).setWidth 64 else v, 10, some '-',
        false, .inl rfl⟩
    else ⟨v, 10, unsigned, false, .inl rfl⟩

def convert (cfg : Config) (c : Char) (is64 plus : Bool) (v : BitVec 64) : Except Stop Number :=
  if c = 'p' then .ok ⟨v, 16, none, false, .inr rfl⟩
  -- `%i` is a conversion where a `long` has 32 bits only
  else if c = 'd' ∨ c = 'i' ∧ cfg.longIs32Bits = true then .ok (signed is64 plus v)
  else if c = 'u' ∨ c = 'T' then .ok ⟨v, 10, none, false, .inl rfl⟩
  else if c = 'X' ∨ c = 'x' then .ok ⟨v, 16, none, c = 'X', .inr rfl⟩
  else .error .badFormat

/-! ## Conversions -/

/-- A conversion with its argument, or one character -/
inductive Conversion
  | char (c : Int)
  | text (field : Field) (s : List Char)
  | number (field : Field) (n : Number)
  deriving DecidableEq

/-- The conversion at the beginning of a format, with the format and the arguments behind it -/
def conversion (cfg : Config) (c : Char) (format : List Char) (args : List Arg) :
    Except Stop (Conversion × List Char × List Arg) :=
  if c ≠ '%' then .ok (.char c.toNat, format, args)
  else
    let s := next format
    -- a `%` at the end is taken for the character
    if s.c = '%' ∨ s.c = nul then .ok (.char '%'.toNat, s.format, args)
    else if s.c = 'c' then do
      let (v, args) ← vaInt args
      .ok (.char v.toInt, s.format, args)
    else do
      -- the flags in this order, then the width and the precision
      let (left, s) := s.accept '-'
      let (plus, s) := s.accept '+'
      let (padZero, s) := s.accept '0'
      let (padWidth, s, args) ← takeNumber s args
      check padWidth
      let (precision, s, args) ← takePrecision s args
      if s.c = 's' then
        let (str, args) ← vaText args
        .ok (.text ⟨left, padZero, padWidth, precision⟩ (str.getD "(NULL)".toList), s.format, args)
      else
        let (is64, s) ← takeLength cfg s
        let (v, args) ← takeValue cfg s.c is64 args
        let n ← convert cfg s.c is64 plus v
        .ok (.number ⟨left, padZero, padWidth, precision⟩ n, s.format, args)

/-- The length of `intbuf` -/
def intbufLen : Int := 34

/-- The number in `intbuf`, and its sign in front of it -/
def Number.convert (n : Number) (precision : Int) : Converted :=
  let r := uint64ToStr intbufLen n.value.toNat precision n.base n.uppercase
  -- the sign goes in front of the string without a look at the room
  match r.ok, n.sign with
  | true, some sign => ⟨r.buf.put sign, true⟩
  | _, _ => r

/-- A text with its padding: at most `precision` characters of it, if the precision is set -/
def pad (field : Field) (precision : Int) (vstr : List Char) : List Char :=
  let padWidth :=
    if 0 ≤ precision ∧ precision < field.padWidth then precision else field.padWidth
  let vlen := if precision < 0 then vstr.length else min vstr.length precision.toNat
  let pads := (padWidth - vlen).toNat
  (if field.left then [] else List.replicate pads (if field.padZero then '0' else ' ')) ++
    vstr.take vlen ++ (if field.left then List.replicate pads ' ' else [])

/-- The indices of `intbuf` that a conversion writes -/
def Conversion.writes : Conversion → List Int
  | .number field n => (n.convert field.precision).buf.writes
  | _ => []

/-- What a conversion prints, or nothing, if its `ASSERT` fails.  The precision of a number was its
fixed point. -/
def Conversion.output : Conversion → Option (List Int)
  | .char c => some [c]
  | .text field s => some ((pad field field.precision s).map fun c => (c.toNat : Int))
  | .number field n =>
    let r := n.convert field.precision
    if r.ok then some ((pad field (-1) r.buf.text).map fun c => (c.toNat : Int)) else none

/-! ## The format goes on behind a conversion -/

theorem bind_eq_ok {ε α β : Type} {x : Except ε α} {f : α → Except ε β} {b : β}
    (h : x >>= f = .ok b) : ∃ a, x = .ok a ∧ f a = .ok b := by
  cases x with
  | error e => cases h
  | ok a => exact ⟨a, rfl, h⟩

theorem next_length (format : List Char) : (next format).format.length ≤ format.length := by
  cases format with
  | nil => exact le_refl _
  | cons c format => exact Nat.le_succ _

theorem accept_length (flag : Char) (s : Cursor) :
    (s.accept flag).2.format.length ≤ s.format.length := by
  unfold Cursor.accept
  split
  · exact next_length s.format
  · exact le_refl _

theorem takeDigits_length (n : Int) (c : Char) (format : List Char) :
    (takeDigits n c format).2.format.length ≤ format.length := by
  induction format generalizing n c with
  | nil =>
    rw [takeDigits]
    split
    · exact next_length []
    · exact le_refl _
  | cons c' format ih =>
    rw [takeDigits]
    split
    · exact le_trans (ih _ c') (Nat.le_succ _)
    · exact le_refl _

theorem takeNumber_length {s s' : Cursor} {args args' : List Arg} {n : Int}
    (h : takeNumber s args = .ok (n, s', args')) : s'.format.length ≤ s.format.length := by
  unfold takeNumber at h
  split at h
  · obtain ⟨⟨v, args₁⟩, -, hv⟩ := bind_eq_ok h
    cases hv
    exact next_length s.format
  · cases h
    exact takeDigits_length 0 s.c s.format

theorem takePrecision_length {s s' : Cursor} {args args' : List Arg} {n : Int}
    (h : takePrecision s args = .ok (n, s', args')) : s'.format.length ≤ s.format.length := by
  unfold takePrecision at h
  split at h
  · obtain ⟨⟨m, s₁, args₁⟩, hnumber, hrest⟩ := bind_eq_ok h
    obtain ⟨-, -, hend⟩ := bind_eq_ok hrest
    cases hend
    exact le_trans (takeNumber_length hnumber) (next_length s.format)
  · cases h
    exact le_refl _

theorem takeLength_length {cfg : Config} {s s' : Cursor} {is64 : Bool}
    (h : takeLength cfg s = .ok (is64, s')) : s'.format.length ≤ s.format.length := by
  have hone := next_length s.format
  have htwo := next_length (next s.format).format
  unfold takeLength at h
  dsimp only at h
  split at h
  · split at h
    · split at h
      · cases h
      · cases h
        exact le_trans htwo hone
    · split at h
      · cases h
      · cases h
        exact hone
  · split at h
    · cases h
      exact hone
    · cases h
      exact le_refl _

theorem conversion_length {cfg : Config} {c : Char} {format format' : List Char}
    {args args' : List Arg} {d : Conversion}
    (h : conversion cfg c format args = .ok (d, format', args')) :
    format'.length ≤ format.length := by
  have hnext := next_length format
  unfold conversion at h
  split at h
  · cases h
    exact le_refl _
  · dsimp only at h
    split at h
    · cases h
      exact hnext
    · split at h
      · obtain ⟨⟨v, args₁⟩, -, hv⟩ := bind_eq_ok h
        cases hv
        exact hnext
      · obtain ⟨⟨padWidth, s₁, args₁⟩, hwidth, hrest⟩ := bind_eq_ok h
        obtain ⟨-, -, hrest⟩ := bind_eq_ok hrest
        obtain ⟨⟨precision, s₂, args₂⟩, hprecision, hrest⟩ := bind_eq_ok hrest
        -- each part of a conversion takes characters from the front
        have hfield : s₂.format.length ≤ format.length := by
          calc
            s₂.format.length ≤ s₁.format.length := takePrecision_length hprecision
            _ ≤ ((((next format).accept '-').2.accept '+').2.accept '0').2.format.length :=
                  takeNumber_length hwidth
            _ ≤ (((next format).accept '-').2.accept '+').2.format.length := accept_length '0' _
            _ ≤ ((next format).accept '-').2.format.length := accept_length '+' _
            _ ≤ (next format).format.length := accept_length '-' _
            _ ≤ format.length := hnext
        dsimp only at hrest
        split at hrest
        · obtain ⟨⟨str, args₃⟩, -, hend⟩ := bind_eq_ok hrest
          cases hend
          exact hfield
        · obtain ⟨⟨is64, s₃⟩, hlength, hrest⟩ := bind_eq_ok hrest
          obtain ⟨⟨v, args₃⟩, -, hrest⟩ := bind_eq_ok hrest
          obtain ⟨n, -, hend⟩ := bind_eq_ok hrest
          cases hend
          exact le_trans (takeLength_length hlength) hfield

/-! ## The loop -/

variable {σ : Type}

/-- How `vfnprintf` ends: as the source returns, with an argument that is not there, or in the
`ASSERT` -/
inductive Status
  | success
  | errorOverflow
  | badArgument
  | assertFailed
  deriving DecidableEq, Repr

/-- A run: the context at the end, how it ends, and the indices of `intbuf` that were written -/
structure Run (σ : Type) where
  context : σ
  status : Status
  writes : List Int

/-- Characters are given to `addchar`, as long as it takes them. -/
def send (addchar : σ → Int → σ × Bool) : σ → List Int → σ × Bool
  | context, [] => (context, true)
  | context, c :: cs =>
    match addchar context c with
    | (context, true) => send addchar context cs
    | (context, false) => (context, false)

def errorStr : List Char :=
  "ERROR".toList

/-- `vfnprintf`, with an `addchar` that returns whether the character was taken.  `error_str` is a
format of plain characters. -/
def vfnprintf (cfg : Config) (addchar : σ → Int → σ × Bool) (context : σ) :
    List Char → List Arg → Run σ
  | [], _ => ⟨context, .success, []⟩
  | c :: format, args =>
    match _h : conversion cfg c format args with
    | .error .badArgument => ⟨context, .badArgument, []⟩
    | .error .badFormat =>
      match send addchar context (errorStr.map fun c => (c.toNat : Int)) with
      | (context, true) => ⟨context, .success, []⟩
      | (context, false) => ⟨context, .errorOverflow, []⟩
    | .ok (d, format', args') =>
      match d.output with
      | none => ⟨context, .assertFailed, d.writes⟩
      | some out =>
        match send addchar context out with
        | (context, false) => ⟨context, .errorOverflow, d.writes⟩
        | (context, true) =>
          let rest := vfnprintf cfg addchar context format' args'
          ⟨rest.context, rest.status, d.writes ++ rest.writes⟩
termination_by format => format.length
decreasing_by exact Nat.lt_succ_of_le (conversion_length _h)

/-- The conversions of a format, up to the first that is not made -/
def conversions (cfg : Config) : List Char → List Arg → List Conversion
  | [], _ => []
  | c :: format, args =>
    match _h : conversion cfg c format args with
    | .error _ => []
    | .ok (d, format', args') => d :: conversions cfg format' args'
termination_by format => format.length
decreasing_by exact Nat.lt_succ_of_le (conversion_length _h)

end ChromiumEc.Printf
