import Mathlib.Data.Int.ModEq
import Mathlib.Data.List.Basic
import Mathlib.Data.List.TakeWhile
import Mathlib.Data.Nat.Digits.Lemmas
import ChromiumEc.Printf.Stays

/-!
# Strtoi — the number at the beginning of a string

`strtoi` of `util.c` reads a string by a pointer that is always one ahead of the character it looks
at.  A string is the list of its characters in front of the `NUL`, and reading behind the `NUL` is
`none`.

`vfnprintf` writes the digits of a number from the last one on, with the sign of the number in front;
`strtoi` adds them up from the first one on.  The first digit is no `0` unless the number is 0, so the
decimal text of a number is never taken for an octal one.
-/

namespace ChromiumEc.Strtoi

/-! ## The functions -/

def nul : Char :=
  Char.ofNat 0

/-- `nptr[0]`, for a pointer into a string -/
def load (text : List Char) (nptr : Nat) : Option Char :=
  (text ++ [nul])[nptr]?

def isspace (c : Char) : Bool :=
  c = ' ' || c = '\t' || c = '\r' || c = '\n'

/-- The range of a 32-bit `int`, which wraps -/
def wrap (x : Int) : Int :=
  x.bmod (2 ^ 32)

structure Cursor where
  c : Char
  nptr : Nat
  deriving DecidableEq

variable {text : List Char} {nptr : Nat} {c : Char} {base : Int}

/-- `c = *nptr++` -/
def fetch (text : List Char) (nptr : Nat) : Option Cursor := do
  return ⟨← load text nptr, nptr + 1⟩

theorem load_lt (h : load text nptr = some c) : nptr < text.length + 1 := by
  have hlt := (List.getElem?_eq_some_iff.mp h).1
  rwa [List.length_append, List.length_singleton] at hlt

/-- `while ((c = *nptr++) && isspace(c));` -/
def skipBlanks (text : List Char) (nptr : Nat) : Option Cursor :=
  match _h : load text nptr with
  | none => none
  | some c => if c ≠ nul ∧ isspace c then skipBlanks text (nptr + 1) else some ⟨c, nptr + 1⟩
termination_by text.length + 1 - nptr
decreasing_by
  have hlt := load_lt _h
  omega

/-- The sign: `neg`, and the cursor behind it -/
def takeSign (text : List Char) (s : Cursor) : Option (Bool × Cursor) :=
  if s.c = '+' then do return (false, ← fetch text s.nptr)
  else if s.c = '-' then do return (true, ← fetch text s.nptr)
  else some (false, s)

/-- The condition on `**nptr` of `find_base`, which is not read without a `0` in front of it -/
def hasPrefix (text : List Char) (base : Int) (s : Cursor) : Option Bool :=
  if (base = 0 ∨ base = 16) ∧ s.c = '0' then do
    let x ← load text s.nptr
    return x = 'x' || x = 'X'
  else some false

def findBase (text : List Char) (base : Int) (s : Cursor) : Option (Int × Cursor) := do
  if ← hasPrefix text base s then
    return (16, ⟨← load text (s.nptr + 1), s.nptr + 2⟩)
  else if base = 0 then return (if s.c = '0' then 8 else 10, s)
  else return (base, s)

def digitOf (base : Int) (c : Char) : Option Int :=
  let c : Int := c.toNat
  if '0'.toNat ≤ c ∧ c < '0'.toNat + min base 10 then some (c - '0'.toNat)
  else if 'A'.toNat ≤ c ∧ c < 'A'.toNat + base - 10 then some (c - 'A'.toNat + 10)
  else if 'a'.toNat ≤ c ∧ c < 'a'.toNat + base - 10 then some (c - 'a'.toNat + 10)
  else none

def digitsLoop (text : List Char) (base result : Int) (s : Cursor) : Option (Int × Nat) :=
  if s.c = nul then some (result, s.nptr)
  else
    match digitOf base s.c with
    | none => some (result, s.nptr)
    | some digit =>
      match _h : load text s.nptr with
      | none => none
      | some c => digitsLoop text base (wrap (result * base + digit)) ⟨c, s.nptr + 1⟩
termination_by text.length + 1 - s.nptr
decreasing_by
  have hlt := load_lt _h
  omega

/-- `strtoi`: the result and `endptr` -/
def strtoi (text : List Char) (base : Int) : Option (Int × Nat) := do
  let s ← skipBlanks text 0
  let (neg, s) ← takeSign text s
  let (base, s) ← findBase text base s
  let (result, nptr) ← digitsLoop text base 0 s
  return (if neg then wrap (-result) else result, nptr - 1)

def afterSign : List Char → List Char
  | [] => []
  | c :: cs => if c = '+' ∨ c = '-' then cs else c :: cs

def isNegative (cs : List Char) : Bool :=
  cs.head? = some '-'

/-- A `0x` or `0X` that counts as a prefix -/
def isHex (base : Int) (cs : List Char) : Bool :=
  (base = 0 || base = 16) && cs.head? = some '0' && (cs[1]? = some 'x' || cs[1]? = some 'X')

def afterPrefix (base : Int) (cs : List Char) : List Char :=
  if isHex base cs then cs.drop 2 else cs

def baseOf (base : Int) (cs : List Char) : Int :=
  if isHex base cs then 16
  else if base = 0 then (if cs.head? = some '0' then 8 else 10)
  else base

def isDigit (base : Int) (c : Char) : Bool :=
  (digitOf base c).isSome

def unsignedPart (text : List Char) : List Char :=
  afterSign (text.dropWhile isspace)

def digitsPart (text : List Char) (base : Int) : List Char :=
  afterPrefix base (unsignedPart text)

def valueOf (base result : Int) (cs : List Char) : Int :=
  cs.foldl (fun result c => wrap (result * base + (digitOf base c).getD 0)) result

/-! ## What the functions return -/

/-- The cursor at `cs`, behind `front` -/
def cursor (front cs : List Char) : Cursor :=
  ⟨cs.head?.getD nul, front.length + 1⟩

variable {front cs : List Char}

theorem load_append (front cs : List Char) :
    load (front ++ cs) front.length = some (cs.head?.getD nul) := by
  rw [load, List.append_assoc, List.getElem?_append_right (le_refl _), Nat.sub_self]
  cases cs with
  | nil => rfl
  | cons c cs => rfl

theorem load_succ (front : List Char) (c : Char) (cs : List Char) :
    load (front ++ c :: cs) (front.length + 1) = some (cs.head?.getD nul) := by
  have hload := load_append (front ++ [c]) cs
  rw [List.append_assoc, List.length_append] at hload
  exact hload

theorem fetch_append (front : List Char) (c : Char) (cs : List Char) :
    fetch (front ++ c :: cs) (front.length + 1) = some (cursor (front ++ [c]) cs) := by
  rw [fetch, load_succ]
  simp [cursor]

theorem skipBlanks_append (front : List Char) (hnul : nul ∉ cs) :
    skipBlanks (front ++ cs) front.length =
      some (cursor (front ++ cs.takeWhile isspace) (cs.dropWhile isspace)) := by
  -- by the characters that are left; the `NUL` is no blank
  induction cs generalizing front with
  | nil =>
    rw [skipBlanks]
    split
    · rename_i hload
      rw [load_append] at hload
      cases hload
    · rename_i c hload
      rw [load_append] at hload
      cases hload
      simp [cursor]
  | cons c cs ih =>
    have hne : c ≠ nul := fun h => hnul (h ▸ List.mem_cons_self)
    have hrest := ih (front ++ [c]) fun h => hnul (List.mem_cons_of_mem c h)
    rw [List.append_assoc, List.length_append] at hrest
    rw [skipBlanks]
    split
    · rename_i hload
      rw [load_append] at hload
      cases hload
    · rename_i c' hload
      rw [load_append] at hload
      cases hload
      by_cases hspace : isspace c = true
      · rw [if_pos ⟨hne, hspace⟩]
        refine hrest.trans ?_
        simp [hspace]
      · rw [if_neg fun h => hspace h.2]
        simp [cursor, hspace]

theorem takeSign_append (front cs : List Char) :
    ∃ front', front' ++ afterSign cs = front ++ cs ∧
      takeSign (front ++ cs) (cursor front cs) =
        some (isNegative cs, cursor front' (afterSign cs)) := by
  cases cs with
  | nil => exact ⟨front, rfl, rfl⟩
  | cons c cs =>
    by_cases hplus : c = '+'
    · subst hplus
      refine ⟨front ++ ['+'], by simp [afterSign], ?_⟩
      simp [takeSign, cursor, fetch_append, isNegative, afterSign]
    · by_cases hminus : c = '-'
      · subst hminus
        refine ⟨front ++ ['-'], by simp [afterSign], ?_⟩
        simp [takeSign, cursor, fetch_append, isNegative, afterSign]
      · refine ⟨front, by simp [afterSign, hplus, hminus], ?_⟩
        simp [takeSign, cursor, isNegative, afterSign, hplus, hminus]

theorem cursor_c_eq_zero : (cursor front cs).c = '0' ↔ cs.head? = some '0' := by
  cases cs with
  | nil => simp [cursor, nul]
  | cons c cs => simp [cursor]

theorem isHex_iff : isHex base cs = true ↔
    (base = 0 ∨ base = 16) ∧ ∃ x ds, cs = '0' :: x :: ds ∧ (x = 'x' ∨ x = 'X') := by
  match cs with
  | [] => simp [isHex]
  | [c] => simp [isHex]
  | c :: x :: ds => simp [isHex, and_assoc]

theorem hasPrefix_append (base : Int) (front cs : List Char) :
    hasPrefix (front ++ cs) base (cursor front cs) = some (isHex base cs) := by
  simp only [hasPrefix, cursor_c_eq_zero]
  by_cases hzero : (base = 0 ∨ base = 16) ∧ cs.head? = some '0'
  · obtain ⟨hbase, hhead⟩ := hzero
    obtain ⟨cs, rfl⟩ : ∃ ds, cs = '0' :: ds := by
      cases cs with
      | nil => cases hhead
      | cons c cs => exact ⟨cs, by rw [Option.some.inj hhead]⟩
    have hload : load (front ++ '0' :: cs) (cursor front ('0' :: cs)).nptr =
        some (cs.head?.getD nul) := load_succ front '0' cs
    rw [if_pos ⟨hbase, rfl⟩, hload]
    -- the character behind the `0` may be the `NUL`
    cases cs with
    | nil => simp [isHex, nul]
    | cons x cs => rcases hbase with rfl | rfl <;> simp [isHex]
  · have hno : isHex base cs = false := by
      rw [Bool.eq_false_iff, Ne, isHex_iff]
      rintro ⟨hbase, x, ds, rfl, -⟩
      exact hzero ⟨hbase, rfl⟩
    rw [if_neg hzero, hno]

theorem findBase_append (base : Int) (front cs : List Char) :
    ∃ front', front' ++ afterPrefix base cs = front ++ cs ∧
      findBase (front ++ cs) base (cursor front cs) =
        some (baseOf base cs, cursor front' (afterPrefix base cs)) := by
  rw [findBase, hasPrefix_append]
  by_cases hhex : isHex base cs = true
  · obtain ⟨-, x, ds, rfl, -⟩ := isHex_iff.mp hhex
    -- the second character behind the `0` may be the `NUL`
    have hload := load_succ (front ++ ['0']) x ds
    rw [List.append_assoc, List.length_append] at hload
    have hnext : load (front ++ '0' :: x :: ds) ((cursor front ('0' :: x :: ds)).nptr + 1) =
        some (ds.head?.getD nul) := hload
    refine ⟨front ++ ['0', x], by simp [afterPrefix, hhex], ?_⟩
    simp only [Option.bind_eq_bind, Option.bind_some, hhex, if_true, hnext]
    simp [afterPrefix, baseOf, hhex, cursor]
  · refine ⟨front, by simp [afterPrefix, hhex], ?_⟩
    by_cases hbase : base = 0
    · subst hbase
      simp [afterPrefix, baseOf, hhex, cursor_c_eq_zero]
    · simp [afterPrefix, baseOf, hhex, hbase]

theorem digitsLoop_append (front : List Char) (base : Int) (hnul : nul ∉ cs) (result : Int) :
    digitsLoop (front ++ cs) base result (cursor front cs) =
      some (valueOf base result (cs.takeWhile (isDigit base)),
        (front ++ cs).length - (cs.dropWhile (isDigit base)).length + 1) := by
  induction cs generalizing front result with
  | nil =>
    rw [digitsLoop]
    simp [cursor, valueOf]
  | cons c cs ih =>
    have hne : c ≠ nul := fun h => hnul (h ▸ List.mem_cons_self)
    have hload := load_succ front c cs
    rw [digitsLoop, if_neg (show (cursor front (c :: cs)).c ≠ nul from hne)]
    cases hdigit : digitOf base c with
    | none => simp [cursor, hdigit, isDigit, valueOf]
    | some d =>
      have hrest := ih (front ++ [c]) (fun h => hnul (List.mem_cons_of_mem c h))
        (wrap (result * base + d))
      rw [List.append_assoc, List.singleton_append] at hrest
      simp only [cursor, List.head?_cons, Option.getD_some, hdigit]
      split
      · rename_i hnone
        rw [hload] at hnone
        cases hnone
      · rename_i c' hsome
        rw [hload] at hsome
        cases hsome
        simpa [cursor, valueOf, isDigit, hdigit] using hrest

theorem strtoi_eq (hnul : nul ∉ text) (base : Int) :
    strtoi text base = some
      (let value := valueOf (baseOf base (unsignedPart text)) 0
        ((digitsPart text base).takeWhile (isDigit (baseOf base (unsignedPart text))))
       if isNegative (text.dropWhile isspace) then wrap (-value) else value,
       text.length -
        ((digitsPart text base).dropWhile (isDigit (baseOf base (unsignedPart text)))).length) := by
  have hblanks : skipBlanks text 0 =
      some (cursor (text.takeWhile isspace) (text.dropWhile isspace)) :=
    skipBlanks_append [] hnul
  obtain ⟨front', hsplit', hsign⟩ :=
    takeSign_append (text.takeWhile isspace) (text.dropWhile isspace)
  rw [List.takeWhile_append_dropWhile] at hsplit' hsign
  have hsign : takeSign text (cursor (text.takeWhile isspace) (text.dropWhile isspace)) =
      some (isNegative (text.dropWhile isspace), cursor front' (unsignedPart text)) := hsign
  obtain ⟨front, hsplit, hbase⟩ := findBase_append base front' (unsignedPart text)
  rw [unsignedPart, hsplit', ← unsignedPart] at hsplit hbase
  have hdigits := digitsLoop_append front (baseOf base (unsignedPart text)) (fun h :
    nul ∈ digitsPart text base => hnul (hsplit ▸ List.mem_append_right front h)) 0
  rw [digitsPart, hsplit, ← digitsPart] at hdigits
  have hbase : findBase text base (cursor front' (unsignedPart text)) =
      some (baseOf base (unsignedPart text), cursor front (digitsPart text base)) := hbase
  rw [strtoi, hblanks]
  simp only [Option.bind_eq_bind, Option.bind_some, hsign, hbase, hdigits]
  rfl

/-! ## Where the number ends -/

def numerals (base : Int) : List Char :=
  if base = 8 then "01234567".toList
  else if base = 10 then "0123456789".toList
  else "0123456789abcdefABCDEF".toList

theorem mem_iff_toNat_mem {l : List Char} : c ∈ l ↔ c.toNat ∈ l.map Char.toNat :=
  (List.mem_map_of_injective fun _ _ h => Char.ext (UInt32.toNat_inj.mp h)).symm

theorem isDigit_range : isDigit base c = true ↔
    (48 ≤ (c.toNat : Int) ∧ (c.toNat : Int) < 48 + min base 10) ∨
      (65 ≤ (c.toNat : Int) ∧ (c.toNat : Int) < 65 + base - 10) ∨
        97 ≤ (c.toNat : Int) ∧ (c.toNat : Int) < 97 + base - 10 := by
  have hchars : '0'.toNat = 48 ∧ 'A'.toNat = 65 ∧ 'a'.toNat = 97 := by decide
  obtain ⟨h0, hA, ha⟩ := hchars
  simp only [isDigit, digitOf, h0, hA, ha]
  split
  · exact iff_of_true rfl (by omega)
  · split
    · exact iff_of_true rfl (by omega)
    · split
      · exact iff_of_true rfl (by omega)
      · exact iff_of_false (by simp) (by omega)

theorem isDigit_iff (hbase : base = 8 ∨ base = 10 ∨ base = 16) (c : Char) :
    isDigit base c = decide (c ∈ numerals base) := by
  rw [Bool.eq_iff_iff, decide_eq_true_iff, mem_iff_toNat_mem, isDigit_range]
  rcases hbase with rfl | rfl | rfl
  · simp [numerals]
    omega
  · simp [numerals]
    omega
  · simp [numerals]
    omega

theorem baseOf_or (hbase : base = 0 ∨ base = 8 ∨ base = 10 ∨ base = 16) (cs : List Char) :
    baseOf base cs = 8 ∨ baseOf base cs = 10 ∨ baseOf base cs = 16 := by
  unfold baseOf
  grind

theorem afterSign_suffix (cs : List Char) : afterSign cs <:+ cs := by
  cases cs with
  | nil => exact List.suffix_refl []
  | cons c cs =>
    rw [afterSign]
    split
    · exact List.suffix_cons c cs
    · exact List.suffix_refl _

theorem digitsPart_suffix (text : List Char) (base : Int) : digitsPart text base <:+ text := by
  have hunsigned : unsignedPart text <:+ text :=
    (afterSign_suffix _).trans (List.dropWhile_suffix _)
  rw [digitsPart, afterPrefix]
  split
  · exact (List.drop_suffix 2 _).trans hunsigned
  · exact hunsigned

theorem strtoi_endptr (hnul : nul ∉ text) (hbase : base = 0 ∨ base = 8 ∨ base = 10 ∨ base = 16) :
    ∃ value endptr, strtoi text base = some (value, endptr) ∧ endptr ≤ text.length ∧
      text.drop endptr = (digitsPart text base).dropWhile
        (· ∈ numerals (baseOf base (unsignedPart text))) := by
  have hdigit : isDigit (baseOf base (unsignedPart text)) =
      fun c => decide (c ∈ numerals (baseOf base (unsignedPart text))) :=
    funext (isDigit_iff (baseOf_or hbase _))
  have hstrtoi := strtoi_eq hnul base
  refine ⟨_, _, hstrtoi, Nat.sub_le _ _, ?_⟩
  rw [hdigit]
  -- what is behind the digits is a suffix of the string
  have hsuffix : (digitsPart text base).dropWhile
      (· ∈ numerals (baseOf base (unsignedPart text))) <:+ text :=
    (List.dropWhile_suffix _).trans (digitsPart_suffix text base)
  exact (List.suffix_iff_eq_drop.mp hsuffix).symm

end Strtoi

namespace Strtoi

open Printf hiding nul isDigit

variable {base val : Nat} {uppercase : Bool} {cfg : Config}

/-! ## The printed digits -/

/-- The digits of a number, the most significant one first -/
def numeral (base : Nat) (uppercase : Bool) (val : Nat) : List Char :=
  if val = 0 then ['0']
  else (base.digits val).reverse.map (digitChar · uppercase)

theorem integerLoop_text (hbase : 1 < base) (w : Writer)
    (hok : (integerLoop base uppercase val w).ok = true) :
    (integerLoop base uppercase val w).buf.text =
      (base.digits val).reverse.map (digitChar · uppercase) ++ w.text := by
  -- by the digits that are left: each step puts the last of them in front of the text
  induction val using Nat.strong_induction_on generalizing w with
  | _ val ih =>
    by_cases hzero : val = 0
    · subst hzero
      rw [integerLoop]
      simp
    · have hdiv : val / base < val := Nat.div_lt_self (Nat.pos_of_ne_zero hzero) hbase
      rw [integerLoop, dif_pos ⟨hzero, hbase⟩] at hok ⊢
      split at hok
      · cases hok
      · rename_i hroom
        rw [if_neg hroom, ih _ hdiv _ hok, Nat.digits_def' hbase (Nat.pos_of_ne_zero hzero)]
        simp [Writer.put]

theorem uint64ToStr_text (hval : val < 2 ^ 64) (hbase : 10 ≤ base) (uppercase : Bool) :
    (uint64ToStr 34 val (-1) base uppercase).buf.text = numeral base uppercase val := by
  have hok := (uint64ToStr_spec hval hbase (-1) uppercase).1
  rw [uint64ToStr_eq hbase] at hok ⊢
  have hfraction : fractionLoop (min (-1 : Int) 31).toNat val terminated = (val, terminated) := rfl
  rw [hfraction] at hok ⊢
  rw [integerLoop_text (by omega) _ hok, numeral]
  by_cases hzero : val = 0
  · subst hzero
    rw [Nat.digits_zero]
    rfl
  · rw [if_neg hzero, if_neg hzero]
    exact List.append_nil _

/-- The output of a run whose `addchar` takes every character -/
def collect (out : List Int) (c : Int) : List Int × Bool :=
  (out ++ [c], true)

/-- `vfnprintf` prints this text. -/
def Prints (cfg : Config) (format : List Char) (args : List Arg) (text : List Char) : Prop :=
  (vfnprintf cfg collect [] format args).status = .success ∧
    (vfnprintf cfg collect [] format args).context = text.map fun c => (c.toNat : Int)

theorem send_collect (out cs : List Int) : send collect out cs = (out ++ cs, true) := by
  induction cs generalizing out with
  | nil => simp [send]
  | cons c cs ih => simp [send, collect, ih]

/-- The text of a number that is printed without flags, width and precision -/
def numberText (n : Number) : List Char :=
  n.sign.toList ++ numeral n.base n.uppercase n.value.toNat

theorem prints_number {x : Char} {n : Number} {arg : Arg}
    (h : conversion cfg '%' [x] [arg] = .ok (.number ⟨false, false, 0, -1⟩ n, [], [])) :
    Prints cfg ['%', x] [arg] (numberText n) := by
  have hbase : 10 ≤ n.base := by
    rcases n.base_eq with h | h
    · omega
    · omega
  have hplain := uint64ToStr_text n.value.isLt hbase n.uppercase
  have hdone := (uint64ToStr_spec n.value.isLt hbase (-1) n.uppercase).1
  have htext : (n.convert (-1)).buf.text = numberText n := by
    unfold Number.convert intbufLen numberText
    dsimp only
    rw [hdone]
    cases n.sign with
    | none => exact hplain
    | some sign => exact congrArg (sign :: ·) hplain
  have hpad : pad ⟨false, false, 0, -1⟩ (-1) (numberText n) = numberText n := by
    simp [pad]
  have hout : (Conversion.number ⟨false, false, 0, -1⟩ n).output =
      some ((numberText n).map fun c => (c.toNat : Int)) := by
    rw [Conversion.output]
    dsimp only
    rw [if_pos (n.convert_spec (-1)).1, htext, hpad]
  have hend : ∀ out, vfnprintf cfg collect out [] [] = ⟨out, .success, []⟩ := by
    intro out
    rw [vfnprintf]
  have hrun : ∃ writes, vfnprintf cfg collect [] ['%', x] [arg] =
      ⟨(numberText n).map fun c => (c.toNat : Int), .success, writes⟩ := by
    rw [vfnprintf, h]
    dsimp only
    rw [hout]
    simp only [send_collect, hend, List.nil_append]
    exact ⟨_, rfl⟩
  obtain ⟨writes, hrun⟩ := hrun
  rw [Prints, hrun]
  exact ⟨rfl, rfl⟩

/-! ## Reading the digits back -/

theorem valueOf_eq (b : Int) (cs : List Char) (r : Int) :
    valueOf b (wrap r) cs = wrap (cs.foldl (fun r c => r * b + (digitOf b c).getD 0) r) := by
  induction cs generalizing r with
  | nil => rfl
  | cons c cs ih =>
    have hstep : wrap (wrap r * b + (digitOf b c).getD 0) =
        wrap (r * b + (digitOf b c).getD 0) := by
      simp only [wrap]
      rw [← Int.bmod_add_bmod, Int.bmod_mul_bmod, Int.bmod_add_bmod]
    rw [valueOf, List.foldl_cons, hstep]
    exact ih _

theorem digitOf_digitChar {b d : Nat} (hb : b = 10 ∨ b = 16) (hd : d < b) (uppercase : Bool) :
    digitOf b (digitChar d uppercase) = some (d : Int) := by
  have hten : ∀ d < 10, ∀ uppercase, digitOf 10 (digitChar d uppercase) = some (d : Int) := by
    decide
  have hsixteen : ∀ d < 16, ∀ uppercase, digitOf 16 (digitChar d uppercase) = some (d : Int) := by
    decide
  rcases hb with rfl | rfl
  · exact hten d hd uppercase
  · exact hsixteen d hd uppercase

theorem mem_numeral {b : Nat} (hb : b = 10 ∨ b = 16) {c : Char} (hc : c ∈ numeral b uppercase val) :
    ∃ d < b, c = digitChar d uppercase := by
  unfold numeral at hc
  split at hc
  · refine ⟨0, by omega, ?_⟩
    rw [List.mem_singleton.mp hc]
    rfl
  · obtain ⟨d, hd, rfl⟩ := List.mem_map.mp hc
    exact ⟨d, Nat.digits_lt_base (by omega) (List.mem_reverse.mp hd), rfl⟩

theorem isDigit_numeral {b : Nat} (hb : b = 10 ∨ b = 16) {c : Char}
    (hc : c ∈ numeral b uppercase val) : isDigit b c = true := by
  obtain ⟨d, hd, rfl⟩ := mem_numeral hb hc
  rw [isDigit, digitOf_digitChar hb hd]
  rfl

theorem foldl_numeral {b : Nat} (hb : b = 10 ∨ b = 16) (uppercase : Bool) (val : Nat) :
    (numeral b uppercase val).foldl (fun r c => r * (b : Int) + (digitOf b c).getD 0) 0 = val := by
  unfold numeral
  split
  · rename_i hzero
    rw [hzero]
    rcases hb with rfl | rfl
    · rfl
    · rfl
  · rw [List.foldl_map, List.foldl_reverse]
    calc
      (b.digits val).foldr
          (fun d r => r * (b : Int) + (digitOf b (digitChar d uppercase)).getD 0) 0
          = (b.digits val).foldr (fun (d : Nat) r => (d : Int) + b * r) 0 := by
            refine List.foldr_ext _ _ _ fun d hd r => ?_
            rw [digitOf_digitChar hb (Nat.digits_lt_base (by omega) hd), Option.getD_some]
            ring
      _ = Nat.ofDigits (b : Int) (b.digits val) := (Nat.ofDigits_eq_foldr _ _).symm
      _ = ((Nat.ofDigits b (b.digits val) : Nat) : Int) := (Nat.coe_ofDigits Int b _).symm
      _ = val := by rw [Nat.ofDigits_digits]

theorem valueOf_numeral {b : Nat} (hb : b = 10 ∨ b = 16) (uppercase : Bool) (val : Nat) :
    valueOf b 0 (numeral b uppercase val) = wrap val := by
  have hvalue := valueOf_eq b (numeral b uppercase val) 0
  rw [foldl_numeral hb] at hvalue
  exact hvalue

theorem numeral_head (uppercase : Bool) {b : Nat} (hb : b = 10 ∨ b = 16) (hval : val ≠ 0) :
    ∃ c cs, numeral b uppercase val = c :: cs ∧ c ≠ '0' := by
  have hne : b.digits val ≠ [] := Nat.digits_ne_nil_iff_ne_zero.mpr hval
  have hlast := Nat.getLast_digit_ne_zero b hval
  have hlt : (b.digits val).getLast hne < b :=
    Nat.digits_lt_base (by omega) (List.getLast_mem hne)
  have hchar : ∀ d < 16, d ≠ 0 → ∀ uppercase, digitChar d uppercase ≠ '0' := by decide
  -- the digits are printed from the last of the list on
  obtain ⟨d, ds, hds⟩ := List.exists_cons_of_ne_nil (List.reverse_ne_nil_iff.mpr hne)
  have hd : d = (b.digits val).getLast hne := by
    have hhead := List.head_reverse (List.reverse_ne_nil_iff.mpr hne)
    simpa [hds] using hhead
  refine ⟨digitChar d uppercase, ds.map (digitChar · uppercase), ?_, ?_⟩
  · rw [numeral, if_neg hval, hds, List.map_cons]
  · exact hchar d (by omega) (by rw [hd]; exact hlast) uppercase

/-! ## Texts -/

theorem digit_plain {c : Char} (hc : isDigit 16 c = true) :
    isspace c = false ∧ c ≠ '+' ∧ c ≠ '-' ∧ c ≠ 'x' ∧ c ≠ 'X' ∧ c ≠ nul := by
  have hplain : (numerals 16).all (fun c => decide (isspace c = false ∧ c ≠ '+' ∧ c ≠ '-' ∧
      c ≠ 'x' ∧ c ≠ 'X' ∧ c ≠ nul)) = true := by
    decide
  rw [isDigit_iff (Or.inr (Or.inr rfl))] at hc
  exact of_decide_eq_true (List.all_eq_true.mp hplain c (of_decide_eq_true hc))

theorem unsignedPart_digits {cs : List Char} (h : ∀ c ∈ cs, isDigit 16 c = true) :
    cs.dropWhile isspace = cs ∧ afterSign cs = cs ∧ isNegative cs = false := by
  cases cs with
  | nil => exact ⟨rfl, rfl, rfl⟩
  | cons c cs =>
    obtain ⟨hspace, hplus, hminus, -⟩ := digit_plain (h c List.mem_cons_self)
    refine ⟨?_, ?_, ?_⟩
    · rw [List.dropWhile_cons_of_neg (by rw [hspace]; exact Bool.false_ne_true)]
    · simp [afterSign, hplus, hminus]
    · simp [isNegative, hminus]

theorem strtoi_all {text cs : List Char} {b base : Int} (hnul : nul ∉ text)
    (hpart : digitsPart text base = cs) (hb : baseOf base (unsignedPart text) = b)
    (hcs : ∀ c ∈ cs, isDigit b c = true) :
    strtoi text base = some
      (if isNegative (text.dropWhile isspace) then wrap (-valueOf b 0 cs) else valueOf b 0 cs,
        text.length) := by
  have htake : cs.takeWhile (isDigit b) = cs := List.takeWhile_eq_self_iff.mpr hcs
  have hdrop : cs.dropWhile (isDigit b) = [] := List.dropWhile_eq_nil_iff.mpr hcs
  rw [strtoi_eq hnul, hpart, hb, htake, hdrop]
  rfl

theorem numeral_isDigit {b : Nat} (hb : b = 10 ∨ b = 16) {c : Char}
    (hc : c ∈ numeral b uppercase val) : isDigit 16 c = true := by
  have hdigit := isDigit_range.mp (isDigit_numeral hb hc)
  rw [isDigit_range]
  rcases hb with rfl | rfl
  · omega
  · exact hdigit

theorem nul_not_mem_numeral {b : Nat} (hb : b = 10 ∨ b = 16) :
    nul ∉ numeral b uppercase val := fun hmem =>
  (digit_plain (numeral_isDigit hb hmem)).2.2.2.2.2 rfl

theorem strtoi_decimal (hval : val ≠ 0) {sign : Option Char} (hsign : sign = none ∨ sign = some '-') :
    strtoi (sign.toList ++ numeral 10 uppercase val) 0 = some
      (if sign = some '-' then wrap (-wrap val) else wrap val,
        (sign.toList ++ numeral 10 uppercase val).length) := by
  have hdigits : ∀ c ∈ numeral 10 uppercase val, isDigit 16 c = true := fun c hc =>
    numeral_isDigit (Or.inl rfl) hc
  obtain ⟨hblank, hplain, hpos⟩ := unsignedPart_digits hdigits
  obtain ⟨c, cs, hcons, hne⟩ := numeral_head uppercase (Or.inl rfl) hval
  -- base 0 takes no prefix for one, since the first digit is no `0`
  have hhex : isHex 0 (numeral 10 uppercase val) = false := by
    rw [Bool.eq_false_iff, Ne, isHex_iff]
    rintro ⟨-, x, ds, hds, -⟩
    rw [hcons] at hds
    exact hne (List.cons.inj hds).1
  have hbase : baseOf 0 (numeral 10 uppercase val) = 10 := by
    rw [hcons] at hhex ⊢
    simp [baseOf, hhex, hne]
  have hunsigned : unsignedPart (sign.toList ++ numeral 10 uppercase val) =
      numeral 10 uppercase val := by
    rcases hsign with rfl | rfl
    · rw [unsignedPart, Option.toList_none, List.nil_append, hblank, hplain]
    · rfl
  have hpart : digitsPart (sign.toList ++ numeral 10 uppercase val) 0 =
      numeral 10 uppercase val := by
    rw [digitsPart, hunsigned, afterPrefix, hhex]
    rfl
  have hnul : nul ∉ sign.toList ++ numeral 10 uppercase val := by
    intro hmem
    rcases List.mem_append.mp hmem with hmem | hmem
    · rcases hsign with rfl | rfl
      · cases hmem
      · exact absurd (List.mem_singleton.mp hmem) (by decide)
    · exact nul_not_mem_numeral (Or.inl rfl) hmem
  have hvalue : valueOf 10 0 (numeral 10 uppercase val) = wrap val :=
    valueOf_numeral (Or.inl rfl) uppercase val
  have hten : ∀ c ∈ numeral 10 uppercase val, isDigit 10 c = true := fun c hc =>
    isDigit_numeral (b := 10) (Or.inl rfl) hc
  rw [strtoi_all hnul hpart (by rw [hunsigned, hbase]) hten, hvalue]
  rcases hsign with rfl | rfl
  · rw [Option.toList_none, List.nil_append, hblank, hpos]
    simp
  · simp [isNegative, isspace]

theorem strtoi_hex (uppercase : Bool) (val : Nat) :
    strtoi ('0' :: 'x' :: numeral 16 uppercase val) 0 = some
      (wrap val, ('0' :: 'x' :: numeral 16 uppercase val).length) := by
  have hnul : nul ∉ '0' :: 'x' :: numeral 16 uppercase val := by
    intro hmem
    rcases List.mem_cons.mp hmem with hmem | hmem
    · exact absurd hmem (by decide)
    · rcases List.mem_cons.mp hmem with hmem | hmem
      · exact absurd hmem (by decide)
      · exact nul_not_mem_numeral (Or.inr rfl) hmem
  have hpart : digitsPart ('0' :: 'x' :: numeral 16 uppercase val) 0 =
      numeral 16 uppercase val := rfl
  rw [strtoi_all hnul hpart rfl fun c hc => isDigit_numeral (Or.inr rfl) hc]
  exact congrArg (fun value => some (value, _)) (valueOf_numeral (Or.inr rfl) uppercase val)

/-! ## The round trip -/

variable (cfg) (v : BitVec 32)

theorem conversion_d : conversion cfg '%' ['d'] [.int v] =
    .ok (.number ⟨false, false, 0, -1⟩ (signed false false (v.setWidth 64)), [], []) := rfl

theorem conversion_hex {x : Char} (hx : x = 'x' ∨ x = 'X') : conversion cfg '%' [x] [.int v] =
    .ok (.number ⟨false, false, 0, -1⟩ ⟨v.setWidth 64, 16, none, x = 'X', Or.inr rfl⟩, [], []) := by
  rcases hx with rfl | rfl
  · rfl
  · rfl

theorem signed_spec :
    (signed false false (v.setWidth 64)).value.toNat = v.toInt.natAbs ∧
      (signed false false (v.setWidth 64)).sign = (if v.toInt < 0 then some '-' else none) ∧
      (signed false false (v.setWidth 64)).base = 10 ∧
      (signed false false (v.setWidth 64)).uppercase = false := by
  have hback : (v.setWidth 64).setWidth 32 = v := by
    apply BitVec.eq_of_toNat_eq
    simp
  have hint := BitVec.toInt_eq_toNat_cond v
  unfold signed
  rw [if_neg Bool.false_ne_true, hback]
  by_cases hneg : v.toInt < 0
  · rw [if_pos hneg, if_pos hneg]
    refine ⟨?_, rfl, rfl, rfl⟩
    dsimp only
    have hlt := v.isLt
    have hwide : (v.setWidth 64).toNat = v.toNat := by
      rw [BitVec.toNat_setWidth]
      omega
    -- the least number is its own negative
    by_cases hleast : v.setWidth 64 = BitVec.ofNat 64 (2 ^ 31)
    · rw [if_neg fun h => h hleast, hwide]
      have hnat : v.toNat = 2 ^ 31 := by
        rw [← hwide, hleast]
        rfl
      omega
    · rw [if_pos hleast, BitVec.toNat_setWidth, BitVec.toNat_neg]
      omega
  · rw [if_neg hneg, if_neg hneg]
    refine ⟨?_, rfl, rfl, rfl⟩
    rw [BitVec.toNat_setWidth]
    omega

theorem wrap_toInt : wrap v.toInt = v.toInt := by
  rw [wrap, BitVec.toInt_eq_toNat_bmod, Int.bmod_bmod]

theorem prints_decimal : ∃ text, Prints cfg "%d".toList [.int v] text ∧
    strtoi text 0 = some (v.toInt, text.length) := by
  obtain ⟨hvalue, hsign, hbase, hupper⟩ := signed_spec v
  refine ⟨_, prints_number (conversion_d cfg v), ?_⟩
  rw [numberText, hvalue, hsign, hbase, hupper]
  by_cases hzero : v.toInt = 0
  · -- a single `0` is an octal number
    rw [hzero]
    rw [strtoi_eq (by decide)]
    decide
  · have hne : v.toInt.natAbs ≠ 0 := fun h => hzero (Int.natAbs_eq_zero.mp h)
    have hwrap := wrap_toInt v
    by_cases hneg : v.toInt < 0
    · have habs : (v.toInt.natAbs : Int) = -v.toInt := by omega
      have hback : wrap (-wrap (v.toInt.natAbs : Int)) = v.toInt := by
        rw [habs, wrap, wrap, Int.bmod_neg_bmod, Int.neg_neg]
        exact hwrap
      rw [if_pos hneg, strtoi_decimal hne (Or.inr rfl), if_pos rfl, hback]
    · have habs : (v.toInt.natAbs : Int) = v.toInt := by omega
      rw [if_neg hneg, strtoi_decimal hne (Or.inl rfl), if_neg nofun, habs, hwrap]

theorem prints_hex {x : Char} (hx : x = 'x' ∨ x = 'X') : ∃ text, Prints cfg ['%', x] [.int v] text ∧
    strtoi ('0' :: 'x' :: text) 0 = some (v.toInt, text.length + 2) := by
  refine ⟨_, prints_number (conversion_hex cfg v hx), ?_⟩
  have hvalue : (v.setWidth 64).toNat = v.toNat := by
    rw [BitVec.toNat_setWidth]
    omega
  rw [numberText, Option.toList_none, List.nil_append, hvalue, strtoi_hex]
  rw [BitVec.toInt_eq_toNat_bmod, wrap]
  rfl

/-- Printing and parsing of integers are inverse, and `endptr` is behind the number in the string. -/
theorem strtoi_inverse :
    (∃ text, Prints cfg "%d".toList [.int v] text ∧
      strtoi text 0 = some (v.toInt, text.length)) ∧
    (∀ x, x = 'x' ∨ x = 'X' → ∃ text, Prints cfg ['%', x] [.int v] text ∧
      strtoi ('0' :: 'x' :: text) 0 = some (v.toInt, text.length + 2)) ∧
    ∀ text, nul ∉ text → ∀ base, base = 0 ∨ base = 8 ∨ base = 10 ∨ base = 16 →
      ∃ value endptr, strtoi text base = some (value, endptr) ∧ endptr ≤ text.length ∧
        text.drop endptr = (digitsPart text base).dropWhile
          (· ∈ numerals (baseOf base (unsignedPart text))) :=
  ⟨prints_decimal cfg v, fun _ hx => prints_hex cfg v hx, fun _ hnul _ hbase =>
    strtoi_endptr hnul hbase⟩

end ChromiumEc.Strtoi
