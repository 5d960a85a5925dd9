import Mathlib.Algebra.BigOperators.Fin
import Mathlib.Algebra.Order.Ring.Int
import Mathlib.Data.Fintype.BigOperators
import Mathlib.Tactic.Positivity
import Mathlib.Tactic.Ring
import ChromiumEc.Lib.Rank

/-!
# FromBits — strap pins as one number

A strap pin is read as `0`, `1` or `2` (not connected).  `binary_first_base3_from_bits` numbers the
readings of all pins: the readings without a `2` have their binary value, and the others follow.
Signed arithmetic that leaves the range of `int` is undefined, which is `none` here.

The number of a reading is its place when the readings without a `2` come first and both classes are
in the order of the ternary value.  `binary_below` counts the readings of the first class below.
-/

namespace ChromiumEc.Straps

/-! ## The functions -/

def intMax : Int := 2147483647

/-- The result of an operation on `int` -/
def int (x : Int) : Option Int :=
  if -intMax - 1 ≤ x ∧ x ≤ intMax then some x else none

/-- `x << i` -/
def shiftLeft (x : Int) (i : Nat) : Option Int :=
  if 0 ≤ x ∧ i < 32 then int (x * 2 ^ i) else none

/-- The variables of `binary_first_base3_from_bits` -/
structure Base3 where
  binaryBelow : Int
  hasZ : Bool
  base3 : Int
  deriving DecidableEq, Repr

/-- The `switch` on a digit, before which no `2` was found -/
def countBelow (i : Nat) (digit : Int) (s : Base3) : Option Base3 :=
  if digit = 1 then do
    let below ← int (s.binaryBelow + (← shiftLeft 1 i))
    return { s with binaryBelow := below }
  else if digit = 2 then do
    let below ← int (s.binaryBelow + (← shiftLeft 1 (i + 1)))
    return { s with binaryBelow := below, hasZ := true }
  else some s

/-- The body of the loop; reading outside the array is `none`. -/
def base3Step (bits : List Int) (i : Nat) (s : Base3) : Option Base3 := do
  let digit ← bits[i]?
  let base3 ← int ((← int (s.base3 * 3)) + digit)
  let s := { s with base3 := base3 }
  if !s.hasZ then countBelow i digit s else return s

/-- The loop over the digits below `i`, from the most significant one -/
def base3Loop (bits : List Int) : Nat → Base3 → Option Base3
  | 0, s => some s
  | i + 1, s => do base3Loop bits i (← base3Step bits i s)

def binaryFirstBase3FromBits (bits : List Int) (nbits : Nat) : Option Int := do
  let s ← base3Loop bits nbits ⟨0, false, 0⟩
  if s.hasZ then
    int ((← int (s.base3 + (← shiftLeft 1 nbits))) - s.binaryBelow)
  else return s.binaryBelow

/-- The loop of `ternary_from_bits` -/
def ternaryLoop (bits : List Int) : Nat → Int → Option Int
  | 0, value => some value
  | i + 1, value => do
      ternaryLoop bits i (← int ((← int (value * 3)) + (← bits[i]?)))

def ternaryFromBits (bits : List Int) (nbits : Nat) : Option Int :=
  ternaryLoop bits nbits 0

/-! ## Vectors of digits -/

variable {n : Nat}

def digits (v : Fin n → Fin 3) : List Int :=
  List.ofFn fun i => ((v i : Nat) : Int)

def ternary (v : Fin n → Fin 3) : Nat :=
  ∑ i, (v i : Nat) * 3 ^ (i : Nat)

def binary (v : Fin n → Fin 3) : Nat :=
  ∑ i, (v i : Nat) * 2 ^ (i : Nat)

def HasTwo (v : Fin n → Fin 3) : Prop :=
  ∃ i, v i = 2

instance (v : Fin n → Fin 3) : Decidable (HasTwo v) :=
  inferInstanceAs (Decidable (∃ i, v i = 2))

/-- What the loop adds up in `binary_below`, from the most significant digit down to the first `2` -/
def below : {n : Nat} → (Fin n → Fin 3) → Nat
  | 0, _ => 0
  | n + 1, v =>
    match v (Fin.last n) with
    | 0 => below (Fin.init v)
    | 1 => 2 ^ n + below (Fin.init v)
    | 2 => 2 ^ (n + 1)

theorem ternary_succ (v : Fin (n + 1) → Fin 3) :
    ternary v = ternary (Fin.init v) + (v (Fin.last n) : Nat) * 3 ^ n := by
  simp [ternary, Fin.sum_univ_castSucc, Fin.init]

theorem binary_succ (v : Fin (n + 1) → Fin 3) :
    binary v = binary (Fin.init v) + (v (Fin.last n) : Nat) * 2 ^ n := by
  simp [binary, Fin.sum_univ_castSucc, Fin.init]

theorem hasTwo_succ (v : Fin (n + 1) → Fin 3) :
    HasTwo v ↔ v (Fin.last n) = 2 ∨ HasTwo (Fin.init v) := by
  rw [HasTwo, Fin.exists_fin_succ', or_comm]
  rfl

theorem below_eq_binary {v : Fin n → Fin 3} (hv : ¬ HasTwo v) : below v = binary v := by
  induction n with
  | zero => simp [below, binary]
  | succ n ih =>
    rw [hasTwo_succ, not_or] at hv
    have hrest := ih hv.2
    rw [binary_succ, ← hrest]
    match hd : v (Fin.last n) with
    | 0 => simp [below, hd]
    | 1 => simp [below, hd, Nat.add_comm]
    | 2 => exact absurd hd hv.1

theorem below_le (v : Fin n → Fin 3) : below v ≤ 2 ^ n := by
  induction n with
  | zero => simp [below]
  | succ n ih =>
    have hrest := ih (Fin.init v)
    have hpow : 2 ^ (n + 1) = 2 ^ n + 2 ^ n := by ring
    match hd : v (Fin.last n) with
    | 0 => simp only [below, hd]; omega
    | 1 => simp only [below, hd]; omega
    | 2 => simp only [below, hd]; omega

/-! ## What the loops compute -/

/-- The array has the digits of `v` at its start. -/
def Reads (bits : List Int) (v : Fin n → Fin 3) : Prop :=
  ∀ i : Fin n, bits[(i : Nat)]? = some ((v i : Nat) : Int)

theorem reads_digits (v : Fin n → Fin 3) : Reads (digits v) v := by
  intro i
  simp [digits]

theorem Reads.init {bits : List Int} {v : Fin (n + 1) → Fin 3} (h : Reads bits v) :
    Reads bits (Fin.init v) :=
  fun i => h i.castSucc

theorem Reads.last {bits : List Int} {v : Fin (n + 1) → Fin 3} (h : Reads bits v) :
    bits[n]? = some ((v (Fin.last n) : Nat) : Int) :=
  h (Fin.last n)

theorem int_eq {x : Int} (h0 : 0 ≤ x) (hx : x ≤ intMax) : int x = some x := by
  have hmin : -intMax - 1 ≤ x := by
    unfold intMax
    omega
  rw [int, if_pos ⟨hmin, hx⟩]

theorem shiftLeft_one {i : Nat} (hi : (2 : Int) ^ i ≤ intMax) : shiftLeft 1 i = some (2 ^ i) := by
  have hlt : i < 32 := by
    by_contra hge
    have hpow : (2 : Int) ^ 32 ≤ 2 ^ i := pow_le_pow_right₀ (by decide) (Nat.le_of_not_lt hge)
    unfold intMax at hi
    omega
  rw [shiftLeft, if_pos ⟨by decide, hlt⟩, one_mul, int_eq (by positivity) hi]

/-- What a digit adds to `binary_below` as long as no `2` was found -/
def weight (i : Nat) (d : Fin 3) : Int :=
  match d with
  | 0 => 0
  | 1 => 2 ^ i
  | 2 => 2 ^ (i + 1)

theorem countBelow_eq {i : Nat} {s : Base3} (d : Fin 3) (hz : s.hasZ = false)
    (hbelow : 0 ≤ s.binaryBelow) (hroom : s.binaryBelow + 2 ^ (i + 1) ≤ intMax) :
    countBelow i (d : Nat) s = some
      { s with binaryBelow := s.binaryBelow + weight i d, hasZ := decide (d = 2) } := by
  have hpos : (0 : Int) < 2 ^ i := by positivity
  have hpow : (2 : Int) ^ (i + 1) = 2 ^ i + 2 ^ i := by ring
  match d with
  | 0 => simp [countBelow, weight, ← hz]
  | 1 =>
    have hshift : shiftLeft 1 i = some (2 ^ i) := shiftLeft_one (by omega)
    have hsum : int (s.binaryBelow + 2 ^ i) = some (s.binaryBelow + 2 ^ i) :=
      int_eq (by omega) (by omega)
    simp [countBelow, weight, hshift, hsum, ← hz]
  | 2 =>
    have hshift : shiftLeft 1 (i + 1) = some (2 ^ (i + 1)) := shiftLeft_one (by omega)
    have hsum : int (s.binaryBelow + 2 ^ (i + 1)) = some (s.binaryBelow + 2 ^ (i + 1)) :=
      int_eq (by omega) (by omega)
    simp [countBelow, weight, hshift, hsum]

theorem base3Step_eq {bits : List Int} {i : Nat} {s : Base3} {d : Fin 3}
    (hd : bits[i]? = some ((d : Nat) : Int)) (hb : 0 ≤ s.base3)
    (hle : (s.base3 + 1) * 3 ≤ intMax) (hbelow : 0 ≤ s.binaryBelow)
    (hroom : s.hasZ = false → s.binaryBelow + 2 ^ (i + 1) ≤ intMax) :
    base3Step bits i s = some
      { binaryBelow := s.binaryBelow + if s.hasZ then 0 else weight i d
        hasZ := s.hasZ || decide (d = 2)
        base3 := s.base3 * 3 + (d : Nat) } := by
  have hlt := d.isLt
  have hmul : int (s.base3 * 3) = some (s.base3 * 3) := int_eq (by omega) (by omega)
  have hadd : int (s.base3 * 3 + ((d : Nat) : Int)) = some (s.base3 * 3 + (d : Nat)) :=
    int_eq (by omega) (by omega)
  cases hz : s.hasZ with
  | true => simp [base3Step, hd, hmul, hadd, hz]
  | false =>
    have hcount := countBelow_eq (s := { s with base3 := s.base3 * 3 + (d : Nat) }) d hz hbelow
      (hroom hz)
    rw [hz] at hcount
    simp [base3Step, hd, hmul, hadd, hz, hcount]

/-- What is added for the digits from `n` down is what is added for digit `n` and, unless it is the
first `2`, for those below. -/
theorem below_succ (v : Fin (n + 1) → Fin 3) :
    (below v : Int) = weight n (v (Fin.last n)) +
      if v (Fin.last n) = 2 then 0 else (below (Fin.init v) : Int) := by
  match hd : v (Fin.last n) with
  | 0 => simp [below, hd, weight]
  | 1 => simp [below, hd, weight]
  | 2 => simp [below, hd, weight]

theorem append_digit (b : Int) (v : Fin (n + 1) → Fin 3) :
    (b * 3 + (v (Fin.last n) : Nat)) * 3 ^ n + ternary (Fin.init v) =
      b * 3 ^ (n + 1) + ternary v := by
  rw [ternary_succ]
  push_cast
  ring

theorem append_room {b : Int} (hb : 0 ≤ b) (hle : (b + 1) * 3 ^ (n + 1) ≤ intMax) (d : Fin 3) :
    (b + 1) * 3 ≤ intMax ∧ (b * 3 + (d : Nat) + 1) * 3 ^ n ≤ intMax := by
  have hpow : (1 : Int) ≤ 3 ^ n := one_le_pow₀ (by decide)
  have hlt := d.isLt
  have hsplit : (b + 1) * 3 * 3 ^ n ≤ intMax := by
    calc (b + 1) * 3 * 3 ^ n = (b + 1) * 3 ^ (n + 1) := by ring
      _ ≤ intMax := hle
  constructor
  · calc (b + 1) * 3 ≤ (b + 1) * 3 * 3 ^ n := le_mul_of_one_le_right (by omega) hpow
      _ ≤ intMax := hsplit
  · calc (b * 3 + (d : Nat) + 1) * 3 ^ n ≤ (b + 1) * 3 * 3 ^ n :=
          mul_le_mul_of_nonneg_right (by omega) (by omega)
      _ ≤ intMax := hsplit

/-- The loop over `n` digits: it appends their ternary value, and it adds up the binary numbers below
unless a `2` came before. -/
theorem base3Loop_eq {bits : List Int} {v : Fin n → Fin 3} (hv : Reads bits v) {s : Base3}
    (hb : 0 ≤ s.base3) (hle : (s.base3 + 1) * 3 ^ n ≤ intMax) (hbelow : 0 ≤ s.binaryBelow)
    (hroom : s.hasZ = false → s.binaryBelow + 2 ^ n ≤ intMax) :
    base3Loop bits n s = some
      { binaryBelow := s.binaryBelow + if s.hasZ then 0 else (below v : Int)
        hasZ := s.hasZ || decide (HasTwo v)
        base3 := s.base3 * 3 ^ n + ternary v } := by
  induction n generalizing s with
  | zero =>
    have hno : ¬ HasTwo v := fun h => h.elim fun i _ => i.elim0
    simp [base3Loop, below, ternary, hno]
  | succ n ih =>
    obtain ⟨hthree, hnext⟩ := append_room hb hle (v (Fin.last n))
    have hweight : 0 ≤ weight n (v (Fin.last n)) := by
      unfold weight
      split <;> positivity
    rw [base3Loop, base3Step_eq hv.last hb hthree hbelow hroom, Option.bind_eq_bind,
      Option.bind_some, ih hv.init]
    · have hsum := below_succ v
      rw [append_digit]
      cases hz : s.hasZ with
      -- after a `2` nothing more is added
      | true => simp
      | false =>
        by_cases htwo : v (Fin.last n) = 2
        · have hhas : HasTwo v := (hasTwo_succ v).mpr (Or.inl htwo)
          rw [if_pos htwo] at hsum
          simp [htwo, hhas, hsum]
        · have hhas : HasTwo v ↔ HasTwo (Fin.init v) := by
            rw [hasTwo_succ]
            exact or_iff_right htwo
          rw [if_neg htwo] at hsum
          simp [htwo, hhas, hsum, add_assoc]
    · dsimp only
      omega
    · exact hnext
    · dsimp only
      split <;> omega
    -- the digits that are left have room above what was added for this one
    · intro hfree
      obtain ⟨hz, htwo⟩ : s.hasZ = false ∧ v (Fin.last n) ≠ 2 := by simpa using hfree
      have hroom := hroom hz
      have hdouble : (2 : Int) ^ (n + 1) = 2 ^ n + 2 ^ n := by ring
      have hone : weight n (v (Fin.last n)) ≤ 2 ^ n := by
        unfold weight
        split
        · positivity
        · exact le_refl _
        · rename_i h2
          exact absurd h2 htwo
      simp only [hz, Bool.false_eq_true, if_false]
      omega

theorem ternary_lt (v : Fin n → Fin 3) : ternary v < 3 ^ n := by
  have hlt := (finFunctionFinEquiv v).isLt
  rwa [finFunctionFinEquiv_apply] at hlt

theorem ternaryLoop_eq {bits : List Int} {v : Fin n → Fin 3} (hv : Reads bits v) {b : Int}
    (hb : 0 ≤ b) (hle : (b + 1) * 3 ^ n ≤ intMax) :
    ternaryLoop bits n b = some (b * 3 ^ n + ternary v) := by
  induction n generalizing b with
  | zero => simp [ternaryLoop, ternary]
  | succ n ih =>
    obtain ⟨hthree, hnext⟩ := append_room hb hle (v (Fin.last n))
    have hlt := (v (Fin.last n)).isLt
    have hmul : int (b * 3) = some (b * 3) := int_eq (by omega) (by omega)
    have hadd : int (b * 3 + ((v (Fin.last n) : Nat) : Int)) =
        some (b * 3 + (v (Fin.last n) : Nat)) := int_eq (by omega) (by omega)
    rw [ternaryLoop, hmul, hv.last]
    simp only [Option.bind_eq_bind, Option.bind_some]
    rw [hadd, Option.bind_some, ih hv.init (by omega) hnext, append_digit]

theorem le_nineteen (hn : (3 : Int) ^ n ≤ intMax) : n ≤ 19 := by
  by_contra hgt
  have hpow : (3 : Int) ^ 20 ≤ 3 ^ n := pow_le_pow_right₀ (by decide) (by omega)
  unfold intMax at hn
  omega

theorem ternaryFromBits_eq (hn : (3 : Int) ^ n ≤ intMax) (v : Fin n → Fin 3) :
    ternaryFromBits (digits v) n = some (ternary v : Int) := by
  rw [ternaryFromBits, ternaryLoop_eq (reads_digits v) (le_refl 0) (by omega)]
  simp

theorem binaryFirstBase3FromBits_eq (hn : (3 : Int) ^ n ≤ intMax) (v : Fin n → Fin 3) :
    binaryFirstBase3FromBits (digits v) n =
      some (if HasTwo v then (ternary v : Int) + 2 ^ n - below v else below v) := by
  have hle := le_nineteen hn
  have htwo : (2 : Int) ^ n ≤ 2 ^ 19 := pow_le_pow_right₀ (by decide) hle
  have hthree : (3 : Int) ^ n ≤ 3 ^ 19 := pow_le_pow_right₀ (by decide) hle
  have hmax : (2 : Int) ^ 19 + 3 ^ 19 ≤ intMax := by decide
  have hternary : (ternary v : Int) < 3 ^ n := by exact_mod_cast ternary_lt v
  have hbelow : (below v : Int) ≤ 2 ^ n := by exact_mod_cast below_le v
  rw [binaryFirstBase3FromBits, base3Loop_eq (reads_digits v) (le_refl 0)
    (by dsimp only; omega) (le_refl 0) (fun _ => by dsimp only; omega)]
  by_cases hv : HasTwo v
  · have hshift : shiftLeft 1 n = some (2 ^ n) := shiftLeft_one (by omega)
    have hsum : int ((ternary v : Int) + 2 ^ n) = some ((ternary v : Int) + 2 ^ n) :=
      int_eq (by positivity) (by omega)
    have hdiff : int ((ternary v : Int) + 2 ^ n - below v) =
        some ((ternary v : Int) + 2 ^ n - below v) := int_eq (by omega) (by omega)
    simp [hv, hshift, hsum, hdiff]
  · simp [hv]

end Straps

namespace Straps

open Lib Finset

variable {n : Nat}

/-! ## Counting -/

theorem card_snoc (P : (Fin (n + 1) → Fin 3) → Prop) [DecidablePred P] :
    #{w | P w} = #{w | P (Fin.snoc w 0)} + #{w | P (Fin.snoc w 1)} + #{w | P (Fin.snoc w 2)} := by
  simp only [card_filter]
  calc
    ∑ w, (if P w then 1 else 0)
        = ∑ x : Fin 3 × (Fin n → Fin 3), if P (Fin.snoc x.2 x.1) then 1 else 0 :=
          ((Fin.snocEquiv fun _ => Fin 3).sum_comp fun w => if P w then 1 else 0).symm
    _ = ∑ d, ∑ w, if P (Fin.snoc w d) then 1 else 0 := Fintype.sum_prod_type _
    _ = _ := Fin.sum_univ_three _

@[simp] theorem hasTwo_snoc (w : Fin n → Fin 3) (d : Fin 3) :
    HasTwo (Fin.snoc w d : Fin (n + 1) → Fin 3) ↔ d = 2 ∨ HasTwo w := by
  rw [hasTwo_succ, Fin.snoc_last, Fin.init_snoc]

@[simp] theorem ternary_snoc (w : Fin n → Fin 3) (d : Fin 3) :
    ternary (Fin.snoc w d : Fin (n + 1) → Fin 3) = ternary w + d * 3 ^ n := by
  rw [ternary_succ, Fin.snoc_last, Fin.init_snoc]

theorem ternary_snoc_lt (w : Fin n → Fin 3) (d : Fin 3) (v : Fin (n + 1) → Fin 3) :
    ternary w + d * 3 ^ n < ternary v ↔
      d < v (Fin.last n) ∨ d = v (Fin.last n) ∧ ternary w < ternary (Fin.init v) := by
  have hw := ternary_lt w
  have hv := ternary_lt (Fin.init v)
  rw [ternary_succ, Fin.lt_def, Fin.ext_iff]
  -- the other digits make less than one step of the most significant one
  rcases Nat.lt_trichotomy d (v (Fin.last n)) with hlt | heq | hgt
  · have hmul := Nat.mul_le_mul_right (3 ^ n) (Nat.succ_le_of_lt hlt)
    rw [Nat.succ_mul] at hmul
    omega
  · rw [heq]
    omega
  · have hmul := Nat.mul_le_mul_right (3 ^ n) (Nat.succ_le_of_lt hgt)
    rw [Nat.succ_mul] at hmul
    omega

theorem card_not_hasTwo (n : Nat) : #{w : Fin n → Fin 3 | ¬ HasTwo w} = 2 ^ n := by
  induction n with
  | zero => decide
  | succ n ih =>
    rw [card_snoc]
    simp [ih]
    ring

theorem rank_not_hasTwo (v : Fin n → Fin 3) : rank (fun w => ¬ HasTwo w) ternary v = below v := by
  induction n with
  | zero => simp [rank, below, ternary]
  | succ n ih =>
    have hinit := ih (Fin.init v)
    have hall := card_not_hasTwo n
    rw [rank] at hinit ⊢
    rw [card_snoc]
    simp only [hasTwo_snoc, ternary_snoc, ternary_snoc_lt]
    -- below a `1` are all vectors with a `0`, and below a `2` all that have no `2`
    match hd : v (Fin.last n) with
    | 0 => simp [below, hd, hinit]
    | 1 => simp [below, hd, hinit, hall]
    | 2 => simp [below, hd, hall]; ring

theorem card_ternary_lt (v : Fin n → Fin 3) :
    #{w : Fin n → Fin 3 | ternary w < ternary v} = ternary v := by
  have hval : ∀ w : Fin n → Fin 3, (finFunctionFinEquiv w : Nat) = ternary w :=
    finFunctionFinEquiv_apply
  calc
    #{w : Fin n → Fin 3 | ternary w < ternary v}
        = #{k : Fin (3 ^ n) | (k : Nat) < ternary v} := by
          refine card_equiv finFunctionFinEquiv fun w => ?_
          simp [hval]
    _ = min (3 ^ n) (ternary v) := Fin.card_filter_val_lt
    _ = ternary v := Nat.min_eq_right (Nat.le_of_lt (ternary_lt v))

theorem rank_hasTwo (v : Fin n → Fin 3) : rank HasTwo ternary v + below v = ternary v := by
  have hsplit := card_filter_add_card_filter_not (s := ({w | ternary w < ternary v} : Finset _))
    (HasTwo (n := n))
  rw [filter_filter, filter_filter, card_ternary_lt] at hsplit
  simp only [and_comm (a := ternary _ < _)] at hsplit
  rwa [← rank_not_hasTwo]

theorem ternary_injective : Function.Injective (ternary (n := n)) := by
  intro v w h
  apply finFunctionFinEquiv.injective
  apply Fin.ext
  rw [finFunctionFinEquiv_apply, finFunctionFinEquiv_apply]
  exact h

theorem binaryFirstBase3FromBits_place (hn : (3 : Int) ^ n ≤ intMax) (v : Fin n → Fin 3) :
    binaryFirstBase3FromBits (digits v) n = some (place HasTwo ternary v : Int) := by
  have hrank := rank_hasTwo v
  rw [binaryFirstBase3FromBits_eq hn, place, rank_not_hasTwo, card_not_hasTwo]
  split
  · congr 1
    push_cast
    omega
  · rfl

/-- `binary_first_base3_from_bits` maps the vectors of `nbits` digits one-to-one onto the numbers
below `3 ^ nbits`: those without a `2` to their binary value, the others from `2 ^ nbits` on in the
order of what `ternary_from_bits` returns. -/
theorem binaryFirstBase3FromBits_bijOn (nbits : Nat) (hn : (3 : Int) ^ nbits ≤ intMax) :
    ∃ f : (Fin nbits → Fin 3) → Nat,
      (∀ v, binaryFirstBase3FromBits (digits v) nbits = some (f v : Int)) ∧
      Set.BijOn f Set.univ (Set.Iio (3 ^ nbits)) ∧
      (∀ v : Fin nbits → Fin 3, ¬ HasTwo v → f v = binary v ∧ f v < 2 ^ nbits) ∧
      (∀ v : Fin nbits → Fin 3, HasTwo v →
        f v = 2 ^ nbits + #{w : Fin nbits → Fin 3 | HasTwo w ∧ ternary w < ternary v}) ∧
      ∀ v : Fin nbits → Fin 3, ternaryFromBits (digits v) nbits = some (ternary v : Int) := by
  have hcard : Fintype.card (Fin nbits → Fin 3) = 3 ^ nbits := by
    rw [Fintype.card_fun, Fintype.card_fin, Fintype.card_fin]
  refine ⟨place HasTwo ternary, binaryFirstBase3FromBits_place hn, ?_, fun v hv => ⟨?_, ?_⟩,
    fun v hv => ?_, ternaryFromBits_eq hn⟩
  · rw [← hcard]
    exact place_bijOn ternary_injective
  · rw [place, if_neg hv, rank_not_hasTwo, below_eq_binary hv]
  · rw [← card_not_hasTwo]
    exact place_of_not _ hv
  · rw [place, if_pos hv, card_not_hasTwo, rank]

theorem binaryFirstBase3FromBits_bijOn_two :
    ∃ f : (Fin 2 → Fin 3) → Nat,
      (∀ v, binaryFirstBase3FromBits (digits v) 2 = some (f v : Int)) ∧
      Set.BijOn f Set.univ (Set.Iio (3 ^ 2)) ∧
      (∀ v : Fin 2 → Fin 3, ¬ HasTwo v → f v = binary v ∧ f v < 2 ^ 2) ∧
      (∀ v : Fin 2 → Fin 3, HasTwo v →
        f v = 2 ^ 2 + #{w : Fin 2 → Fin 3 | HasTwo w ∧ ternary w < ternary v}) ∧
      ∀ v : Fin 2 → Fin 3, ternaryFromBits (digits v) 2 = some (ternary v : Int) :=
  binaryFirstBase3FromBits_bijOn 2 (by decide)

end ChromiumEc.Straps
