import Mathlib.Data.List.Basic
import ChromiumEc.Lib.Forest

/-!
# Machine — the hierarchical state machine framework

`usb_sm.c`.  The entry, run and exit functions of the states are not part of the framework: what they
do next, another call of `set_state` or the return, is asked of a program that knows everything that
has happened so far.  They may call for ever, so the functions have fuel, and a result may be cut off.

Whatever the states' functions do, states are entered and exited like brackets along the chains of the
forest.  At each call of `set_state` the states that are entered are the chain of the state that it
takes for the last one: the current state, or the one whose entry function is running.
-/

namespace ChromiumEc.Usbc.Sm

variable {σ : Type*}

inductive Who (σ : Type*)
  | entry (s : σ)
  | run (s : σ)
  | exit (s : σ)
  deriving DecidableEq, Repr

/-- A call of `set_state` that is not ignored: the state that it leaves and the one that it goes to. -/
structure Call (σ : Type*) where
  source : Option σ
  target : Option σ
  deriving DecidableEq, Repr

inductive Event (σ : Type*)
  /-- `set_state` is called -/
  | setState (target : Option σ)
  /-- a call of `set_state` that was not ignored returns, with the current state -/
  | returned (current : Option σ)
  /-- the entry function of a state is called, or a state without one is passed on the way in -/
  | enter (s : σ) (call : Call σ)
  /-- the same for the run function -/
  | run (s : σ)
  /-- the same for the exit function -/
  | exit (s : σ) (call : Call σ)
  deriving DecidableEq, Repr

/-- What a function does next: it calls `set_state`, or it returns. -/
abbrev Program (σ : Type*) := Who σ → List (Event σ) → Option (Option σ)

/-- `struct sm_ctx` with `struct internal_ctx`, and what has happened so far, newest first. -/
structure Machine (σ : Type*) where
  current : Option σ
  previous : Option σ
  lastEntered : Option σ
  running : Bool
  enter : Bool
  exit : Bool
  trace : List (Event σ)
  deriving DecidableEq

def Machine.boot : Machine σ where
  current := none
  previous := none
  lastEntered := none
  running := false
  enter := false
  exit := false
  trace := []

def Machine.log (e : Event σ) (m : Machine σ) : Machine σ :=
  { m with trace := e :: m.trace }

/-- The machine when a function has returned, or when the fuel was used up. -/
structure Result (σ : Type*) where
  finished : Bool
  machine : Machine σ
  deriving DecidableEq

def Result.done (m : Machine σ) : Result σ :=
  ⟨true, m⟩

def Result.cut (m : Machine σ) : Result σ :=
  ⟨false, m⟩

def Result.andThen (r : Result σ) (f : Machine σ → Result σ) : Result σ :=
  if r.finished then f r.machine else r

section

variable [DecidableEq σ] (F : Lib.Forest σ)

/-- The loop of `shared_parent_state`: `b` runs through its chain for each node of the chain of `a`.
The number bounds the rounds. -/
def sharedParentLoop (origB : σ) : Nat → Option σ → σ → Option σ
  | 0, _, _ => none
  | _ + 1, none, _ => none
  | n + 1, some a, b =>
    if a = b then some a
    else
      match F.parent b with
      | none => sharedParentLoop origB n (F.parent a) origB
      | some p => sharedParentLoop origB n (some a) p

def sharedParentState (a b : Option σ) : Option σ :=
  match b with
  | none => none
  | some b => sharedParentLoop F b (F.height a * F.height (some b)) a b

/-! ## Transitions -/

variable (prog : Program σ)

mutual

def body : Nat → Who σ → Machine σ → Result σ
  | 0, _, m => .cut m
  | fuel + 1, w, m =>
    match prog w m.trace with
    | none => .done m
    | some target => (setState fuel target m).andThen fun m => body fuel w m

/-- `call_entry_functions`.  The way to the root passes `stop`, so it does not end before. -/
def callEntryFunctions : Nat → Call σ → Option σ → Option σ → Machine σ → Result σ
  | 0, _, _, _, m => .cut m
  | fuel + 1, call, stop, current, m =>
    if current = stop then .done m
    else
      match current with
      | none => .cut m
      | some s =>
        (callEntryFunctions fuel call stop (F.parent s) m).andThen fun m =>
          if !m.enter then .done m
          else body fuel (.entry s) ({ m with lastEntered := some s }.log (.enter s call))

def callExitFunctions : Nat → Call σ → Option σ → Option σ → Machine σ → Result σ
  | 0, _, _, _, m => .cut m
  | fuel + 1, call, stop, current, m =>
    if current = stop then .done m
    else
      match current with
      | none => .cut m
      | some s =>
        (body fuel (.exit s) (m.log (.exit s call))).andThen fun m =>
          callExitFunctions fuel call stop (F.parent s) m

def setState : Nat → Option σ → Machine σ → Result σ
  | 0, _, m => .cut m
  | fuel + 1, newState, m =>
    let m := m.log (.setState newState)
    if m.exit then .done m
    else
      let lastState := if m.enter then m.lastEntered else m.current
      let sharedParent := sharedParentState F lastState newState
      let call := ⟨lastState, newState⟩
      (callExitFunctions fuel call sharedParent lastState { m with exit := true }).andThen fun m =>
        let m :=
          { m with
            exit := false
            previous := m.current
            current := newState
            lastEntered := none
            enter := true }
        (callEntryFunctions fuel call sharedParent newState m).andThen fun m =>
          .done ({ m with enter := false, running := false }.log (.returned m.current))

end

def callRunFunctions : Nat → Option σ → Machine σ → Result σ
  | 0, _, m => .cut m
  | _ + 1, none, m => .done m
  | fuel + 1, some s, m =>
    if !m.running then .done m
    else
      (body F prog fuel (.run s) (m.log (.run s))).andThen fun m =>
        callRunFunctions fuel (F.parent s) m

def runState (fuel : Nat) (m : Machine σ) : Result σ :=
  (callRunFunctions F prog fuel m.current { m with running := true }).andThen fun m =>
    .done { m with running := false }

inductive Op (σ : Type*)
  | setState (target : Option σ)
  | runState
  deriving DecidableEq, Repr

def doOp (fuel : Nat) : Op σ → Machine σ → Result σ
  | .setState target, m => setState F prog fuel target m
  | .runState, m => runState F prog fuel m

def doOps (fuel : Nat) : List (Op σ) → Machine σ → Result σ
  | [], m => .done m
  | op :: ops, m => (doOp F prog fuel op m).andThen (doOps fuel ops)

end

end Sm

namespace Sm

variable {σ : Type*} [DecidableEq σ] (F : Lib.Forest σ)

/-! ## The shared parent -/

/-- With enough rounds the loop looks for each node of the chain of `a` in the rest of the chain of
`b`. -/
theorem sharedParentLoop_eq (origB : σ) {n : Nat} {a b : σ}
    (hn : F.height (F.parent a) * F.height (some origB) + F.height (some b) ≤ n) :
    sharedParentLoop F origB n (some a) b =
      if a ∈ F.chain (some b) then some a
      else (F.chain (F.parent a)).find? (· ∈ F.chain (some origB)) := by
  have hb := F.height_parent b
  induction n generalizing a b with
  | zero => omega
  | succ n ih =>
    rw [sharedParentLoop]
    by_cases hab : a = b
    · subst hab
      rw [if_pos rfl, if_pos (F.mem_chain_self a)]
    rw [if_neg hab]
    have hmem : a ∈ F.chain (some b) ↔ a ∈ F.chain (F.parent b) := by
      rw [F.chain_some b, List.mem_cons]
      exact or_iff_right hab
    cases hparent : F.parent b with
    | some p =>
      rw [hparent] at hb hmem
      simp only [hmem]
      exact ih (by omega) (F.height_parent p)
    | none =>
      have hno : a ∉ F.chain (some b) := by
        rw [hmem, hparent, F.chain_none]
        exact List.not_mem_nil
      rw [if_neg hno]
      simp only
      cases hpa : F.parent a with
      | none => cases n <;> simp [sharedParentLoop]
      | some p =>
        have hp := F.height_parent p
        rw [hpa] at hn
        -- the round of `p` starts with the whole chain of `b`
        have hround : F.height (F.parent p) * F.height (some origB) +
            F.height (some origB) ≤ n := by
          have hmul := Nat.mul_le_mul_right (F.height (some origB)) (Nat.succ_le_of_lt hp)
          rw [Nat.succ_mul] at hmul
          omega
        rw [ih hround (F.height_parent origB), F.chain_some p, List.find?_cons]
        by_cases hfound : p ∈ F.chain (some origB)
        · simp [hfound]
        · simp [hfound]

theorem sharedParentState_eq (a b : Option σ) :
    sharedParentState F a b = (F.chain a).find? (· ∈ F.chain b) := by
  cases b with
  | none => exact (List.find?_eq_none.mpr fun s _ => by simp).symm
  | some b =>
    rw [sharedParentState]
    cases a with
    | none =>
      have hheight : F.height (none : Option σ) = 0 := rfl
      rw [hheight, Nat.zero_mul]
      simp [sharedParentLoop]
    | some a =>
      have hmul := Nat.mul_le_mul_right (F.height (some b))
        (Nat.succ_le_of_lt (F.height_parent a))
      rw [Nat.succ_mul] at hmul
      rw [sharedParentLoop_eq F b hmul, F.chain_some a, List.find?_cons]
      by_cases ha : a ∈ F.chain (some b)
      · simp [ha]
      · simp [ha]

theorem mem_chain_sharedParentState {a b : Option σ} {s : σ} :
    s ∈ F.chain (sharedParentState F a b) ↔ s ∈ F.chain a ∧ s ∈ F.chain b := by
  rw [sharedParentState_eq]
  constructor
  · intro hs
    cases hfound : (F.chain a).find? (· ∈ F.chain b) with
    | none =>
      rw [hfound, F.chain_none] at hs
      exact absurd hs List.not_mem_nil
    | some x =>
      rw [hfound] at hs
      have ha := List.mem_of_find?_eq_some hfound
      have hb : x ∈ F.chain b := by
        simpa using List.find?_some hfound
      exact ⟨(F.chain_suffix ha).subset hs, (F.chain_suffix hb).subset hs⟩
  · rintro ⟨ha, hb⟩
    cases hfound : (F.chain a).find? (· ∈ F.chain b) with
    | none =>
      have hnone := List.find?_eq_none.mp hfound s ha
      exact absurd hb (by simpa using hnone)
    | some x =>
      obtain ⟨-, before, after, hsplit, hbefore⟩ := List.find?_eq_some_iff_append.mp hfound
      have hsuffix : x :: after <:+ F.chain a := ⟨before, hsplit.symm⟩
      rw [← F.chain_of_suffix hsuffix]
      rw [hsplit, List.mem_append] at ha
      rcases ha with ha | ha
      · have hno := hbefore s ha
        exact absurd hb (by simpa using hno)
      · exact ha

theorem chain_sharedParentState_suffix (a b : Option σ) :
    F.chain (sharedParentState F a b) <:+ F.chain a ∧
      F.chain (sharedParentState F a b) <:+ F.chain b := by
  cases hshared : sharedParentState F a b with
  | none =>
    rw [F.chain_none]
    exact ⟨List.nil_suffix, List.nil_suffix⟩
  | some x =>
    have hx : x ∈ F.chain (sharedParentState F a b) := by
      rw [hshared]
      exact F.mem_chain_self x
    obtain ⟨ha, hb⟩ := (mem_chain_sharedParentState F).mp hx
    exact ⟨F.chain_suffix ha, F.chain_suffix hb⟩

/-! ## Balanced traces -/

/-- The states that are entered and not exited, newest first. -/
def entered : List (Event σ) → List σ
  | [] => []
  | .enter s _ :: es => s :: entered es
  | .exit s _ :: es => (entered es).erase s
  | _ :: es => entered es

/-- A trace in which
* no state is entered that is entered already, and a state is entered after its ancestors,
* a state is exited that is entered, and before its ancestors,
* a call of `set_state` enters only states on the way to its target, exits only states on the way from
  its source, and leaves their common ancestors alone,
* when a call of `set_state` returns, the states that are entered are the current state and its
  ancestors. -/
def Balanced : List (Event σ) → Prop
  | [] => True
  | .enter s call :: es =>
    Balanced es ∧ s ∉ entered es ∧ (∀ a ∈ F.chain (F.parent s), a ∈ entered es) ∧
      s ∈ F.chain call.target ∧ s ∉ F.chain call.source
  | .exit s call :: es =>
    Balanced es ∧ s ∈ entered es ∧ (∀ d ∈ entered es, s ∉ F.chain (F.parent d)) ∧
      s ∈ F.chain call.source ∧ s ∉ F.chain call.target
  | .returned current :: es => Balanced es ∧ entered es = F.chain current
  | _ :: es => Balanced es

/-- The trace is balanced, and the states that are entered are a node and its ancestors. -/
structure At (m : Machine σ) (p : Option σ) : Prop where
  balanced : Balanced F m.trace
  entered : entered m.trace = F.chain p

section

variable {F} {m m' : Machine σ} {s : σ} {call : Call σ}

theorem At.enter (h : At F m (F.parent s)) (htarget : s ∈ F.chain call.target)
    (hsource : s ∉ F.chain call.source) : At F (m.log (.enter s call)) (some s) := by
  have hself := F.not_mem_chain_parent (F.mem_chain_self s)
  constructor
  · refine ⟨h.balanced, ?_, ?_, htarget, hsource⟩
    · rw [h.entered]
      exact hself
    · rw [h.entered]
      exact fun _ ha => ha
  · rw [F.chain_some, ← h.entered]
    rfl

theorem At.exit (h : At F m (some s)) (hsource : s ∈ F.chain call.source)
    (htarget : s ∉ F.chain call.target) : At F (m.log (.exit s call)) (F.parent s) := by
  have hentered := h.entered
  constructor
  · refine ⟨h.balanced, ?_, ?_, hsource, htarget⟩
    · rw [hentered]
      exact F.mem_chain_self s
    · rw [hentered]
      intro d hd
      exact F.not_mem_chain_parent hd
  · rw [F.chain_some] at hentered
    change (Sm.entered m.trace).erase s = F.chain (F.parent s)
    rw [hentered, List.erase_cons_head]

end

/-! ## What the functions of the framework keep -/

/-- The trace is balanced in any case, and what is meant to hold holds if the function returns. -/
structure Good (P : Machine σ → Prop) (r : Result σ) : Prop where
  balanced : Balanced F r.machine.trace
  returned : r.finished = true → P r.machine

/-- The state that `set_state` takes for the last one. -/
def lastState (m : Machine σ) : Option σ :=
  if m.enter then m.lastEntered else m.current

/-- `set_state` can be called: no exit function is running, and the last state and its ancestors are
entered. -/
structure Ready (m : Machine σ) : Prop where
  exit : m.exit = false
  at_ : At F m (lastState m)

structure Silent (m m' : Machine σ) : Prop where
  same : m' = { m with trace := m'.trace }
  balanced : Balanced F m'.trace
  entered : entered m'.trace = entered m.trace

/-- If the target is still being entered, then nothing has changed since. -/
def Undisturbed (m m' : Machine σ) : Prop :=
  m'.enter = true → m.enter = true ∧ m'.lastEntered = m.lastEntered ∧ m'.current = m.current

section

variable {F} {m m' : Machine σ} {P Q : Machine σ → Prop} {r : Result σ} {p : Option σ}

theorem Good.done (hbalanced : Balanced F m.trace) (h : P m) : Good F P (.done m) :=
  ⟨hbalanced, fun _ => h⟩

theorem Good.cut (hbalanced : Balanced F m.trace) : Good F P (.cut m) :=
  ⟨hbalanced, fun h => absurd h (by simp [Result.cut])⟩

theorem Good.andThen (h : Good F P r) {f : Machine σ → Result σ}
    (hf : ∀ m, Balanced F m.trace → P m → Good F Q (f m)) : Good F Q (r.andThen f) := by
  unfold Result.andThen
  cases hfinished : r.finished with
  | true =>
    rw [if_pos rfl]
    exact hf _ h.balanced (h.returned hfinished)
  | false =>
    rw [if_neg (by simp)]
    exact ⟨h.balanced, fun hr => absurd (hfinished.symm.trans hr) (by simp)⟩

theorem Good.mono (h : Good F P r) (hPQ : ∀ m, P m → Q m) : Good F Q r :=
  ⟨h.balanced, fun hr => hPQ _ (h.returned hr)⟩

theorem At.log (h : At F m p) {e : Event σ} (hbalanced : Balanced F (e :: m.trace))
    (hentered : Sm.entered (e :: m.trace) = Sm.entered m.trace) : At F (m.log e) p :=
  ⟨hbalanced, hentered.trans h.entered⟩

theorem At.congr (h : At F m p) (htrace : m'.trace = m.trace) : At F m' p :=
  ⟨htrace ▸ h.balanced, htrace ▸ h.entered⟩

theorem Silent.refl (h : Balanced F m.trace) : Silent F m m :=
  ⟨rfl, h, rfl⟩

theorem Silent.trans {m'' : Machine σ} (h : Silent F m m') (h' : Silent F m' m'') :
    Silent F m m'' := by
  refine ⟨?_, h'.balanced, h'.entered.trans h.entered⟩
  rw [h'.same, h.same]

theorem Silent.at (h : Silent F m m') (hm : At F m p) : At F m' p :=
  ⟨h.balanced, h.entered.trans hm.entered⟩

theorem Silent.exit (h : Silent F m m') : m'.exit = m.exit := by
  rw [h.same]

end

structure Keeps (prog : Program σ) (fuel : Nat) : Prop where
  /-- an entry or run function may change the state -/
  body : ∀ w m, Ready F m → Good F (fun m' => Ready F m' ∧ Undisturbed m m') (body F prog fuel w m)
  /-- an exit function may not -/
  ignored : ∀ w m, m.exit = true → Balanced F m.trace →
    Good F (Silent F m) (Sm.body F prog fuel w m)
  setState : ∀ target m, Ready F m →
    Good F (fun m' => Ready F m' ∧ m'.enter = false) (setState F prog fuel target m)
  ignoredState : ∀ target m, m.exit = true → Balanced F m.trace →
    Good F (Silent F m) (Sm.setState F prog fuel target m)
  exits : ∀ (call : Call σ) stop current m, m.exit = true → At F m current →
    F.chain stop <:+ F.chain current →
    (∀ s ∈ F.chain current, s ∉ F.chain stop → s ∈ F.chain call.source ∧ s ∉ F.chain call.target) →
    Good F (fun m' => m' = { m with trace := m'.trace } ∧ At F m' stop)
      (callExitFunctions F prog fuel call stop current m)
  enters : ∀ (call : Call σ) stop current m, m.exit = false → m.enter = true → At F m stop →
    F.chain stop <:+ F.chain current →
    (∀ s ∈ F.chain current, s ∉ F.chain stop → s ∈ F.chain call.target ∧ s ∉ F.chain call.source) →
    Good F (fun m' => m'.exit = false ∧
        if m'.enter then At F m' current ∧ m'.current = m.current else At F m' m'.current)
      (callEntryFunctions F prog fuel call stop current m)

section

variable {F} {prog : Program σ} {fuel : Nat} {m : Machine σ}

theorem keeps_zero : Keeps F prog 0 where
  body w m h := by
    rw [Sm.body]
    exact .cut h.at_.balanced
  ignored w m _ h := by
    rw [Sm.body]
    exact .cut h
  setState target m h := by
    rw [Sm.setState]
    exact .cut h.at_.balanced
  ignoredState target m _ h := by
    rw [Sm.setState]
    exact .cut h
  exits call stop current m _ h _ _ := by
    rw [callExitFunctions]
    exact .cut h.balanced
  enters call stop current m _ _ h _ _ := by
    rw [callEntryFunctions]
    exact .cut h.balanced

theorem Keeps.body_succ (h : Keeps F prog fuel) (w : Who σ) (hm : Ready F m) :
    Good F (fun m' => Ready F m' ∧ Undisturbed m m') (Sm.body F prog (fuel + 1) w m) := by
  rw [Sm.body]
  split
  · exact .done hm.at_.balanced ⟨hm, fun henter => ⟨henter, rfl, rfl⟩⟩
  · rename_i target _
    apply (h.setState target m hm).andThen
    rintro m' - ⟨hready, henter⟩
    apply (h.body w m' hready).mono
    rintro m'' ⟨hready', hsame⟩
    refine ⟨hready', fun henter' => ?_⟩
    have hbefore := (hsame henter').1
    rw [henter] at hbefore
    exact absurd hbefore (by simp)

theorem Keeps.ignored_succ (h : Keeps F prog fuel) (w : Who σ) (hexit : m.exit = true)
    (hm : Balanced F m.trace) : Good F (Silent F m) (Sm.body F prog (fuel + 1) w m) := by
  rw [Sm.body]
  split
  · exact .done hm (.refl hm)
  · rename_i target _
    apply (h.ignoredState target m hexit hm).andThen
    intro m' hbalanced hsilent
    apply (h.ignored w m' (hsilent.exit.trans hexit) hbalanced).mono
    intro m'' hsilent'
    exact hsilent.trans hsilent'

theorem Keeps.exits_succ (h : Keeps F prog fuel) {call : Call σ} {stop current : Option σ}
    (hexit : m.exit = true) (hm : At F m current) (hstop : F.chain stop <:+ F.chain current)
    (hcall : ∀ s ∈ F.chain current, s ∉ F.chain stop →
      s ∈ F.chain call.source ∧ s ∉ F.chain call.target) :
    Good F (fun m' => m' = { m with trace := m'.trace } ∧ At F m' stop)
      (callExitFunctions F prog (fuel + 1) call stop current m) := by
  unfold callExitFunctions
  by_cases hend : current = stop
  · rw [if_pos hend]
    exact .done hm.balanced ⟨rfl, hend ▸ hm⟩
  rw [if_neg hend]
  cases current with
  | none => exact .cut hm.balanced
  | some s =>
    have hbelow := F.suffix_parent hstop hend
    have hs : s ∉ F.chain stop :=
      fun hs => F.not_mem_chain_parent (F.mem_chain_self s) (hbelow.subset hs)
    obtain ⟨hsource, htarget⟩ := hcall s (F.mem_chain_self s) hs
    have hexited := hm.exit hsource htarget
    -- the exit function changes nothing, and the parent is next
    apply (h.ignored (.exit s) (m.log (.exit s call)) hexit hexited.balanced).andThen
    intro m' _ hsilent
    have hparent : ∀ a ∈ F.chain (F.parent s), a ∉ F.chain stop →
        a ∈ F.chain call.source ∧ a ∉ F.chain call.target := by
      intro a ha
      apply hcall a
      rw [F.chain_some]
      exact List.mem_cons_of_mem _ ha
    apply (h.exits call stop (F.parent s) m' (hsilent.exit.trans hexit) (hsilent.at hexited)
      hbelow hparent).mono
    rintro m'' ⟨hsame, hat⟩
    refine ⟨?_, hat⟩
    rw [hsame, hsilent.same]
    rfl

theorem Keeps.enters_succ (h : Keeps F prog fuel) {call : Call σ} {stop current : Option σ}
    (hexit : m.exit = false) (henter : m.enter = true) (hm : At F m stop)
    (hstop : F.chain stop <:+ F.chain current)
    (hcall : ∀ s ∈ F.chain current, s ∉ F.chain stop →
      s ∈ F.chain call.target ∧ s ∉ F.chain call.source) :
    Good F (fun m' => m'.exit = false ∧
        if m'.enter then At F m' current ∧ m'.current = m.current else At F m' m'.current)
      (callEntryFunctions F prog (fuel + 1) call stop current m) := by
  unfold callEntryFunctions
  by_cases hend : current = stop
  · rw [if_pos hend]
    refine .done hm.balanced ⟨hexit, ?_⟩
    rw [if_pos henter]
    exact ⟨hend ▸ hm, rfl⟩
  rw [if_neg hend]
  cases current with
  | none => exact .cut hm.balanced
  | some s =>
    have hbelow := F.suffix_parent hstop hend
    have hs : s ∉ F.chain stop :=
      fun hs => F.not_mem_chain_parent (F.mem_chain_self s) (hbelow.subset hs)
    obtain ⟨htarget, hsource⟩ := hcall s (F.mem_chain_self s) hs
    have hparent : ∀ a ∈ F.chain (F.parent s), a ∉ F.chain stop →
        a ∈ F.chain call.target ∧ a ∉ F.chain call.source := by
      intro a ha
      apply hcall a
      rw [F.chain_some]
      exact List.mem_cons_of_mem _ ha
    apply (h.enters call stop (F.parent s) m hexit henter hm hbelow hparent).andThen
    rintro m' hbalanced ⟨hexit', hafter⟩
    by_cases henter' : m'.enter = true
    · rw [if_pos henter'] at hafter
      obtain ⟨hat, hcurrent⟩ := hafter
      rw [if_neg (by simp [henter'])]
      have hentered : At F (Machine.log (.enter s call) { m' with lastEntered := some s })
          (some s) := At.enter (m := { m' with lastEntered := some s }) (hat.congr rfl) htarget
        hsource
      have hlast : lastState (Machine.log (.enter s call) { m' with lastEntered := some s }) =
          some s := if_pos henter'
      have hready : Ready F (Machine.log (.enter s call) { m' with lastEntered := some s }) :=
        ⟨hexit', hlast.symm ▸ hentered⟩
      apply (h.body (.entry s) _ hready).mono
      rintro m'' ⟨hready', hsame⟩
      refine ⟨hready'.exit, ?_⟩
      have hat' := hready'.at_
      by_cases henter'' : m''.enter = true
      · obtain ⟨-, hlast', hcurrent'⟩ := hsame henter''
        rw [if_pos henter'']
        rw [lastState, if_pos henter'', hlast'] at hat'
        exact ⟨hat', hcurrent'.trans hcurrent⟩
      · rw [if_neg henter'']
        rw [lastState, if_neg henter''] at hat'
        exact hat'
    · -- an entry function has changed the state, so the rest is skipped
      rw [if_neg henter'] at hafter
      rw [if_pos (by simp [henter'])]
      refine .done hbalanced ⟨hexit', ?_⟩
      rw [if_neg henter']
      exact hafter

theorem Keeps.setState_succ (h : Keeps F prog fuel) (target : Option σ) (hm : Ready F m) :
    Good F (fun m' => Ready F m' ∧ m'.enter = false)
      (Sm.setState F prog (fuel + 1) target m) := by
  have hcalled : At F (m.log (.setState target)) (lastState m) := hm.at_.log hm.at_.balanced rfl
  obtain ⟨hsource, htarget⟩ := chain_sharedParentState_suffix F (lastState m) target
  have hcommon {s : σ} (hs : s ∉ F.chain (sharedParentState F (lastState m) target)) :
      ¬ (s ∈ F.chain (lastState m) ∧ s ∈ F.chain target) :=
    fun hboth => hs ((mem_chain_sharedParentState F).mpr hboth)
  rw [Sm.setState]
  have hexit : ¬ (m.log (.setState target)).exit = true := by
    simp [Machine.log, hm.exit]
  simp only [if_neg hexit]
  change Good F _ ((callExitFunctions F prog fuel ⟨lastState m, target⟩
    (sharedParentState F (lastState m) target) (lastState m)
    { m.log (.setState target) with exit := true }).andThen _)
  apply (h.exits ⟨lastState m, target⟩ _ (lastState m) { m.log (.setState target) with exit := true }
    rfl (hcalled.congr rfl) hsource fun s hs hno => ⟨hs, fun ht => hcommon hno ⟨hs, ht⟩⟩).andThen
  rintro m₁ - ⟨-, hexited⟩
  -- now the common ancestors are entered, and the way to the target is next
  apply (h.enters ⟨lastState m, target⟩ (sharedParentState F (lastState m) target) target
    { m₁ with
      exit := false, previous := m₁.current, current := target, lastEntered := none, enter := true }
    rfl rfl (hexited.congr rfl) htarget
    fun s hs hno => ⟨hs, fun hl => hcommon hno ⟨hl, hs⟩⟩).andThen
  rintro m₂ hbalanced ⟨hexit₂, hafter⟩
  have hat : At F m₂ m₂.current := by
    by_cases henter : m₂.enter = true
    · rw [if_pos henter] at hafter
      obtain ⟨hat, hcurrent⟩ := hafter
      rw [hcurrent]
      exact hat
    · rw [if_neg henter] at hafter
      exact hafter
  have hreturned : Balanced F (.returned m₂.current :: m₂.trace) := ⟨hbalanced, hat.entered⟩
  exact .done hreturned ⟨⟨hexit₂, hreturned, hat.entered⟩, rfl⟩

theorem Keeps.ignoredState_succ (target : Option σ) (hexit : m.exit = true)
    (hm : Balanced F m.trace) : Good F (Silent F m) (Sm.setState F prog (fuel + 1) target m) := by
  rw [Sm.setState]
  have hexit' : (m.log (.setState target)).exit = true := hexit
  simp only [if_pos hexit']
  exact .done hm ⟨rfl, hm, rfl⟩

theorem keeps (F : Lib.Forest σ) (prog : Program σ) (fuel : Nat) : Keeps F prog fuel := by
  induction fuel with
  | zero => exact keeps_zero
  | succ fuel ih =>
    exact
      { body := fun w _ hm => ih.body_succ w hm
        ignored := fun w _ hexit hm => ih.ignored_succ w hexit hm
        setState := fun target _ hm => ih.setState_succ target hm
        ignoredState := fun target _ hexit hm => Keeps.ignoredState_succ target hexit hm
        exits := fun _ _ _ _ hexit hm hstop hcall => ih.exits_succ hexit hm hstop hcall
        enters := fun _ _ _ _ hexit henter hm hstop hcall =>
          ih.enters_succ hexit henter hm hstop hcall }

/-! ## Runs -/

/-- Between two calls from outside the current state and its ancestors are entered. -/
structure Settled (F : Lib.Forest σ) (m : Machine σ) : Prop where
  exit : m.exit = false
  enter : m.enter = false
  at_ : At F m m.current

theorem Settled.ready (h : Settled F m) : Ready F m := by
  refine ⟨h.exit, ?_⟩
  rw [lastState, if_neg (by simp [h.enter])]
  exact h.at_

theorem Ready.settled (h : Ready F m) (henter : m.enter = false) : Settled F m := by
  have hat := h.at_
  rw [lastState, if_neg (by simp [henter])] at hat
  exact ⟨h.exit, henter, hat⟩

theorem good_callRunFunctions (prog : Program σ) (fuel : Nat) (current : Option σ)
    (hm : Settled F m) : Good F (Settled F) (callRunFunctions F prog fuel current m) := by
  induction fuel generalizing current m with
  | zero =>
    rw [callRunFunctions]
    exact .cut hm.at_.balanced
  | succ fuel ih =>
    cases current with
    | none =>
      rw [callRunFunctions]
      exact .done hm.at_.balanced hm
    | some s =>
      rw [callRunFunctions]
      split
      · exact .done hm.at_.balanced hm
      · have hrun : Settled F (m.log (.run s)) :=
          ⟨hm.exit, hm.enter, hm.at_.log hm.at_.balanced rfl⟩
        apply ((keeps F prog fuel).body (.run s) _ hrun.ready).andThen
        rintro m' - ⟨hready, hsame⟩
        apply ih
        apply hready.settled
        by_contra henter
        have hbefore := (hsame (by simpa using henter)).1
        rw [hrun.enter] at hbefore
        exact absurd hbefore (by simp)

theorem good_doOp (prog : Program σ) (fuel : Nat) (op : Op σ) (hm : Settled F m) :
    Good F (Settled F) (doOp F prog fuel op m) := by
  cases op with
  | setState target =>
    apply ((keeps F prog fuel).setState target m hm.ready).mono
    rintro m' ⟨hready, henter⟩
    exact hready.settled henter
  | runState =>
    rw [doOp, runState]
    have hrunning : Settled F { m with running := true } := ⟨hm.exit, hm.enter, hm.at_.congr rfl⟩
    apply (good_callRunFunctions prog fuel m.current hrunning).andThen
    intro m' hbalanced hm'
    exact .done hbalanced ⟨hm'.exit, hm'.enter, hm'.at_.congr rfl⟩

theorem good_doOps (prog : Program σ) (fuel : Nat) (ops : List (Op σ)) (hm : Settled F m) :
    Good F (Settled F) (doOps F prog fuel ops m) := by
  induction ops generalizing m with
  | nil => exact .done hm.at_.balanced hm
  | cons op ops ih =>
    rw [doOps]
    exact (good_doOp prog fuel op hm).andThen fun _ _ hm' => ih hm'

theorem settled_boot (F : Lib.Forest σ) : Settled F (.boot : Machine σ) where
  exit := rfl
  enter := rfl
  at_ := ⟨trivial, (F.chain_none).symm⟩

/-- Any sequence of calls of `set_state` and `run_state`, with any behaviour of the states' functions,
gives a balanced trace, also where it is cut off; and when the calls have returned, the states that
are entered are the current state and its ancestors. -/
theorem doOps_balanced (F : Lib.Forest σ) (prog : Program σ) (fuel : Nat) (ops : List (Op σ)) :
    Balanced F (doOps F prog fuel ops .boot).machine.trace ∧
      ((doOps F prog fuel ops .boot).finished = true →
        entered (doOps F prog fuel ops .boot).machine.trace =
          F.chain (doOps F prog fuel ops .boot).machine.current) :=
  have hgood := good_doOps prog fuel ops (settled_boot F)
  ⟨hgood.balanced, fun hr => (hgood.returned hr).at_.entered⟩

end

inductive Demo
  | base
  | wait
  | work
  deriving DecidableEq, Repr

def demoForest : Lib.Forest Demo where
  parent
    | .base => none
    | _ => some .base
  depth
    | .base => 0
    | _ => 1
  depth_parent := by
    intro s p h
    cases s <;> simp at h <;> subst h <;> decide

/-- The entry function of `wait` goes on to `work`. -/
def demoProgram : Program Demo
  | .entry .wait, .enter .wait _ :: _ => some (some .work)
  | _, _ => none

theorem doOps_balanced_demo :
    entered (doOps demoForest demoProgram 12 [.setState (some .wait), .runState]
        .boot).machine.trace =
      demoForest.chain (doOps demoForest demoProgram 12 [.setState (some .wait), .runState]
        .boot).machine.current :=
  (doOps_balanced demoForest demoProgram 12 [.setState (some .wait), .runState]).2 (by decide)

end ChromiumEc.Usbc.Sm
