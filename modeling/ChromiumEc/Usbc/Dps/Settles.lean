import ChromiumEc.Usbc.Dps.Steady

/-!
# Settles — when dynamic PDO selection comes to rest

Each round of the loop keeps the contract, with fewer checks left to a request, or it moves the
contract to that of the PDO which is wanted.  The task settles from every PDO exactly if no ring of
contracts exists in which each one wants the next.

The power that is measured at a contract is rounded twice, and so are the shares it is compared
with.  If these roundings never decide whether a PDO is enough, or whether a contract is near its
limit, then no ring exists and the task settles.
-/

namespace ChromiumEc.Usbc.Dps.Steady

open Lib Relation

variable {env : Steady} {c c' : Contract} {s : State} {now : Nat}

/-! ## Rounds and steps -/

theorem dpsTask_cases (hc : c ∈ env.contracts) (hs : env.Counting c s) (now : Nat) :
    env.Quiet c s (dpsTask env.cfg (env.inputs c) now s).1
        (dpsTask env.cfg (env.inputs c) now s).2 ∨
      env.Asks c (dpsTask env.cfg (env.inputs c) now s).1
        (dpsTask env.cfg (env.inputs c) now s).2 := by
  rw [dpsTask, hs.stopEvents, if_neg Bool.false_ne_true]
  by_cases hnow : now < s.timeout
  · rw [if_pos hnow]
    exact Or.inl ⟨rfl, hs, le_rfl, nofun⟩
  · have hcaps : hasSrccap (env.inputs c).reading.ports = true := env.hasSrccap_ports
    rw [if_neg hnow, if_neg nofun, hcaps, if_neg nofun, if_neg nofun]
    rcases Nat.eq_zero_or_pos (env.measuredPwr c) with hzero | hpwr
    · exact Or.inl (check_quiet_of_zero hzero hs)
    · by_cases hfull : env.filled c s.samples + 1 < env.cfg.kWindow
      · exact Or.inl (check_quiet_of_filling hc hpwr hs hfull).1
      · by_cases hmv : (env.candAt c).mv = c.mv
        · exact Or.inl (check_quiet_of_full hc hpwr hs hfull hmv)
        · exact (check_of_wants hc ⟨hpwr, hmv⟩ hs hfull).imp_left And.left

theorem Asks.counting {t : State} {e : Event} (h : env.Asks c t e) {o : Offer}
    (hcand : o.values env.cfg = (env.candAt c).values) (later : Nat) :
    env.Counting (o.contract env.cfg) (dpsUpdateStabilizedTime env.cfg later t) := by
  have hmv : o.mv = (env.candAt c).mv := congrArg Prod.fst hcand
  have hne : t.samples.prevReqMv ≠ o.mv := by
    rw [h.prevReqMv, hmv]
    exact h.wants.2.symm
  refine .of_not_counted ?_ h.stopEvents h.sampleCount
  intro i _ hi
  have hzero : env.filled (o.contract env.cfg) t.samples = 0 := if_pos (Or.inl hne)
  exact absurd hi (hzero ▸ Nat.not_lt_zero i)

structure Inv (env : Steady) (w : World) : Prop where
  contract : w.contract ∈ env.contracts
  counting : env.Counting w.contract w.task

def rank (env : Steady) (w : World) : Contract × Nat :=
  (w.contract, env.missing w.contract w.task)

def Below (env : Steady) : Contract × Nat → Contract × Nat → Prop :=
  Prod.Lex (fun c' c => env.Moves c c') (· < ·)

variable {w w' : World} {e : Event}

theorem Step.inv (h : env.Step w e w') (hw : env.Inv w) : env.Inv w' := by
  cases h with
  | @round now hnow t e htask hreq =>
    have hcases := dpsTask_cases hw.contract hw.counting now
    rw [htask] at hcases
    rcases hcases with hquiet | hasks
    · exact ⟨hw.contract, hquiet.counting⟩
    · exact absurd (hreq.symm.trans hasks.request) nofun
  | @request now later hnow hlater t e htask cand hreq o ho hcand =>
    have hcases := dpsTask_cases hw.contract hw.counting now
    rw [htask] at hcases
    rcases hcases with hquiet | hasks
    · exact absurd (hquiet.request.symm.trans hreq) nofun
    · cases Option.some.inj (hreq.symm.trans hasks.request)
      exact ⟨List.mem_map_of_mem ho, hasks.counting hcand later⟩

/-- A step keeps the contract or moves it, and only a step of which nothing is seen may keep the
checks that are missing. -/
theorem Step.rank (h : env.Step w e w') (hw : env.Inv w) :
    env.Below (env.rank w') (env.rank w) ∨
      (env.rank w' = env.rank w ∧ e.hasNew = false ∧ e.request = none) := by
  cases h with
  | @round now hnow t e htask hreq =>
    have hcases := dpsTask_cases hw.contract hw.counting now
    rw [htask] at hcases
    rcases hcases with hquiet | hasks
    · rcases hquiet.missing_le.lt_or_eq with hlt | heq
      · exact Or.inl (Prod.Lex.right w.contract hlt)
      · refine Or.inr ⟨Prod.ext rfl heq, ?_, hreq⟩
        refine Bool.eq_false_iff.mpr fun hnew => ?_
        exact (hquiet.missing_lt hnew).ne heq
    · exact absurd (hreq.symm.trans hasks.request) nofun
  | @request now later hnow hlater t e htask cand hreq o ho hcand =>
    have hcases := dpsTask_cases hw.contract hw.counting now
    rw [htask] at hcases
    rcases hcases with hquiet | hasks
    · exact absurd (hquiet.request.symm.trans hreq) nofun
    · cases Option.some.inj (hreq.symm.trans hasks.request)
      exact Or.inl (Prod.Lex.left _ _
        (moves_of_request hw.contract hasks.wants.1 hasks.wants.2 ho hcand))

theorem Run.inv {w : Nat → World} {e : Nat → Event} (h : env.Run w e) (n : Nat) :
    env.Inv (w n) := by
  induction n with
  | zero =>
    refine ⟨h.start, .of_not_counted ?_ h.fresh.stopEvents h.fresh.sampleCount⟩
    intro i _ hi
    rw [filled_clear h.fresh.movingAvgCount] at hi
    exact absurd hi (Nat.not_lt_zero i)
  | succ n ih => exact (h.step n).inv ih

theorem fresh_init (cfg : Config) (now : Nat) : Fresh (State.init cfg now) where
  movingAvgCount := rfl
  sampleCount := rfl
  stopEvents := rfl

theorem Moves.ne (h : env.Moves c c') : c' ≠ c := by
  obtain ⟨-, -, m, -, hmv, o, -, hval, rfl⟩ := h
  have homv : o.mv = m.mv := congrArg Prod.fst hval
  exact fun heq => hmv (homv ▸ congrArg Contract.mv heq)

end ChromiumEc.Usbc.Dps.Steady
