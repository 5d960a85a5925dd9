import ChromiumEc.Usbc.Pe.Dispatch

/-!
# Requests — which requests a call of the dispatch clears

A call acts on one request, or declines it.  The requests that no branch handles are dropped at the
end of the call.
-/

namespace ChromiumEc.Usbc.Pe

open Lib

def Handles (bs : List Branch) (i : Nat) : Prop :=
  ∃ b ∈ bs, b.enabled = true ∧ b.request.bit = i

def branches (cfg : Config) (p : Port) : PowerRole → List Branch
  | .source => (sourceRole p).before ++ commonSrcSnkBranches cfg p ++ (sourceRole p).after
  | .sink => (sinkRole cfg p).before ++ commonSrcSnkBranches cfg p ++ (sinkRole cfg p).after

namespace State

def Declined (s : State) : Prop :=
  ∃ r, Did.declined r ∈ s.did

def Answered (s : State) (i : Nat) : Prop :=
  ∃ r : DpmRequest, r.bit = i ∧ (Did.acted r ∈ s.did ∨ Did.declined r ∈ s.did)

def Superseded (p : Port) (s : State) (i : Nat) : Prop :=
  i = DpmRequest.vdm.bit ∧ p.modalOperation = false ∧ Did.acted .portDiscovery ∈ s.did

def Dropped (s : State) (i : Nat) : Prop :=
  ∃ w, Did.unhandled w ∈ s.did ∧ w.getLsbD i = true

def Returned (s : State) : Prop :=
  ∃ st, st.isReady = true ∧ Did.entered st ∈ s.did

end State

variable {cfg : Config} {p : Port} {s t u : State} {i : Nat}

/-! ## What a step of the call does -/

structure Reads (s t : State) : Prop where
  same : t = { s with requests := t.requests }
  keeps : s.requests.Keeps t.requests
  taken : ∀ i, t.requests.Taken i → s.requests.Taken i
  word : ∀ i, s.requests.word.getLsbD i = true → t.requests.word.getLsbD i = true

theorem Reads.refl (s : State) : Reads s s :=
  ⟨rfl, Flags.Keeps.refl _, fun _ h => h, fun _ h => h⟩

theorem reads_read (s : State) : Reads s s.read where
  same := rfl
  keeps := Flags.keeps_arrive _
  taken i h := by
    rw [Flags.Taken, State.read, Flags.arrive_taken] at h
    exact h
  word _ h := Flags.arrive_word h

theorem Reads.trans (hst : Reads s t) (htu : Reads t u) : Reads s u where
  same := by
    have hsame := htu.same
    rw [hst.same] at hsame
    exact hsame
  keeps := hst.keeps.trans htu.keeps
  taken i h := hst.taken i (htu.taken i h)
  word i h := htu.word i (hst.word i h)

/-- Between the two states, a request is cleared only when it is acted on or declined, or when it
goes with a discovery. -/
structure Moves (p : Port) (s t : State) : Prop where
  keeps : s.requests.Keeps t.requests
  did : ∀ d ∈ s.did, d ∈ t.did
  taken : ∀ i, t.requests.Taken i → s.requests.Taken i ∨ t.Answered i ∨ t.Superseded p i

theorem Moves.refl (s : State) : Moves p s s :=
  ⟨Flags.Keeps.refl _, fun _ h => h, fun _ h => .inl h⟩

theorem answered_mono (hdid : ∀ d ∈ s.did, d ∈ t.did) (h : s.Answered i) : t.Answered i := by
  obtain ⟨r, hr, hacted | hdeclined⟩ := h
  · exact ⟨r, hr, .inl (hdid _ hacted)⟩
  · exact ⟨r, hr, .inr (hdid _ hdeclined)⟩

theorem Moves.trans (hst : Moves p s t) (htu : Moves p t u) : Moves p s u where
  keeps := hst.keeps.trans htu.keeps
  did d h := htu.did d (hst.did d h)
  taken i h := by
    rcases htu.taken i h with htaken | hanswer
    · rcases hst.taken i htaken with hs | hanswered | ⟨hvdm, hmodal, hacted⟩
      · exact .inl hs
      · exact .inr (.inl (answered_mono htu.did hanswered))
      · exact .inr (.inr ⟨hvdm, hmodal, htu.did _ hacted⟩)
    · exact .inr hanswer

theorem Reads.moves (h : Reads s t) : Moves p s t where
  keeps := h.keeps
  did d hd := by
    rw [h.same]
    exact hd
  taken i htaken := .inl (h.taken i htaken)

theorem moves_of_requests (hrequests : t.requests = s.requests) (hdid : ∀ d ∈ s.did, d ∈ t.did) :
    Moves p s t where
  keeps := by
    rw [hrequests]
    exact Flags.Keeps.refl _
  did := hdid
  taken i h := by
    rw [hrequests] at h
    exact .inl h

theorem mem_note {d : Did} : d ∈ (s.note d).did :=
  List.mem_append_right _ (List.mem_singleton_self d)

theorem moves_output (o : Output) : Moves p s (s.output o) :=
  moves_of_requests rfl fun _ h => h

theorem mask_getLsbD {r : DpmRequest} (h : r.mask.getLsbD i = true) : r.bit = i := by
  rw [DpmRequest.mask, BitVec.getLsbD_twoPow, Bool.and_eq_true] at h
  exact of_decide_eq_true h.2

theorem moves_clear {r : DpmRequest} (hrequests : t.requests = s.requests.clear r.mask)
    (hdid : ∀ d ∈ s.did, d ∈ t.did)
    (hanswer : t.Answered r.bit ∨ t.Superseded p r.bit) : Moves p s t where
  keeps := by
    rw [hrequests]
    exact Flags.keeps_clear ..
  did := hdid
  taken i h := by
    rw [hrequests, Flags.clear_taken_iff] at h
    rcases h with htaken | ⟨_, hmask⟩
    · exact .inl htaken
    · rw [← mask_getLsbD hmask]
      exact .inr hanswer

theorem moves_setDpmCurrRequest (r : DpmRequest) : Moves p s (s.setDpmCurrRequest r) :=
  moves_clear rfl (fun _ h => List.mem_append_left _ h) (.inl ⟨r, rfl, .inl mem_note⟩)

theorem moves_setStatePe (st : PeState) : Moves p s (s.setStatePe p st) :=
  (reads_read s).moves.trans (moves_of_requests rfl fun _ h => List.mem_append_left _ h)

theorem moves_decline (r : DpmRequest) : Moves p s (decline r s).1 :=
  moves_clear rfl (fun _ h => List.mem_append_left _ h) (.inl ⟨r, rfl, .inr mem_note⟩)

/-! ## The flag of the message sequence -/

def State.InAms (s : State) : Prop :=
  s.localAms = true ∧ ∀ st, Did.entered st ∉ s.did

def State.AmsLeft (s : State) : Prop :=
  s.localAms = true ↔ ¬ s.Returned

theorem State.InAms.left (h : s.InAms) : s.AmsLeft := by
  refine ⟨fun _ => ?_, fun _ => h.1⟩
  rintro ⟨st, _, hst⟩
  exact h.2 st hst

theorem Reads.inAms (hr : Reads s t) (h : s.InAms) : t.InAms := by
  rw [hr.same]
  exact h

theorem inAms_note {d : Did} (hd : ∀ st, d ≠ .entered st) (h : s.InAms) : (s.note d).InAms := by
  refine ⟨h.1, fun st hst => ?_⟩
  rcases List.mem_append.mp hst with hold | hnew
  · exact h.2 st hold
  · exact hd st (List.mem_singleton.mp hnew).symm

theorem inAms_setDpmCurrRequest (r : DpmRequest) (h : s.InAms) : (s.setDpmCurrRequest r).InAms :=
  inAms_note (nofun) h

theorem inAms_decline (r : DpmRequest) (h : s.InAms) : (decline r s).1.InAms :=
  inAms_note (nofun) h

theorem amsLeft_setStatePe (st : PeState) (h : s.InAms) : (s.setStatePe p st).AmsLeft := by
  have hams : (s.setStatePe p st).localAms = !(p.entered st).isReady := by
    rw [State.setStatePe, State.note, h.1, Bool.true_and]
  rw [State.AmsLeft, hams, Bool.not_eq_true', ← Bool.not_eq_true]
  apply not_congr
  constructor
  · exact fun hready => ⟨p.entered st, hready, mem_note⟩
  · rintro ⟨st', hready, hst⟩
    rcases List.mem_append.mp hst with hold | hnew
    · exact absurd hold (h.2 st')
    · cases List.mem_singleton.mp hnew
      exact hready

/-! ## The branches -/

def ForEpr (r : DpmRequest) : Prop :=
  r = .eprModeEntry ∨ r = .eprModeExit

def ForFrs (r : DpmRequest) : Prop :=
  r = .frsDetEnable ∨ r = .frsDetDisable

structure Branch.Lawful (p : Port) (b : Branch) : Prop where
  moves : ∀ s, Moves p s (b.body s).1
  acted : ∀ s, (b.body s).2 = .acted → s.InAms → (b.body s).1.AmsLeft
  stays : ∀ s, (b.body s).2 ≠ .acted → s.InAms → (b.body s).1.InAms
  declined : ∀ s, (b.body s).2 = .declined → Did.declined b.request ∈ (b.body s).1.did
  through : ∀ s, (b.body s).2 = .through → ForFrs b.request
  noted : ∀ s, (b.body s).1.did ≠ []

theorem note_ne_nil {d : Did} : (s.note d).did ≠ [] :=
  List.append_ne_nil_of_right_ne_nil _ (List.cons_ne_nil d [])

theorem lawful_of_acts {b : Branch} (hmoves : ∀ s, Moves p s (b.body s).1)
    (hacts : ∀ s, (b.body s).2 = .acted) (hams : ∀ s, s.InAms → (b.body s).1.AmsLeft)
    (hnoted : ∀ s, (b.body s).1.did ≠ []) : b.Lawful p where
  moves := hmoves
  acted s _ h := hams s h
  stays s h _ := absurd (hacts s) h
  declined s h := by
    rw [hacts s] at h
    cases h
  through s h := by
    rw [hacts s] at h
    cases h
  noted := hnoted

theorem enter_lawful (r : DpmRequest) (st : PeState) : (Branch.enter p r st).Lawful p :=
  lawful_of_acts (fun _ => (moves_setDpmCurrRequest r).trans (moves_setStatePe st)) (fun _ => rfl)
    (fun _ h => amsLeft_setStatePe st (inAms_setDpmCurrRequest r h)) fun _ => note_ne_nil

theorem Branch.Lawful.enabled {b : Branch} (h : b.Lawful p) (e : Bool) :
    { b with enabled := e }.Lawful p :=
  ⟨h.moves, h.acted, h.stays, h.declined, h.through, h.noted⟩

theorem lawful_of_ite {b b' : Branch} {c : Prop} [Decidable c] (hb' : b'.Lawful p)
    (f : State → State) (hf : ∀ s, Moves p s (f s)) (hams : ∀ s, s.InAms → (f s).InAms)
    (hbody : ∀ s, b.body s = if c then decline b.request (f s) else b'.body s)
    (hrequest : b'.request = b.request) : b.Lawful p := by
  -- the condition is about the port, so a branch either always declines or is the other one
  by_cases hc : c
  · have heq (s : State) : b.body s = decline b.request (f s) := (hbody s).trans (if_pos hc)
    refine ⟨fun s => ?_, fun s h => ?_, fun s _ h => ?_, fun s _ => ?_, fun s h => ?_, fun s => ?_⟩
    · rw [heq s]
      exact (hf s).trans (moves_decline _)
    · rw [heq s] at h
      cases h
    · rw [heq s]
      exact inAms_decline _ (hams s h)
    · rw [heq s]
      exact mem_note
    · rw [heq s] at h
      cases h
    · rw [heq s]
      exact note_ne_nil
  · have heq (s : State) : b.body s = b'.body s := (hbody s).trans (if_neg hc)
    refine ⟨fun s => ?_, fun s => ?_, fun s => ?_, fun s => ?_, fun s => ?_, fun s => ?_⟩
    · rw [heq s]
      exact hb'.moves s
    · rw [heq s]
      exact hb'.acted s
    · rw [heq s]
      exact hb'.stays s
    · rw [heq s, ← hrequest]
      exact hb'.declined s
    · rw [heq s, ← hrequest]
      exact hb'.through s
    · rw [heq s]
      exact hb'.noted s

theorem amsLeft_peSetHardReset (h : s.InAms) : (peSetHardReset p s).AmsLeft := by
  unfold peSetHardReset
  split <;> exact amsLeft_setStatePe _ h

theorem moves_peSetHardReset : Moves p s (peSetHardReset p s) := by
  unfold peSetHardReset
  split <;> exact moves_setStatePe _

theorem peSetHardReset_ne_nil : (peSetHardReset p s).did ≠ [] := by
  unfold peSetHardReset
  split <;> exact note_ne_nil

theorem common_lawful (cfg : Config) (p : Port) : ∀ b ∈ commonSrcSnkBranches cfg p, b.Lawful p := by
  simp only [commonSrcSnkBranches, List.forall_mem_cons]
  refine ⟨(enter_lawful ..).enabled _, enter_lawful .., enter_lawful .., enter_lawful ..,
    enter_lawful .., ?discovery, enter_lawful .., enter_lawful .., ?exitModes, enter_lawful ..,
    ?softReset, ?drSwap, ?dataReset, ?revision, ?alert, nofun⟩
  case discovery =>
    refine lawful_of_acts (fun s => ?_) (fun s => ?_) (fun s h => ?_) fun s => ?_
    · refine (moves_setDpmCurrRequest .portDiscovery).trans ?_
      by_cases hmodal : p.modalOperation = true
      · simp only [hmodal, if_true]
        exact Moves.refl _
      · simp only [hmodal]
        exact moves_clear rfl (fun _ h => h)
          (.inr ⟨rfl, eq_false_of_ne_true hmodal, mem_note⟩)
    · simp only
      split <;> rfl
    · have hams := (inAms_setDpmCurrRequest .portDiscovery h).left
      simp only
      split <;> exact hams
    · simp only
      split <;> exact note_ne_nil
  case exitModes =>
    exact lawful_of_acts (fun _ => (moves_setDpmCurrRequest _).trans (moves_output _))
      (fun _ => rfl) (fun _ h => (inAms_setDpmCurrRequest _ h).left) fun _ => note_ne_nil
  case softReset =>
    exact lawful_of_acts
      (fun _ => ((moves_setDpmCurrRequest _).trans (moves_output _)).trans (moves_setStatePe _))
      (fun _ => rfl) (fun _ h => amsLeft_setStatePe _ (inAms_setDpmCurrRequest _ h))
      fun _ => note_ne_nil
  case drSwap =>
    refine lawful_of_acts (fun s => (moves_setDpmCurrRequest .drSwap).trans ?_) (fun _ => rfl)
      (fun s h => ?_) fun s => ?_
    · simp only
      split
      · exact moves_peSetHardReset
      · exact moves_setStatePe _
    · have hams := inAms_setDpmCurrRequest .drSwap h
      simp only
      split
      · exact amsLeft_peSetHardReset hams
      · exact amsLeft_setStatePe _ hams
    · simp only
      split
      · exact peSetHardReset_ne_nil
      · exact note_ne_nil
  case dataReset =>
    refine lawful_of_ite (c := ¬ peShouldSendDataReset p = true) (enter_lawful .dataReset
      (if p.dataRole = .dfp then .ddrSendDataReset else .udrSendDataReset))
      (State.output .dataResetComplete) (fun _ => moves_output _) (fun _ h => h)
      (fun s => ?_) rfl
    exact (ite_not ..).symm
  case revision =>
    exact lawful_of_ite (enter_lawful .getRevision .getRevision) id (fun _ => Moves.refl _)
      (fun _ h => h) (fun _ => rfl) rfl
  case alert =>
    exact lawful_of_ite (enter_lawful .sendAlert .sendAlert) id (fun _ => Moves.refl _)
      (fun _ h => h) (fun _ => rfl) rfl

theorem source_before_lawful (p : Port) : ∀ b ∈ (sourceRole p).before, b.Lawful p := by
  simp only [sourceRole, List.forall_mem_cons]
  exact ⟨enter_lawful .., enter_lawful .., enter_lawful .., enter_lawful .., enter_lawful .., nofun⟩

theorem frs_lawful {r : DpmRequest} (hr : ForFrs r) (f : State → State)
    (hf : ∀ s, Moves p s (f s)) (hams : ∀ s, s.InAms → (f s).InAms) :
    (frsBranch r f).Lawful p where
  moves s := (hf s).trans
    (moves_clear rfl (fun _ h => List.mem_append_left _ h) (.inl ⟨r, rfl, .inl mem_note⟩))
  acted _ h := nomatch h
  stays s _ h := inAms_note nofun (hams s h)
  declined _ h := nomatch h
  through _ _ := hr
  noted _ := note_ne_nil

theorem sink_before_lawful (cfg : Config) (p : Port) :
    ∀ b ∈ (sinkRole cfg p).before, b.Lawful p := by
  simp only [sinkRole, List.forall_mem_cons]
  exact ⟨enter_lawful .., enter_lawful .., enter_lawful ..,
    frs_lawful (.inl rfl) _ (fun _ => moves_output _) fun _ h => h,
    frs_lawful (.inr rfl) _ (fun _ => (moves_output _).trans (moves_output _)) fun _ h => h, nofun⟩

theorem epr_lawful (p : Port) : ∀ b ∈ eprBranches p, b.Lawful p := by
  simp only [eprBranches, List.forall_mem_cons]
  refine ⟨?entry, ?exit, nofun⟩
  case entry =>
    have hact : Branch.Lawful p ⟨true, .eprModeEntry, fun s =>
        (((s.setDpmCurrRequest .eprModeEntry).output (.setMaxVoltage p.maxVoltageMv)).setStatePe p
          .snkSendEprModeEntry, .acted)⟩ :=
      lawful_of_acts
        (fun _ => ((moves_setDpmCurrRequest _).trans (moves_output _)).trans (moves_setStatePe _))
        (fun _ => rfl) (fun _ h => amsLeft_setStatePe _ (inAms_setDpmCurrRequest _ h))
        fun _ => note_ne_nil
    have hcan := lawful_of_ite (b := ⟨true, .eprModeEntry, fun s =>
        if !peSnkCanEnterEprMode p then decline .eprModeEntry s else
        (((s.setDpmCurrRequest .eprModeEntry).output (.setMaxVoltage p.maxVoltageMv)).setStatePe p
          .snkSendEprModeEntry, .acted)⟩) hact id (fun _ => Moves.refl _) (fun _ h => h)
      (fun _ => rfl) rfl
    exact lawful_of_ite hcan id (fun _ => Moves.refl _) (fun _ h => h) (fun _ => rfl) rfl
  case exit =>
    have hexit : Branch.Lawful p ⟨true, .eprModeExit, fun s =>
        if peInSprContract p then
          ((s.setDpmCurrRequest .eprModeExit).setStatePe p .snkSendEprModeExit, .acted)
        else
          (((s.output (.setMaxVoltage pdMaxSprVoltage)).setDpmCurrRequest .newPowerLevel).setStatePe
            p .snkSelectCapability, .acted)⟩ := by
      refine lawful_of_acts (fun s => ?_) (fun s => ?_) (fun s h => ?_) fun s => ?_
      · simp only
        split
        · exact (moves_setDpmCurrRequest _).trans (moves_setStatePe _)
        · exact ((moves_output _).trans (moves_setDpmCurrRequest _)).trans (moves_setStatePe _)
      · simp only
        split <;> rfl
      · simp only
        split
        · exact amsLeft_setStatePe _ (inAms_setDpmCurrRequest _ h)
        · have hout : (s.output (.setMaxVoltage pdMaxSprVoltage)).InAms := h
          exact amsLeft_setStatePe _ (inAms_setDpmCurrRequest _ hout)
      · simp only
        split <;> exact note_ne_nil
    exact lawful_of_ite hexit id (fun _ => Moves.refl _) (fun _ h => h) (fun _ => rfl) rfl

theorem after_lawful (cfg : Config) (p : Port) : ∀ b ∈ (sinkRole cfg p).after, b.Lawful p := by
  unfold sinkRole
  cases cfg.epr with
  | false => exact nofun
  | true => exact epr_lawful p

/-! ## The chain of branches -/

/-- What the chain does: no branch is taken because none of their requests is pending, or one of
them is taken. -/
theorem dispatch_cases (bs : List Branch) (s : State) :
    (∃ t, dispatch bs s = (t, none) ∧ Reads s t ∧
      ∀ i, Handles bs i → s.requests.word.getLsbD i = false) ∨
    ∃ b ∈ bs, ∃ t, Reads s t ∧ dispatch bs s = ((b.body t).1, some (b.body t).2) := by
  induction bs generalizing s with
  | nil =>
    refine .inl ⟨s, rfl, Reads.refl s, ?_⟩
    rintro i ⟨b, hb, _⟩
    cases hb
  | cons b bs ih =>
    by_cases henabled : b.enabled = true
    · by_cases hpending : s.read.chkDpmRequest b.request = true
      · refine .inr ⟨b, List.mem_cons_self .., s.read, reads_read s, ?_⟩
        rw [dispatch, if_pos henabled]
        exact if_pos hpending
      · have heq : dispatch (b :: bs) s = dispatch bs s.read := by
          rw [dispatch, if_pos henabled]
          exact if_neg hpending
        rw [heq]
        rcases ih s.read with ⟨t, hnone, hreads, hword⟩ | ⟨b', hb', t, hreads, hsome⟩
        · refine .inl ⟨t, hnone, (reads_read s).trans hreads, ?_⟩
          -- a request that this branch has read and that was set would have been taken
          rintro i ⟨b', hb', henabled', rfl⟩
          by_contra hset
          have hread := Flags.arrive_word (eq_true_of_ne_false hset)
          rcases List.mem_cons.mp hb' with rfl | hb'
          · exact hpending hread
          · have hclear := hword _ ⟨b', hb', henabled', rfl⟩
            rw [State.read, hread] at hclear
            cases hclear
        · exact .inr ⟨b', List.mem_cons_of_mem _ hb', t, (reads_read s).trans hreads, hsome⟩
    · have heq : dispatch (b :: bs) s = dispatch bs s := by
        rw [dispatch, if_neg henabled]
      rw [heq]
      rcases ih s with ⟨t, hnone, hreads, hword⟩ | ⟨b', hb', t, hreads, hsome⟩
      · refine .inl ⟨t, hnone, hreads, ?_⟩
        rintro i ⟨b', hb', henabled', hbit⟩
        rcases List.mem_cons.mp hb' with rfl | hb'
        · exact absurd henabled' henabled
        · exact hword i ⟨b', hb', henabled', hbit⟩
      · exact .inr ⟨b', List.mem_cons_of_mem _ hb', t, hreads, hsome⟩

/-! ## The call -/

structure Role.Lawful (cfg : Config) (p : Port) (r : Role) : Prop where
  before : ∀ b ∈ r.before, b.Lawful p ∧ ∀ s, (b.body s).2 ≠ .declined
  after : ∀ b ∈ r.after, b.Lawful p ∧ ForEpr b.request
  ignored : ∀ i, Handles (r.before ++ commonSrcSnkBranches cfg p ++ r.after) i →
    r.ignored.getLsbD i = false

structure Ends (p : Port) (bs : List Branch) (s : State) (out : State × Bool) : Prop where
  keeps : s.requests.Keeps out.1.requests
  taken : ∀ i, out.1.requests.Taken i → s.requests.Taken i ∨ out.1.Answered i ∨
    out.1.Superseded p i ∨ (out.1.Dropped i ∧
      (Handles bs i → out.1.Declined ∨ s.requests.word.getLsbD i = false))
  noted : out.1.did ≠ []
  ams : (∀ r, Did.declined r ∈ out.1.did → ¬ ForEpr r) →
    (out.1.localAms = true ↔ out.2 = true ∧ ¬ out.1.Returned)

variable {bs : List Branch}

theorem finish_ends {b : Branch} (hb : b.Lawful p) (hm : Moves p s t) (hams : t.InAms)
    (hepr : (b.body t).2 = .declined → ForEpr b.request) : Ends p bs s (finish (b.body t)) := by
  have hmoves := hm.trans (hb.moves t)
  have htaken (i : Nat) (h : (b.body t).1.requests.Taken i) : s.requests.Taken i ∨
      (b.body t).1.Answered i ∨ (b.body t).1.Superseded p i ∨ ((b.body t).1.Dropped i ∧
        (Handles bs i → (b.body t).1.Declined ∨ s.requests.word.getLsbD i = false)) := by
    rcases hmoves.taken i h with hold | hanswered | hsuperseded
    · exact .inl hold
    · exact .inr (.inl hanswered)
    · exact .inr (.inr (.inl hsuperseded))
  have hnoted := hb.noted t
  have hacted := hb.acted t
  have hdeclined := hb.declined t
  cases hbody : b.body t with
  | mk u o =>
    rw [hbody] at hmoves htaken hnoted hacted hdeclined hepr
    cases o with
    | acted =>
      refine ⟨hmoves.keeps, htaken, hnoted, fun _ => ?_⟩
      have hleft : u.AmsLeft := hacted rfl hams
      exact hleft.trans (and_iff_right rfl).symm
    -- the AMS is left to the branches behind, but for the requests of EPR
    | declined =>
      refine ⟨hmoves.keeps, htaken, hnoted, fun hnot => ?_⟩
      exact absurd (hepr rfl) (hnot _ (hdeclined rfl))
    | through =>
      refine ⟨hmoves.keeps, htaken, hnoted, fun _ => ?_⟩
      simp [finish]

theorem unhandled_ends (hm : Moves p s t)
    (hdeclined : ∀ i, Handles bs i → t.Declined ∨ s.requests.word.getLsbD i = false) :
    Ends p bs s (unhandled t, false) := by
  have hread := hm.trans (reads_read t).moves
  have hdid (d : Did) (hd : d ∈ t.did) : d ∈ (unhandled t).did := List.mem_append_left _ hd
  refine ⟨?_, fun i h => ?_, note_ne_nil, fun _ => ?_⟩
  · exact hread.keeps.trans (Flags.keeps_clear ..)
  -- the request was taken before, or it is among those that are dropped here
  · rcases Flags.clear_taken_iff.mp h with hold | ⟨_, hdropped⟩
    · rcases hread.taken i hold with hs | hanswered | ⟨hvdm, hmodal, hacted⟩
      · exact .inl hs
      · exact .inr (.inl (answered_mono hdid hanswered))
      · exact .inr (.inr (.inl ⟨hvdm, hmodal, hdid _ hacted⟩))
    · refine .inr (.inr (.inr ⟨⟨_, mem_note, hdropped⟩, fun hi => ?_⟩))
      rcases hdeclined i hi with ⟨r, hr⟩ | hword
      · exact .inl ⟨r, hdid _ hr⟩
      · exact .inr hword
  · exact ⟨fun hset => (nomatch hset), fun hset => nomatch hset.1⟩

theorem common_not_frs (cfg : Config) (p : Port) :
    ∀ b ∈ commonSrcSnkBranches cfg p, ¬ ForFrs b.request := by
  simp only [commonSrcSnkBranches, List.forall_mem_cons, Branch.enter, ForFrs]
  decide

theorem handles_append {l l' : List Branch} :
    Handles (l ++ l') i ↔ Handles l i ∨ Handles l' i := by
  simp only [Handles, List.mem_append, or_and_right, exists_or]

theorem Role.Lawful.after_ends {r : Role} (h : r.Lawful cfg p) (hm : Moves p s t) (hams : t.InAms)
    (hpassed : t.Declined ∨ Reads s t ∧
      ∀ i, Handles (r.before ++ commonSrcSnkBranches cfg p) i → s.requests.word.getLsbD i = false) :
    Ends p (r.before ++ commonSrcSnkBranches cfg p ++ r.after) s
      (match dispatch r.after t with
      | (s, some o) => finish (s, o)
      | (s, none) => (unhandled s, false)) := by
  rcases dispatch_cases r.after t with ⟨u, hnone, hreads, hafter⟩ | ⟨b, hb, u, hreads, hsome⟩
  · rw [hnone]
    refine unhandled_ends (hm.trans hreads.moves) fun i hi => ?_
    rcases hpassed with ⟨r, hr⟩ | ⟨hpassed, hclear⟩
    · exact .inl ⟨r, hreads.moves (p := p) |>.did _ hr⟩
    · refine .inr ?_
      rcases handles_append.mp hi with hi | hi
      · exact hclear i hi
      · by_contra hset
        have hword := hpassed.word i (eq_true_of_ne_false hset)
        rw [hafter i hi] at hword
        cases hword
  · rw [hsome]
    exact finish_ends (h.after b hb).1 (hm.trans hreads.moves) (hreads.inAms hams)
      fun _ => (h.after b hb).2

theorem Role.Lawful.ends {r : Role} (h : r.Lawful cfg p) (hams : s.InAms) :
    Ends p (r.before ++ commonSrcSnkBranches cfg p ++ r.after) s
      (match dispatch r.before s with
      | (s, some o) => finish (s, o)
      | (s, none) =>
        match dispatch (commonSrcSnkBranches cfg p) s with
        | (s, some .acted) => (s, true)
        | (s, _) =>
          match dispatch r.after s with
          | (s, some o) => finish (s, o)
          | (s, none) => (unhandled s, false)) := by
  rcases dispatch_cases r.before s with ⟨t, hnone, hreads, hbefore⟩ | ⟨b, hb, t, hreads, hsome⟩
  · rw [hnone]
    simp only
    rcases dispatch_cases (commonSrcSnkBranches cfg p) t with
      ⟨u, hnone, hreads', hcommon⟩ | ⟨b, hb, u, hreads', hsome⟩
    · rw [hnone]
      refine h.after_ends (hreads.trans hreads').moves (hreads'.inAms (hreads.inAms hams))
        (.inr ⟨hreads.trans hreads', fun i hi => ?_⟩)
      rcases handles_append.mp hi with hi | hi
      · exact hbefore i hi
      · by_contra hset
        have hword := hreads.word i (eq_true_of_ne_false hset)
        rw [hcommon i hi] at hword
        cases hword
    · have hb' := common_lawful cfg p b hb
      have hm : Moves p s u := (hreads.trans hreads').moves
      have hin := hreads'.inAms (hreads.inAms hams)
      rw [hsome]
      cases hbody : (b.body u).2 with
      | acted =>
        have hends : Ends p (r.before ++ commonSrcSnkBranches cfg p ++ r.after) s
            (finish (b.body u)) := by
          refine finish_ends hb' hm hin fun hdeclined => ?_
          rw [hbody] at hdeclined
          cases hdeclined
        rw [show b.body u = ((b.body u).1, .acted) from Prod.ext rfl hbody] at hends
        exact hends
      -- behind a common branch that declines, the branches of the role are looked at
      | declined =>
        exact h.after_ends (hm.trans (hb'.moves u))
          (hb'.stays u (by rw [hbody]; exact nofun) hin) (.inl ⟨_, hb'.declined u hbody⟩)
      | through => exact absurd (hb'.through u hbody) (common_not_frs cfg p b hb)
  · rw [hsome]
    exact finish_ends (h.before b hb).1 hreads.moves (hreads.inAms hams)
      fun hdeclined => absurd hdeclined ((h.before b hb).2 t)

theorem Role.Lawful.law {r : Role} (h : r.Lawful cfg p) (word : BitVec 32)
    (coming : List (BitVec 32)) (ams : Bool) (st : PeState) :
    let out := r.dpmRequests cfg p (State.start word coming ams st)
    (∀ i, out.1.requests.Taken i →
      ¬ Handles (r.before ++ commonSrcSnkBranches cfg p ++ r.after) i ∨ out.1.Answered i ∨
        out.1.Superseded p i ∨ (out.1.Dropped i ∧ (out.1.Declined ∨ word.getLsbD i = false))) ∧
    (Flags.start word coming).Keeps out.1.requests ∧
    (out.1.did = [] → out.1.localAms = ams) ∧
    (out.1.did ≠ [] → (∀ r, Did.declined r ∈ out.1.did → ¬ ForEpr r) →
      (out.1.localAms = true ↔ out.2 = true ∧ ¬ out.1.Returned)) := by
  have hcleared := reads_read ((State.start word coming ams st).clrDpmRequest r.ignored)
  have hkeeps := (Flags.keeps_clear r.ignored (Flags.start word coming)).trans hcleared.keeps
  -- the requests that are ignored by the role are none that it handles
  have htaken (i : Nat) (hi : Handles (r.before ++ commonSrcSnkBranches cfg p ++ r.after) i) :
      ¬ ((State.start word coming ams st).clrDpmRequest r.ignored).read.requests.Taken i := by
    intro hold
    rcases Flags.clear_taken_iff.mp (hcleared.taken i hold) with hstart | ⟨_, hignored⟩
    · exact Flags.not_taken_start word coming hstart
    · rw [h.ignored i hi] at hignored
      cases hignored
  have hword (i : Nat) (hi : Handles (r.before ++ commonSrcSnkBranches cfg p ++ r.after) i)
      (hset : word.getLsbD i = true) : ((State.start word coming ams st).clrDpmRequest
        r.ignored).read.requests.word.getLsbD i = true :=
    hcleared.word i (Flags.clear_word (Flags.arrive_word hset) (h.ignored i hi))
  simp only [Role.dpmRequests]
  split
  · refine ⟨fun i hi => .inl fun hhandles => htaken i hhandles hi, hkeeps, fun _ => rfl, ?_⟩
    exact fun hne => absurd rfl hne
  · have hends := h.ends (s := { ((State.start word coming ams st).clrDpmRequest r.ignored).read with
      localAms := true }) ⟨rfl, fun _ hin => nomatch hin⟩
    refine ⟨fun i hi => ?_, hkeeps.trans hends.keeps, fun hnil => absurd hnil hends.noted,
      fun _ => hends.ams⟩
    by_cases hhandles : Handles (r.before ++ commonSrcSnkBranches cfg p ++ r.after) i
    · refine .inr ?_
      rcases hends.taken i hi with hold | hanswered | hsuperseded | ⟨hdropped, hwhy⟩
      · exact absurd hold (htaken i hhandles)
      · exact .inl hanswered
      · exact .inr (.inl hsuperseded)
      · refine .inr (.inr ⟨hdropped, ?_⟩)
        rcases hwhy hhandles with hdeclined | hclear
        · exact .inl hdeclined
        · refine .inr (eq_false_of_ne_true fun hset => ?_)
          rw [hword i hhandles hset] at hclear
          cases hclear
    · exact .inl hhandles

/-! ## The two roles -/

theorem ignored_of_requests {bs : List Branch} {ignored : BitVec 32}
    (h : ∀ b ∈ bs, ignored.getLsbD b.request.bit = false) (i : Nat) (hi : Handles bs i) :
    ignored.getLsbD i = false := by
  obtain ⟨b, hb, _, rfl⟩ := hi
  exact h b hb

theorem enter_not_declined (r : DpmRequest) (st : PeState) (s : State) :
    ((Branch.enter p r st).body s).2 ≠ .declined := by
  simp [Branch.enter]

theorem frs_not_declined (r : DpmRequest) (f : State → State) (s : State) :
    ((frsBranch r f).body s).2 ≠ .declined := by
  simp [frsBranch]

theorem source_lawful (cfg : Config) (p : Port) : (sourceRole p).Lawful cfg p where
  before b hb := by
    refine ⟨source_before_lawful p b hb, ?_⟩
    revert b
    simp only [sourceRole, List.forall_mem_cons]
    exact ⟨enter_not_declined _ _, enter_not_declined _ _, enter_not_declined _ _,
      enter_not_declined _ _, enter_not_declined _ _, nofun⟩
  after b hb := nomatch hb
  ignored := by
    refine ignored_of_requests ?_
    simp only [sourceRole, commonSrcSnkBranches, List.forall_mem_append, List.forall_mem_cons,
      Branch.enter]
    decide

theorem sink_lawful (cfg : Config) (p : Port) : (sinkRole cfg p).Lawful cfg p where
  before b hb := by
    refine ⟨sink_before_lawful cfg p b hb, ?_⟩
    revert b
    simp only [sinkRole, List.forall_mem_cons]
    exact ⟨enter_not_declined _ _, enter_not_declined _ _, enter_not_declined _ _,
      frs_not_declined _ _, frs_not_declined _ _, nofun⟩
  after b hb := by
    refine ⟨after_lawful cfg p b hb, ?_⟩
    revert b
    unfold sinkRole
    cases cfg.epr with
    | false => exact nofun
    | true =>
      simp only [if_true, eprBranches, List.forall_mem_cons]
      exact ⟨.inl rfl, .inr rfl, nofun⟩
  ignored := by
    refine ignored_of_requests ?_
    cases hepr : cfg.epr with
    | false =>
      simp only [sinkRole, hepr, Bool.false_eq_true, if_false, commonSrcSnkBranches,
        List.forall_mem_append, List.forall_mem_cons, Branch.enter, frsBranch]
      decide
    | true =>
      simp only [sinkRole, hepr, if_true, eprBranches, commonSrcSnkBranches, List.forall_mem_append,
        List.forall_mem_cons, Branch.enter, frsBranch]
      decide

/-- One call clears a request only if no branch of the role handles it, if it was acted on or
declined, or if it is a VDM request that goes with a discovery that is started again.  A call that
ends with no branch may drop a request too, when it has declined another one or when the request
came during the call.  Everything else stays pending.  The flag of the message sequence is left set
exactly when the call acted and the port was not brought back to its ready state. -/
theorem dpmRequests_law (cfg : Config) (p : Port) (role : PowerRole) (word : BitVec 32)
    (coming : List (BitVec 32)) (ams : Bool) (st : PeState) :
    let out := dpmRequests cfg p role (State.start word coming ams st)
    (∀ i, out.1.requests.Taken i →
      ¬ Handles (branches cfg p role) i ∨ out.1.Answered i ∨ out.1.Superseded p i ∨
        (out.1.Dropped i ∧ (out.1.Declined ∨ word.getLsbD i = false))) ∧
    (Flags.start word coming).Keeps out.1.requests ∧
    (out.1.did = [] → out.1.localAms = ams) ∧
    (out.1.did ≠ [] → (∀ r, Did.declined r ∈ out.1.did → ¬ ForEpr r) →
      (out.1.localAms = true ↔ out.2 = true ∧ ¬ out.1.Returned)) := by
  cases role with
  | source => exact (source_lawful cfg p).law word coming ams st
  | sink => exact (sink_lawful cfg p).law word coming ams st

def Port.plain : Port where
  powerRole := .source
  dataRole := .dfp
  rev := pdRev30
  modalOperation := false
  identityCnt := 0
  productType := 0
  productT1 := 0
  inEpr := false
  vpdCtSupported := false
  explicitContract := true
  fixedPdo := 0
  requestedVoltage := 5000
  maxVoltageMv := 20000
  entered := id

def Config.sourceOnly : Config :=
  ⟨true, true, true, true, false⟩

/-- A discovery that is started again takes a pending VDM request with it, which is neither acted on
nor declined. -/
theorem discovery_takes_vdm :
    let out := dpmRequests .sourceOnly .plain .source
      (State.start (DpmRequest.vdm.mask ||| DpmRequest.portDiscovery.mask) [] false .srcReady)
    Handles (branches .sourceOnly .plain .source) DpmRequest.vdm.bit ∧
      out.1.requests.Taken DpmRequest.vdm.bit ∧ ¬ out.1.requests.Has DpmRequest.vdm.bit ∧
      ¬ out.1.Answered DpmRequest.vdm.bit := by
  intro out
  have hdid : out.1.did = [.acted .portDiscovery] := by decide +kernel
  have hrequests : out.1.requests = ⟨0, [], DpmRequest.vdm.mask ||| DpmRequest.portDiscovery.mask⟩ := by
    decide +kernel
  refine ⟨⟨Branch.enter .plain .vdm .vdmRequestDpm, ?_, rfl, rfl⟩, ?_, ?_, ?_⟩
  · simp [branches, commonSrcSnkBranches]
  · rw [Flags.Taken, hrequests]
    decide
  · rw [hrequests]
    rintro (hset | ⟨m, hm, _⟩)
    · revert hset
      decide
    · cases hm
  · rintro ⟨r, hr, hanswer⟩
    rw [hdid] at hanswer
    rcases hanswer with hacted | hdeclined
    · cases List.mem_singleton.mp hacted
      revert hr
      decide
    · cases List.mem_singleton.mp hdeclined

end ChromiumEc.Usbc.Pe
