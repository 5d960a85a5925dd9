import ChromiumEc.Lib.Watched
import ChromiumEc.Usbc.ApVdm.Attention

/-!
# Law — what hot plug detect has to follow

From the start of a mode entry to its DP:Configure ACK the HPD pin is low.  From there to the exit
the pin has the level of the last report since the entry began.  Both DisplayPort modules keep the
pin, a flag for a high level that waits, and a flag for the configuration; this is what their reports
and acknowledgements do to the three.

`ap_vdm_control.c` follows the HPD law exactly in the runs without a fault.  Its flag for the
configuration is reset by `ap_vdm_init` only, and the flag for a high level that waits is never
reset by a low one.
-/

namespace ChromiumEc.Usbc.Hpd

/-- What happens to a DisplayPort mode.  A report is the status VDO of a DP:Status ACK or of an
Attention. -/
inductive Signal
  | enter
  | exit
  | report (vdo : UInt32)
  | configure
  | none
  deriving DecidableEq, Repr

inductive Phase
  | outside
  | entering (latest : Option Bool)
  | configured (latest : Option Bool)
  deriving DecidableEq, Repr

def Phase.after (g : Signal) (p : Phase) : Phase :=
  match g, p with
  | .enter, _ => .entering none
  | .exit, _ => .outside
  | .report vdo, .entering _ => .entering (some (pdVdoDpstsHpdLvl vdo))
  | .report vdo, .configured _ => .configured (some (pdVdoDpstsHpdLvl vdo))
  | .configure, .entering latest => .configured latest
  | _, p => p

def Phase.Law (p : Phase) (hpd : Bool) : Prop :=
  match p with
  | .outside => True
  | .entering _ => hpd = false
  | .configured latest => ∀ level, latest = some level → hpd = level

/-! ## The pin and the flags -/

structure Pins where
  hpd : Bool
  /-- a high level waits for the configuration -/
  pending : Bool
  /-- the module takes the mode for configured -/
  on : Bool
  deriving DecidableEq, Repr

/-- The steps that break the law:
* an entry starts while the pin is still high,
* a high level is reported during an entry that the module takes for configured,
* an IRQ is reported with a low level while the pin is high, and the pin stays as it is,
* the configuration is acknowledged with a low level as the last report, but an earlier high level
  waits. -/
def Signal.Fault (g : Signal) (a : Pins) (p : Phase) : Prop :=
  match g, p with
  | .enter, _ => a.hpd = true
  | .report vdo, .entering _ => a.on = true ∧ pdVdoDpstsHpdLvl vdo = true
  | .report vdo, .configured _ =>
    pdVdoDpstsHpdIrq vdo = true ∧ pdVdoDpstsHpdLvl vdo = false ∧ a.hpd = true
  | .configure, .entering latest => a.pending = true ∧ latest = some false
  | .configure, .configured latest => a.pending = true ∧ latest = some false
  | _, _ => False

/-- A report is taken: before the configuration a high level waits, and after it the pin follows. -/
structure Takes (vdo : UInt32) (a b : Pins) : Prop where
  on : b.on = a.on
  waits : a.on = false → b.pending = (a.pending || pdVdoDpstsHpdLvl vdo)
  low : a.on = false → a.hpd = false → b.hpd = false
  follows : a.on = true →
    b.hpd = if pdVdoDpstsHpdIrq vdo && !pdVdoDpstsHpdLvl vdo then a.hpd else pdVdoDpstsHpdLvl vdo

structure Configures (a b : Pins) : Prop where
  on : b.on = true
  drives : b.hpd = (a.pending || a.hpd)

def Effect (g : Signal) (a b : Pins) : Prop :=
  match g with
  | .enter => b.hpd = a.hpd
  | .exit => True
  | .report vdo => Takes vdo a b
  | .configure => Configures a b
  | .none => b = a

/-- What holds of the pin and the flags while no fault happens.  During an entry a high level waits
once the module has `settled` on a status. -/
def Inv (settled : Prop) (a : Pins) (p : Phase) : Prop :=
  match p with
  | .outside => True
  | .entering latest => a.hpd = false ∧ (settled → latest = some true → a.pending = true)
  | .configured latest => a.on = true ∧ ∀ level, latest = some level → a.hpd = level

section

variable {settled settled' : Prop} {a b : Pins} {p : Phase} {vdo : UInt32}

theorem Inv.law (h : Inv settled a p) : p.Law a.hpd := by
  cases p with
  | outside => trivial
  | entering latest => exact h.1
  | configured latest => exact h.2

theorem Inv.mono (h : Inv settled a p) (hsettled : settled' → settled) : Inv settled' a p := by
  cases p with
  | outside => trivial
  | entering latest => exact ⟨h.1, fun hs => h.2 (hsettled hs)⟩
  | configured latest => exact h

theorem Inv.enter (hfault : ¬ Signal.enter.Fault a p) (hhpd : b.hpd = a.hpd) :
    Inv settled b (p.after .enter) := by
  have hlow : a.hpd = false := Bool.not_eq_true _ ▸ hfault
  exact ⟨hhpd.trans hlow, fun _ h => absurd h (by simp)⟩

theorem broken_enter (hfault : Signal.enter.Fault a p) (hhpd : b.hpd = a.hpd) :
    ¬ (p.after .enter).Law b.hpd := by
  intro hlaw
  have hhigh : a.hpd = true := hfault
  rw [hhpd, hhigh] at hlaw
  exact absurd hlaw (by simp [Phase.after, Phase.Law])

theorem Inv.report (h : Inv settled a p) (hfault : ¬ (Signal.report vdo).Fault a p)
    (ht : Takes vdo a b) : Inv settled' b (p.after (.report vdo)) := by
  cases p with
  | outside => trivial
  | entering latest =>
    obtain ⟨hlow, -⟩ := h
    cases hon : a.on with
    | false =>
      refine ⟨ht.low hon hlow, fun _ hlevel => ?_⟩
      rw [ht.waits hon, Option.some.inj hlevel, Bool.or_true]
    | true =>
      have hlevel : pdVdoDpstsHpdLvl vdo = false :=
        Bool.eq_false_iff.mpr fun hlevel => hfault ⟨hon, hlevel⟩
      refine ⟨?_, fun _ hhigh => ?_⟩
      · rw [ht.follows hon, hlevel, hlow]
        simp
      · rw [hlevel] at hhigh
        exact absurd hhigh (by simp)
  | configured latest =>
    obtain ⟨hon, -⟩ := h
    refine ⟨ht.on.trans hon, fun level hlevel => ?_⟩
    rw [← Option.some.inj hlevel, ht.follows hon]
    split
    · rename_i hirq
      simp only [Bool.and_eq_true, Bool.not_eq_true'] at hirq
      rw [hirq.2]
      exact Bool.eq_false_iff.mpr fun hhigh => hfault ⟨hirq.1, hirq.2, hhigh⟩
    · rfl

theorem broken_report (h : Inv settled a p) (hfault : (Signal.report vdo).Fault a p)
    (ht : Takes vdo a b) : ¬ (p.after (.report vdo)).Law b.hpd := by
  cases p with
  | outside => exact absurd hfault (fun h => h)
  | entering latest =>
    obtain ⟨hon, hlevel⟩ := hfault
    intro hlaw
    have hdriven := ht.follows hon
    rw [hlevel] at hdriven
    have hlow : b.hpd = false := hlaw
    rw [hdriven] at hlow
    simp at hlow
  | configured latest =>
    obtain ⟨hirq, hlevel, hhigh⟩ := hfault
    intro hlaw
    have hdriven := ht.follows h.1
    rw [hirq, hlevel, hhigh] at hdriven
    have hlow : b.hpd = pdVdoDpstsHpdLvl vdo := hlaw _ rfl
    rw [hdriven, hlevel] at hlow
    simp at hlow

theorem Inv.configure (h : Inv True a p) (hfault : ¬ Signal.configure.Fault a p)
    (hc : Configures a b) : Inv settled b (p.after .configure) := by
  have hlevel (latest : Option Bool) (hno : ¬ (a.pending = true ∧ latest = some false))
      (hwaits : a.pending = false → ∀ level, latest = some level → a.hpd = level) :
      ∀ level, latest = some level → b.hpd = level := by
    intro level hlatest
    rw [hc.drives]
    cases hpending : a.pending with
    | false => simpa using hwaits hpending level hlatest
    | true =>
      cases level with
      | false => exact absurd ⟨hpending, hlatest⟩ hno
      | true => rfl
  cases p with
  | outside => trivial
  | entering latest =>
    refine ⟨hc.on, hlevel latest hfault fun hpending level hlatest => ?_⟩
    cases level with
    | false => exact h.1
    | true =>
      have hwaits := h.2 trivial hlatest
      rw [hpending] at hwaits
      exact absurd hwaits (by simp)
  | configured latest => exact ⟨hc.on, hlevel latest hfault fun _ => h.2⟩

theorem broken_configure (hfault : Signal.configure.Fault a p) (hc : Configures a b) :
    ¬ (p.after .configure).Law b.hpd := by
  have hdriven (hpending : a.pending = true) : b.hpd = true := by
    rw [hc.drives, hpending, Bool.true_or]
  cases p with
  | outside => exact absurd hfault (fun h => h)
  | entering latest | configured latest =>
    intro hlaw
    have hlow : b.hpd = false := hlaw false hfault.2
    rw [hdriven hfault.1] at hlow
    exact absurd hlow (by simp)

theorem Inv.effect {g : Signal} (h : Inv settled a p) (hfault : ¬ g.Fault a p) (he : Effect g a b)
    (hconfigure : g = .configure → settled) (hnone : g = .none → settled' → settled) :
    Inv settled' b (p.after g) := by
  cases g with
  | enter => exact .enter hfault he
  | exit => trivial
  | report vdo => exact h.report hfault he
  | configure => exact (h.mono fun _ => hconfigure rfl).configure hfault he
  | none =>
    have hsame : b = a := he
    have hphase : p.after .none = p := by
      cases p <;> rfl
    rw [hsame, hphase]
    exact h.mono (hnone rfl)

theorem Inv.broken {g : Signal} (h : Inv settled a p) (hfault : g.Fault a p) (he : Effect g a b) :
    ¬ (p.after g).Law b.hpd := by
  cases g with
  | enter => exact broken_enter hfault he
  | report vdo => exact broken_report h hfault he
  | configure => exact broken_configure hfault he
  | exit | none => cases p <;> exact absurd hfault (fun h => h)

end

open ApVdm (Event Storage RxEmsg IsDp)

/-- What an event means for the DisplayPort mode of a port whose modes the AP drives.  An entry
starts with the AP's request, and is over when that gets no ACK; an exit is over with its ACK. -/
def apSignal : Event → Signal
  | .requestVdm header => if IsDp header cmdEnterMode then .enter else .none
  | .received _ m =>
    if m.IsAttention ∧ pdVdoVid (m.buf.getD 0 0) = usbSidDisplayport ∧ 1 < m.cnt then
      .report (m.buf.getD 1 0)
    else .none
  | .acked _ _ m =>
    if IsDp (m.objects.getD 0 0) cmdDpConfig then .configure
    else if IsDp (m.objects.getD 0 0) cmdDpStatus ∧ 1 < m.cnt then .report (m.objects.getD 1 0)
    else if IsDp (m.objects.getD 0 0) cmdExitMode then .exit
    else .none
  | .naked _ svid vdmCmd _ =>
    if svid = usbSidDisplayport ∧ vdmCmd = cmdEnterMode then .exit else .none
  | .init => .exit
  | _ => .none

def apPins (s : Storage) : Pins where
  hpd := s.hpd
  pending := s.hpdPending
  on := s.dpConfigured

def ap : Lib.Watched Event Storage Phase where
  step e s := (ApVdm.step e s).map (·.2)
  watch e _ p := p.after (apSignal e)

section

variable {s s' : Storage} {e : Event}

/-! ## What the module does to the pin -/

theorem takes_attentionHpdProcess (suspended : Bool) (vdo : UInt32) (s : Storage) :
    Takes vdo (apPins s) (apPins (ApVdm.attentionHpdProcess suspended vdo s)) := by
  have hnotify (t : Storage) (P : Prop) [Decidable P] :
      apPins (if P then t.notify .dpAltModeEntry else t) = apPins t := by
    split <;> rfl
  unfold ApVdm.attentionHpdProcess
  simp only [hnotify]
  cases hon : s.dpConfigured with
  | false =>
    cases hlevel : pdVdoDpstsHpdLvl vdo with
    | true =>
      simp only [Bool.not_false, Bool.and_true, if_true]
      exact ⟨hon.symm, fun _ => by simp [apPins, hlevel], fun _ h => h,
        fun h => absurd (hon.symm.trans h) (by simp)⟩
    | false =>
      simp only [Bool.not_false, Bool.and_false, Bool.false_eq_true, if_false,
        ApVdm.dpHpdGpioSet, Bool.and_true]
      refine ⟨?_, fun _ => ?_, fun _ h => ?_, fun h => absurd (hon.symm.trans h) (by simp)⟩
      · split <;> rfl
      · rw [hlevel, Bool.or_false]
        split <;> rfl
      · split
        · exact h
        · rfl
  | true =>
    simp only [Bool.not_true, Bool.false_and, Bool.false_eq_true, if_false, ApVdm.dpHpdGpioSet]
    refine ⟨?_, fun h => absurd (hon.symm.trans h) (by simp),
      fun h => absurd (hon.symm.trans h) (by simp), fun _ => ?_⟩
    · split <;> rfl
    · split <;> rfl

theorem apPins_addEntry (entry : ApVdm.AttentionQueueEntry) (s : Storage) :
    apPins (ApVdm.addEntry entry s) = apPins s := by
  unfold ApVdm.addEntry
  simp only
  split_ifs <;> rfl

theorem received_pins {suspended : Bool} {m : RxEmsg} (hm : m.IsAttention)
    (hstep : ap.step (.received suspended m) s = some s') :
    apPins s' = apPins
      (if pdVdoVid (m.buf.getD 0 0) = usbSidDisplayport ∧ 1 < m.cnt then
        ApVdm.attentionHpdProcess suspended (m.buf.getD 1 0) s else s) := by
  simp only [ap, ApVdm.step, ApVdm.peVdmResponseEntry_attention hm, ApVdm.dpmNotifyAttention,
    ApVdm.apVdmAttentionEnqueue] at hstep
  by_cases hlong : pdAttentionMaxVdo < m.cnt
  · rw [if_pos hlong] at hstep
    exact absurd hstep (by simp)
  · rw [if_neg hlong] at hstep
    simp only [Option.map_some, Option.some.injEq] at hstep
    rw [← hstep, apPins_addEntry]

theorem apPins_pop {r : (List UInt32 × Nat) × Storage} (h : ApVdm.apVdmAttentionPop s = some r) :
    apPins r.2 = apPins s := by
  unfold ApVdm.apVdmAttentionPop at h
  simp only at h
  split at h
  · cases h
    rfl
  · split at h
    · exact absurd h (by simp)
    · split at h
      · exact absurd h (by simp)
      · cases h
        rfl

theorem apPins_typecVdmResponse {args : ApVdm.HostArgs}
    {r : (ApVdm.EcStatus × Option ApVdm.VdmResponse) × Storage}
    (h : ApVdm.hcTypecVdmResponse args s = some r) : apPins r.2 = apPins s := by
  unfold ApVdm.hcTypecVdmResponse at h
  simp only at h
  split at h
  · cases h
    rfl
  · split at h
    · cases h
      rfl
    · split at h
      · exact absurd h (by simp)
      · obtain ⟨popped, hpop, hr⟩ := Option.bind_eq_some_iff.mp h
        split at hr
        · exact absurd hr (by simp)
        · cases hr
          exact apPins_pop hpop

theorem acked_effect {suspended : Bool} {type : SopType} {m : RxEmsg}
    (hstep : ap.step (.acked suspended type m) s = some s') :
    Effect (apSignal (.acked suspended type m)) (apPins s) (apPins s') := by
  have hlen := m.length_objects
  have hpos := m.cnt_pos
  have hle := m.cnt_le
  have hstored : apPins (ApVdm.storeReply type m.objects s) = apPins s := rfl
  simp only [ap, ApVdm.step, ApVdm.apVdmAcked] at hstep
  rw [if_neg (by omega), hlen] at hstep
  rw [← hstored]
  generalize ApVdm.storeReply type m.objects s = t at hstep
  simp only [apSignal]
  by_cases hconfig : IsDp (m.objects.getD 0 0) cmdDpConfig
  · rw [if_pos hconfig] at hstep ⊢
    cases hstep
    cases hpending : t.hpdPending with
    | false => exact ⟨rfl, by simp [apPins, hpending]⟩
    | true => exact ⟨rfl, by simp [apPins, hpending, ApVdm.dpHpdGpioSet]⟩
  · rw [if_neg hconfig] at hstep ⊢
    by_cases hstatus : IsDp (m.objects.getD 0 0) cmdDpStatus ∧ 1 < m.cnt
    · rw [if_pos hstatus] at hstep ⊢
      cases hstep
      exact takes_attentionHpdProcess _ _ _
    · rw [if_neg hstatus] at hstep ⊢
      cases hstep
      split
      · trivial
      · rfl

theorem ap_effect (hstep : ap.step e s = some s') :
    Effect (apSignal e) (apPins s) (apPins s') := by
  have hsame (h : apSignal e = .none) (hpins : apPins s' = apPins s) :
      Effect (apSignal e) (apPins s) (apPins s') := by
    rw [h]
    exact hpins
  cases e with
  | received suspended m =>
    by_cases hm : m.IsAttention
    · have hpins := received_pins hm hstep
      simp only [apSignal]
      by_cases hdp : pdVdoVid (m.buf.getD 0 0) = usbSidDisplayport ∧ 1 < m.cnt
      · rw [if_pos hdp] at hpins
        rw [if_pos ⟨hm, hdp⟩, hpins]
        exact takes_attentionHpdProcess _ _ _
      · rw [if_neg hdp] at hpins
        rw [if_neg (fun h => hdp h.2)]
        exact hpins
    · have hentry : (ApVdm.peVdmResponseEntry suspended m (.ap s)).2 = some (.ap s) := by
        unfold ApVdm.peVdmResponseEntry
        split_ifs <;> rfl
      simp only [ap, ApVdm.step, hentry, Option.map_some, Option.some.injEq] at hstep
      refine hsame (if_neg fun h => hm h.1) ?_
      rw [hstep]
  | acked suspended type m => exact acked_effect hstep
  | naked type svid vdmCmd vdmHeader =>
    cases hstep
    have hpins : apPins (ApVdm.apVdmNaked type svid vdmCmd vdmHeader s) = apPins s := by
      unfold ApVdm.apVdmNaked
      simp only
      split <;> rfl
    simp only [apSignal]
    split
    · trivial
    · exact hpins
  | requestVdm header =>
    cases hstep
    simp only [apSignal]
    split
    · rfl
    · rfl
  | clearVdmRequest =>
    cases hstep
    exact hsame rfl rfl
  | init => trivial
  | typecVdmResponse args =>
    refine hsame rfl ?_
    obtain ⟨answer, hanswer, rfl⟩ := Option.map_eq_some_iff.mp hstep
    obtain ⟨response, hresponse, rfl⟩ := Option.map_eq_some_iff.mp hanswer
    exact apPins_typecVdmResponse hresponse

end

theorem ap_exact : ap.Exact (fun s p => Inv True (apPins s) p) (fun s p => p.Law s.hpd)
    (fun e s p => (apSignal e).Fault (apPins s) p) where
  law h := h.law
  broken h hstep hfault := h.broken hfault (ap_effect hstep)
  kept h hstep hfault := h.effect hfault (ap_effect hstep) (fun _ => trivial) (fun _ _ => trivial)

end ChromiumEc.Usbc.Hpd
