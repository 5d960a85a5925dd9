import ChromiumEc.Lib.Reach
import Mathlib.Logic.Function.Iterate

/-!
# Snapshot — optimistic reads of shared records

A writer and a reader share some records of fields.  The writer marks a record before it writes to
it.  The reader clears the marks of a record, reads it field by field, and answers at the end only
if the writer has not marked it since.  Between any two steps of the one the other may take some.
If the marks are not cleared while an update of the record is under way, then what is answered could
have been read from the record at rest, between two updates.
-/

namespace ChromiumEc.Lib.Snapshot

variable {M F : Type} {V : F → Type} {A B : Type}

/-! ## Reading one record -/

/-- A computation that reads fields of one record -/
inductive Read (V : F → Type) (A : Type) where
  | ret (a : A)
  | field (f : F) (k : V f → Read V A)

namespace Read

def bind : Read V A → (A → Read V B) → Read V B
  | .ret a, next => next a
  | .field f k, next => .field f fun v => (k v).bind next

instance : Monad (Read V) where
  pure := .ret
  bind := Read.bind

/-- The value of a field -/
def get (f : F) : Read V (V f) :=
  .field f .ret

/-- What is read from a record at rest -/
def eval (r : (f : F) → V f) : Read V A → A
  | .ret a => a
  | .field f k => (k (r f)).eval r

/-- Every result of the computation satisfies `P`. -/
def Leaves (P : A → Prop) : Read V A → Prop
  | .ret a => P a
  | .field _ k => ∀ v, (k v).Leaves P

theorem Leaves.bind {P : B → Prop} {q : Read V A} {next : A → Read V B}
    (h : ∀ a, (next a).Leaves P) : (q.bind next).Leaves P := by
  induction q with
  | ret a => exact h a
  | field f k ih => exact fun v => ih v

end Read

/-! ## Updating records -/

/-- A computation of the writer, over records that are told apart by `M` -/
inductive Update (M : Type) (V : F → Type) (A : Type) where
  | ret (a : A)
  | read (m : M) (f : F) (k : V f → Update M V A)
  | write (m : M) (f : F) (v : V f) (k : Update M V A)
  | mark (m : M) (k : Update M V A)

namespace Update

def bind : Update M V A → (A → Update M V B) → Update M V B
  | .ret a, next => next a
  | .read m f k, next => .read m f fun v => (k v).bind next
  | .write m f v k, next => .write m f v (k.bind next)
  | .mark m k, next => .mark m (k.bind next)

instance : Monad (Update M V) where
  pure := .ret
  bind := Update.bind

def get (m : M) (f : F) : Update M V (V f) :=
  .read m f .ret

def set (m : M) (f : F) (v : V f) : Update M V Unit :=
  .write m f v (.ret ())

def notify (m : M) : Update M V Unit :=
  .mark m (.ret ())

/-- The writer reads a record. -/
def ofRead (m : M) : Read V A → Update M V A
  | .ret a => .ret a
  | .field f k => .read m f fun v => ofRead m (k v)

/-- The record `m` is not written to before it is marked. -/
def Quiet (m : M) : Update M V A → Prop
  | .ret _ => True
  | .read _ _ k => ∀ v, (k v).Quiet m
  | .write m' _ _ k => m' ≠ m ∧ k.Quiet m
  | .mark m' k => m' = m ∨ k.Quiet m

/-- All fields that are written to satisfy `S`. -/
def WritesOnly (S : M → F → Prop) : Update M V A → Prop
  | .ret _ => True
  | .read _ _ k => ∀ v, (k v).WritesOnly S
  | .write m f _ k => S m f ∧ k.WritesOnly S
  | .mark _ k => k.WritesOnly S

/-- The field `f` of the record `m` is not written to. -/
def NoWrite (m : M) (f : F) (p : Update M V A) : Prop :=
  p.WritesOnly fun m' f' => ¬(m' = m ∧ f' = f)

/-- The field `f` of the record `m` is written to at most once. -/
def Once (m : M) (f : F) : Update M V A → Prop
  | .ret _ => True
  | .read _ _ k => ∀ v, (k v).Once m f
  | .write m' f' _ k => (m' = m ∧ f' = f → k.NoWrite m f) ∧ k.Once m f
  | .mark _ k => k.Once m f

section

variable {S S' : M → F → Prop} {m m' : M} {f : F} {p : Update M V A} {next : A → Update M V B}

theorem WritesOnly.bind (hp : p.WritesOnly S) (hnext : ∀ a, (next a).WritesOnly S) :
    (p.bind next).WritesOnly S := by
  induction p with
  | ret a => exact hnext a
  | read m' f' k ih => exact fun v => ih v (hp v)
  | write m' f' v k ih => exact ⟨hp.1, ih hp.2⟩
  | mark m' k ih => exact ih hp

theorem WritesOnly.mono (hS : ∀ m f, S m f → S' m f) (hp : p.WritesOnly S) : p.WritesOnly S' := by
  induction p with
  | ret a => trivial
  | read m' f' k ih => exact fun v => ih v (hp v)
  | write m' f' v k ih => exact ⟨hS _ _ hp.1, ih hp.2⟩
  | mark m' k ih => exact ih hp

theorem writesOnly_ofRead (q : Read V A) : (ofRead m q : Update M V A).WritesOnly S := by
  induction q with
  | ret a => trivial
  | field f' k ih => exact fun v => ih v

theorem WritesOnly.quiet (hp : p.WritesOnly S) (hS : ∀ f, ¬S m f) : p.Quiet m := by
  induction p with
  | ret a => trivial
  | read m' f' k ih => exact fun v => ih v (hp v)
  | write m' f' v k ih => exact ⟨fun heq => hS f' (heq ▸ hp.1), ih hp.2⟩
  | mark m' k ih => exact .inr (ih hp)

theorem NoWrite.once (hp : p.NoWrite m f) : p.Once m f := by
  induction p with
  | ret a => trivial
  | read m' f' k ih => exact fun v => ih v (hp v)
  | write m' f' v k ih => exact ⟨fun h => absurd h hp.1, ih hp.2⟩
  | mark m' k ih => exact ih hp

/-- A field that is not written to at first is written to at most once if it is so later. -/
theorem Once.bind_left (hp : p.NoWrite m f) (hnext : ∀ a, (next a).Once m f) :
    (p.bind next).Once m f := by
  induction p with
  | ret a => exact hnext a
  | read m' f' k ih => exact fun v => ih v (hp v)
  | write m' f' v k ih => exact ⟨fun h => absurd h hp.1, ih hp.2⟩
  | mark m' k ih => exact ih hp

theorem Once.bind_right (hp : p.Once m f) (hnext : ∀ a, (next a).NoWrite m f) :
    (p.bind next).Once m f := by
  induction p with
  | ret a => exact (hnext a).once
  | read m' f' k ih => exact fun v => ih v (hp v)
  | write m' f' v k ih => exact ⟨fun h => (hp.1 h).bind hnext, ih hp.2⟩
  | mark m' k ih => exact ih hp

end

variable [DecidableEq M] [DecidableEq F]

/-- A field of a record is changed. -/
def store (mem : M → (f : F) → V f) (m : M) (f : F) (v : V f) : M → (f : F) → V f :=
  Function.update mem m (Function.update (mem m) f v)

/-- The records that an update leaves -/
def final (mem : M → (f : F) → V f) : Update M V A → M → (f : F) → V f
  | .ret _ => mem
  | .read m f k => (k (mem m f)).final mem
  | .write m f v k => k.final (store mem m f v)
  | .mark _ k => k.final mem

variable {mem : M → (f : F) → V f} {m m' : M} {f f' : F} {v : V f}

theorem store_same : store mem m f v m f = v := by
  rw [store, Function.update_self, Function.update_self]

theorem store_of_ne_record (h : m' ≠ m) : store mem m' f v m = mem m :=
  Function.update_of_ne (Ne.symm h) _ _

theorem store_of_not {v : V f'} (h : ¬(m' = m ∧ f' = f)) : store mem m' f' v m f = mem m f := by
  by_cases hm : m' = m
  · subst hm
    have hf : f ≠ f' := fun hf => h ⟨rfl, hf.symm⟩
    rw [store, Function.update_self, Function.update_of_ne hf]
  · rw [store_of_ne_record hm]

theorem final_of_noWrite {p : Update M V A} (h : p.NoWrite m f) : p.final mem m f = mem m f := by
  induction p generalizing mem with
  | ret a => rfl
  | read m' f' k ih => exact ih _ (h _)
  | write m' f' v k ih => rw [final, ih h.2, store_of_not h.1]
  | mark m' k ih => exact ih h

theorem final_of_writesOnly {p : Update M V A} (h : p.WritesOnly fun m' _ => m' ≠ m) :
    p.final mem m = mem m :=
  funext fun _ => final_of_noWrite (h.mono fun _ _ hne heq => hne heq.1)

end Update

/-! ## The two of them -/

/-- What the reader ends with: an answer that it gives in any case, or one that it gives only if the
record is not marked. -/
inductive Outcome (A : Type) where
  | early (a : A)
  | checked (a : A)

def Outcome.answer : Outcome A → A
  | early a => a
  | checked a => a

def Outcome.IsChecked : Outcome A → Prop
  | .early _ => False
  | .checked _ => True

/-- The reader, on its way through one request -/
inductive Reader (V : F → Type) (A : Type) where
  | start
  | cleared
  | reading (q : Read V (Outcome A))
  /-- There is no answer if the record was marked. -/
  | answered (a : Option A)

/-- The marks of a record -/
structure Marks where
  writer : Bool
  reader : Bool

/-- What the writer and the reader share, where each of them is, and the records at rest so far,
with those that the update under way will leave -/
structure State (M : Type) {F : Type} (V : F → Type) (A : Type) where
  mem : M → (f : F) → V f
  marks : M → Marks
  rest : Update M V Unit
  marked : M → Bool
  reader : Reader V A
  history : List (M → (f : F) → V f)

inductive Event (M : Type) {F : Type} (V : F → Type) where
  | begin (p : Update M V Unit)
  | writer
  | reader

namespace State

/-- The writer is at rest, and no request has been made. -/
def init (mem : M → (f : F) → V f) (marks : M → Marks) : State M V A where
  mem := mem
  marks := marks
  rest := .ret ()
  marked := fun _ => false
  reader := .start
  history := [mem]

variable [DecidableEq M] [DecidableEq F]

/-- An update begins, once the one before has ended. -/
def begin (p : Update M V Unit) (s : State M V A) : State M V A :=
  match s.rest with
  | .ret _ => { s with rest := p, marked := fun _ => false, history := p.final s.mem :: s.history }
  | _ => s

def writerStep (s : State M V A) : State M V A :=
  match s.rest with
  | .ret _ => s
  | .read m f k => { s with rest := k (s.mem m f) }
  | .write m f v k => { s with mem := Update.store s.mem m f v, rest := k }
  | .mark m k =>
    { s with
      marks := Function.update s.marks m { s.marks m with writer := true }
      marked := Function.update s.marked m true
      rest := k }

/-- The marks are cleared, the reader leaves its own, the fields are read, and the mark of the
writer is looked at. -/
def readerStep (m : M) (body : Read V (Outcome A)) (s : State M V A) : State M V A :=
  match s.reader with
  | .start => { s with marks := Function.update s.marks m ⟨false, false⟩, reader := .cleared }
  | .cleared =>
    { s with
      marks := Function.update s.marks m { s.marks m with reader := true }
      reader := .reading body }
  | .reading (.field f k) => { s with reader := .reading (k (s.mem m f)) }
  | .reading (.ret (.early a)) => { s with reader := .answered (some a) }
  | .reading (.ret (.checked a)) =>
    { s with reader := .answered (if (s.marks m).writer then none else some a) }
  | .answered _ => s

def step (m : M) (body : Read V (Outcome A)) (s : State M V A) : Event M V → State M V A
  | .begin p => s.begin p
  | .writer => s.writerStep
  | .reader => s.readerStep m body

/-- An update of the record is under way: it has marked the record, and may still write to it. -/
def UnderWay (m : M) (s : State M V A) : Prop :=
  s.marked m = true ∧ ¬s.rest.WritesOnly fun m' _ => m' ≠ m

/-- Only some updates are made. -/
def Made (updates : Update M V Unit → Prop) (_ : State M V A) : Event M V → Prop
  | .begin p => updates p
  | _ => True

/-- Only some updates are made, and the marks are not cleared while one is under way. -/
def Timely (updates : Update M V Unit → Prop) (m : M) (s : State M V A) : Event M V → Prop
  | .begin p => updates p
  | .writer => True
  | .reader => s.reader = .start → ¬s.UnderWay m

/-! ## What holds in a run -/

variable {m : M} {f : F} {body q : Read V (Outcome A)} {s : State M V A} {p : Update M V Unit}
  {updates : Update M V Unit → Prop}

/-- What holds of the writer.  A record that the update under way has not marked is at rest; the
field `f`, which no update writes to twice, has a value that it has at rest. -/
structure WriterInv (m : M) (f : F) (s : State M V A) : Prop where
  final_mem : s.rest.final s.mem ∈ s.history
  rest : s.marked m = false → s.rest.Quiet m ∧ ∃ h ∈ s.history, s.mem m = h m
  once : s.rest.Once m f
  settled : ∃ h ∈ s.history, s.mem m f = h m f

theorem writerInv_init (mem : M → (f : F) → V f) (marks : M → Marks) :
    WriterInv m f (init mem marks : State M V A) :=
  ⟨List.mem_singleton.mpr rfl, fun _ => ⟨trivial, mem, List.mem_singleton.mpr rfl, rfl⟩, trivial,
    mem, List.mem_singleton.mpr rfl, rfl⟩

theorem WriterInv.begin (h : WriterInv m f s) (hquiet : p.Quiet m) (honce : p.Once m f) :
    WriterInv m f (s.begin p) := by
  unfold State.begin
  split
  · next hrest =>
    have hmem : s.mem ∈ s.history := by
      have hfinal := h.final_mem
      rwa [hrest] at hfinal
    obtain ⟨h₀, hh₀, hsettled⟩ := h.settled
    exact ⟨List.mem_cons_self, fun _ => ⟨hquiet, s.mem, List.mem_cons_of_mem _ hmem, rfl⟩, honce,
      h₀, List.mem_cons_of_mem _ hh₀, hsettled⟩
  · exact h

theorem WriterInv.writerStep (h : WriterInv m f s) : WriterInv m f s.writerStep := by
  obtain ⟨hfinal, hrest, honce, h₀, hh₀, hsettled⟩ := h
  unfold State.writerStep
  split
  · exact ⟨hfinal, hrest, honce, h₀, hh₀, hsettled⟩
  · next m' f' k heq =>
    rw [heq] at hfinal hrest honce
    exact ⟨hfinal, fun hm => ⟨(hrest hm).1 _, (hrest hm).2⟩, honce _, h₀, hh₀, hsettled⟩
  · next m' f' v k heq =>
    rw [heq] at hfinal hrest honce
    refine ⟨hfinal, fun hm => ?_, honce.2, ?_⟩
    · obtain ⟨hquiet, h₁, hh₁, hmem⟩ := hrest hm
      exact ⟨hquiet.2, h₁, hh₁, (Update.store_of_ne_record hquiet.1).trans hmem⟩
    · by_cases hf : m' = m ∧ f' = f
      · obtain ⟨rfl, rfl⟩ := hf
        exact ⟨_, hfinal, (Update.final_of_noWrite (honce.1 ⟨rfl, rfl⟩)).symm⟩
      · exact ⟨h₀, hh₀, (Update.store_of_not hf).trans hsettled⟩
  · next m' k heq =>
    rw [heq] at hfinal hrest honce
    refine ⟨hfinal, fun hm => ?_, honce, h₀, hh₀, hsettled⟩
    by_cases hm' : m' = m
    · subst hm'
      simp at hm
    · have hold : s.marked m = false := by
        simpa only [Function.update_of_ne (Ne.symm hm')] using hm
      exact ⟨(hrest hold).1.resolve_left hm', (hrest hold).2⟩

theorem WriterInv.readerStep (h : WriterInv m f s) (m' : M) (body : Read V (Outcome A)) :
    WriterInv m f (s.readerStep m' body) := by
  unfold State.readerStep
  split <;> exact ⟨h.final_mem, h.rest, h.once, h.settled⟩

theorem WriterInv.quiet (h : WriterInv m f s) (hnot : ¬s.UnderWay m) :
    s.rest.Quiet m ∧ ∃ h ∈ s.history, s.mem m = h m := by
  by_cases hrest : s.rest.WritesOnly fun m' _ => m' ≠ m
  · have hfinal : s.rest.final s.mem m = s.mem m := Update.final_of_writesOnly hrest
    exact ⟨hrest.quiet fun _ hne => hne rfl, _, h.final_mem, hfinal.symm⟩
  · refine h.rest ?_
    by_contra hmarked
    exact hnot ⟨by simpa using hmarked, hrest⟩

/-- The writer has marked the record, or it is as it was at rest, and the reader gets from it what
it would have got then. -/
def Fresh (m : M) (body q : Read V (Outcome A)) (s : State M V A) : Prop :=
  (s.marks m).writer = true ∨
    s.rest.Quiet m ∧ ∃ h ∈ s.history, s.mem m = h m ∧ q.eval (h m) = body.eval (h m)

theorem Fresh.begin (h : Fresh m body q s) (hquiet : p.Quiet m) : Fresh m body q (s.begin p) := by
  unfold State.begin
  split
  · exact h.imp_right fun ⟨_, h₀, hh₀, hmem⟩ => ⟨hquiet, h₀, List.mem_cons_of_mem _ hh₀, hmem⟩
  · exact h

theorem Fresh.writerStep (h : Fresh m body q s) : Fresh m body q s.writerStep := by
  unfold State.writerStep
  split
  · exact h
  · next m' f' k heq =>
    refine h.imp_right fun ⟨hquiet, hat⟩ => ?_
    rw [heq] at hquiet
    exact ⟨hquiet _, hat⟩
  · next m' f' v k heq =>
    refine h.imp_right fun ⟨hquiet, h₀, hh₀, hmem, heval⟩ => ?_
    rw [heq] at hquiet
    exact ⟨hquiet.2, h₀, hh₀, (Update.store_of_ne_record hquiet.1).trans hmem, heval⟩
  · next m' k heq =>
    by_cases hm' : m' = m
    · subst hm'
      exact .inl (by simp)
    · refine h.imp (fun hmark => ?_) fun ⟨hquiet, hat⟩ => ?_
      · simpa [Function.update_of_ne (Ne.symm hm')] using hmark
      · rw [heq] at hquiet
        exact ⟨hquiet.resolve_left hm', hat⟩

/-- The answer of a request that is made of a record at rest -/
def alone (m : M) (body : Read V (Outcome A)) (h : M → (f : F) → V f) : A :=
  (body.eval (h m)).answer

/-- What holds of the reader, stage by stage -/
def ReaderInv (m : M) (body : Read V (Outcome A)) (s : State M V A) : Prop :=
  match s.reader with
  | .start => True
  | .cleared => Fresh m body body s
  | .reading q =>
    Fresh m body q s ∧ q = body ∨
    Fresh m body q s ∧ q.Leaves Outcome.IsChecked ∨
    ∃ a, q = .ret (.early a) ∧ ∃ h ∈ s.history, body.eval (h m) = .early a
  | .answered ans => ans = none ∨ ∃ h ∈ s.history, ans = some (alone m body h)

omit [DecidableEq M] [DecidableEq F] in
/-- What holds of the reader depends on its stage, on the records at rest and on their freshness. -/
theorem ReaderInv.of_fresh {s' : State M V A} (h : ReaderInv m body s)
    (hreader : s'.reader = s.reader) (hhistory : ∀ h ∈ s.history, h ∈ s'.history)
    (hfresh : ∀ q, Fresh m body q s → Fresh m body q s') : ReaderInv m body s' := by
  unfold ReaderInv at h ⊢
  rw [hreader]
  split at h
  · trivial
  · exact hfresh body h
  · next q _ =>
    obtain ⟨hf, hq⟩ | ⟨hf, hq⟩ | ⟨a, hq, h₀, hh₀, heval⟩ := h
    · exact .inl ⟨hfresh q hf, hq⟩
    · exact .inr (.inl ⟨hfresh q hf, hq⟩)
    · exact .inr (.inr ⟨a, hq, h₀, hhistory h₀ hh₀, heval⟩)
  · exact h.imp_right fun ⟨h₀, hh₀, hans⟩ => ⟨h₀, hhistory h₀ hh₀, hans⟩

theorem ReaderInv.begin (h : ReaderInv m body s) (hquiet : p.Quiet m) :
    ReaderInv m body (s.begin p) := by
  refine h.of_fresh ?_ ?_ fun q hq => hq.begin hquiet
  · unfold State.begin
    split <;> rfl
  · unfold State.begin
    split
    · exact fun h₀ hh₀ => List.mem_cons_of_mem _ hh₀
    · exact fun h₀ hh₀ => hh₀

theorem ReaderInv.writerStep (h : ReaderInv m body s) : ReaderInv m body s.writerStep := by
  refine h.of_fresh ?_ ?_ fun q hq => hq.writerStep
  · unfold State.writerStep
    split <;> rfl
  · unfold State.writerStep
    split <;> exact fun h₀ hh₀ => hh₀

variable {k : V f → Read V (Outcome A)}

/-- The reader is kept right by its own steps, if it does not clear the marks during an update. -/
theorem ReaderInv.readerStep (hbody : body = .field f k)
    (hk : ∀ v, (∃ a, k v = .ret (.early a)) ∨ (k v).Leaves Outcome.IsChecked)
    (hw : WriterInv m f s) (h : ReaderInv m body s)
    (hclear : s.reader = .start → ¬s.UnderWay m) : ReaderInv m body (s.readerStep m body) := by
  unfold ReaderInv at h
  unfold State.readerStep
  split
  · next hreader =>
    obtain ⟨hquiet, h₀, hh₀, hmem⟩ := hw.quiet (hclear hreader)
    exact .inr ⟨hquiet, h₀, hh₀, hmem, rfl⟩
  · next hreader =>
    rw [hreader] at h
    refine .inl ⟨h.imp_left fun hmark => ?_, rfl⟩
    simpa using hmark
  · next f' k' hreader =>
    rw [hreader] at h
    -- the reader looks at one more field, which is as it was at rest if it is not marked
    have hnext : Fresh m body (.field f' k') s → Fresh m body (k' (s.mem m f')) s := by
      refine Or.imp_right fun ⟨hquiet, h₀, hh₀, hmem, heval⟩ => ⟨hquiet, h₀, hh₀, hmem, ?_⟩
      rw [hmem]
      exact heval
    obtain ⟨hf, hq⟩ | ⟨hf, hq⟩ | ⟨a, hq, -⟩ := h
    · rw [hbody] at hq
      cases hq
      obtain ⟨a, hearly⟩ | hchecked := hk (s.mem m f)
      · obtain ⟨h₀, hh₀, hsettled⟩ := hw.settled
        refine .inr (.inr ⟨a, hearly, h₀, hh₀, ?_⟩)
        rw [hbody, Read.eval, ← hsettled, hearly, Read.eval]
      · exact .inr (.inl ⟨hnext hf, hchecked⟩)
    · exact .inr (.inl ⟨hnext hf, hq _⟩)
    · cases hq
  · next a hreader =>
    rw [hreader] at h
    obtain ⟨-, hq⟩ | ⟨-, hq⟩ | ⟨a', hq, h₀, hh₀, heval⟩ := h
    · rw [hbody] at hq
      cases hq
    · exact hq.elim
    · cases hq
      refine .inr ⟨h₀, hh₀, ?_⟩
      rw [alone, heval, Outcome.answer]
  · next a hreader =>
    rw [hreader] at h
    obtain ⟨-, hq⟩ | ⟨hf, -⟩ | ⟨a', hq, -⟩ := h
    · rw [hbody] at hq
      cases hq
    · obtain hmark | ⟨-, h₀, hh₀, -, heval⟩ := hf
      · exact .inl (if_pos hmark)
      · by_cases hmark : (s.marks m).writer = true
        · exact .inl (if_pos hmark)
        · refine .inr ⟨h₀, hh₀, (if_neg hmark).trans ?_⟩
          rw [alone, ← heval, Read.eval, Outcome.answer]
    · cases hq
  · next ans hreader =>
    rw [hreader] at h
    rw [ReaderInv, hreader]
    exact h

theorem allowed_reader (h : ¬s.UnderWay m) (n : Nat) :
    Allowed (step m body) (Timely updates m) s (List.replicate n .reader) := by
  induction n generalizing s with
  | zero => trivial
  | succ n ih =>
    refine ⟨fun _ => h, ih ?_⟩
    have hkeep : (s.readerStep m body).marked = s.marked ∧
        (s.readerStep m body).rest = s.rest := by
      unfold State.readerStep
      split <;> exact ⟨rfl, rfl⟩
    rw [step, UnderWay, hkeep.1, hkeep.2]
    exact h

/-- Whatever the order of the steps, what is answered could have been read from the record at rest,
if the marks are not cleared while an update of it is under way. -/
theorem answered_of_reach {mem : M → (f : F) → V f} {marks : M → Marks} {ans : Option A}
    (hupdates : ∀ p, updates p → p.Quiet m ∧ p.Once m f) (hbody : body = .field f k)
    (hk : ∀ v, (∃ a, k v = .ret (.early a)) ∨ (k v).Leaves Outcome.IsChecked)
    (h : Reach (step m body) (Timely updates m) (init mem marks) s)
    (hans : s.reader = .answered ans) :
    ans = none ∨ ∃ h ∈ s.history, ans = some (alone m body h) := by
  have hinv : WriterInv m f s ∧ ReaderInv m body s := by
    refine Reach.invariant (I := fun s => WriterInv m f s ∧ ReaderInv m body s)
      ⟨writerInv_init mem marks, trivial⟩ ?_ h
    rintro s e ⟨hw, hr⟩ hok
    cases e with
    | begin p =>
      obtain ⟨hquiet, honce⟩ := hupdates p hok
      exact ⟨hw.begin hquiet honce, hr.begin hquiet⟩
    | writer => exact ⟨hw.writerStep, hr.writerStep⟩
    | reader => exact ⟨hw.readerStep m body, hr.readerStep hbody hk hw hok⟩
  have hr := hinv.2
  rwa [ReaderInv, hans] at hr

end State

end ChromiumEc.Lib.Snapshot
