import Mathlib.Logic.Unique

/-!
# Transactions over a store

A transaction body reads and writes a private copy of the store and either answers or
fails. `Txn.commit` publishes the copy of a body that answers and drops the copy of one
that fails.
-/

/-- A transaction body over the store `σ`, with failures in `ε`. -/
def Txn (σ ε α : Type) := σ → Except ε (α × σ)

namespace Txn

variable {σ ε α β : Type}

def run (t : Txn σ ε α) (s : σ) : Except ε (α × σ) := t s

instance : Monad (Txn σ ε) where
  pure a := fun s => .ok (a, s)
  bind x f := fun s =>
    match x s with
    | .ok (a, s') => f a s'
    | .error e => .error e

def fail (e : ε) : Txn σ ε α := fun _ => .error e

/-- Go on only when the condition holds. -/
def ensure (c : Prop) [Decidable c] (e : ε) : Txn σ ε Unit :=
  if c then pure () else fail e

/-- Read a view of the store. -/
def read (f : σ → α) : Txn σ ε α := fun s => .ok (f s, s)

def write (f : σ → σ) : Txn σ ε Unit := fun s => .ok ((), f s)

/-- Take the value of an option, or fail. -/
def demand (o : Option α) (e : ε) : Txn σ ε α :=
  match o with
  | some a => pure a
  | none => fail e

/-- Use the answer of a call that does not touch the store. -/
def ofExcept (r : Except ε α) : Txn σ ε α := fun s => r.map (·, s)

/-- Report the failures of a body as other ones. -/
def mapError (f : ε → ε) (t : Txn σ ε α) : Txn σ ε α := fun s => (t s).mapError f

/-- Run one body for each element, in order. -/
def forEach (f : β → Txn σ ε Unit) : List β → Txn σ ε Unit
  | [] => pure ()
  | b :: bs => do f b; forEach f bs

/-- Run a body on a part of the store. -/
def onPart {τ : Type} (get : σ → τ) (put : τ → σ → σ) (t : Txn τ ε α) : Txn σ ε α := fun s =>
  (t (get s)).map fun p => (p.1, put p.2 s)

/-- An update that has to affect exactly one row. -/
def updateOne (affected : σ → Nat) (f : σ → σ) (e : ε) : Txn σ ε Unit := do
  let n ← read affected
  ensure (n = 1) e
  write f

/-- Publish the store of a body that answers; keep the old one when it fails. -/
def commit (t : Txn σ ε α) (s : σ) : Except ε α × σ :=
  match t.run s with
  | .ok (a, s') => (.ok a, s')
  | .error e => (.error e, s)

/-! ### What a body that answers has done -/

variable {s s' : σ} {a : α} {b : β} {e e' : ε}

@[simp] theorem pure_ok {x : α} : (pure x : Txn σ ε α).run s = .ok (a, s') ↔ x = a ∧ s = s' := by
  simp [run, pure]

variable {x t y : Txn σ ε α} {c : Prop} {u : Unit} {f : σ → σ} {o : Option α} {r : Except ε α}
    {affected : σ → Nat}

@[simp] theorem bind_ok {f : α → Txn σ ε β} :
    (x >>= f).run s = .ok (b, s') ↔ ∃ a u, x.run s = .ok (a, u) ∧ (f a).run u = .ok (b, s') := by
  simp only [run, bind]
  cases hx : x s with
  | error e => simp
  | ok p =>
    obtain ⟨a, u⟩ := p
    constructor
    · intro h
      exact ⟨a, u, rfl, h⟩
    · rintro ⟨a', u', heq, h⟩
      cases heq
      exact h

@[simp] theorem fail_ok : (fail e : Txn σ ε α).run s = .ok (a, s') ↔ False := by
  simp [run, fail]

@[simp] theorem ensure_ok [Decidable c] :
    (ensure c e : Txn σ ε Unit).run s = .ok (u, s') ↔ c ∧ s = s' := by
  by_cases hc : c
  · simp [ensure, hc]
  · simp [ensure, hc]

@[simp] theorem read_ok {f : σ → α} :
    (read f : Txn σ ε α).run s = .ok (a, s') ↔ f s = a ∧ s = s' := by
  simp [run, read]

@[simp] theorem write_ok : (write f : Txn σ ε Unit).run s = .ok (u, s') ↔ f s = s' := by
  simp [run, write]

@[simp] theorem demand_ok : (demand o e : Txn σ ε α).run s = .ok (a, s') ↔ o = some a ∧ s = s' := by
  cases o with
  | none | some => simp [demand]

@[simp] theorem ofExcept_ok :
    (ofExcept r : Txn σ ε α).run s = .ok (a, s') ↔ r = .ok a ∧ s = s' := by
  cases r with
  | error | ok => simp [run, ofExcept, Except.map]

@[simp] theorem except_mapError_ok {ε' : Type} (f : ε → ε') (a : α) :
    (Except.ok a : Except ε α).mapError f = .ok a :=
  rfl

@[simp] theorem except_mapError_error {ε' : Type} {f : ε → ε'} :
    (Except.error e : Except ε α).mapError f = .error (f e) :=
  rfl

@[simp] theorem mapError_ok {f : ε → ε} :
    (mapError f t).run s = .ok (a, s') ↔ t.run s = .ok (a, s') := by
  cases h : t s with
  | error | ok => simp [run, mapError, h]

@[simp] theorem onPart_ok {τ : Type} {get : σ → τ} {put : τ → σ → σ} {t : Txn τ ε α} :
    (onPart get put t).run s = .ok (a, s') ↔
      ∃ u, t.run (get s) = .ok (a, u) ∧ put u s = s' := by
  simp only [run, onPart]
  cases ht : t (get s) with
  | error e => simp [Except.map]
  | ok p =>
    obtain ⟨x, u⟩ := p
    simp only [Except.map, Except.ok.injEq, Prod.mk.injEq]
    constructor
    · rintro ⟨rfl, rfl⟩
      exact ⟨u, ⟨rfl, rfl⟩, rfl⟩
    · rintro ⟨_, ⟨rfl, rfl⟩, rfl⟩
      exact ⟨rfl, rfl⟩

@[simp] theorem updateOne_ok :
    (updateOne affected f e).run s = .ok (u, s') ↔ affected s = 1 ∧ f s = s' := by
  simp only [updateOne, bind_ok, read_ok, ensure_ok, write_ok]
  constructor
  · rintro ⟨_, _, ⟨rfl, rfl⟩, _, _, ⟨hone, rfl⟩, rfl⟩
    exact ⟨hone, rfl⟩
  · rintro ⟨hone, rfl⟩
    exact ⟨_, _, ⟨rfl, rfl⟩, (), _, ⟨hone, rfl⟩, rfl⟩

theorem bind_pure_ok {f : α → β} :
    (x >>= fun a => pure (f a)).run s = .ok (b, s') ↔ ∃ a, x.run s = .ok (a, s') ∧ f a = b := by
  simp [bind_ok, ← and_assoc]

/-- The body answers, and this holds of its answer and of the store then. -/
def Then (t : Txn σ ε α) (s : σ) (P : α → σ → Prop) : Prop := ∃ a u, t.run s = .ok (a, u) ∧ P a u

/-- The rules for bodies that answer, statement by statement, as one set for `simp`. -/
theorem answers :
    (∀ {α β : Type} {x : Txn σ ε α} {f : α → Txn σ ε β} {s s' : σ} {b : β},
      (x >>= f).run s = .ok (b, s') ↔ x.Then s fun a u => (f a).run u = .ok (b, s')) ∧
    (∀ {α β : Type} {x : Txn σ ε α} {f : α → Txn σ ε β} {s : σ} {P : β → σ → Prop},
      (x >>= f).Then s P ↔ x.Then s fun a u => (f a).Then u P) ∧
    (∀ {α : Type} {x : α} {s : σ} {P : α → σ → Prop}, (pure x : Txn σ ε α).Then s P ↔ P x s) ∧
    (∀ {α : Type} {f : σ → α} {s : σ} {P : α → σ → Prop},
      (read f : Txn σ ε α).Then s P ↔ P (f s) s) ∧
    (∀ {f : σ → σ} {s : σ} {P : Unit → σ → Prop}, (write f : Txn σ ε Unit).Then s P ↔ P () (f s)) ∧
    (∀ {c : Prop} [Decidable c] {e : ε} {s : σ} {P : Unit → σ → Prop},
      (ensure c e).Then s P ↔ c ∧ P () s) ∧
    (∀ {α : Type} {o : Option α} {e : ε} {s : σ} {P : α → σ → Prop},
      (demand o e).Then s P ↔ ∃ a, o = some a ∧ P a s) ∧
    (∀ {α : Type} {r : Except ε α} {s : σ} {P : α → σ → Prop},
      (ofExcept r).Then s P ↔ ∃ a, r = .ok a ∧ P a s) ∧
    (∀ {affected : σ → Nat} {f : σ → σ} {e : ε} {s : σ} {P : Unit → σ → Prop},
      (updateOne affected f e).Then s P ↔ affected s = 1 ∧ P () (f s)) ∧
    (∀ {α : Type} {g : ε → ε} {t : Txn σ ε α} {s : σ} {P : α → σ → Prop},
      (mapError g t).Then s P ↔ t.Then s P) ∧
    (∀ {α : Type} {x a : α} {s s' : σ}, (pure x : Txn σ ε α).run s = .ok (a, s') ↔ x = a ∧ s = s') ∧
    (∀ {f : σ → σ} {u : Unit} {s s' : σ}, (write f : Txn σ ε Unit).run s = .ok (u, s') ↔ f s = s') ∧
    (∀ {c : Prop} [Decidable c] {e : ε} {u : Unit} {s s' : σ},
      (ensure c e : Txn σ ε Unit).run s = .ok (u, s') ↔ c ∧ s = s') ∧
    (∀ {α : Type} {o : Option α} {e : ε} {a : α} {s s' : σ},
      (demand o e : Txn σ ε α).run s = .ok (a, s') ↔ o = some a ∧ s = s') ∧
    (∀ {affected : σ → Nat} {f : σ → σ} {e : ε} {u : Unit} {s s' : σ},
      (updateOne affected f e).run s = .ok (u, s') ↔ affected s = 1 ∧ f s = s') ∧
    ∀ {α : Type} {g : ε → ε} {t : Txn σ ε α} {a : α} {s s' : σ},
      (mapError g t).run s = .ok (a, s') ↔ t.run s = .ok (a, s') := by
  refine ⟨bind_ok, ?_, by simp [Then, and_assoc], by simp [Then, and_assoc],
    by simp [Then, Unique.exists_iff], by simp [Then, and_assoc, Unique.exists_iff],
    by simp [Then, and_assoc],
    by simp [Then, and_assoc], by simp [Then, and_assoc, Unique.exists_iff], by simp [Then],
    pure_ok, write_ok, ensure_ok, demand_ok, updateOne_ok, mapError_ok⟩
  intro α β x f s P
  simp only [Then, bind_ok]
  constructor
  · rintro ⟨b, v, ⟨a, u, hx, hf⟩, hP⟩
    exact ⟨a, u, hx, b, v, hf, hP⟩
  · rintro ⟨a, u, hx, b, v, hf, hP⟩
    exact ⟨b, v, ⟨a, u, hx, hf⟩, hP⟩

/-! ### What a body that fails has met -/

@[simp] theorem pure_error {x : α} : (pure x : Txn σ ε α).run s = .error e ↔ False := by
  simp [run, pure]

@[simp] theorem bind_error {f : α → Txn σ ε β} :
    (x >>= f).run s = .error e ↔
      x.run s = .error e ∨ ∃ a u, x.run s = .ok (a, u) ∧ (f a).run u = .error e := by
  simp only [run, bind]
  cases hx : x s with
  | error e' => simp
  | ok p =>
    obtain ⟨a, u⟩ := p
    constructor
    · intro h
      exact .inr ⟨a, u, rfl, h⟩
    · rintro (h | ⟨a', u', heq, h⟩)
      · cases h
      · cases heq
        exact h

@[simp] theorem fail_error : (fail e : Txn σ ε α).run s = .error e' ↔ e = e' := by
  simp [run, fail]

@[simp] theorem ensure_error [Decidable c] :
    (ensure c e : Txn σ ε Unit).run s = .error e' ↔ ¬ c ∧ e = e' := by
  by_cases hc : c
  · simp [ensure, hc]
  · simp [ensure, hc]

@[simp] theorem read_error {f : σ → α} : (read f : Txn σ ε α).run s = .error e ↔ False := by
  simp [run, read]

@[simp] theorem write_error : (write f : Txn σ ε Unit).run s = .error e ↔ False := by
  simp [run, write]

@[simp] theorem demand_error : (demand o e : Txn σ ε α).run s = .error e' ↔ o = none ∧ e = e' := by
  cases o with
  | none | some => simp [demand]

@[simp] theorem ofExcept_error : (ofExcept r : Txn σ ε α).run s = .error e ↔ r = .error e := by
  cases r with
  | error | ok => simp [run, ofExcept, Except.map]

/-! ### Commit and rollback -/

theorem commit_eq_ok : t.commit s = (.ok a, s') ↔ t.run s = .ok (a, s') := by
  unfold commit
  cases t.run s with
  | error e => simp
  | ok p =>
    obtain ⟨x, u⟩ := p
    simp

theorem commit_eq_error : t.commit s = (.error e, s') ↔ t.run s = .error e ∧ s = s' := by
  unfold commit
  cases t.run s with
  | error | ok => simp

/-- A transaction either publishes what its body did or leaves the store alone. -/
theorem commit_cases (t : Txn σ ε α) (s : σ) :
    (∃ a s', t.run s = .ok (a, s') ∧ t.commit s = (.ok a, s')) ∨
      (∃ e, t.run s = .error e ∧ t.commit s = (.error e, s)) := by
  cases h : t.run s with
  | error e => exact .inr ⟨e, rfl, by simp [commit, h]⟩
  | ok p => exact .inl ⟨p.1, p.2, rfl, by simp [commit, h]⟩

/-- The store after a transaction: the old one, or what its body has made of it. -/
theorem commit_snd {P : σ → Prop} (hs : P s)
    (hok : ∀ a s', t.run s = .ok (a, s') → P s') : P (t.commit s).2 := by
  rcases commit_cases t s with ⟨a, s', hrun, hcommit⟩ | ⟨e, -, hcommit⟩
  · rw [hcommit]
    exact hok a s' hrun
  · rw [hcommit]
    exact hs

theorem commit_ok_of_fst (h : (t.commit s).1 = .ok a) : t.run s = .ok (a, (t.commit s).2) :=
  commit_eq_ok.1 (Prod.ext h rfl)

theorem commit_error_of_fst (h : (t.commit s).1 = .error e) :
    t.run s = .error e ∧ (t.commit s).2 = s := by
  obtain ⟨hr, hs⟩ := commit_eq_error.1 (Prod.ext h rfl : t.commit s = (.error e, (t.commit s).2))
  exact ⟨hr, hs.symm⟩

/-! ### What bodies keep -/

/-- A body that answers keeps `P`. -/
def Keeps (P : σ → Prop) (t : Txn σ ε α) : Prop :=
  ∀ ⦃s a s'⦄, P s → t.run s = .ok (a, s') → P s'

variable {P : σ → Prop}

theorem Keeps.write (h : ∀ s, P s → P (f s)) :
    Keeps P (write f : Txn σ ε Unit) := by
  intro s a s' hs hr
  rw [← write_ok.1 hr]
  exact h s hs

/-- A committed or rolled back body keeps what its answering runs keep. -/
theorem Keeps.commit (ht : Keeps P t) (hs : P s) : P (t.commit s).2 :=
  commit_snd hs fun _ _ hr => ht hs hr

/-! ### Frames -/

variable {γ : Type} {view : σ → γ}

/-- A body that answers leaves this view of the store as it was. -/
def Frame (view : σ → γ) (t : Txn σ ε α) : Prop :=
  ∀ ⦃s a s'⦄, t.run s = .ok (a, s') → view s' = view s

/-- What only a framed view decides is kept. -/
theorem Frame.keeps (ht : Frame view t)
    (hP : ∀ s s', view s' = view s → P s → P s') : Keeps P t := by
  intro s a s' hs hr
  exact hP s s' (ht hr) hs

theorem Frame.pure {x : α} : Frame view (pure x : Txn σ ε α) := by
  intro s a s' h
  rw [(pure_ok.1 h).2]

theorem Frame.bind {f : α → Txn σ ε β} (hx : Frame view x)
    (hf : ∀ a, Frame view (f a)) : Frame view (x >>= f) := by
  intro s b s' h
  obtain ⟨a, u, hxa, hfa⟩ := bind_ok.1 h
  rw [hf a hfa, hx hxa]

theorem Frame.ensure [Decidable c] : Frame view (ensure c e : Txn σ ε Unit) := by
  intro s a s' h
  rw [(ensure_ok.1 h).2]

theorem Frame.read {f : σ → α} : Frame view (read f : Txn σ ε α) := by
  intro s a s' h
  rw [(read_ok.1 h).2]

theorem Frame.demand : Frame view (demand o e : Txn σ ε α) := by
  intro s a s' h
  rw [(demand_ok.1 h).2]

theorem Frame.ofExcept : Frame view (ofExcept r : Txn σ ε α) := by
  intro s a s' h
  rw [(ofExcept_ok.1 h).2]

theorem Frame.write (hf : ∀ s, view (f s) = view s) :
    Frame view (write f : Txn σ ε Unit) := by
  intro s a s' h
  rw [← write_ok.1 h, hf]

theorem Frame.check [Decidable c] (ht : Frame view t) :
    Frame view (Txn.ensure c e >>= fun _ => t) :=
  .bind .ensure fun _ => ht

theorem Frame.look {g : σ → β} {f : β → Txn σ ε α} (hf : ∀ b, Frame view (f b)) :
    Frame view (Txn.read g >>= f) :=
  .bind .read hf

theorem Frame.updateOne (hf : ∀ s, view (f s) = view s) :
    Frame view (updateOne affected f e : Txn σ ε Unit) :=
  .look fun _ => .check <| .write hf

theorem Frame.ite [Decidable c] (hx : Frame view x)
    (hy : Frame view y) : Frame view (if c then x else y) := by
  split
  · exact hx
  · exact hy

theorem Frame.mapError {f : ε → ε} (ht : Frame view t) : Frame view (mapError f t) := by
  intro s a s' h
  exact ht (mapError_ok.1 h)

/-! ### Errors a body does not raise -/

theorem bind_ne_error {x : Except ε α} {f : α → Except ε β} (hx : x ≠ .error e)
    (hf : ∀ a, f a ≠ .error e) : (x >>= f) ≠ .error e := by
  cases x with
  | ok a => exact hf a
  | error e' =>
    intro h
    cases h
    exact hx rfl

/-- A body that never fails with this error. -/
def Never (e : ε) (t : Txn σ ε α) : Prop := ∀ s, t.run s ≠ .error e

theorem Never.bind {f : α → Txn σ ε β} (hx : Never e x)
    (hf : ∀ a, Never e (f a)) : Never e (x >>= f) := by
  intro s h
  rcases bind_error.1 h with h | ⟨a, u, -, h⟩
  · exact hx s h
  · exact hf a u h

theorem Never.pure {x : α} : Never e (pure x : Txn σ ε α) := by
  intro s h
  exact pure_error.1 h

theorem Never.ensure [Decidable c] (h : e' ≠ e) : Never e (ensure c e' : Txn σ ε Unit) := by
  intro s hs
  exact h (ensure_error.1 hs).2

theorem Never.read {f : σ → α} : Never e (read f : Txn σ ε α) := by
  intro s h
  exact read_error.1 h

theorem Never.write : Never e (write f : Txn σ ε Unit) := by
  intro s h
  exact write_error.1 h

theorem Never.demand (h : e' ≠ e) : Never e (demand o e' : Txn σ ε α) := by
  intro s hs
  exact h (demand_error.1 hs).2

theorem Never.ofExcept (h : r ≠ .error e) : Never e (ofExcept r : Txn σ ε α) := by
  intro s hs
  exact h (ofExcept_error.1 hs)

theorem Never.ite [Decidable c] (hx : Never e x)
    (hy : Never e y) : Never e (if c then x else y) := by
  split
  · exact hx
  · exact hy

theorem Never.forEach {f : β → Txn σ ε Unit} (hf : ∀ b, Never e (f b)) (bs : List β) :
    Never e (forEach f bs) := by
  induction bs with
  | nil => exact Never.pure
  | cons b bs ih => exact Never.bind (hf b) fun _ => ih

end Txn
