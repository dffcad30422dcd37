import Multistage.Error
/-!
# When a computation that may fail succeeds

A chain of checks succeeds exactly when each of its steps does (`bind_eq_ok`), and a check or a computation made for
every member of a list succeeds exactly when it does so for each member.  An action with a state goes on from the
state that its first step leaves, or fails with it.
-/
namespace Multistage

variable {ε σ α β : Type}

theorem exists_of_isOk {x : Except ε α} (h : x.isOk = true) : ∃ a, x = .ok a := by
  cases x with
  | error e => cases h
  | ok a => exact ⟨a, rfl⟩

theorem bind_eq_ok {x : Except ε α} {f : α → Except ε β} {b : β} :
    (x >>= f) = .ok b ↔ ∃ a, x = .ok a ∧ f a = .ok b := by
  cases x with
  | error e => simp [bind, Except.bind]
  | ok a => simp [bind, Except.bind]

theorem pure_eq_ok {a b : α} : (pure a : Except ε α) = .ok b ↔ a = b := by
  simp [pure, Except.pure]

theorem mapError_eq_ok {δ : Type} {f : ε → δ} {x : Except ε α} {a : α} :
    x.mapError f = .ok a ↔ x = .ok a := by
  cases x with
  | error e => exact iff_of_false nofun nofun
  | ok b => exact ⟨fun h => congrArg _ (Except.ok.inj h), fun h => congrArg _ (Except.ok.inj h)⟩

theorem forM_eq_ok {f : α → Except ε Unit} : ∀ {l : List α} {u : Unit},
    l.forM f = .ok u ↔ ∀ x ∈ l, f x = .ok ()
  | [], u => by simp [pure_eq_ok]
  | x :: l, u => by
    have step : (x :: l).forM f = (f x >>= fun _ => l.forM f) := rfl
    rw [step, bind_eq_ok, List.forall_mem_cons]
    exact ⟨fun ⟨_, hx, hl⟩ => ⟨hx, forM_eq_ok.1 hl⟩, fun ⟨hx, hl⟩ => ⟨(), hx, forM_eq_ok.2 hl⟩⟩

theorem mapM_eq_ok {f : α → Except ε β} : ∀ {l : List α} {ys : List β},
    l.mapM f = .ok ys ↔
      ys.length = l.length ∧ ∀ (i : Nat) (x : α), l[i]? = some x → ∃ y, ys[i]? = some y ∧ f x = .ok y
  | [], ys => by
    rw [List.mapM_nil, pure_eq_ok, List.length_nil, List.length_eq_zero_iff]
    simp [eq_comm]
  | x :: l, ys => by
    simp only [List.mapM_cons, bind_eq_ok, pure_eq_ok, mapM_eq_ok]
    constructor
    · rintro ⟨y, hy, ys, ⟨length, all⟩, rfl⟩
      refine ⟨by simp [length], fun i z hz => ?_⟩
      cases i with
      | zero =>
        obtain rfl : x = z := by simpa using hz
        exact ⟨y, rfl, hy⟩
      | succ i => exact all i z hz
    · rintro ⟨length, all⟩
      cases ys with
      | nil => simp at length
      | cons y ys =>
        obtain ⟨y', hy', hx⟩ := all 0 x rfl
        obtain rfl : y = y' := by simpa using hy'
        exact ⟨y, hx, ys, ⟨by simpa using length, fun i z hz => all (i + 1) z hz⟩, rfl⟩

theorem exists_mapM_eq_ok {f : α → Except ε β} : ∀ {l : List α}, (∀ x ∈ l, ∃ y, f x = .ok y) →
    ∃ ys, l.mapM f = .ok ys
  | [], _ => ⟨[], rfl⟩
  | x :: l, h => by
    obtain ⟨y, hy⟩ := h x (List.mem_cons_self ..)
    obtain ⟨ys, hys⟩ := exists_mapM_eq_ok fun z hz => h z (List.mem_cons_of_mem _ hz)
    exact ⟨y :: ys, by rw [List.mapM_cons, hy, hys]; rfl⟩

/-! ## Actions with a state -/

theorem run_bind_ok {x : EStateM ε σ α} {f : α → EStateM ε σ β} {s s' : σ} {a : α} (h : x.run s = .ok a s') :
    (x >>= f).run s = (f a).run s' := by
  have ran : x s = .ok a s' := h
  show EStateM.bind x f s = _
  rw [EStateM.bind, ran]
  rfl

theorem run_bind_error {x : EStateM ε σ α} {f : α → EStateM ε σ β} {s s' : σ} {e : ε}
    (h : x.run s = .error e s') : (x >>= f).run s = .error e s' := by
  have ran : x s = .error e s' := h
  show EStateM.bind x f s = _
  rw [EStateM.bind, ran]

/-- What an action answers. -/
def answered (x : EStateM ε σ α) (s : σ) : Except ε α :=
  match x.run s with
  | .ok a _ => .ok a
  | .error e _ => .error e

/-- The state after an action, also after a failed one. -/
def stateAfter (x : EStateM ε σ α) (s : σ) : σ :=
  match x.run s with
  | .ok _ s' => s'
  | .error _ s' => s'

theorem run_eq_ok {x : EStateM ε σ α} {s s' : σ} {a : α} (answer : answered x s = .ok a)
    (after : stateAfter x s = s') : x.run s = .ok a s' := by
  unfold answered at answer
  unfold stateAfter at after
  cases ran : x.run s with
  | error e s₁ =>
    rw [ran] at answer
    cases answer
  | ok b s₁ =>
    rw [ran] at answer after
    cases answer
    cases after
    rfl

theorem run_bind_get {f : σ → EStateM ε σ β} {s : σ} : (get >>= f).run s = (f s).run s :=
  run_bind_ok rfl

/-! ## Actions that leave the state as it was when they fail

An action that makes all its checks before its first write does so, and the rules below follow the text of such an
action: what only looks may come in front, and what cannot fail may come behind. -/

/-- A failure leaves the state as it was. -/
def Atomic (x : EStateM ε σ α) : Prop := ∀ s e s', x.run s = .error e s' → s' = s

def Infallible (x : EStateM ε σ α) : Prop := ∀ s, ∃ a s', x.run s = .ok a s'

theorem infallible_pure (a : α) : Infallible (pure a : EStateM ε σ α) := fun s => ⟨a, s, rfl⟩

theorem infallible_modify (f : σ → σ) : Infallible (modify f : EStateM ε σ PUnit) := fun s => ⟨⟨⟩, f s, rfl⟩

theorem infallible_set (s : σ) : Infallible (set s : EStateM ε σ PUnit) := fun _ => ⟨⟨⟩, s, rfl⟩

theorem Infallible.bind {x : EStateM ε σ α} {f : α → EStateM ε σ β} (hx : Infallible x)
    (hf : ∀ a, Infallible (f a)) : Infallible (x >>= f) := fun s => by
  obtain ⟨a, s', ran⟩ := hx s
  rw [run_bind_ok ran]
  exact hf a s'

theorem Infallible.atomic {x : EStateM ε σ α} (hx : Infallible x) : Atomic x := fun s e s' failed => by
  obtain ⟨a, s', ran⟩ := hx s
  rw [ran] at failed
  cases failed

theorem Atomic.bind {x : EStateM ε σ α} {f : α → EStateM ε σ β} (hx : Atomic x) (hf : ∀ a, Infallible (f a)) :
    Atomic (x >>= f) := fun s e s' failed => by
  cases ran : x.run s with
  | ok a s₁ =>
    obtain ⟨b, s₂, went⟩ := hf a s₁
    rw [run_bind_ok ran, went] at failed
    cases failed
  | error e₁ s₁ =>
    rw [run_bind_error ran] at failed
    cases failed
    exact hx s e s' ran

theorem Atomic.get_bind {f : σ → EStateM ε σ β} (hf : ∀ s, Atomic (f s)) : Atomic (get >>= f) := fun s e s' failed =>
  hf s s e s' (run_bind_get.symm.trans failed)

theorem Atomic.attempt_bind {x : Except Error α} {f : α → EStateM Error σ β} (hf : ∀ a, x = .ok a → Atomic (f a)) :
    Atomic (attempt x >>= f) := fun s e s' failed => by
  cases x with
  | ok a => exact hf a rfl s e s' (run_bind_ok (run_attempt_ok a s) ▸ failed)
  | error e₁ =>
    rw [run_bind_error (run_attempt_error e₁ s)] at failed
    cases failed
    rfl

theorem atomic_attempt (x : Except Error α) : Atomic (attempt x : EStateM Error σ α) := fun s e s' failed => by
  cases x with
  | ok a => cases failed
  | error e₁ =>
    cases failed
    rfl

end Multistage
