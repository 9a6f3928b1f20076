import Mathlib.Control.Basic
import Mathlib.Order.Defs.Unbundled

/-!
# Stateful computations that fail or panic

A `Flow σ ε α` reads and changes a state `σ` and ends in one of three ways: it
returns a value, it returns an error that its caller can handle, or it panics.
A panic cannot be handled: it ends every enclosing computation.

`Ensures` is the partial-correctness judgement used by the developments built
on flows.  Its rules follow the way a flow is put together, so a specification
of a sequence is assembled from the specifications of its parts.
-/

namespace Flows

/-- How a computation ends early. -/
inductive Stop (ε : Type) where
  | error (e : ε)
  | panic
deriving DecidableEq, Repr

/-- A result computed in two steps is a value when both steps are. -/
theorem except_bind_eq_ok
    {ε α β : Type} {first : Except ε α} {next : α → Except ε β} {b : β}
    (equality : first >>= next = .ok b) :
    ∃ a, first = .ok a ∧ next a = .ok b := by
  cases first with
  | error e => cases equality
  | ok a => exact ⟨a, rfl, equality⟩

/-- Another error of a result leaves its values alone. -/
theorem except_mapError_eq_ok
    {ε δ α : Type} {outcome : Except ε α} {change : ε → δ} {a : α}
    (equality : outcome.mapError change = .ok a) : outcome = .ok a := by
  cases outcome with
  | error e => cases equality
  | ok b => exact congrArg Except.ok (Except.ok.inj equality)

/-- A computation over a state `σ` that can fail with `ε` or panic. -/
abbrev Flow (σ ε α : Type) := ExceptT (Stop ε) (StateM σ) α

namespace Flow

variable {σ τ ε α β : Type}

/-- Run a flow from a state. -/
def exec (flow : Flow σ ε α) (s : σ) : Except (Stop ε) α × σ :=
  (ExceptT.run flow).run s

/-- The flow with a given behaviour on every state. -/
def mk (behaviour : σ → Except (Stop ε) α × σ) : Flow σ ε α :=
  ExceptT.mk fun s => behaviour s

/-- Read the state. -/
def read (observe : σ → α) : Flow σ ε α :=
  mk fun s => (.ok (observe s), s)

/-- Change the state. -/
def update (change : σ → σ) : Flow σ ε Unit :=
  mk fun s => (.ok (), change s)

/-- Fail with an error. -/
def fail (e : ε) : Flow σ ε α :=
  throw (Stop.error e)

/-- Panic. -/
def panicking : Flow σ ε α :=
  throw Stop.panic

/-- Propagate the error of a result, as the `?` operator does. -/
def ofExcept : Except ε α → Flow σ ε α
  | .ok a => pure a
  | .error e => fail e

/-- Turn the error of a flow into a value.  A panic is not caught. -/
def result (flow : Flow σ ε α) : Flow σ ε (Except ε α) :=
  mk fun s =>
    match exec flow s with
    | (.ok a, t) => (.ok (.ok a), t)
    | (.error (.error e), t) => (.ok (.error e), t)
    | (.error .panic, t) => (.error .panic, t)

/-- Run a flow on one part of a larger state. -/
def zoom (focus : τ → σ) (replace : σ → τ → τ) (flow : Flow σ ε α) :
    Flow τ ε α :=
  mk fun t =>
    match exec flow (focus t) with
    | (outcome, s) => (outcome, replace s t)

@[simp]
theorem exec_mk (behaviour : σ → Except (Stop ε) α × σ) (s : σ) :
    exec (mk behaviour) s = behaviour s :=
  rfl

@[simp]
theorem exec_pure (a : α) (s : σ) :
    exec (pure a : Flow σ ε α) s = (.ok a, s) :=
  rfl

@[simp]
theorem exec_read (observe : σ → α) (s : σ) :
    exec (read observe : Flow σ ε α) s = (.ok (observe s), s) :=
  rfl

@[simp]
theorem exec_update (change : σ → σ) (s : σ) :
    exec (update change : Flow σ ε Unit) s = (.ok (), change s) :=
  rfl

@[simp]
theorem exec_fail (e : ε) (s : σ) :
    exec (fail e : Flow σ ε α) s = (.error (.error e), s) :=
  rfl

@[simp]
theorem exec_panicking (s : σ) :
    exec (panicking : Flow σ ε α) s = (.error .panic, s) :=
  rfl

theorem exec_bind (flow : Flow σ ε α) (next : α → Flow σ ε β) (s : σ) :
    exec (flow >>= next) s =
      match exec flow s with
      | (.ok a, t) => exec (next a) t
      | (.error stop, t) => (.error stop, t) := by
  simp only [exec, ExceptT.run_bind, StateT.run_bind]
  rcases (ExceptT.run flow).run s with ⟨outcome, t⟩
  cases outcome <;> rfl

/-- The run of `flow` from `s` ends with an outcome and a state in `post`. -/
def Ensures (flow : Flow σ ε α) (s : σ)
    (post : Except (Stop ε) α → σ → Prop) : Prop :=
  post (exec flow s).1 (exec flow s).2

namespace Ensures

variable {flow : Flow σ ε α} {s : σ}
  {post weaker : Except (Stop ε) α → σ → Prop}

theorem mono
    (ensured : Ensures flow s post)
    (implied : ∀ outcome t, post outcome t → weaker outcome t) :
    Ensures flow s weaker :=
  implied _ _ ensured

theorem holds (ensured : Ensures flow s post) :
    post (Flow.exec flow s).1 (Flow.exec flow s).2 :=
  ensured

theorem and
    {other : Except (Stop ε) α → σ → Prop}
    (first : Ensures flow s post) (second : Ensures flow s other) :
    Ensures flow s (fun outcome t => post outcome t ∧ other outcome t) :=
  ⟨first, second⟩

theorem all
    {ι : Sort*} {each : ι → Except (Stop ε) α → σ → Prop}
    (ensured : ∀ i, Ensures flow s (each i)) :
    Ensures flow s (fun outcome t => ∀ i, each i outcome t) :=
  ensured

theorem mk {behaviour : σ → Except (Stop ε) α × σ}
    (holds : post (behaviour s).1 (behaviour s).2) :
    Ensures (Flow.mk behaviour) s post :=
  holds

theorem pure {a : α} (holds : post (.ok a) s) :
    Ensures (Pure.pure a) s post :=
  holds

theorem fail {e : ε} (holds : post (.error (.error e)) s) :
    Ensures (Flow.fail e) s post :=
  holds

theorem panicking (holds : post (.error .panic) s) :
    Ensures Flow.panicking s post :=
  holds

theorem read {observe : σ → α} (holds : post (.ok (observe s)) s) :
    Ensures (Flow.read observe) s post :=
  holds

theorem update {change : σ → σ}
    {done : Except (Stop ε) Unit → σ → Prop}
    (holds : done (.ok ()) (change s)) :
    Ensures (Flow.update change) s done :=
  holds

/-- A sequence meets `done` when each way to leave the first part leads on to
`done`. -/
theorem bind
    {next : α → Flow σ ε β} {done : Except (Stop ε) β → σ → Prop}
    (first : Ensures flow s fun outcome t =>
      match outcome with
      | .ok a => Ensures (next a) t done
      | .error stop => done (.error stop) t) :
    Ensures (flow >>= next) s done := by
  unfold Ensures at first ⊢
  rw [exec_bind]
  rcases run : exec flow s with ⟨outcome, t⟩
  rw [run] at first
  cases outcome with
  | ok a => exact first
  | error stop => exact first

theorem map
    {f : α → β} {done : Except (Stop ε) β → σ → Prop}
    (ensured : Ensures flow s fun outcome t => done (outcome.map f) t) :
    Ensures (f <$> flow) s done := by
  rw [← bind_pure_comp]
  refine .bind (ensured.mono fun outcome t holds => ?_)
  cases outcome with
  | ok a => exact holds
  | error stop => exact holds

theorem ofExcept {outcome : Except ε α}
    (returned : ∀ a, outcome = .ok a → post (.ok a) s)
    (failed : ∀ e, outcome = .error e → post (.error (.error e)) s) :
    Ensures (Flow.ofExcept outcome) s post := by
  cases outcome with
  | ok a => exact returned a rfl
  | error e => exact failed e rfl

theorem result
    {done : Except (Stop ε) (Except ε α) → σ → Prop}
    (ensured : Ensures flow s fun outcome t =>
      match outcome with
      | .ok a => done (.ok (.ok a)) t
      | .error (.error e) => done (.ok (.error e)) t
      | .error .panic => done (.error .panic) t) :
    Ensures (Flow.result flow) s done := by
  unfold Ensures at ensured ⊢
  simp only [Flow.result, exec_mk]
  rcases run : exec flow s with ⟨outcome, t⟩
  rw [run] at ensured
  rcases outcome with (e | _) | a
  · exact ensured
  · exact ensured
  · exact ensured

theorem zoom {focus : τ → σ} {replace : σ → τ → τ} {t : τ}
    {done : Except (Stop ε) α → τ → Prop}
    (ensured : Ensures flow (focus t)
      (fun outcome u => done outcome (replace u t))) :
    Ensures (Flow.zoom focus replace flow) t done :=
  ensured

end Ensures

/-! ## Moving along a relation -/

/-- Wherever the flow starts, it moves the state along a relation, and a value
that it returns is good. -/
def Within (along : σ → σ → Prop) (good : α → Prop) (flow : Flow σ ε α) :
    Prop :=
  ∀ s, Ensures flow s fun outcome t =>
    along s t ∧ ∀ a, outcome = .ok a → good a

namespace Within

variable {along : σ → σ → Prop} {good : α → Prop} {flow : Flow σ ε α}

theorem moved (within : Within along good flow) (s : σ) :
    along s (exec flow s).2 :=
  (within s).holds.1

/-- A flow that moves along a relation moves along every weaker one. -/
theorem along_mono
    {other : σ → σ → Prop}
    (within : Within along good flow)
    (implied : ∀ s t, along s t → other s t) : Within other good flow :=
  fun s => (within s).mono fun _ t moved => ⟨implied s t moved.1, moved.2⟩

/-- Turning the error into a value changes nothing. -/
theorem result (within : Within along good flow) :
    Within along (fun outcome => ∀ a, outcome = .ok a → good a)
      (Flow.result flow) := by
  intro s
  refine .result ((within s).mono ?_)
  rintro ((e | _) | a) t ⟨moved, returned⟩
  · exact ⟨moved, fun _ same => by cases same; simp⟩
  · exact ⟨moved, fun _ same => by cases same⟩
  · refine ⟨moved, ?_⟩
    rintro _ ⟨⟩ _ ⟨⟩
    exact returned a rfl

variable [IsPreorder σ along]

theorem pure {a : α} (holds : good a) :
    Within along good (Pure.pure a : Flow σ ε α) :=
  fun s => .pure ⟨refl s, fun _ returned => Except.ok.inj returned ▸ holds⟩

theorem fail {e : ε} : Within along good (Flow.fail e : Flow σ ε α) :=
  fun s => .fail ⟨refl s, fun _ returned => by cases returned⟩

theorem panicking : Within along good (Flow.panicking : Flow σ ε α) :=
  fun s => .panicking ⟨refl s, fun _ returned => by cases returned⟩

theorem read {observe : σ → α} (holds : ∀ s, good (observe s)) :
    Within along good (Flow.read observe : Flow σ ε α) :=
  fun s => .read ⟨refl s, fun _ returned => Except.ok.inj returned ▸ holds s⟩

theorem ofExcept {outcome : Except ε α}
    (holds : ∀ a, outcome = .ok a → good a) :
    Within along good (Flow.ofExcept outcome : Flow σ ε α) := by
  cases outcome with
  | ok a => exact pure (holds a rfl)
  | error e => exact fail

theorem ofExcept_any (outcome : Except ε α) :
    Within along (fun _ => True) (Flow.ofExcept outcome : Flow σ ε α) :=
  ofExcept fun _ _ => trivial

/-- The second part is within the relation for every good value of the
first. -/
theorem bind
    {next : α → Flow σ ε β} {done : β → Prop}
    (first : Within along good flow)
    (onward : ∀ a, good a → Within along done (next a)) :
    Within along done (flow >>= next) := by
  intro s
  refine .bind ((first s).mono ?_)
  rintro (stop | a) t ⟨moved, returned⟩
  · exact ⟨moved, fun _ impossible => by cases impossible⟩
  · exact (onward a (returned a rfl) t).mono fun _ _ further =>
      ⟨IsTrans.trans _ _ _ moved further.1, further.2⟩

end Within

attribute [irreducible] Ensures

end Flow
end Flows
