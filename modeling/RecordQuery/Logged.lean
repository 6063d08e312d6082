import RecordQuery.Event

/-!
# Computations that report events

`Logged ε α` is a computation that may fail with an `ε` and that reports events on its way, also
when it fails in the end.  Running one computation after another puts the events one after another
too, and a failure ends both.

* `Logged.report`: reports one event.
* `Logged.result_bind_eq_ok_iff`: two computations in a row succeed when both do.
* `Logged.bind_of_ok`, `Logged.bind_of_error`: the result and the events of two in a row, by how the
  first one ends.
-/

set_option autoImplicit false

namespace RecordQuery

universe u v

/-- A result or a failure, and the events reported until then. -/
structure Logged (ε : Type u) (α : Type v) where
  result : Except ε α
  events : List Event

namespace Logged

variable {ε ε' : Type u} {α β : Type v}

@[ext] theorem ext {x y : Logged ε α} (hr : x.result = y.result) (he : x.events = y.events) :
    x = y := by
  cases x; cases y; simp_all

/-- A result or a failure without any event. -/
def ofExcept (r : Except ε α) : Logged ε α := ⟨r, []⟩

/-- Reports `e`. -/
def report (e : Event) : Logged ε Unit := ⟨.ok (), [e]⟩

/-- Goes on with the result of `x`, if there is one. -/
def andThen (x : Logged ε α) (f : α → Logged ε β) : Logged ε β :=
  match x.result with
  | .error e => ⟨.error e, x.events⟩
  | .ok a => ⟨(f a).result, x.events ++ (f a).events⟩

instance : Monad (Logged ε) where
  pure a := ⟨.ok a, []⟩
  bind := andThen

/-- Changes what a failure is called. -/
def mapError (f : ε → ε') (x : Logged ε α) : Logged ε' α := ⟨x.result.mapError f, x.events⟩

theorem result_bind {x : Logged ε α} {f : α → Logged ε β} :
    (x >>= f).result = x.result.bind fun a ↦ (f a).result := by
  change (x.andThen f).result = _
  cases h : x.result <;> simp [andThen, h, Except.bind]

theorem result_bind_eq_ok_iff {x : Logged ε α} {f : α → Logged ε β} {b : β} :
    (x >>= f).result = .ok b ↔ ∃ a, x.result = .ok a ∧ (f a).result = .ok b := by
  rw [result_bind]
  cases x.result with
  | error e =>
    constructor
    · rintro ⟨⟩
    · rintro ⟨_, ⟨⟩, -⟩
  | ok a =>
    constructor
    · exact fun h ↦ ⟨a, rfl, h⟩
    · rintro ⟨_, ⟨⟩, h⟩
      exact h

theorem result_mapError_eq_ok_iff {f : ε → ε'} {x : Logged ε α} {a : α} :
    (x.mapError f).result = .ok a ↔ x.result = .ok a := by
  rw [mapError]
  cases x.result with
  | error e => constructor <;> rintro ⟨⟩
  | ok b =>
    constructor
    · rintro ⟨⟩
      rfl
    · rintro ⟨⟩
      rfl

section

variable {x : Logged ε α} {f : α → Logged ε β}

theorem result_bind_of_ok {a : α} (h : x.result = .ok a) : (x >>= f).result = (f a).result := by
  rw [result_bind, h]
  rfl

theorem result_bind_of_error {e : ε} (h : x.result = .error e) : (x >>= f).result = .error e := by
  rw [result_bind, h]
  rfl

/-- A failure under another name ends the computation too. -/
theorem result_mapError_bind_of_error {e : ε} (rename : ε → ε') {f : α → Logged ε' β}
    (h : x.result = .error e) : (x.mapError rename >>= f).result = .error (rename e) := by
  have hrenamed : (x.mapError rename).result = .error (rename e) := by
    rw [mapError, h]
    rfl
  exact result_bind_of_error hrenamed

end

section

variable {x : Logged ε α} {events : List Event}

theorem ofExcept_of_ok {r : Except ε α} {a : α} (h : r = .ok a) : ofExcept r = ⟨.ok a, []⟩ := by
  rw [h]
  rfl

theorem ofExcept_of_error {r : Except ε α} {e : ε} (h : r = .error e) :
    ofExcept r = ⟨.error e, []⟩ := by
  rw [h]
  rfl

theorem bind_of_ok {a : α} {f : α → Logged ε β} {result : Except ε β} {later : List Event}
    (h : x = ⟨.ok a, events⟩) (hf : f a = ⟨result, later⟩) :
    x >>= f = ⟨result, events ++ later⟩ := by
  rw [h]
  change (Logged.mk (f a).result (events ++ (f a).events) : Logged ε β) = _
  rw [hf]

theorem bind_pure_of_ok {a : α} (h : x = ⟨.ok a, events⟩) (f : α → β) :
    (x >>= fun a ↦ pure (f a)) = ⟨.ok (f a), events⟩ := by
  have hbind : (x >>= fun a ↦ pure (f a)) = ⟨.ok (f a), events ++ []⟩ := bind_of_ok h rfl
  rwa [List.append_nil] at hbind

theorem bind_of_error {e : ε} (h : x = ⟨.error e, events⟩) (f : α → Logged ε β) :
    x >>= f = ⟨.error e, events⟩ := by
  rw [h]
  rfl

theorem mapError_of_ok {a : α} (h : x = ⟨.ok a, events⟩) (rename : ε → ε') :
    x.mapError rename = ⟨.ok a, events⟩ := by
  rw [h]
  rfl

theorem mapError_of_error {e : ε} (h : x = ⟨.error e, events⟩) (rename : ε → ε') :
    x.mapError rename = ⟨.error (rename e), events⟩ := by
  rw [h]
  rfl

end

end Logged
end RecordQuery
