import Mathlib

namespace Octez.Lib

/-- How a computation can end without a value. `outOfFuel` is not an exception of the modelled
language: it marks a recursion that was given too small a bound. -/
inductive Exn where
  | assertFalse
  | divisionByZero
  | writeError
  | outOfFuel
deriving DecidableEq, Repr

abbrev Run (α : Type) := Except Exn α

variable {ε α β : Type} {e : ε} {result : Except ε α} {items : List α}

theorem bind_eq_ok {x : Except ε α} {f : α → Except ε β} {b : β} :
    x >>= f = .ok b ↔ ∃ a, x = .ok a ∧ f a = .ok b := by
  cases x with
  | error e | ok a => simp [bind, Except.bind]

theorem unit_bind_eq_ok {x : Except ε Unit} {f} {b : β} :
    x >>= f = .ok b ↔ x = .ok () ∧ f () = .ok b := by
  rw [bind_eq_ok]
  exact ⟨fun ⟨_, h, rest⟩ => ⟨h, rest⟩, fun both => ⟨(), both⟩⟩

theorem bind_eq_error {x : Except ε α} {f : α → Except ε β} :
    x >>= f = .error e ↔ x = .error e ∨ ∃ a, x = .ok a ∧ f a = .error e := by
  cases x with
  | error e' | ok a => simp [bind, Except.bind]

theorem bind_pure_eq_error {x : Except ε α} {g : α → β} :
    (x >>= fun a => pure (g a)) = .error e ↔ x = .error e := by
  cases x <;> simp [bind, Except.bind, pure, Except.pure]

@[simp] theorem ok_bind (a : α) (f : α → Except ε β) : (Except.ok a >>= f) = f a := rfl

theorem bind_of_eq_ok {x : Except ε α} {a : α} (h : x = .ok a) (f : α → Except ε β) : x >>= f = f a := by
  rw [h, ok_bind]

@[simp] theorem error_bind (e : ε) (f : α → Except ε β) :
    ((Except.error e : Except ε α) >>= f) = .error e := rfl

@[simp] theorem pure_eq_ok (a : α) : (pure a : Except ε α) = .ok a := rfl

theorem exists_of_isOk (h : result.isOk = true) : ∃ a, result = .ok a := by
  cases result with
  | error failure => cases h
  | ok a => exact ⟨a, rfl⟩

theorem exists_ok_of {p : α → Prop} [DecidablePred p]
    (checked : (result.toOption.any fun a => p a) = true) : ∃ a, result = .ok a ∧ p a := by
  cases result with
  | error failure => cases checked
  | ok a => exact ⟨a, rfl, of_decide_eq_true checked⟩

theorem foldlM_eq_ok_of_steps {σ : Type} {f : σ → α → Except ε σ} (state : Nat → σ)
    (step : ∀ i item, items[i]? = some item → f (state i) item = .ok (state (i + 1))) :
    items.foldlM f (state 0) = .ok (state items.length) := by
  induction items generalizing state with
  | nil => rfl
  | cons item items ih =>
    rw [List.foldlM_cons, step 0 item rfl, ok_bind]
    exact ih (fun i => state (i + 1)) fun i later found => step (i + 1) later found

theorem foldlM_returns {σ : Type} {f : σ → α → Except ε σ} {s : σ} {P : Nat → σ → Prop} (start : P 0 s)
    (step : ∀ i item state, items[i]? = some item → P i state →
      ∃ state', f state item = .ok state' ∧ P (i + 1) state') :
    ∃ s', items.foldlM f s = .ok s' ∧ P items.length s' := by
  induction items generalizing s P with
  | nil => exact ⟨s, rfl, start⟩
  | cons item items ih =>
    obtain ⟨mid, stepped, next⟩ := step 0 item s rfl start
    rw [List.foldlM_cons, stepped, ok_bind]
    exact ih next fun i later state found => step (i + 1) later state found

theorem foldlM_preserves {σ : Type} {f : σ → α → Except ε σ} {s s' : σ}
    {P : σ → Prop} (step : ∀ {s s' item}, P s → f s item = .ok s' → P s') (start : P s)
    (ran : items.foldlM f s = .ok s') : P s' := by
  induction items generalizing s with
  | nil =>
    cases ran
    exact start
  | cons item items ih =>
    obtain ⟨mid, now, ran⟩ := bind_eq_ok.1 ran
    exact ih (step start now) ran

theorem forM_eq_ok {f : α → Except ε Unit} :
    items.forM f = .ok () ↔ ∀ item ∈ items, f item = .ok () := by
  induction items with
  | nil => exact ⟨fun _ _ member => (nomatch member), fun _ => rfl⟩
  | cons item items ih =>
    rw [List.forall_mem_cons, ← ih]
    exact unit_bind_eq_ok

theorem exists_of_mapM_eq_ok {f : α → Except ε β} {results : List β}
    (h : items.mapM f = .ok results) {result : β} (member : result ∈ results) :
    ∃ item ∈ items, f item = .ok result := by
  induction items generalizing results with
  | nil =>
    cases h
    cases member
  | cons item items ih =>
    rw [List.mapM_cons] at h
    obtain ⟨first, here, h⟩ := bind_eq_ok.1 h
    obtain ⟨rest, later, h⟩ := bind_eq_ok.1 h
    cases h
    rcases List.mem_cons.1 member with rfl | member
    · exact ⟨item, List.mem_cons_self, here⟩
    · obtain ⟨item', inside, mapped⟩ := ih later member
      exact ⟨item', List.mem_cons_of_mem _ inside, mapped⟩

inductive Failure (Err : Type) where
  | raised (exn : Exn)
  | error (err : Err)
deriving DecidableEq, Repr

abbrev TzResult (Err α : Type) := Except (Failure Err) α

def tzfail {Err α : Type} (err : Err) : TzResult Err α := .error (.error err)

def errorUnless {Err : Type} (condition : Bool) (err : Err) : TzResult Err Unit :=
  if condition then .ok () else tzfail err

def assert {Err : Type} (condition : Bool) : TzResult Err Unit :=
  if condition then .ok () else .error (.raised .assertFalse)

def liftRun {Err α : Type} : Run α → TzResult Err α
  | .ok a => .ok a
  | .error exn => .error (.raised exn)

def liftError {Err Err' α : Type} (f : Err → Err') : TzResult Err α → TzResult Err' α
  | .ok a => .ok a
  | .error (.raised exn) => .error (.raised exn)
  | .error (.error err) => .error (.error (f err))

/-- An error becomes `none`; an exception is raised again. -/
def attempt {Err α : Type} : TzResult Err α → Run (Option α)
  | .ok a => .ok (some a)
  | .error (.raised exn) => .error exn
  | .error (.error _) => .ok none

section Lift
variable {Err Err' α : Type} {x : TzResult Err α} {condition : Bool} {err : Err} {u : Unit}

@[simp] theorem liftRun_ok (a : α) : (liftRun (.ok a) : TzResult Err α) = .ok a := rfl

@[simp] theorem liftRun_eq_ok {x : Run α} {a : α} :
    (liftRun x : TzResult Err α) = .ok a ↔ x = .ok a := by
  cases x <;> simp [liftRun]

@[simp] theorem liftError_ok (f : Err → Err') (a : α) : liftError f (.ok a) = .ok a := rfl

theorem liftError_eq_ok {f : Err → Err'} {a : α} : liftError f x = .ok a ↔ x = .ok a := by
  rcases x with (_ | _) | _ <;> simp [liftError]

@[simp] theorem attempt_ok (a : α) : attempt (.ok a : TzResult Err α) = .ok (some a) := rfl

theorem attempt_eq_some {a : α} : attempt x = .ok (some a) ↔ x = .ok a := by
  rcases x with (_ | _) | _ <;> simp [attempt]

@[simp] theorem errorUnless_eq_ok : errorUnless condition err = .ok u ↔ condition = true := by
  cases condition <;> simp [errorUnless, tzfail]

@[simp] theorem errorUnless_true (err : Err) : errorUnless true err = .ok () := rfl

@[simp] theorem assert_eq_ok :
    (assert condition : TzResult Err Unit) = .ok u ↔ condition = true := by
  cases condition <;> simp [assert]

@[simp] theorem assert_true : (assert true : TzResult Err Unit) = .ok () := rfl

@[simp] theorem tzfail_ne_ok {a : α} : (tzfail err : TzResult Err α) ≠ .ok a := by
  simp [tzfail]

@[simp] theorem tzfail_bind (err : Err) (f : α → TzResult Err β) :
    ((tzfail err : TzResult Err α) >>= f) = tzfail err := rfl

end Lift

/-- A computation bounded by fuel returns `a` as soon as the bound is large enough. -/
def Returns {ε α : Type} (f : Nat → Except ε α) (a : α) : Prop :=
  ∃ bound, ∀ fuel, bound ≤ fuel → f fuel = .ok a

namespace Returns
variable {ε α : Type} {f g : Nat → Except ε α} {a : α}

theorem of_succ (now : ∀ fuel, f (fuel + 1) = .ok a) : Returns f a := by
  refine ⟨1, ?_⟩
  intro fuel positive
  obtain ⟨n, rfl⟩ : ∃ n, fuel = n + 1 := ⟨fuel - 1, by omega⟩
  exact now n

theorem step (unfolds : ∀ fuel, f (fuel + 1) = g fuel) (later : Returns g a) : Returns f a := by
  obtain ⟨bound, returns⟩ := later
  refine ⟨bound + 1, ?_⟩
  intro fuel large
  obtain ⟨n, rfl⟩ : ∃ n, fuel = n + 1 := ⟨fuel - 1, by omega⟩
  rw [unfolds]
  exact returns n (by omega)

end Returns

end Octez.Lib
