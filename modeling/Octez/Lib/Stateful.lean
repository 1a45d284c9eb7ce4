import Mathlib

/-! # Computations with a state, which a failure leaves as it is -/

namespace Octez.Lib.Stateful

variable {ε σ α β : Type} {x : EStateM ε σ α} {f : α → EStateM ε σ β} {s s' : σ} {post : α → σ → Prop}
  {post' : β → σ → Prop} {fail fail' : ε → σ → Prop} {a : α} {e : ε}

/-- Started in the state, the computation ends with a value and a state or with a failure and a
state that have the property. -/
def Ensures (x : EStateM ε σ α) (s : σ) (post : α → σ → Prop) (fail : ε → σ → Prop) : Prop :=
  match x s with
  | .ok a s' => post a s'
  | .error e s' => fail e s'

section
variable {a : α} {e : ε}

theorem bind_of_ok (run : x s = .ok a s') : (x >>= f) s = f a s' := by
  show EStateM.bind x f s = _
  rw [EStateM.bind, run]

theorem bind_of_error (run : x s = .error e s') : (x >>= f) s = .error e s' := by
  show EStateM.bind x f s = _
  rw [EStateM.bind, run]

theorem Ensures.of_ok (ensured : Ensures x s post fail) (run : x s = .ok a s') : post a s' := by
  rwa [Ensures, run] at ensured

theorem Ensures.of_error (ensured : Ensures x s post fail) (run : x s = .error e s') : fail e s' := by
  rwa [Ensures, run] at ensured

end

theorem Ensures.bind (first : Ensures x s post fail)
    (rest : ∀ a s', post a s' → Ensures (f a) s' post' fail) : Ensures (x >>= f) s post' fail := by
  cases run : x s with
  | ok a s' =>
    rw [Ensures, bind_of_ok run]
    exact rest a s' (first.of_ok run)
  | error e s' =>
    rw [Ensures, bind_of_error run]
    exact first.of_error run

theorem Ensures.weaken {weaker : α → σ → Prop} (ensured : Ensures x s post fail)
    (value : ∀ a s', post a s' → weaker a s') (failure : ∀ e s', fail e s' → fail' e s') :
    Ensures x s weaker fail' := by
  cases run : x s with
  | ok a s' =>
    rw [Ensures, run]
    exact value a s' (ensured.of_ok run)
  | error e s' =>
    rw [Ensures, run]
    exact failure e s' (ensured.of_error run)

theorem Ensures.of_true : Ensures x s (fun _ _ => True) fun _ _ => True := by
  unfold Ensures
  cases x s with
  | ok a s' | error e s' => trivial

theorem Ensures.of_pure (holds : post a s) : Ensures (pure a) s post fail := holds

theorem Ensures.of_throw (holds : fail e s) :
    Ensures (throw e : EStateM ε σ α) s post fail := holds

theorem Ensures.of_set {post : PUnit → σ → Prop} (holds : post ⟨⟩ s') :
    Ensures (set s' : EStateM ε σ PUnit) s post fail := holds

theorem Ensures.get_bind {f} (rest : Ensures (f s) s post' fail) :
    Ensures (get >>= f) s post' fail := rest

/-- A computation whose failure is a value, in the state that it failed in. -/
def attempt (x : EStateM ε σ α) : EStateM ε σ (Except ε α) := fun s =>
  match x s with
  | .ok a s' => .ok (.ok a) s'
  | .error e s' => .ok (.error e) s'

/-- Whether the computation fails or not, what holds of the state before it holds after it. -/
def Preserves (inv : σ → Prop) (x : EStateM ε σ α) : Prop :=
  ∀ s, inv s → Ensures x s (fun _ => inv) (fun _ => inv)

section
variable {inv : σ → Prop}

theorem Preserves.of_pure : Preserves inv (pure a : EStateM ε σ α) := fun _ holds => holds

theorem Preserves.of_throw : Preserves inv (throw e : EStateM ε σ α) := fun _ holds => holds

theorem Preserves.bind (first : Preserves inv x) (rest : ∀ a, Preserves inv (f a)) :
    Preserves inv (x >>= f) :=
  fun s holds => (first s holds).bind fun a s' holds' => rest a s' holds'

theorem Preserves.bind_except {δ : Type} {x} {f : Except δ α → EStateM ε σ β} (first : Preserves inv x)
    (failed : ∀ e, Preserves inv (f (.error e))) (rest : ∀ a, Preserves inv (f (.ok a))) :
    Preserves inv (x >>= f) :=
  first.bind fun result => by
    cases result with
    | error e => exact failed e
    | ok a => exact rest a

theorem Preserves.get_bind {f : σ → EStateM ε σ β}
    (rest : ∀ s, inv s → Ensures (f s) s (fun _ => inv) (fun _ => inv)) :
    Preserves inv (get >>= f) :=
  fun s holds => (rest s holds).get_bind

theorem Preserves.get_bind_of_forall {f : σ → EStateM ε σ β} (rest : ∀ s, Preserves inv (f s)) :
    Preserves inv (get >>= f) :=
  Preserves.get_bind fun s holds => rest s s holds

theorem Preserves.attempt (preserved : Preserves inv x) : Preserves inv (attempt x) := by
  intro s holds
  have ensured := preserved s holds
  unfold Ensures at ensured ⊢
  unfold Stateful.attempt
  cases run : x s with
  | ok a s' | error e s' =>
    rw [run] at ensured
    exact ensured

end

def mapState (t : σ → σ) : EStateM.Result ε σ α → EStateM.Result ε σ α
  | .ok a s => .ok a (t s)
  | .error e s => .error e (t s)

/-- A change of the state may as well be made after the computation as before it. -/
def Commutes (t : σ → σ) (x : EStateM ε σ α) : Prop := ∀ s, x (t s) = mapState t (x s)

section
variable {t : σ → σ}

theorem Commutes.of_pure : Commutes t (pure a : EStateM ε σ α) := fun _ => rfl

theorem Commutes.of_throw : Commutes t (throw e : EStateM ε σ α) := fun _ => rfl

theorem Commutes.of_modify {g : σ → σ} (commute : ∀ s, g (t s) = t (g s)) :
    Commutes t (modify g : EStateM ε σ PUnit) := by
  intro s
  show EStateM.Result.ok _ (g (t s)) = EStateM.Result.ok _ (t (g s))
  rw [commute]

theorem Commutes.bind (first : Commutes t x) (rest : ∀ a, Commutes t (f a)) : Commutes t (x >>= f) := by
  intro s
  show EStateM.bind x f (t s) = mapState t (EStateM.bind x f s)
  unfold EStateM.bind
  rw [first s]
  cases x s with
  | ok a s' => exact rest a s'
  | error e s' => rfl

theorem Commutes.get_bind {f : σ → EStateM ε σ β} (reads : ∀ s, f (t s) = f s)
    (rest : ∀ s, Commutes t (f s)) : Commutes t (get >>= f) := by
  intro s
  show f (t s) (t s) = mapState t (f s s)
  rw [reads s, rest s s]

end

/-- Whether a computation that was run ended with a value and a state that pass a check. -/
def okAnd (check : α → σ → Bool) : EStateM.Result ε σ α → Bool
  | .ok a s => check a s
  | .error _ _ => false

theorem exists_of_okAnd {result : EStateM.Result ε σ α} {check : α → σ → Bool}
    (checked : okAnd check result = true) : ∃ a s, result = .ok a s ∧ check a s = true := by
  cases result with
  | ok a s => exact ⟨a, s, rfl, checked⟩
  | error e s => cases checked

end Octez.Lib.Stateful
