import FramedMessaging.Channel.Transport
set_option autoImplicit false

namespace FramedMessaging.Operation

variable {ε σ α β : Type}

instance decidableEqExcept [DecidableEq ε] [DecidableEq α] : DecidableEq (Except ε α)
  | .ok a, .ok b => decidable_of_iff (a = b) (by rw [Except.ok.injEq])
  | .error e, .error f => decidable_of_iff (e = f) (by rw [Except.error.injEq])
  | .ok _, .error _ => isFalse fun h => by cases h
  | .error _, .ok _ => isFalse fun h => by cases h

@[simp] theorem pure_apply (a : α) (s : σ) : (pure a : EStateM ε σ α) s = .ok a s := rfl

@[simp] theorem bind_apply (x : EStateM ε σ α) (f : α → EStateM ε σ β) (s : σ) :
    (x >>= f) s =
      match x s with
      | .ok a t => f a t
      | .error e t => .error e t := by
  cases h : x s <;> simp [bind, EStateM.bind, h]

theorem bind_ok {x : EStateM ε σ α} {f : α → EStateM ε σ β} {a : α} {s t : σ}
    (h : x s = .ok a t) : (x >>= f) s = f a t := by
  rw [bind_apply, h]

theorem bind_error {x : EStateM ε σ α} {f : α → EStateM ε σ β} {e : ε} {s t : σ}
    (h : x s = .error e t) : (x >>= f) s = .error e t := by
  rw [bind_apply, h]

theorem of_bind_ok {x : EStateM ε σ α} {f : α → EStateM ε σ β} {b : β} {s u : σ}
    (h : (x >>= f) s = .ok b u) : ∃ a t, x s = .ok a t ∧ f a t = .ok b u := by
  cases hx : x s with
  | ok a t => exact ⟨a, t, rfl, (bind_ok hx).symm.trans h⟩
  | error e t => cases (bind_error hx).symm.trans h

@[simp] theorem map_apply (f : α → β) (x : EStateM ε σ α) (s : σ) :
    (f <$> x) s =
      match x s with
      | .ok a t => .ok (f a) t
      | .error e t => .error e t := by
  cases h : x s <;> simp [Functor.map, EStateM.map, h]

@[simp] theorem fail_apply (e : Failure) (s : σ) :
    (fail e : Operation σ α) s = .error (.failure e) s := rfl

@[simp] theorem throw_apply (e : ε) (s : σ) :
    (throw e : EStateM ε σ α) s = .error e s := rfl

@[simp] theorem get_apply (s : σ) : (get : EStateM ε σ σ) s = .ok s s := rfl

@[simp] theorem set_apply (s t : σ) : (set t : EStateM ε σ PUnit) s = .ok ⟨⟩ t := rfl

@[simp] theorem modify_apply (f : σ → σ) (s : σ) :
    (modify f : EStateM ε σ Unit) s = .ok ⟨⟩ (f s) := rfl

@[simp] theorem lift_ok (a : α) (s : σ) : lift (.ok a) s = .ok a s := rfl

@[simp] theorem lift_error (e : Failure) (s : σ) :
    (lift (.error e) : Operation σ α) s = .error (.failure e) s := rfl

@[simp] theorem branch_apply (p : Prop) [Decidable p] (x y : EStateM ε σ α) (s : σ) :
    (if p then x else y : EStateM ε σ α) s = if p then x s else y s := by
  split <;> rfl

def final : EStateM.Result ε σ α → σ
  | .ok _ s => s
  | .error _ s => s

@[simp] theorem final_ok (a : α) (s : σ) : final (.ok a s : EStateM.Result ε σ α) = s := rfl

@[simp] theorem final_error (e : ε) (s : σ) :
    final (.error e s : EStateM.Result ε σ α) = s := rfl

@[simp] theorem final_lift (x : Except Failure α) (s : σ) : final (lift x s) = s := by
  cases x <;> rfl

@[simp] theorem final_map (f : α → β) (op : EStateM ε σ α) (s : σ) :
    final ((f <$> op) s) = final (op s) := by
  rw [map_apply]
  cases op s <;> rfl

theorem final_bind {x : EStateM ε σ α} {f : α → EStateM ε σ β}
    (keeps : ∀ a t, final (f a t) = t) (s : σ) : final ((x >>= f) s) = final (x s) := by
  cases hx : x s with
  | ok a t => rw [bind_ok hx, keeps, final_ok]
  | error e t => rw [bind_error hx, final_error, final_error]

def outcome : EStateM.Result ε σ α → Except ε α
  | .ok a _ => .ok a
  | .error e _ => .error e

@[simp] theorem outcome_ok (a : α) (s : σ) :
    outcome (.ok a s : EStateM.Result ε σ α) = .ok a := rfl

@[simp] theorem outcome_error (e : ε) (s : σ) :
    outcome (.error e s : EStateM.Result ε σ α) = .error e := rfl

@[simp] theorem outcome_map (f : α → β) (op : EStateM ε σ α) (s : σ) :
    outcome ((f <$> op) s) = (outcome (op s)).map f := by
  rw [map_apply]
  cases op s <;> rfl

def onState (g : σ → σ) : EStateM.Result ε σ α → EStateM.Result ε σ α
  | .ok a s => .ok a (g s)
  | .error e s => .error e (g s)

theorem final_onState (g : σ → σ) (r : EStateM.Result ε σ α) :
    final (onState g r) = g (final r) := by
  cases r <;> rfl

theorem of_map_error {f : α → β} {op : EStateM ε σ α} {s t : σ} {e : ε}
    (h : (f <$> op) s = .error e t) : op s = .error e t := by
  rw [map_apply] at h
  cases hs : op s with
  | ok a u =>
    rw [hs] at h
    cases h
  | error why u =>
    rw [hs] at h
    cases h
    rfl

/-- A failed operation does not keep the later ones from running. -/
def each : List (Operation σ α) → σ → List (Except Stop α) × σ
  | [], s => ([], s)
  | op :: later, s =>
    let (results, t) := each later (final (op s))
    (outcome (op s) :: results, t)

/-- The states before and after the operation are related, whatever the operation came to. -/
def Respects (R : σ → σ → Prop) (op : Operation σ α) : Prop := ∀ s, R s (final (op s))

section

variable {R : σ → σ → Prop}

theorem Respects.pure (refl : ∀ s, R s s) (a : α) : Respects R (pure a : Operation σ α) := refl

theorem Respects.fail (refl : ∀ s, R s s) (e : Failure) :
    Respects R (fail e : Operation σ α) := refl

theorem Respects.lift (refl : ∀ s, R s s) (x : Except Failure α) :
    Respects R (lift x : Operation σ α) := by
  cases x with
  | ok a => exact refl
  | error e => exact refl

theorem Respects.bind (trans : ∀ {a b c}, R a b → R b c → R a c) {x : Operation σ α}
    {f : α → Operation σ β} (hx : Respects R x) (hf : ∀ a, Respects R (f a)) :
    Respects R (x >>= f) := by
  intro s
  have h := hx s
  cases hs : x s with
  | ok a t =>
    rw [hs] at h
    simpa [hs] using trans h (hf a t)
  | error e t => simpa [hs] using h

end

end FramedMessaging.Operation
