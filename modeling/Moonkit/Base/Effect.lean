import Mathlib.Data.Nat.Notation
import Mathlib.Tactic.SplitIfs

/-!
# Calls with a state, an error and a panic

A `Call σ ε α` runs on a state and ends with a value, with an error it hands to its caller, or
with a panic. An error does not undo what the call wrote before it: the state it reached is part
of the result, and undoing it is up to the caller.
-/

inductive Outcome (ε α : Type) where
  | ok (a : α)
  | err (e : ε)
  | panic (msg : String)
deriving DecidableEq

namespace Outcome

variable {ε α β : Type}

def isPanic : Outcome ε α → Bool
  | .panic _ => true
  | _ => false

instance : Monad (Outcome ε) where
  pure := ok
  bind x f := match x with
    | ok a => f a
    | err e => err e
    | panic m => panic m

/-- The value of an option, or the error `e`. -/
def okOr (o : Option α) (e : ε) : Outcome ε α := o.elim (err e) ok

/-- The value of an option, or a panic. -/
def expect (o : Option α) (msg : String) : Outcome ε α := o.elim (panic msg) ok

def ofExcept : Except ε α → Outcome ε α
  | .ok a => ok a
  | .error e => err e

/-- The outcome with another error. -/
def mapErr {ε' : Type} (f : ε → ε') : Outcome ε α → Outcome ε' α
  | ok a => ok a
  | err e => err (f e)
  | panic m => panic m

/-- The value of a call that must not fail: its error is a panic here. -/
def expectOk {ε' : Type} (msg : String) : Outcome ε' α → Outcome ε α
  | ok a => ok a
  | err _ => panic msg
  | panic m => panic m

/-- The remainder of a division, or a panic where the divisor is zero. -/
def rem (a b : ℕ) : Outcome ε ℕ :=
  if b = 0 then panic "attempt to calculate the remainder with a divisor of zero" else ok (a % b)

/-- The quotient of a division rounded down, or a panic where the divisor is zero. -/
def div (a b : ℕ) : Outcome ε ℕ := if b = 0 then panic "attempt to divide by zero" else ok (a / b)

/-- The element at an index and the list without it, or a panic out of range. -/
def remove (l : List α) (i : ℕ) : Outcome ε (α × List α) :=
  if h : i < l.length then ok (l[i], l.eraseIdx i)
  else panic "removal index should be smaller than the length"

instance decidableForallOk {p : α → Prop} [DecidablePred p] :
    ∀ x : Outcome ε α, Decidable (∀ a, x = ok a → p a)
  | ok a => decidable_of_iff (p a) (by simp)
  | err _ => isTrue (by simp)
  | panic _ => isTrue (by simp)

theorem ok_unique {x : Outcome ε α} {a b : α} (ha : x = ok a) (hb : x = ok b) : a = b :=
  ok.inj (ha.symm.trans hb)

/-- A sequence answers exactly when its first part does and the rest does. -/
theorem bind_eq_ok {x : Outcome ε α} {f : α → Outcome ε β} {b : β} :
    x >>= f = ok b ↔ ∃ a, x = ok a ∧ f a = ok b := by
  cases x with
  | ok a =>
    show f a = ok b ↔ _
    simp
  | err e =>
    show err e = ok b ↔ _
    simp
  | panic m =>
    show panic m = ok b ↔ _
    simp

@[simp] theorem okOr_eq_ok {o : Option α} {e : ε} {a : α} : okOr o e = ok a ↔ o = some a := by
  cases o <;> simp [okOr]

@[simp] theorem expect_eq_ok {o : Option α} {m : String} {a : α} :
    (expect o m : Outcome ε α) = ok a ↔ o = some a := by
  cases o <;> simp [expect]

theorem div_eq_ok {a b c : ℕ} : (div a b : Outcome ε ℕ) = ok c ↔ 0 < b ∧ a / b = c := by
  unfold div
  split_ifs with hb
  · simp [hb]
  · simp [Nat.pos_of_ne_zero hb]

@[simp] theorem mapErr_eq_ok {ε' : Type} {f : ε → ε'} {x : Outcome ε α} {a : α} :
    x.mapErr f = ok a ↔ x = ok a := by
  cases x <;> simp [mapErr]

@[simp] theorem ofExcept_eq_ok {x : Except ε α} {a : α} : ofExcept x = ok a ↔ x = .ok a := by
  cases x <;> simp [ofExcept]

end Outcome

/-- A call on a state `σ` that answers `α` or fails with `ε`. -/
def Call (σ ε α : Type) := σ → Outcome ε α × σ

namespace Call

variable {σ ε α β : Type}

/-- Run `x`, then `f` on its value; an error or a panic of `x` ends the whole. -/
def bind (x : Call σ ε α) (f : α → Call σ ε β) : Call σ ε β := fun s =>
  match x s with
  | (.ok a, s₁) => f a s₁
  | (.err e, s₁) => (.err e, s₁)
  | (.panic m, s₁) => (.panic m, s₁)

instance : Monad (Call σ ε) where
  pure a := fun s => (.ok a, s)
  bind := bind

def get : Call σ ε σ := fun s => (.ok s, s)

def modify (f : σ → σ) : Call σ ε Unit := fun s => (.ok (), f s)

def err (e : ε) : Call σ ε α := fun s => (.err e, s)

def panic (msg : String) : Call σ ε α := fun s => (.panic msg, s)

/-- End with the error `e` unless `p` holds. -/
def ensure (p : Prop) [Decidable p] (e : ε) : Call σ ε Unit := if p then pure () else err e

/-- End with a panic unless `p` holds. -/
def assert (p : Prop) [Decidable p] (msg : String) : Call σ ε Unit :=
  if p then pure () else panic msg

/-- The value of an option, or the error `e`. -/
def okOr (o : Option α) (e : ε) : Call σ ε α :=
  match o with
  | some a => pure a
  | none => err e

/-- The value of an option, or a panic. -/
def expect (o : Option α) (msg : String) : Call σ ε α :=
  match o with
  | some a => pure a
  | none => panic msg

/-- A call that neither reads nor writes the state. -/
def lift (x : Outcome ε α) : Call σ ε α := fun s => (x, s)

/-- A call on a part of the state. -/
def on {τ : Type} (get : σ → τ) (put : τ → σ → σ) (x : Call τ ε α) : Call σ ε α := fun s =>
  ((x (get s)).1, put (x (get s)).2 s)

/-- Run `x`; where it ends with an error, go on with `f`. -/
def handle {ε' : Type} (x : Call σ ε α) (f : ε → Call σ ε' α) : Call σ ε' α := fun s =>
  match x s with
  | (.ok a, s₁) => (.ok a, s₁)
  | (.err e, s₁) => f e s₁
  | (.panic m, s₁) => (.panic m, s₁)

/-- Run `x`, and undo what it wrote unless it answers. -/
def transactional (x : Call σ ε α) : Call σ ε α := fun s =>
  match x s with
  | (.ok a, s₁) => (.ok a, s₁)
  | (r, _) => (r, s)

@[simp] theorem pure_apply (a : α) (s : σ) : (pure a : Call σ ε α) s = (.ok a, s) := rfl

@[simp] theorem modify_apply (f : σ → σ) (s : σ) :
    (modify f : Call σ ε Unit) s = (.ok (), f s) := rfl

@[simp] theorem panic_apply (msg : String) (s : σ) :
    (panic msg : Call σ ε α) s = (.panic msg, s) := rfl

theorem bind_ok {x : Call σ ε α} {f : α → Call σ ε β} {s s₁ : σ} {a : α}
    (h : x s = (.ok a, s₁)) : (x >>= f) s = f a s₁ := by
  show bind x f s = f a s₁
  simp only [bind, h]

theorem bind_err {x : Call σ ε α} {f : α → Call σ ε β} {s s₁ : σ} {e : ε}
    (h : x s = (.err e, s₁)) : (x >>= f) s = (.err e, s₁) := by
  show bind x f s = (.err e, s₁)
  simp only [bind, h]

theorem bind_panic {x : Call σ ε α} {f : α → Call σ ε β} {s s₁ : σ} {m : String}
    (h : x s = (.panic m, s₁)) : (x >>= f) s = (.panic m, s₁) := by
  show bind x f s = (.panic m, s₁)
  simp only [bind, h]

/-- A sequence answers exactly when its first part does and the rest does from there. -/
theorem bind_eq_ok {x : Call σ ε α} {f : α → Call σ ε β} {s s' : σ} {b : β} :
    (x >>= f) s = (.ok b, s') ↔ ∃ a s₁, x s = (.ok a, s₁) ∧ f a s₁ = (.ok b, s') := by
  rcases h : x s with ⟨a | e | m, s₁⟩
  · rw [bind_ok h]
    refine ⟨fun hf => ⟨a, s₁, rfl, hf⟩, ?_⟩
    rintro ⟨a', s₂, ha, hf⟩
    simp only [Prod.mk.injEq, Outcome.ok.injEq] at ha
    obtain ⟨rfl, rfl⟩ := ha
    exact hf
  · rw [bind_err h]
    simp
  · rw [bind_panic h]
    simp

/-- A call whose value is dropped answers where it does. -/
theorem exists_of_drop {x : Call σ ε α} {b b' : β} {s s' : σ}
    (h : (x >>= fun _ => pure b) s = (.ok b', s')) : ∃ a, x s = (.ok a, s') := by
  obtain ⟨a, s₁, hx, hb⟩ := bind_eq_ok.1 h
  obtain ⟨-, rfl⟩ := Prod.mk.inj hb
  exact ⟨a, hx⟩

/-- A call whose answer is only renamed fails as it does. -/
theorem err_of_bind_pure {x : Call σ ε α} {f : α → β} {s s' : σ} {e : ε}
    (h : (x >>= fun a => pure (f a)) s = (.err e, s')) : x s = (.err e, s') := by
  rcases hx : x s with ⟨a | e' | m, s₁⟩
  · rw [bind_ok hx] at h
    simp at h
  · rw [bind_err hx, Prod.mk.injEq] at h
    obtain ⟨he, rfl⟩ := h
    rw [Outcome.err.inj he]
  · rw [bind_panic hx] at h
    simp at h

/-- What is done to the value of a call does not change the state it reaches. -/
theorem snd_bind_pure (x : Call σ ε α) (f : α → β) (s : σ) :
    ((x >>= fun a => pure (f a)) s).2 = (x s).2 := by
  rcases h : x s with ⟨a | e | m, s₁⟩
  · rw [bind_ok h]
    rfl
  · rw [bind_err h]
  · rw [bind_panic h]

theorem bind_assoc {γ : Type} (x : Call σ ε α) (f : α → Call σ ε β) (g : β → Call σ ε γ) :
    x >>= f >>= g = x >>= fun a => f a >>= g := by
  funext s
  rcases h : x s with ⟨a | e | m, s₁⟩
  · rw [bind_ok h]
    show bind (bind x f) g s = _
    simp only [bind, h]
    rfl
  · rw [bind_err h]
    exact bind_err (bind_err h)
  · rw [bind_panic h]
    exact bind_panic (bind_panic h)

/-- A sequence goes on from what its first part reached. -/
theorem bind_eq_lift {x : Call σ ε α} {f : α → Call σ ε β} {s s₁ : σ} {r : Outcome ε α}
    (h : x s = (r, s₁)) : (x >>= f) s = (lift r >>= f) s₁ := by
  show bind x f s = bind (lift r) f s₁
  simp only [bind, lift, h]

theorem bind_pure_left (a : α) (f : α → Call σ ε β) : (pure a : Call σ ε α) >>= f = f a := rfl

theorem bind_err_left (e : ε) (f : α → Call σ ε β) : (err e : Call σ ε α) >>= f = err e := rfl

@[simp] theorem get_bind (f : σ → Call σ ε β) (s : σ) : (get >>= f) s = f s s := rfl

@[simp] theorem pure_bind_apply (a : α) (f : α → Call σ ε β) (s : σ) :
    ((pure a : Call σ ε α) >>= f) s = f a s := rfl

@[simp] theorem modify_bind (g : σ → σ) (f : Unit → Call σ ε β) (s : σ) :
    (modify g >>= f) s = f () (g s) := rfl

theorem ensure_bind (p : Prop) [Decidable p] (e : ε) (f : Unit → Call σ ε β) (s : σ) :
    (ensure p e >>= f) s = if p then f () s else (.err e, s) := by
  unfold ensure
  split_ifs <;> rfl

theorem assert_bind (p : Prop) [Decidable p] (m : String) (f : Unit → Call σ ε β) (s : σ) :
    (assert p m >>= f) s = if p then f () s else (.panic m, s) := by
  unfold assert
  split_ifs <;> rfl

theorem ensure_eq_ok {p : Prop} [Decidable p] {e : ε} {s s' : σ} :
    (ensure p e : Call σ ε Unit) s = (.ok (), s') ↔ p ∧ s = s' := by
  unfold ensure
  split_ifs with hp
  · simp [hp]
  · simp [hp, err]

theorem okOr_eq_ok {o : Option α} {e : ε} {a : α} {s s' : σ} :
    (okOr o e : Call σ ε α) s = (.ok a, s') ↔ o = some a ∧ s = s' := by
  rcases o with _ | b
  · simp [okOr, err]
  · simp [okOr]

theorem expect_eq_ok {o : Option α} {m : String} {a : α} {s s' : σ} :
    (expect o m : Call σ ε α) s = (.ok a, s') ↔ o = some a ∧ s = s' := by
  rcases o with _ | b
  · simp [expect]
  · simp [expect]

theorem assert_eq_ok {p : Prop} [Decidable p] {m : String} {u : Unit} {s s' : σ} :
    (assert p m : Call σ ε Unit) s = (.ok u, s') ↔ p ∧ s = s' := by
  unfold assert
  split_ifs with hp
  · simp [hp]
  · simp [hp]

theorem ensure_bind_eq_ok {p : Prop} [Decidable p] {e : ε} {f : Unit → Call σ ε β} {s s' : σ}
    {b : β} : (ensure p e >>= f) s = (.ok b, s') ↔ p ∧ f () s = (.ok b, s') := by
  rw [ensure_bind]
  split_ifs with hp
  · simp [hp]
  · simp [hp]

theorem assert_bind_eq_ok {p : Prop} [Decidable p] {m : String} {f : Unit → Call σ ε β} {s s' : σ}
    {b : β} : (assert p m >>= f) s = (.ok b, s') ↔ p ∧ f () s = (.ok b, s') := by
  rw [assert_bind]
  split_ifs with hp
  · simp [hp]
  · simp [hp]

theorem okOr_bind_eq_ok {o : Option α} {e : ε} {f : α → Call σ ε β} {s s' : σ} {b : β} :
    (okOr o e >>= f) s = (.ok b, s') ↔ ∃ a, o = some a ∧ f a s = (.ok b, s') := by
  simp only [bind_eq_ok, okOr_eq_ok]
  constructor
  · rintro ⟨a, _, ⟨ha, rfl⟩, hf⟩
    exact ⟨a, ha, hf⟩
  · rintro ⟨a, ha, hf⟩
    exact ⟨a, s, ⟨ha, rfl⟩, hf⟩

theorem expect_bind_eq_ok {o : Option α} {m : String} {f : α → Call σ ε β} {s s' : σ} {b : β} :
    (expect o m >>= f) s = (.ok b, s') ↔ ∃ a, o = some a ∧ f a s = (.ok b, s') := by
  simp only [bind_eq_ok, expect_eq_ok]
  constructor
  · rintro ⟨a, _, ⟨ha, rfl⟩, hf⟩
    exact ⟨a, ha, hf⟩
  · rintro ⟨a, ha, hf⟩
    exact ⟨a, s, ⟨ha, rfl⟩, hf⟩

theorem lift_bind_eq_ok {x : Outcome ε α} {f : α → Call σ ε β} {s s' : σ} {b : β} :
    (lift x >>= f) s = (.ok b, s') ↔ ∃ a, x = .ok a ∧ f a s = (.ok b, s') := by
  rw [bind_eq_ok]
  constructor
  · rintro ⟨a, _, ha, hf⟩
    obtain ⟨rfl, rfl⟩ := Prod.mk.inj ha
    exact ⟨a, rfl, hf⟩
  · rintro ⟨a, rfl, hf⟩
    exact ⟨a, s, rfl, hf⟩

@[simp] theorem okOr_some (a : α) (e : ε) : (okOr (some a) e : Call σ ε α) = pure a := rfl

@[simp] theorem expect_some (a : α) (m : String) : (expect (some a) m : Call σ ε α) = pure a := rfl

@[simp] theorem expect_none (m : String) : (expect none m : Call σ ε α) = panic m := rfl

theorem on_apply {τ : Type} {get : σ → τ} {put : τ → σ → σ} {x : Call τ ε α} {s : σ} {t : τ}
    {r : Outcome ε α} (h : x (get s) = (r, t)) : on get put x s = (r, put t s) := by
  simp only [on, h]

theorem on_eq_ok {τ : Type} {get : σ → τ} {put : τ → σ → σ} {x : Call τ ε α} {s s' : σ} {a : α} :
    on get put x s = (.ok a, s') ↔ ∃ t, x (get s) = (.ok a, t) ∧ put t s = s' := by
  rcases h : x (get s) with ⟨r, t⟩
  rw [on_apply h]
  constructor
  · rintro ⟨rfl, rfl⟩
    exact ⟨t, rfl, rfl⟩
  · rintro ⟨t', ⟨rfl, rfl⟩, rfl⟩
    rfl

/-- Where errors are not answered, only the call itself answers. -/
theorem handle_eq_ok {ε' : Type} {x : Call σ ε α} {f : ε → Call σ ε' α} {s s' : σ} {a : α}
    (hf : ∀ e s s', f e s ≠ (.ok a, s')) : handle x f s = (.ok a, s') ↔ x s = (.ok a, s') := by
  unfold handle
  rcases h : x s with ⟨b | e | m, s₁⟩
  · simp
  · simp [hf]
  · simp

theorem handle_ok {ε' : Type} {x : Call σ ε α} {f : ε → Call σ ε' α} {s s₁ : σ} {a : α}
    (h : x s = (.ok a, s₁)) : handle x f s = (.ok a, s₁) := by
  simp only [handle, h]

theorem transactional_ok {x : Call σ ε α} {s s₁ : σ} {a : α} (h : x s = (.ok a, s₁)) :
    transactional x s = (.ok a, s₁) := by
  simp only [transactional, h]

theorem transactional_eq_ok {x : Call σ ε α} {s s₁ : σ} {a : α} :
    transactional x s = (.ok a, s₁) ↔ x s = (.ok a, s₁) := by
  unfold transactional
  rcases h : x s with ⟨b | e | m, s₂⟩ <;> simp

/-- A transaction answers as the call does, or leaves the state as it is. -/
theorem transactional_cases (x : Call σ ε α) (s : σ) :
    (∃ a s₁, x s = (.ok a, s₁) ∧ transactional x s = (.ok a, s₁)) ∨
      (∀ a s₁, x s ≠ (.ok a, s₁)) ∧ (transactional x s).2 = s := by
  unfold transactional
  rcases h : x s with ⟨b | e | m, s₂⟩
  · exact .inl ⟨b, s₂, rfl, rfl⟩
  · exact .inr ⟨by simp, rfl⟩
  · exact .inr ⟨by simp, rfl⟩

/-- The call leaves the state as it is, and answers or panics. -/
def Observes (x : Call σ ε α) : Prop :=
  ∀ s, (∃ a, x s = (.ok a, s)) ∨ ∃ m, x s = (.panic m, s)

namespace Observes

theorem same {x : Call σ ε α} (hx : Observes x) {s s' : σ} {r : Outcome ε α} (h : x s = (r, s')) :
    s' = s := by
  rcases hx s with ⟨a, ha⟩ | ⟨m, hm⟩
  · rw [ha, Prod.mk.injEq] at h
    exact h.2.symm
  · rw [hm, Prod.mk.injEq] at h
    exact h.2.symm

theorem pure (a : α) : Observes (Pure.pure a : Call σ ε α) := fun _ => .inl ⟨a, rfl⟩

theorem get : Observes (Call.get : Call σ ε σ) := fun s => .inl ⟨s, rfl⟩

theorem panic (m : String) : Observes (Call.panic m : Call σ ε α) := fun _ => .inr ⟨m, rfl⟩

theorem expect (o : Option α) (m : String) : Observes (Call.expect o m : Call σ ε α) := by
  rcases o with _ | a
  · exact panic m
  · exact pure a

theorem assert (p : Prop) [Decidable p] (m : String) :
    Observes (Call.assert p m : Call σ ε Unit) := by
  unfold Call.assert
  split_ifs
  · exact pure ()
  · exact panic m

theorem lift_expectOk {ε' : Type} (x : Outcome ε' α) (m : String) :
    Observes (Call.lift (x.expectOk m) : Call σ ε α) := by
  intro s
  rcases x with a | e | m'
  · exact .inl ⟨a, rfl⟩
  · exact .inr ⟨m, rfl⟩
  · exact .inr ⟨m', rfl⟩

theorem bind {x : Call σ ε α} {f : α → Call σ ε β} (hx : Observes x) (hf : ∀ a, Observes (f a)) :
    Observes (x >>= f) := by
  intro s
  rcases hx s with ⟨a, ha⟩ | ⟨m, hm⟩
  · rw [bind_ok ha]
    exact hf a s
  · exact .inr ⟨m, bind_panic hm⟩

end Observes

/-- The call leaves `f` of the state as it is, however it ends. -/
def Keeps {τ : Type} (f : σ → τ) (x : Call σ ε α) : Prop := ∀ s, f (x s).2 = f s

namespace Keeps

variable {τ : Type} {f : σ → τ}

theorem pure (a : α) : Keeps f (Pure.pure a : Call σ ε α) := fun _ => rfl

theorem get : Keeps f (Call.get : Call σ ε σ) := fun _ => rfl

theorem modify {g : σ → σ} (hg : ∀ s, f (g s) = f s) : Keeps f (Call.modify g : Call σ ε Unit) := hg

theorem of_observes {x : Call σ ε α} (hx : Observes x) : Keeps f x := fun _ =>
  congrArg f (hx.same rfl)

theorem okOr (o : Option α) (e : ε) : Keeps f (Call.okOr o e : Call σ ε α) := by
  intro s
  cases o <;> rfl

theorem ensure (p : Prop) [Decidable p] (e : ε) : Keeps f (Call.ensure p e : Call σ ε Unit) := by
  intro s
  unfold Call.ensure
  split_ifs <;> rfl

theorem lift (x : Outcome ε α) : Keeps f (Call.lift x : Call σ ε α) := fun _ => rfl

theorem on {υ : Type} {get : σ → υ} {put : υ → σ → σ} (x : Call υ ε α)
    (hput : ∀ t s, f (put t s) = f s) : Keeps f (x.on get put) := fun _ => hput _ _

theorem bind {x : Call σ ε α} {g : α → Call σ ε β} (hx : Keeps f x) (hg : ∀ a, Keeps f (g a)) :
    Keeps f (x >>= g) := by
  intro s
  have hs := hx s
  rcases h : x s with ⟨a | e | m, s₁⟩ <;> rw [h] at hs
  · rw [bind_ok h, hg a s₁, hs]
  · rw [bind_err h, hs]
  · rw [bind_panic h, hs]

theorem handle {ε' : Type} {x : Call σ ε α} {g : ε → Call σ ε' α} (hx : Keeps f x)
    (hg : ∀ e, Keeps f (g e)) : Keeps f (x.handle g) := by
  intro s
  have hs := hx s
  unfold Call.handle
  rcases h : x s with ⟨a | e | m, s₁⟩ <;> rw [h] at hs
  · exact hs
  · exact (hg e s₁).trans hs
  · exact hs

end Keeps

/-- The call answers, or leaves the state as it is. -/
def AllOrNothing (x : Call σ ε α) : Prop := ∀ s, (∃ a s', x s = (.ok a, s')) ∨ (x s).2 = s

namespace AllOrNothing

theorem of_ok {x : Call σ ε α} (hx : ∀ s, ∃ a s', x s = (.ok a, s')) : AllOrNothing x :=
  fun s => .inl (hx s)

/-- What comes before the writing part only has to leave the state as it is. -/
theorem bind {x : Call σ ε α} {f : α → Call σ ε β} (hx : Keeps id x)
    (hf : ∀ a, AllOrNothing (f a)) : AllOrNothing (x >>= f) := by
  intro s
  have hs : (x s).2 = s := hx s
  rcases h : x s with ⟨a | e | m, s₁⟩ <;> rw [h] at hs <;> obtain rfl := hs
  · rw [bind_ok h]
    exact hf a s₁
  · rw [bind_err h]
    exact .inr rfl
  · rw [bind_panic h]
    exact .inr rfl

end AllOrNothing

/-- The call does what `y` does on the part `π` of the state. -/
def Projects {τ : Type} (π : σ → τ) (x : Call σ ε α) (y : Call τ ε α) : Prop :=
  ∀ s, y (π s) = ((x s).1, π (x s).2)

namespace Projects

variable {τ : Type} {π : σ → τ}

theorem pure (a : α) : Projects π (Pure.pure a : Call σ ε α) (Pure.pure a) := fun _ => rfl

theorem okOr (o : Option α) (e : ε) : Projects π (Call.okOr o e : Call σ ε α) (Call.okOr o e) := by
  intro s
  cases o <;> rfl

theorem bind {x : Call σ ε α} {y : Call τ ε α} {f : α → Call σ ε β} {g : α → Call τ ε β}
    (hx : Projects π x y) (hf : ∀ a, Projects π (f a) (g a)) : Projects π (x >>= f) (y >>= g) := by
  intro s
  have hs := hx s
  rcases h : x s with ⟨a | e | m, s₁⟩ <;> rw [h] at hs
  · rw [bind_ok hs, bind_ok h, hf a s₁]
  · rw [bind_err hs, bind_err h]
  · rw [bind_panic hs, bind_panic h]

end Projects

/-- The call does not see the change `g` of the state. -/
def Ignores (g : σ → σ) (x : Call σ ε α) : Prop := ∀ s, x (g s) = ((x s).1, g (x s).2)

namespace Ignores

variable {g : σ → σ}

theorem pure (a : α) : Ignores g (Pure.pure a : Call σ ε α) := Projects.pure a

theorem okOr (o : Option α) (e : ε) : Ignores g (Call.okOr o e : Call σ ε α) := Projects.okOr o e

theorem bind {x : Call σ ε α} {f : α → Call σ ε β} (hx : Ignores g x) (hf : ∀ a, Ignores g (f a)) :
    Ignores g (x >>= f) :=
  Projects.bind hx hf

theorem transactional {x : Call σ ε α} (hx : Ignores g x) : Ignores g x.transactional := by
  intro s
  have hs := hx s
  unfold Call.transactional
  rcases h : x s with ⟨a | e | m, s₁⟩ <;> rw [h] at hs <;> rw [hs]

end Ignores

/-- From a state with `I` the call reaches one, however it ends, and what it answers has `Q`. -/
def Ensures (I : σ → Prop) (Q : α → Prop) (x : Call σ ε α) : Prop :=
  ∀ s, I s → I (x s).2 ∧ ∀ a, (x s).1 = .ok a → Q a

namespace Ensures

variable {I : σ → Prop} {Q : α → Prop} {Q' : β → Prop}

theorem pure {a : α} (ha : Q a) : Ensures I Q (Pure.pure a : Call σ ε α) := by
  intro s hs
  refine ⟨hs, fun b hb => ?_⟩
  obtain rfl := Outcome.ok.inj hb
  exact ha

theorem modify {g : σ → σ} (hg : ∀ s, I s → I (g s)) :
    Ensures I (fun _ => True) (Call.modify g : Call σ ε Unit) :=
  fun s hs => ⟨hg s hs, fun _ _ => trivial⟩

theorem lift (x : Outcome ε α) : Ensures I (fun _ => True) (Call.lift x : Call σ ε α) :=
  fun _ hs => ⟨hs, fun _ _ => trivial⟩

theorem bind {x : Call σ ε α} {f : α → Call σ ε β} (hx : Ensures I Q x)
    (hf : ∀ a, Q a → Ensures I Q' (f a)) : Ensures I Q' (x >>= f) := by
  intro s hs
  obtain ⟨hs₁, ha⟩ := hx s hs
  rcases h : x s with ⟨a | e | m, s₁⟩ <;> rw [h] at hs₁ ha
  · rw [bind_ok h]
    exact hf a (ha a rfl) s₁ hs₁
  · rw [bind_err h]
    exact ⟨hs₁, by simp⟩
  · rw [bind_panic h]
    exact ⟨hs₁, by simp⟩

end Ensures

end Call
