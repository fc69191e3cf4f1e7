import Moonkit.Base.Machine
import Mathlib.Algebra.Ring.Nat
import Mathlib.Algebra.BigOperators.Group.Finset.Piecewise
import Mathlib.Algebra.Order.BigOperators.Group.Finset
import Mathlib.Logic.Function.Basic
import Mathlib.Tactic.SplitIfs

/-!
# Fungible tokens with allowances

A token as its holders see it: balances, and what each owner allows each spender. Holders move
tokens of their own, and tokens that others allow them to spend; balances may also change from
outside, and allowances with them. How a movement deals with a rest that is too little to keep is a
parameter: it is lost where the movement is `Moved`, and goes along where it is `Swept`.
-/

/-- The balances, and what owners allow spenders. -/
@[ext] structure Holdings (A : Type*) where
  balance : A → ℕ
  allowance : A → A → ℕ

namespace Holdings

variable {A : Type*}

inductive Act (A : Type*) where
  /-- `caller` moves `n` from `source` to `dest`. -/
  | move (caller source dest : A) (n : ℕ)
  | approve (owner spender : A) (n : ℕ)
  | outside
  | replaced

/-- Between which balances `n` may move from `source` to `dest`. -/
abbrev Movement (A : Type*) := A → A → ℕ → (A → ℕ) → (A → ℕ) → Prop

/-- The balances after `n` have moved, and the rest of the source was lost or not. -/
structure Moved (source dest : A) (n : ℕ) (b b' : A → ℕ) : Prop where
  self : source = dest → b' = b
  taken : source ≠ dest → b' source + n ≤ b source
  brought : source ≠ dest → b' dest = b dest + n
  other : ∀ a, a ≠ source → a ≠ dest → b' a = b a

/-- The balances after `n` have moved, with the rest of the source or without. -/
structure Swept (source dest : A) (n : ℕ) (b b' : A → ℕ) : Prop where
  self : source = dest → b' = b
  moved : source ≠ dest → ∃ rest, b' source + (n + rest) = b source ∧
    b' dest = b dest + (n + rest) ∧ (rest = 0 ∨ b' source = 0)
  other : ∀ a, a ≠ source → a ≠ dest → b' a = b a

variable [DecidableEq A]

def setAllowance (f : A → A → ℕ) (owner spender : A) (n : ℕ) : A → A → ℕ :=
  Function.update f owner (Function.update (f owner) spender n)

inductive Step (mv : Movement A) : Holdings A → Act A → Holdings A → Prop
  | transfer {t : Holdings A} {source dest : A} {n : ℕ} {b : A → ℕ} :
      mv source dest n t.balance b → Step mv t (.move source source dest n) { t with balance := b }
  | transferFrom {t : Holdings A} {caller source dest : A} {n : ℕ} {b : A → ℕ} : caller ≠ source →
      n ≤ t.allowance source caller → mv source dest n t.balance b →
      Step mv t (.move caller source dest n)
        ⟨b, setAllowance t.allowance source caller (t.allowance source caller - n)⟩
  | approve {t : Holdings A} {owner spender : A} {n : ℕ} : Step mv t (.approve owner spender n)
      { t with allowance := setAllowance t.allowance owner spender n }
  | outside {t : Holdings A} {b : A → ℕ} : Step mv t .outside { t with balance := b }
  | replaced {t t' : Holdings A} : Step mv t .replaced t'

/-- The runs from `t₀`, with their acts, newest first. -/
inductive Run (mv : Movement A) (t₀ : Holdings A) : List (Act A) → Holdings A → Prop
  | start : Run mv t₀ [] t₀
  | step {acts : List (Act A)} {t t' : Holdings A} {act : Act A} : Run mv t₀ acts t →
      Step mv t act t' → Run mv t₀ (act :: acts) t'

/-- What happens is an act, or nothing to the holders. -/
def Does (mv : Movement A) (t : Holdings A) : Option (Act A) → Holdings A → Prop
  | some act, t' => Step mv t act t'
  | none, t' => t' = t

/-- The act is one of a holder. -/
def Act.Own (act : Act A) : Prop := act ≠ .outside ∧ act ≠ .replaced

/-- The account takes part in the act. -/
def Act.About (a : A) : Act A → Prop
  | move _ source dest _ => a = source ∨ a = dest
  | _ => False

section Amounts

variable (a sp : A)

/-- What an act takes from `a`, and what it brings, moves to the same account apart. -/
def Act.out : Act A → ℕ
  | move _ source dest n => if source = a ∧ source ≠ dest then n else 0
  | _ => 0

def Act.into : Act A → ℕ
  | move _ source dest n => if dest = a ∧ source ≠ dest then n else 0
  | _ => 0

/-- What an act of `sp` spends of `a`. -/
def Act.spent : Act A → ℕ
  | move caller source _ n => if source = a ∧ caller = sp then n else 0
  | _ => 0

/-- What an act allows `sp` to spend of `a`. -/
def Act.granted : Act A → ℕ
  | approve owner spender n => if owner = a ∧ spender = sp then n else 0
  | _ => 0

end Amounts

variable {t₀ t t' : Holdings A} {act : Act A} {acts : List (Act A)} {a sp : A}

theorem setAllowance_self (f : A → A → ℕ) (o s : A) (n : ℕ) : setAllowance f o s n o s = n := by
  simp [setAllowance]

theorem setAllowance_of_ne {f : A → A → ℕ} {o s o' s' : A} (h : ¬ (o = o' ∧ s = s')) (n : ℕ) :
    setAllowance f o s n o' s' = f o' s' := by
  unfold setAllowance
  by_cases ho : o' = o
  · subst ho
    rw [Function.update_self, Function.update_of_ne fun hs => h ⟨rfl, hs.symm⟩]
  · rw [Function.update_of_ne ho]

theorem eq_setAllowance {f g : A → A → ℕ} {o s : A} {n : ℕ} (hself : g o s = n)
    (hother : ∀ o' s', (o', s') ≠ (o, s) → g o' s' = f o' s') : g = setAllowance f o s n := by
  funext o' s'
  by_cases h : o = o' ∧ s = s'
  · obtain ⟨rfl, rfl⟩ := h
    rw [setAllowance_self, hself]
  · rw [setAllowance_of_ne h]
    refine hother o' s' ?_
    rintro ⟨⟩
    exact h ⟨rfl, rfl⟩

variable {mv : Movement A}

theorem Step.moved {caller source dest : A} {n : ℕ}
    (h : Step mv t (.move caller source dest n) t') : mv source dest n t.balance t'.balance := by
  cases h with
  | transfer hm => exact hm
  | transferFrom _ _ hm => exact hm

/-- An act of a holder that is no movement leaves the balances. -/
theorem Step.balances (h : Step mv t act t') (hown : act.Own)
    (hmove : ∀ caller source dest n, act ≠ .move caller source dest n) :
    t'.balance = t.balance := by
  cases h with
  | transfer _ => exact absurd rfl (hmove _ _ _ _)
  | transferFrom _ _ _ => exact absurd rfl (hmove _ _ _ _)
  | approve => rfl
  | outside => exact absurd rfl hown.1
  | replaced => exact absurd rfl hown.2

/-- What another holder spends is taken off what it is allowed. -/
theorem Step.spent_add_allowance_le (h : Step mv t act t') (hin : act ≠ .replaced) (hne : sp ≠ a) :
    act.spent a sp + t'.allowance a sp ≤ t.allowance a sp + act.granted a sp := by
  cases h with
  | @transfer source dest n b hm =>
    have hspent : (Act.move source source dest n).spent a sp = 0 :=
      if_neg fun hs => hne (hs.2.symm.trans hs.1)
    rw [hspent, Nat.zero_add]
    exact Nat.le_add_right _ _
  | @transferFrom caller source dest n b _ hle _ =>
    by_cases hs : source = a ∧ caller = sp
    · obtain ⟨rfl, rfl⟩ := hs
      simp only [Act.spent, Act.granted, and_self, if_true, setAllowance_self]
      omega
    · simp [Act.spent, Act.granted, hs, setAllowance_of_ne hs]
  | @approve owner spender n =>
    by_cases hs : owner = a ∧ spender = sp
    · obtain ⟨rfl, rfl⟩ := hs
      simp [Act.spent, Act.granted, setAllowance_self]
    · simp [Act.spent, Act.granted, hs, setAllowance_of_ne hs]
  | outside => exact (Nat.zero_add _).le
  | replaced => exact absurd rfl hin

/-- A machine each of whose operations is an act, or nothing to the holders, runs as they do. -/
theorem run_of_machine {σ ω ρ : Type} {M : Machine σ ω ρ}
    {allow : List (Machine.Event σ ω ρ) → σ → ω → Prop} {h : List (Machine.Event σ ω ρ)} {s : σ}
    (view : σ → Holdings A) (actOf : Machine.Event σ ω ρ → Option (Act A))
    (hdoes : ∀ s op, Does mv (view s) (actOf (M.event s op)) (view (M.exec s op).2))
    (hr : M.Run allow h s) : Run mv (view (Machine.origin h s)) (h.filterMap actOf) (view s) := by
  induction hr with
  | start _ => exact .start
  | @step h s op hr _ ih =>
    have hact := hdoes s op
    rw [List.filterMap_cons]
    rcases ha : actOf (M.event s op) with _ | act <;> rw [ha] at hact
    · rw [show view (M.exec s op).2 = view s from hact]
      exact ih
    · exact .step ih hact

theorem Run.eq_start (hr : Run mv t₀ [] t) : t = t₀ := by
  cases hr
  rfl

/-- What another holder spends over a run was allowed at its start, or granted along it. -/
theorem Run.spent_add_allowance_le (hr : Run mv t₀ acts t) (hin : .replaced ∉ acts) (hne : sp ≠ a) :
    (acts.map (Act.spent a sp)).sum + t.allowance a sp
      ≤ t₀.allowance a sp + (acts.map (Act.granted a sp)).sum := by
  induction hr with
  | start => exact (Nat.zero_add _).le
  | step hr hs ih =>
    obtain ⟨hact, hin⟩ := List.ne_and_not_mem_of_not_mem_cons hin
    have hstep := hs.spent_add_allowance_le (a := a) (Ne.symm hact) hne
    have hrest := ih hin
    simp only [List.map_cons, List.sum_cons]
    omega

section Losing

theorem Step.balance_add_out_le (h : Step Moved t act t') (hown : act.Own) :
    t'.balance a + act.out a ≤ t.balance a + act.into a := by
  cases act with
  | outside => exact absurd rfl hown.1
  | replaced => exact absurd rfl hown.2
  | approve owner spender n =>
    rw [h.balances hown fun _ _ _ _ => nofun]
    exact le_rfl
  | move caller source dest n =>
    have hm := h.moved
    by_cases hsame : source = dest
    · simp [Act.out, Act.into, hsame, hm.self hsame]
    by_cases hs : source = a
    · subst hs
      simpa [Act.out, Act.into, hsame, Ne.symm hsame] using hm.taken hsame
    by_cases hd : dest = a
    · subst hd
      simp [Act.out, Act.into, hsame, hm.brought hsame]
    · simp [Act.out, Act.into, hs, hd, hm.other a (Ne.symm hs) (Ne.symm hd)]

/-- An act that does not move from `a` changes its balance by what it brings. -/
theorem Step.balance_eq (h : Step Moved t act t') (hown : act.Own)
    (hsource : ∀ caller dest n, act ≠ .move caller a dest n) :
    t'.balance a = t.balance a + act.into a := by
  cases act with
  | outside => exact absurd rfl hown.1
  | replaced => exact absurd rfl hown.2
  | approve owner spender n =>
    rw [h.balances hown fun _ _ _ _ => nofun]
    rfl
  | move caller source dest n =>
    have hm := h.moved
    have hs : source ≠ a := fun hs => hsource caller dest n (by rw [hs])
    by_cases hd : dest = a
    · subst hd
      simp [Act.into, hs, hm.brought hs]
    · simp [Act.into, hd, hm.other a (Ne.symm hs) (Ne.symm hd)]

theorem Step.sum_le (h : Step Moved t act t') (hown : act.Own) {S : Finset A}
    (hS : ∀ b, act.About b → b ∈ S) :
    ∑ b ∈ S, t'.balance b ≤ ∑ b ∈ S, t.balance b := by
  have hsum : ∑ b ∈ S, act.into b ≤ ∑ b ∈ S, act.out b := by
    cases act with
    | move caller source dest n =>
      by_cases hsame : source = dest
      · simp [Act.into, Act.out, hsame]
      · simp only [Act.into, Act.out, hsame, ne_eq, not_false_eq_true, and_true,
          Finset.sum_ite_eq, hS dest (.inr rfl), hS source (.inl rfl), if_true, le_rfl]
    | _ => exact le_rfl
  have hall : ∑ b ∈ S, (t'.balance b + act.out b) ≤ ∑ b ∈ S, (t.balance b + act.into b) :=
    Finset.sum_le_sum fun b _ => h.balance_add_out_le hown
  rw [Finset.sum_add_distrib, Finset.sum_add_distrib] at hall
  omega

theorem Run.balance_add_out_le (hr : Run Moved t₀ acts t) (hown : ∀ act ∈ acts, act.Own) (a : A) :
    t.balance a + (acts.map (Act.out a)).sum ≤ t₀.balance a + (acts.map (Act.into a)).sum := by
  induction hr with
  | start => exact le_rfl
  | step hr hs ih =>
    obtain ⟨hact, hown⟩ := List.forall_mem_cons.1 hown
    have hstep := hs.balance_add_out_le (a := a) hact
    have hrest := ih hown
    simp only [List.map_cons, List.sum_cons]
    omega

theorem Run.balance_eq (hr : Run Moved t₀ acts t) (hown : ∀ act ∈ acts, act.Own)
    (hsource : ∀ caller dest n, .move caller a dest n ∉ acts) :
    t.balance a = t₀.balance a + (acts.map (Act.into a)).sum := by
  induction hr with
  | start => rfl
  | step hr hs ih =>
    obtain ⟨hact, hown⟩ := List.forall_mem_cons.1 hown
    have hstep := hs.balance_eq (a := a) hact
      fun caller dest n heq => hsource caller dest n (heq ▸ List.mem_cons_self)
    have hrest := ih hown fun caller dest n hmem =>
      hsource caller dest n (List.mem_cons_of_mem _ hmem)
    simp only [List.map_cons, List.sum_cons]
    omega

/-- Nothing is made. -/
theorem Run.sum_le (hr : Run Moved t₀ acts t) (hown : ∀ act ∈ acts, act.Own) {S : Finset A}
    (hS : ∀ act ∈ acts, ∀ b, act.About b → b ∈ S) :
    ∑ b ∈ S, t.balance b ≤ ∑ b ∈ S, t₀.balance b := by
  induction hr with
  | start => exact le_rfl
  | step hr hs ih =>
    obtain ⟨hact, hown⟩ := List.forall_mem_cons.1 hown
    exact (hs.sum_le hact (hS _ List.mem_cons_self)).trans
      (ih hown fun act hact => hS act (List.mem_cons_of_mem _ hact))

end Losing

section Sweeping

/-- An act that does not move from `a` brings it what it says, or more. -/
theorem Step.balance_add_into_le (h : Step Swept t act t') (hown : act.Own)
    (hsource : ∀ caller dest n, act ≠ .move caller a dest n) :
    t.balance a + act.into a ≤ t'.balance a := by
  cases act with
  | outside => exact absurd rfl hown.1
  | replaced => exact absurd rfl hown.2
  | approve owner spender n =>
    rw [h.balances hown fun _ _ _ _ => nofun]
    exact le_rfl
  | move caller source dest n =>
    have hm := h.moved
    have hs : source ≠ a := fun hs => hsource caller dest n (by rw [hs])
    by_cases hd : dest = a
    · subst hd
      obtain ⟨rest, -, hdest, -⟩ := hm.moved hs
      simp only [Act.into, hs, hdest, true_and, ne_eq, not_false_eq_true, if_true]
      omega
    · simp [Act.into, hd, hm.other a (Ne.symm hs) (Ne.symm hd)]

theorem Swept.sum_eq {source dest : A} {n : ℕ} {b b' : A → ℕ} (h : Swept source dest n b b')
    {S : Finset A} (hsource : source ∈ S) (hdest : dest ∈ S) :
    ∑ a ∈ S, b' a = ∑ a ∈ S, b a := by
  by_cases hsame : source = dest
  · rw [h.self hsame]
  obtain ⟨rest, htaken, hbrought, -⟩ := h.moved hsame
  have hdest' : dest ∈ S.erase source := Finset.mem_erase.2 ⟨Ne.symm hsame, hdest⟩
  have hothers : ∑ a ∈ (S.erase source).erase dest, b' a
      = ∑ a ∈ (S.erase source).erase dest, b a := by
    refine Finset.sum_congr rfl fun a ha => ?_
    obtain ⟨hd, ha⟩ := Finset.mem_erase.1 ha
    exact h.other a (Finset.ne_of_mem_erase ha) hd
  rw [← Finset.add_sum_erase S b' hsource, ← Finset.add_sum_erase S b hsource,
    ← Finset.add_sum_erase _ b' hdest', ← Finset.add_sum_erase _ b hdest', hothers]
  omega

theorem Run.balance_add_into_le (hr : Run Swept t₀ acts t) (hown : ∀ act ∈ acts, act.Own)
    (hsource : ∀ caller dest n, .move caller a dest n ∉ acts) :
    t₀.balance a + (acts.map (Act.into a)).sum ≤ t.balance a := by
  induction hr with
  | start => exact le_rfl
  | step hr hs ih =>
    obtain ⟨hact, hown⟩ := List.forall_mem_cons.1 hown
    have hstep := hs.balance_add_into_le (a := a) hact
      fun caller dest n heq => hsource caller dest n (heq ▸ List.mem_cons_self)
    have hrest := ih hown fun caller dest n hmem =>
      hsource caller dest n (List.mem_cons_of_mem _ hmem)
    simp only [List.map_cons, List.sum_cons]
    omega

/-- Nothing is made, and nothing is lost. -/
theorem Run.sum_eq (hr : Run Swept t₀ acts t) (hown : ∀ act ∈ acts, act.Own) {S : Finset A}
    (hS : ∀ act ∈ acts, ∀ b, act.About b → b ∈ S) :
    ∑ b ∈ S, t.balance b = ∑ b ∈ S, t₀.balance b := by
  induction hr with
  | start => rfl
  | @step acts t t' act hr hs ih =>
    obtain ⟨hact, hown⟩ := List.forall_mem_cons.1 hown
    rw [← ih hown fun act hact => hS act (List.mem_cons_of_mem _ hact)]
    cases act with
    | outside => exact absurd rfl hact.1
    | replaced => exact absurd rfl hact.2
    | approve owner spender n => rw [hs.balances hact fun _ _ _ _ => nofun]
    | move caller source dest n =>
      exact hs.moved.sum_eq (hS _ List.mem_cons_self source (.inl rfl))
        (hS _ List.mem_cons_self dest (.inr rfl))

end Sweeping

end Holdings
