/-
  ThisConnect.Base.Interaction
  **PROGRAMS THAT TALK TO AN ENVIRONMENT THEY DO NOT TRUST.**
-/
import Mathlib.Data.List.Basic
import ThisConnect.Base.Outcome

namespace ThisConnect

namespace Interaction

/-! ## §1. Programs. -/

inductive Prog (C : Type) (R : C → Type) (α : Type) where
  | ret (a : α)
  | call (c : C) (k : R c → Prog C R α)

variable {C : Type} {R : C → Type} {S α β ε : Type}

namespace Prog

def bind : Prog C R α → (α → Prog C R β) → Prog C R β
  | .ret a, f => f a
  | .call c k, f => .call c fun r => (k r).bind f

instance : Monad (Prog C R) where
  pure := .ret
  bind := bind

@[simp] theorem pure_eq (a : α) : (pure a : Prog C R α) = .ret a := rfl
@[simp] theorem ret_bind (a : α) (f : α → Prog C R β) : (Prog.ret a >>= f) = f a := rfl

@[simp] theorem call_bind (c : C) (k : R c → Prog C R α) (f : α → Prog C R β) :
    (Prog.call c k >>= f) = .call c fun r => k r >>= f := rfl

theorem bind_assoc {γ : Type} (p : Prog C R α) (f : α → Prog C R β) (g : β → Prog C R γ) :
    (p >>= f) >>= g = p >>= fun a => f a >>= g := by
  induction p with
  | ret a => rfl
  | call c k ih => exact congrArg (Prog.call c) (funext ih)

/-- Issue one call and return its answer. -/
def ask (c : C) : Prog C R (R c) := .call c .ret

def exec (answer : S → (c : C) → R c × S) : Prog C R α → S → α × S
  | .ret a, s => (a, s)
  | .call c k, s => (k (answer s c).1).exec answer (answer s c).2

theorem exec_bind (answer : S → (c : C) → R c × S) (p : Prog C R α) (f : α → Prog C R β) :
    ∀ s, (p >>= f).exec answer s = (f (p.exec answer s).1).exec answer (p.exec answer s).2 := by
  induction p with
  | ret a => intro s; rfl
  | call c k ih => intro s; exact ih _ _

def after (answer : S → (c : C) → R c × S) : Nat → Prog C R α → S → Prog C R α × S
  | 0, p, s => (p, s)
  | _ + 1, .ret a, s => (.ret a, s)
  | n + 1, .call c k, s => (k (answer s c).1).after answer n (answer s c).2

/-- The call a program issues next. -/
def issues? : Prog C R α → Option C
  | .ret _ => none
  | .call c _ => some c

theorem eq_call_of_issues {p : Prog C R α} {c : C} (h : p.issues? = some c) :
    ∃ k, p = .call c k := by
  cases p with
  | ret a => cases h
  | call c' k =>
    injection h with h
    subst h
    exact ⟨k, rfl⟩

end Prog

/-! ## §2. Runs. -/

abbrev Env (C : Type) (R : C → Type) (S : Type) := S → (c : C) → R c → S → Prop

/-- `Reaches env p s q t`: some number of calls into `p` from state `s`, the
    program left to run is `q` and the state is `t`. -/
inductive Reaches (env : Env C R S) : Prog C R α → S → Prog C R α → S → Prop where
  | here (p : Prog C R α) (s : S) : Reaches env p s p s
  | step {c : C} {k : R c → Prog C R α} {s s' t : S} {r : R c} {q : Prog C R α}
      (answered : env s c r s') (rest : Reaches env (k r) s' q t) :
      Reaches env (.call c k) s q t

variable {s t : S}

variable {env : Env C R S} {answer : S → (c : C) → R c × S}

theorem Reaches.mono {env' : Env C R S} (henv : ∀ s c r s', env s c r s' → env' s c r s')
    {p q : Prog C R α} (hrun : Reaches env p s q t) : Reaches env' p s q t := by
  induction hrun with
  | here p s => exact .here p s
  | step answered rest ih => exact .step (henv _ _ _ _ answered) ih

theorem exec_reaches (hallowed : ∀ s c, env s c (answer s c).1 (answer s c).2) (p : Prog C R α) :
    ∀ s, Reaches env p s (.ret (p.exec answer s).1) (p.exec answer s).2 := by
  induction p with
  | ret a => intro s; exact .here _ _
  | call c k ih => intro s; exact .step (hallowed s c) (ih _ _)

theorem after_reaches (hallowed : ∀ s c, env s c (answer s c).1 (answer s c).2) :
    ∀ (n : Nat) (p : Prog C R α) (s : S),
      Reaches env p s (p.after answer n s).1 (p.after answer n s).2
  | 0, p, s => .here p s
  | _ + 1, .ret a, s => .here (.ret a) s
  | n + 1, .call c _, s => .step (hallowed s c) (after_reaches hallowed n _ _)

/-! ## §3. The safety judgment. -/

def Safe (env : Env C R S) (I : S → Prop) (Q : α → S → Prop) : Prog C R α → S → Prop
  | .ret a, s => I s ∧ Q a s
  | .call c k, s => I s ∧ ∀ r s', env s c r s' → Safe env I Q (k r) s'

section Rules

variable {env : Env C R S} {I I' : S → Prop} {Q : α → S → Prop}

variable {p q : Prog C R α}

theorem Safe.inv (h : Safe env I Q p s) : I s := by
  cases p with
  | ret a => exact h.1
  | call c k => exact h.1

theorem Safe.of_reaches (h : Safe env I Q p s) (hrun : Reaches env p s q t) :
    Safe env I Q q t := by
  induction hrun with
  | here p s => exact h
  | step answered rest ih => exact ih (h.2 _ _ answered)

theorem Safe.inv_of_reaches (h : Safe env I Q p s) (hrun : Reaches env p s q t) :
    I t :=
  (h.of_reaches hrun).inv

theorem Safe.post_of_reaches {a : α} (h : Safe env I Q p s) (hrun : Reaches env p s (.ret a) t) :
    Q a t :=
  (h.of_reaches hrun).2

theorem Safe.mono {Q' : α → S → Prop} (hI : ∀ s, I s → I' s) (hQ : ∀ a s, I s → Q a s → Q' a s) :
    ∀ {s : S}, Safe env I Q p s → Safe env I' Q' p s := by
  induction p with
  | ret a => intro s h; exact ⟨hI s h.1, hQ a s h.1 h.2⟩
  | call c k ih =>
    intro s h
    exact ⟨hI s h.1, fun r s' answered => ih r (h.2 r s' answered)⟩

theorem Safe.of_forall (hQ : ∀ a s, Q a s) (p : Prog C R α) :
    ∀ s, Safe env (fun _ => True) Q p s := by
  induction p with
  | ret a => intro s; exact ⟨trivial, hQ a s⟩
  | call c k ih => intro s; exact ⟨trivial, fun r s' _ => ih r s'⟩

theorem Safe.bind {Q' : β → S → Prop} {f : α → Prog C R β}
    (hf : ∀ a s, I s → Q a s → Safe env I Q' (f a) s) :
    ∀ {s : S}, Safe env I Q p s → Safe env I Q' (p >>= f) s := by
  induction p with
  | ret a => intro s h; exact hf a s h.1 h.2
  | call c k ih =>
    intro s h
    exact ⟨h.1, fun r s' answered => ih r (h.2 r s' answered)⟩

theorem Safe.bindExcept {Q : Except ε α → S → Prop} {Q' : Except ε β → S → Prop}
    {p : ExceptT ε (Prog C R) α} {f : α → ExceptT ε (Prog C R) β} (h : Safe env I Q p.run s)
    (hok : ∀ a s', I s' → Q (.ok a) s' → Safe env I Q' (f a).run s')
    (herror : ∀ e s', I s' → Q (.error e) s' → Q' (.error e) s') :
    Safe env I Q' (p >>= f).run s := by
  refine Safe.bind (Q := Q) (fun outcome s' hI hq => ?_) h
  cases outcome with
  | ok a => exact hok a s' hI hq
  | error e => exact ⟨hI, herror e s' hI hq⟩

theorem Safe.ask {c : C} {Q : R c → S → Prop} (hs : I s)
    (h : ∀ r s', env s c r s' → I s' ∧ Q r s') :
    Safe env I Q (Prog.ask c) s :=
  ⟨hs, h⟩

end Rules

/-! ## §4. What a program issues, and when. -/

def Issues (env : Env C R S) (permits : S → C → Prop) (Q : α → S → Prop) : Prog C R α → S → Prop
  | .ret a, s => Q a s
  | .call c k, s => permits s c ∧ ∀ r s', env s c r s' → Issues env permits Q (k r) s'

section IssueRules

variable {env : Env C R S} {permits : S → C → Prop} {Q : α → S → Prop}

variable {p : Prog C R α}

theorem Issues.of_reaches {q : Prog C R α} (h : Issues env permits Q p s)
    (hrun : Reaches env p s q t) : Issues env permits Q q t := by
  induction hrun with
  | here p s => exact h
  | step answered rest ih => exact ih (h.2 _ _ answered)

theorem Issues.permits_of_reaches {c : C} {k : R c → Prog C R α} (h : Issues env permits Q p s)
    (hrun : Reaches env p s (.call c k) t) : permits t c :=
  (h.of_reaches hrun).1

theorem Issues.mono {Q' : α → S → Prop} (hQ : ∀ a s, Q a s → Q' a s) :
    ∀ {s : S}, Issues env permits Q p s → Issues env permits Q' p s := by
  induction p with
  | ret a => intro s h; exact hQ a s h
  | call c k ih =>
    intro s h
    exact ⟨h.1, fun r s' answered => ih r (h.2 r s' answered)⟩

theorem Issues.permits_mono {permits' : S → C → Prop}
    (hpermits : ∀ s c, permits s c → permits' s c) :
    ∀ {s : S}, Issues env permits Q p s → Issues env permits' Q p s := by
  induction p with
  | ret a => intro s h; exact h
  | call c k ih =>
    intro s h
    exact ⟨hpermits s c h.1, fun r s' answered => ih r (h.2 r s' answered)⟩

theorem Issues.bind {Q' : β → S → Prop} {f : α → Prog C R β}
    (hf : ∀ a s, Q a s → Issues env permits Q' (f a) s) :
    ∀ {s : S}, Issues env permits Q p s → Issues env permits Q' (p >>= f) s := by
  induction p with
  | ret a => intro s h; exact hf a s h
  | call c k ih =>
    intro s h
    exact ⟨h.1, fun r s' answered => ih r (h.2 r s' answered)⟩

theorem Issues.bindExcept {Q : Except ε α → S → Prop} {Q' : Except ε β → S → Prop}
    {p : ExceptT ε (Prog C R) α} {f : α → ExceptT ε (Prog C R) β} (h : Issues env permits Q p.run s)
    (hok : ∀ a s', Q (.ok a) s' → Issues env permits Q' (f a).run s')
    (herror : ∀ e s', Q (.error e) s' → Q' (.error e) s') :
    Issues env permits Q' (p >>= f).run s := by
  refine Issues.bind (Q := Q) (fun outcome s' hq => ?_) h
  cases outcome with
  | ok a => exact hok a s' hq
  | error e => exact herror e s' hq

end IssueRules

end Interaction

end ThisConnect
