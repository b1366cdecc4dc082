/-
Programs that call an interface.

A program is the tree of its calls: it goes on with each reply.  What is on the
other side is an `Interface`: a state, the calls that are allowed in it, the
replies that may come, and the state after a reply.

* `step` — one call and its reply; a run of a program is a run of `step`, and it
  may be cut off anywhere;
* `Safe` — from a state on, every call is allowed, and the result and the last
  state are as wanted;
* `safe_bind`, `Safe.imp`, `Safe.keeps` — the rules of sequence, of consequence and
  of invariance;
* `Safe.exec`, `Safe.invariant` — what holds in every run, cut off or not;
* `operate_invariant`, `allowed_of_exec` — an object whose operations are such
  programs: between them its invariant holds, and in them every call is allowed;
* `live_invariant` — a process that may be killed at any call, and the next one.
-/
import Volta.Run

namespace Calls

/-- A program with a result in `α`; a call `c` is replied to in `R c`. -/
inductive Program {C : Type} (R : C → Type) (α : Type) where
  | pure (a : α) : Program R α
  | call (c : C) (k : R c → Program R α) : Program R α

structure Interface {C : Type} (R : C → Type) (σ : Type) where
  allows : σ → C → Prop
  replies : σ → (c : C) → R c → Bool := fun _ _ _ => true
  next : σ → (c : C) → R c → σ

variable {C : Type} {R : C → Type} {α β σ : Type}

namespace Program

def bind : Program R α → (α → Program R β) → Program R β
  | pure a, f => f a
  | call c k, f => call c fun r => (k r).bind f

instance : Monad (Program R) where
  pure := pure
  bind := bind

end Program

/-- The call of which the reply is the result. -/
def perform (c : C) : Program R (R c) := .call c .pure

/-- The program with its interface after one call, to which the reply is
`answer`. -/
def step (I : Interface R σ) (s : Program R α × σ) (answer : (c : C) → R c) :
    Option (Program R α × σ) :=
  match s.1 with
  | .pure _ => none
  | .call c k =>
      if I.replies s.2 c (answer c) then some (k (answer c), I.next s.2 c (answer c)) else none

/-- From state `s` on every call of the program is allowed, and `Q` holds of its
result and the state it leaves. -/
def Safe (I : Interface R σ) : Program R α → (α → σ → Prop) → σ → Prop
  | .pure a, Q, s => Q a s
  | .call c k, Q, s =>
      I.allows s c ∧ ∀ r, I.replies s c r = true → Safe I (k r) Q (I.next s c r)

section Rules

variable {I : Interface R σ} {Q Q' : α → σ → Prop} {s t : σ} {p q : Program R α}

@[simp] theorem safe_pure {a : α} : Safe I (pure a : Program R α) Q s ↔ Q a s := Iff.rfl

/-- A call, and the program that goes on with its reply. -/
theorem safe_perform_bind {c : C} {f : R c → Program R β} {Q : β → σ → Prop} :
    Safe I (perform c >>= f) Q s ↔
      I.allows s c ∧ ∀ r, I.replies s c r = true → Safe I (f r) Q (I.next s c r) :=
  Iff.rfl

/-- **Sequence.** -/
@[simp] theorem safe_bind {f : α → Program R β} {Q : β → σ → Prop} :
    Safe I (p >>= f) Q s ↔ Safe I p (fun a => Safe I (f a) Q) s := by
  induction p generalizing s with
  | pure a => exact Iff.rfl
  | call c k ih => exact and_congr_right fun _ => forall₂_congr fun r _ => ih r

/-- **Consequence.** -/
theorem Safe.imp (h : Safe I p Q s) (hQ : ∀ a t, Q a t → Q' a t) : Safe I p Q' s := by
  induction p generalizing s with
  | pure a => exact hQ a s h
  | call c k ih => exact ⟨h.1, fun r hr => ih r (h.2 r hr)⟩

/-- **Invariance**: what the allowed calls keep, a safe program keeps. -/
theorem Safe.keeps {P : σ → Prop}
    (hP : ∀ s c r, P s → I.allows s c → I.replies s c r = true → P (I.next s c r))
    (h : Safe I p Q s) (hs : P s) : Safe I p (fun a t => Q a t ∧ P t) s := by
  induction p generalizing s with
  | pure a => exact ⟨h, hs⟩
  | call c k ih => exact ⟨h.1, fun r hr => ih r (h.2 r hr) (hP s c r hs h.1 hr)⟩

theorem Safe.step {answer : (c : C) → R c} (h : Safe I p Q s)
    (hs : step I (p, s) answer = some (q, t)) : Safe I q Q t := by
  cases p with
  | pure a => exact absurd hs (by simp [Calls.step])
  | call c k =>
    simp only [Calls.step] at hs
    split at hs
    · rename_i hr
      cases hs
      exact h.2 _ hr
    · exact absurd hs (by simp)

/-- **Runs**: the rest of a safe program is safe where it is. -/
theorem Safe.exec {answers : List ((c : C) → R c)} (h : Safe I p Q s)
    (hs : Run.exec (Calls.step I) (p, s) answers = some (q, t)) : Safe I q Q t :=
  Run.exec_invariant (I := fun u => Safe I u.1 Q u.2) (fun h hu => h.step hu) h hs

/-- What the allowed calls keep, a safe program keeps wherever it is cut off. -/
theorem Safe.invariant {P : σ → Prop}
    (hP : ∀ s c r, P s → I.allows s c → I.replies s c r = true → P (I.next s c r))
    {answers : List ((c : C) → R c)} (h : Safe I p Q s) (hs : P s)
    (ht : Run.exec (Calls.step I) (p, s) answers = some (q, t)) : P t := by
  refine (Run.exec_invariant (I := fun u => Safe I u.1 Q u.2 ∧ P u.2)
    (fun {u answer v} hu hv => ⟨hu.1.step hv, ?_⟩) ⟨h, hs⟩ ht).2
  obtain ⟨p, s⟩ := u
  cases p with
  | pure a => exact absurd hv (by simp [Calls.step])
  | call c k =>
    simp only [Calls.step] at hv
    split at hv
    · rename_i hr
      cases hv
      exact hP s c _ hu.2 hu.1.1 hr
    · exact absurd hv (by simp)

end Rules

/-! ### Objects -/

section Objects

variable {ω Op : Type} {I : Interface R σ} {prog : Op → ω → Option (Program R ω)}
  {Inv : ω → σ → Prop}

/-- An operation of an object, with the replies to its calls; `prog` gives `none` for
an operation that nobody asks for in that state. -/
def operate (I : Interface R σ) (prog : Op → ω → Option (Program R ω)) (s : ω × σ)
    (a : Op × List ((c : C) → R c)) : Option (ω × σ) :=
  (prog a.1 s.1).bind fun p =>
    match Run.exec (step I) (p, s.2) a.2 with
    | some (.pure w, t) => some (w, t)
    | _ => none

theorem operate_eq_some {s t : ω × σ} {o : Op} {answers : List ((c : C) → R c)}
    (h : operate I prog s (o, answers) = some t) :
    ∃ p, prog o s.1 = some p ∧ Run.exec (step I) (p, s.2) answers = some (.pure t.1, t.2) := by
  obtain ⟨p, hp, h⟩ := Option.bind_eq_some_iff.mp h
  split at h
  · rename_i w u hu
    cases h
    exact ⟨p, hp, hu⟩
  · exact absurd h (by simp)

variable (hsafe : ∀ o w p s, prog o w = some p → Inv w s → Safe I p Inv s)

include hsafe

/-- Every operation leaves the object as it wants to find it. -/
theorem operate_invariant {as : List (Op × List ((c : C) → R c))} {s t : ω × σ}
    (hs : Inv s.1 s.2) (ht : Run.exec (operate I prog) s as = some t) : Inv t.1 t.2 :=
  Run.exec_invariant (I := fun s => Inv s.1 s.2)
    (fun {s a t} hs ht => by
      obtain ⟨o, answers⟩ := a
      obtain ⟨p, hp, hrun⟩ := operate_eq_some ht
      exact (hsafe o s.1 p s.2 hp hs).exec hrun)
    hs ht

/-- No call is made that is not allowed, also by an operation that is under way. -/
theorem allowed_of_exec {as : List (Op × List ((c : C) → R c))} {s t : ω × σ}
    (hs : Inv s.1 s.2) (ht : Run.exec (operate I prog) s as = some t) {o : Op}
    {p : Program R ω} (hp : prog o t.1 = some p) {answers : List ((c : C) → R c)} {c : C}
    {k : R c → Program R ω} {u : σ}
    (hu : Run.exec (step I) (p, t.2) answers = some (.call c k, u)) : I.allows u c := by
  have hcall := (hsafe o t.1 p t.2 hp (operate_invariant hsafe hs ht)).exec hu
  exact hcall.1

end Objects

/-! ### Processes -/

section Processes

variable {ω Op : Type} {I : Interface R σ} {prog : Op → ω → Option (Program R ω)} {fresh : ω}
  {Inv : ω → σ → Prop} {P : σ → Prop}

/-- An operation of a process that may be killed: when the replies are over before
the operation is, the process is another one, and what is on the other side stays. -/
def live (I : Interface R σ) (prog : Op → ω → Option (Program R ω)) (fresh : ω) (s : ω × σ)
    (a : Op × List ((c : C) → R c)) : Option (ω × σ) :=
  (prog a.1 s.1).bind fun p =>
    (Run.exec (step I) (p, s.2) a.2).map fun u =>
      match u.1 with
      | .pure w => (w, u.2)
      | .call _ _ => (fresh, u.2)

theorem live_eq_some {s t : ω × σ} {a : Op × List ((c : C) → R c)}
    (h : live I prog fresh s a = some t) :
    ∃ p q, prog a.1 s.1 = some p ∧ Run.exec (step I) (p, s.2) a.2 = some (q, t.2) ∧
      (q = .pure t.1 ∨ t.1 = fresh) := by
  obtain ⟨p, hp, h⟩ := Option.bind_eq_some_iff.mp h
  obtain ⟨⟨q, u⟩, hu, rfl⟩ := Option.map_eq_some_iff.mp h
  cases q with
  | pure w => exact ⟨p, .pure w, hp, hu, .inl rfl⟩
  | call c k => exact ⟨p, .call c k, hp, hu, .inr rfl⟩

/-- What every allowed call keeps survives the process, and is all that the next one
finds. -/
theorem live_invariant (hsafe : ∀ o w p s, prog o w = some p → Inv w s → Safe I p Inv s)
    (hcall : ∀ s c r, P s → I.allows s c → I.replies s c r = true → P (I.next s c r))
    (hkept : ∀ w s, Inv w s → P s) (hfresh : ∀ s, P s → Inv fresh s)
    {as : List (Op × List ((c : C) → R c))} {s t : ω × σ} (hs : Inv s.1 s.2)
    (ht : Run.exec (live I prog fresh) s as = some t) : Inv t.1 t.2 := by
  refine Run.exec_invariant (I := fun s => Inv s.1 s.2) (fun {s a t} hs ht => ?_) hs ht
  obtain ⟨p, q, hp, hrun, hend⟩ := live_eq_some ht
  have hprog := hsafe a.1 s.1 p s.2 hp hs
  rcases hend with rfl | hend
  · exact hprog.exec hrun
  · exact hend ▸ hfresh t.2 (hprog.invariant hcall (hkept s.1 s.2 hs) hrun)

end Processes

end Calls
