import Mathlib.Logic.Relation

namespace Datenbereitstellung.Lib.Program

variable {Req : Type} {Ans : Req → Type} {ε α β σ ι : Type}

/-- A program as the tree of its calls: what it asks next, and how it goes on
for each answer. Every call is one atomic step. -/
inductive Prog (Req : Type) (Ans : Req → Type) (ε α : Type) : Type
  | ret (a : α)
  | raise (e : ε)
  | call (q : Req) (k : Ans q → Prog Req Ans ε α)

abbrev Called (Req : Type) (Ans : Req → Type) := Σ q : Req, Ans q

namespace Prog

def bind : Prog Req Ans ε α → (α → Prog Req Ans ε β) → Prog Req Ans ε β
  | .ret a, f => f a
  | .raise e, _ => .raise e
  | .call q k, f => .call q (fun a => bind (k a) f)

/-- Run `p`; an exception of `p` is answered by `h`. -/
def handle : Prog Req Ans ε α → (ε → Prog Req Ans ε α) → Prog Req Ans ε α
  | .ret a, _ => .ret a
  | .raise e, h => h e
  | .call q k, h => .call q (fun a => handle (k a) h)

instance : Monad (Prog Req Ans ε) where
  pure := .ret
  bind := bind

instance : MonadExcept ε (Prog Req Ans ε) where
  throw := .raise
  tryCatch := handle

def perform (q : Req) : Prog Req Ans ε (Ans q) := .call q .ret

@[simp] theorem pure_eq (a : α) : (pure a : Prog Req Ans ε α) = .ret a := rfl

@[simp] theorem throw_eq (e : ε) : (throw e : Prog Req Ans ε α) = .raise e := rfl

@[simp] theorem ret_bind (a : α) (f : α → Prog Req Ans ε β) : (Prog.ret a >>= f) = f a := rfl

@[simp] theorem raise_bind (e : ε) (f : α → Prog Req Ans ε β) :
    ((.raise e : Prog Req Ans ε α) >>= f) = .raise e := rfl

@[simp] theorem call_bind (q : Req) (k : Ans q → Prog Req Ans ε α) (f : α → Prog Req Ans ε β) :
    (Prog.call q k >>= f) = .call q (fun a => k a >>= f) := rfl

@[simp] theorem perform_bind (q : Req) (f : Ans q → Prog Req Ans ε β) :
    (perform q >>= f) = .call q f := rfl

theorem bind_assoc {γ : Type} (p : Prog Req Ans ε α) (f : α → Prog Req Ans ε β)
    (g : β → Prog Req Ans ε γ) : ((p >>= f) >>= g) = (p >>= fun a => f a >>= g) := by
  induction p with
  | ret a => rfl
  | raise e => rfl
  | call q k ih =>
    simp only [call_bind]
    exact congrArg _ (funext ih)

/-- Every call of the program is one of the calls `N`, and nothing is raised. -/
def Only (N : Req → Prop) : Prog Req Ans ε α → Prop
  | .ret _ => True
  | .raise _ => False
  | .call q k => N q ∧ ∀ a, Only N (k a)

/-- A run of the program to its result, with the calls it makes. -/
inductive Runs : Prog Req Ans ε α → List Req → α → Prop
  | ret (a : α) : Runs (.ret a) [] a
  | call {q : Req} {k : Ans q → Prog Req Ans ε α} (ans : Ans q) {qs : List Req} {a : α}
      (h : Runs (k ans) qs a) : Runs (.call q k) (q :: qs) a

theorem runs_call {q : Req} {k : Ans q → Prog Req Ans ε α} {qs : List Req} {a : α}
    (h : Runs (.call q k) qs a) : ∃ ans qs', qs = q :: qs' ∧ Runs (k ans) qs' a := by
  cases h with
  | call ans h => exact ⟨ans, _, rfl, h⟩

/-- A run in which every call gets one of the answers that `A` admits. -/
inductive RunsBy (A : (q : Req) → Ans q → Prop) :
    Prog Req Ans ε α → List (Called Req Ans) → α → Prop
  | ret (a : α) : RunsBy A (.ret a) [] a
  | call {q : Req} {k : Ans q → Prog Req Ans ε α} (ans : Ans q) (hans : A q ans)
      {tr : List (Called Req Ans)} {a : α} (h : RunsBy A (k ans) tr a) :
      RunsBy A (.call q k) (⟨q, ans⟩ :: tr) a

section RunsBy

variable {A : (q : Req) → Ans q → Prop} {tr : List (Called Req Ans)}

theorem runsBy_call {q : Req} {k : Ans q → Prog Req Ans ε α} {a : α}
    (h : RunsBy A (.call q k) tr a) :
    ∃ ans tr', A q ans ∧ tr = ⟨q, ans⟩ :: tr' ∧ RunsBy A (k ans) tr' a := by
  cases h with
  | call ans hans h => exact ⟨ans, _, hans, rfl, h⟩

theorem runsBy_bind {p : Prog Req Ans ε α} {f : α → Prog Req Ans ε β} {b : β}
    (h : RunsBy A (p >>= f) tr b) :
    ∃ tr₁ a tr₂, RunsBy A p tr₁ a ∧ RunsBy A (f a) tr₂ b ∧ tr = tr₁ ++ tr₂ := by
  induction p generalizing tr with
  | ret a => exact ⟨[], a, tr, .ret a, h, rfl⟩
  | raise e => cases h
  | call q k ih =>
    obtain ⟨ans, tr', hans, rfl, h'⟩ := runsBy_call h
    obtain ⟨tr₁, a, tr₂, h₁, h₂, rfl⟩ := ih ans h'
    exact ⟨⟨q, ans⟩ :: tr₁, a, tr₂, .call ans hans h₁, h₂, rfl⟩

end RunsBy

theorem only_bind {N : Req → Prop} {p : Prog Req Ans ε α} {f : α → Prog Req Ans ε β}
    (hp : Only N p) (hf : ∀ a, Only N (f a)) : Only N (p >>= f) := by
  induction p with
  | ret a => exact hf a
  | raise e => exact hp.elim
  | call q k ih => exact ⟨hp.1, fun a => ih a (hp.2 a)⟩

theorem Only.runsBy {A : (q : Req) → Ans q → Prop} {N : Req → Prop} {p : Prog Req Ans ε α}
    (hp : p.Only N) {tr : List (Called Req Ans)} {a : α} (h : RunsBy A p tr a) :
    ∀ e ∈ tr, N e.1 := by
  induction h with
  | ret a => exact fun e he => by cases he
  | call ans hans h ih =>
    intro e he
    obtain rfl | he := List.mem_cons.mp he
    · exact hp.1
    · exact ih (hp.2 ans) e he

theorem Only.handle_eq {N : Req → Prop} {p : Prog Req Ans ε α} (hp : p.Only N)
    (h : ε → Prog Req Ans ε α) : p.handle h = p := by
  induction p with
  | ret a => rfl
  | raise e => exact hp.elim
  | call q k ih =>
    apply congrArg (Prog.call q)
    funext ans
    exact ih ans (hp.2 ans)

theorem Only.mono {N N' : Req → Prop} {p : Prog Req Ans ε α} (hp : p.Only N)
    (h : ∀ q, N q → N' q) : p.Only N' := by
  induction p with
  | ret a => trivial
  | raise e => exact hp.elim
  | call q k ih => exact ⟨h q hp.1, fun a => ih a (hp.2 a)⟩

/-- Every call of the program is one of the calls `N`. -/
def Within (N : Req → Prop) : Prog Req Ans ε α → Prop
  | .ret _ => True
  | .raise _ => True
  | .call q k => N q ∧ ∀ a, Within N (k a)

theorem Only.within {N N' : Req → Prop} (h : ∀ q, N q → N' q) {p : Prog Req Ans ε α}
    (hp : p.Only N) : p.Within N' := by
  induction p with
  | ret a => trivial
  | raise e => trivial
  | call q k ih => exact ⟨h q hp.1, fun a => ih a (hp.2 a)⟩

theorem within_bind {N : Req → Prop} {p : Prog Req Ans ε α} {f : α → Prog Req Ans ε β}
    (hp : p.Within N) (hf : ∀ a, (f a).Within N) : (p >>= f).Within N := by
  induction p with
  | ret a => exact hf a
  | raise e => trivial
  | call q k ih => exact ⟨hp.1, fun a => ih a (hp.2 a)⟩

theorem within_handle {N : Req → Prop} {p : Prog Req Ans ε α} {h : ε → Prog Req Ans ε α}
    (hp : p.Within N) (hh : ∀ e, (h e).Within N) : (p.handle h).Within N := by
  induction p with
  | ret a => trivial
  | raise e => exact hh e
  | call q k ih => exact ⟨hp.1, fun a => ih a (hp.2 a)⟩

theorem within_of_forall {N : Req → Prop} (h : ∀ q, N q) (p : Prog Req Ans ε α) : p.Within N := by
  induction p with
  | ret a => trivial
  | raise e => trivial
  | call q k ih => exact ⟨h q, ih⟩

section Lift

variable {Req' : Type} {A : Req' → Type} (f : Req → Req')

/-- A program whose calls are some of the calls of a larger interface. -/
def lift : Prog Req (fun q => A (f q)) ε α → Prog Req' A ε α
  | .ret a => .ret a
  | .raise e => .raise e
  | .call q k => .call (f q) (fun a => lift (k a))

theorem within_lift {N : Req' → Prop} {p : Prog Req (fun q => A (f q)) ε α}
    (hp : p.Within fun q => N (f q)) : (p.lift f).Within N := by
  induction p with
  | ret a => trivial
  | raise e => trivial
  | call q k ih => exact ⟨hp.1, fun a => ih a (hp.2 a)⟩

end Lift

end Prog

/-- What a call may answer and do to the shared state, and what everybody else
may do to it between two calls. -/
structure System (Req : Type) (Ans : Req → Type) (σ : Type) where
  exec : (q : Req) → σ → Ans q → σ → Prop
  rely : σ → σ → Prop

/-- A process: the bodies of its loops, each ending with the loop to enter next or a result. -/
abbrev Process (Req : Type) (Ans : Req → Type) (ε ι β : Type) := ι → Prog Req Ans ε (ι ⊕ β)

structure Conf (Req : Type) (Ans : Req → Type) (ε ι β σ : Type) where
  code : Prog Req Ans ε (ι ⊕ β)
  world : σ

/-- One atomic step of the process, or one step of its environment. -/
inductive Step (S : System Req Ans σ) (body : Process Req Ans ε ι β) :
    Conf Req Ans ε ι β σ → Conf Req Ans ε ι β σ → Prop
  | rely (p : Prog Req Ans ε (ι ⊕ β)) {w w' : σ} (h : S.rely w w') : Step S body ⟨p, w⟩ ⟨p, w'⟩
  | call {q : Req} (k : Ans q → Prog Req Ans ε (ι ⊕ β)) {w w' : σ} {a : Ans q}
      (h : S.exec q w a w') : Step S body ⟨.call q k, w⟩ ⟨k a, w'⟩
  | loop (i : ι) (w : σ) : Step S body ⟨.ret (.inl i), w⟩ ⟨body i, w⟩

/-- The configurations met in the runs that enter the loop `i` in the state `w`. -/
def Reachable (S : System Req Ans σ) (body : Process Req Ans ε ι β) (i : ι) (w : σ)
    (c : Conf Req Ans ε ι β σ) : Prop :=
  Relation.ReflTransGen (Step S body) ⟨.ret (.inl i), w⟩ c

theorem reachable_within {S : System Req Ans σ} {body : Process Req Ans ε ι β} {N : Req → Prop}
    (hbody : ∀ i, (body i).Within N) {i : ι} {w : σ} {c : Conf Req Ans ε ι β σ}
    (hc : Reachable S body i w c) : c.code.Within N := by
  induction hc with
  | refl => trivial
  | tail _ hs ih =>
    cases hs with
    | rely p h => exact ih
    | call k h => exact ih.2 _
    | loop j w => exact hbody j

end Datenbereitstellung.Lib.Program
