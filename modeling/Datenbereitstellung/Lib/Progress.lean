import Datenbereitstellung.Lib.Rely

namespace Datenbereitstellung.Lib.Progress

open Program

variable {Req : Type} {Ans : Req → Type} {ε β σ ι : Type}

/-- Whatever the calls answer and the environment does between them, the process meets `P` if it
goes on. -/
inductive Eventually (S : System Req Ans σ) (body : Process Req Ans ε ι β)
    (P : Conf Req Ans ε ι β σ → Prop) : Conf Req Ans ε ι β σ → Prop
  | now {c : Conf Req Ans ε ι β σ} (h : P c) : Eventually S body P c
  | loop {i : ι} {w : σ}
      (h : ∀ w', Relation.ReflTransGen S.rely w w' → Eventually S body P ⟨body i, w'⟩) :
      Eventually S body P ⟨.ret (.inl i), w⟩
  | call {q : Req} {k : Ans q → Prog Req Ans ε (ι ⊕ β)} {w : σ}
      (hcan : ∀ w', Relation.ReflTransGen S.rely w w' → ∃ a w'', S.exec q w' a w'')
      (h : ∀ w' a w'', Relation.ReflTransGen S.rely w w' → S.exec q w' a w'' →
        Eventually S body P ⟨k a, w''⟩) :
      Eventually S body P ⟨.call q k, w⟩

variable {S : System Req Ans σ} {body : Process Req Ans ε ι β} {P : Conf Req Ans ε ι β σ → Prop}
variable (hS : ∀ q w, ∃ a w', S.exec q w a w')

include hS

theorem eventually_call {q : Req} {k : Ans q → Prog Req Ans ε (ι ⊕ β)}
    (h : ∀ a w, Eventually S body P ⟨k a, w⟩) (w : σ) : Eventually S body P ⟨.call q k, w⟩ :=
  .call (fun w' _ => hS q w') fun _ a w'' _ _ => h a w''

/-- A program that raises nothing leads to what its results lead to. -/
theorem eventually_of_runs {p : Prog Req Ans ε (ι ⊕ β)} {N : Req → Prop} (hp : p.Only N)
    (h : ∀ qs a, p.Runs qs a → ∀ w, Eventually S body P ⟨.ret a, w⟩) (w : σ) :
    Eventually S body P ⟨p, w⟩ := by
  induction p generalizing w with
  | ret a => exact h [] a (.ret a) w
  | raise e => exact hp.elim
  | call q k ih =>
    exact eventually_call hS (fun a w => ih a (hp.2 a) (fun qs b hb => h (q :: qs) b (.call a hb)) w) w

end Datenbereitstellung.Lib.Progress
