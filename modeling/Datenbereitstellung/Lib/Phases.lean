import Datenbereitstellung.Lib.Rely

namespace Datenbereitstellung.Lib.Program.Prog

variable {Req Req' : Type} {Ans : Req → Type} {Ans' : Req' → Type} {ε α : Type}

/-- A program each call of which is carried out by a program of another interface. -/
def interp (h : (q : Req) → Prog Req' Ans' ε (Ans q)) : Prog Req Ans ε α → Prog Req' Ans' ε α
  | .ret a => .ret a
  | .raise e => .raise e
  | .call q k => h q >>= fun a => interp h (k a)

end Datenbereitstellung.Lib.Program.Prog

namespace Datenbereitstellung.Lib.Phases

open Program Rely

/-- An automaton over the calls of an interface: which calls a phase allows, and what phase follows
each answer. -/
structure Automaton (Req : Type) (Ans : Req → Type) (Φ : Type) where
  allows : Φ → Req → Prop
  after : Φ → (q : Req) → Ans q → Φ

variable {Req Req' : Type} {Ans : Req → Type} {Ans' : Req' → Type} {ε α β σ ι Φ : Type}

section Follows

variable {T : Automaton Req Ans Φ}

/-- Whatever is answered, the program makes only calls that are allowed, and ends as asserted. -/
def Follows (T : Automaton Req Ans Φ) (Q : α → Φ → Prop) (X : ε → Φ → Prop) :
    Prog Req Ans ε α → Φ → Prop
  | .ret a, φ => Q a φ
  | .raise e, φ => X e φ
  | .call q k, φ => T.allows φ q ∧ ∀ a, Follows T Q X (k a) (T.after φ q a)

variable {Q Q' : α → Φ → Prop} {X X' : ε → Φ → Prop} {φ : Φ}

theorem Follows.mono {p : Prog Req Ans ε α} (h : Follows T Q X p φ) (hQ : ∀ a φ, Q a φ → Q' a φ)
    (hX : ∀ e φ, X e φ → X' e φ) : Follows T Q' X' p φ := by
  induction p generalizing φ with
  | ret a => exact hQ a φ h
  | raise e => exact hX e φ h
  | call q k ih => exact ⟨h.1, fun a => ih a (h.2 a)⟩

theorem Follows.perform {q : Req} {f : Ans q → Prog Req Ans ε α} (hq : T.allows φ q)
    (h : ∀ a, Follows T Q X (f a) (T.after φ q a)) :
    Follows T Q X (Prog.perform q >>= f) φ :=
  ⟨hq, h⟩

theorem Follows.bind {P : β → Φ → Prop} {p : Prog Req Ans ε α} {f : α → Prog Req Ans ε β}
    (h : Follows T Q X p φ) (hf : ∀ a φ, Q a φ → Follows T P X (f a) φ) :
    Follows T P X (p >>= f) φ := by
  induction p generalizing φ with
  | ret a => exact hf a φ h
  | raise e => exact h
  | call q k ih => exact ⟨h.1, fun a => ih a (h.2 a)⟩

/-- A program whose calls are all carried out within one kind of phases. -/
theorem Follows.interp {T' : Automaton Req' Ans' Φ} {I : Φ → Prop}
    {h : (q : Req) → Prog Req' Ans' ε (Ans q)}
    (hq : ∀ q φ, I φ → Follows T' (fun _ => I) X (h q) φ) (p : Prog Req Ans ε α)
    (hX : ∀ e φ, I φ → X e φ) (hφ : I φ) : Follows T' (fun _ => I) X (p.interp h) φ := by
  induction p generalizing φ with
  | ret a => exact hφ
  | raise e => exact hX e φ hφ
  | call q k ih => exact (hq q φ hφ).bind fun a φ' hφ' => ih a hφ'

end Follows

section Models

/-- What holds of the state in each phase: others do not falsify it, and every call that is allowed
leads to what holds in the next phase. -/
structure Models (S : System Req Ans σ) (T : Automaton Req Ans Φ) (Holds : Φ → σ → Prop) :
    Prop where
  stable : ∀ φ, Stable S (Holds φ)
  step : ∀ φ q w a w', T.allows φ q → Holds φ w → S.exec q w a w' → Holds (T.after φ q a) w'

variable {S : System Req Ans σ} {T : Automaton Req Ans Φ} {Holds : Φ → σ → Prop}
variable {Q : α → Φ → Prop} {X : ε → Φ → Prop}

def In (Holds : Φ → σ → Prop) (P : Φ → Prop) (w : σ) : Prop := ∃ φ, P φ ∧ Holds φ w

theorem Models.stable_in (hM : Models S T Holds) (P : Φ → Prop) : Stable S (In Holds P) := by
  rintro w w' ⟨φ, hφ, hw⟩ h
  exact ⟨φ, hφ, hM.stable φ w w' hw h⟩

theorem Follows.safe (hM : Models S T Holds) {p : Prog Req Ans ε α} {φ : Φ} {w : σ}
    (h : Follows T Q X p φ) (hw : Holds φ w) :
    Safe S (fun q => In Holds fun φ => T.allows φ q) (fun a => In Holds (Q a))
      (fun e => In Holds (X e)) p w := by
  induction p generalizing φ w with
  | ret a => exact ⟨φ, h, hw⟩
  | raise e => exact ⟨φ, h, hw⟩
  | call q k ih =>
    apply Safe.call (hM.stable φ) hw
    · exact fun w hw => ⟨φ, h.1, hw⟩
    · exact fun w a w' hw hx => ih a (h.2 a) (hM.step φ q w a w' h.1 hw hx)

variable {body : Process Req Ans ε ι β} {Head : ι → Φ → Prop} {End : β → Φ → Prop}

theorem Models.reachable (hM : Models S T Holds)
    (hbody : ∀ i φ, Head i φ → Follows T (Sum.elim Head End) X (body i) φ) {i : ι} {φ : Φ} {w : σ}
    (hi : Head i φ) (hw : Holds φ w) {c : Conf Req Ans ε ι β σ} (hc : Reachable S body i w c) :
    Safe S (fun q => In Holds fun φ => T.allows φ q)
      (Sum.elim (fun i => In Holds (Head i)) fun b => In Holds (End b)) (fun e => In Holds (X e))
      c.code c.world := by
  refine reachable_safe (fun i => hM.stable_in (Head i)) (fun b => hM.stable_in (End b))
    (fun e => hM.stable_in (X e)) ?_ ⟨φ, hi, hw⟩ hc
  rintro i w ⟨φ, hi, hw⟩
  refine ((hbody i φ hi).safe hM hw).mono (fun s w h => ?_) fun _ _ h => h
  cases s with
  | inl i => exact h
  | inr b => exact h

/-- Whatever call is due in a run, it is allowed. -/
theorem Models.allowed (hM : Models S T Holds)
    (hbody : ∀ i φ, Head i φ → Follows T (Sum.elim Head End) X (body i) φ) {i : ι} {φ : Φ} {w : σ}
    (hi : Head i φ) (hw : Holds φ w) {c : Conf Req Ans ε ι β σ} (hc : Reachable S body i w c)
    {q : Req} {k : Ans q → Prog Req Ans ε (ι ⊕ β)} (hcode : c.code = .call q k) :
    ∃ φ, T.allows φ q ∧ Holds φ c.world := by
  have h := hM.reachable hbody hi hw hc
  rw [hcode] at h
  exact (h c.world .refl).1

/-- Whatever loop is entered in a run, a phase of its head holds. -/
theorem Models.atHead (hM : Models S T Holds)
    (hbody : ∀ i φ, Head i φ → Follows T (Sum.elim Head End) X (body i) φ) {i : ι} {φ : Φ} {w : σ}
    (hi : Head i φ) (hw : Holds φ w) {c : Conf Req Ans ε ι β σ} (hc : Reachable S body i w c)
    {j : ι} (hcode : c.code = .ret (.inl j)) : ∃ φ, Head j φ ∧ Holds φ c.world := by
  have h := hM.reachable hbody hi hw hc
  rw [hcode] at h
  exact h

theorem Models.atEnd (hM : Models S T Holds)
    (hbody : ∀ i φ, Head i φ → Follows T (Sum.elim Head End) X (body i) φ) {i : ι} {φ : Φ} {w : σ}
    (hi : Head i φ) (hw : Holds φ w) {c : Conf Req Ans ε ι β σ} (hc : Reachable S body i w c)
    {b : β} (hcode : c.code = .ret (.inr b)) : ∃ φ, End b φ ∧ Holds φ c.world := by
  have h := hM.reachable hbody hi hw hc
  rw [hcode] at h
  exact h

end Models

end Datenbereitstellung.Lib.Phases
