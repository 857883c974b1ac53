import Datenbereitstellung.Lib.Program

namespace Datenbereitstellung.Lib.Rely

open Program

variable {Req : Type} {Ans : Req → Type} {ε α β σ ι : Type}

/-- The environment cannot falsify `A`. -/
def Stable (S : System Req Ans σ) (A : σ → Prop) : Prop :=
  ∀ w w', A w → S.rely w w' → A w'

theorem Stable.run {S : System Req Ans σ} {A : σ → Prop} (hA : Stable S A) {w w' : σ}
    (hw : A w) (h : Relation.ReflTransGen S.rely w w') : A w' := by
  induction h with
  | refl => exact hw
  | tail _ hs ih => exact hA _ _ ih hs

theorem Stable.and {S : System Req Ans σ} {A B : σ → Prop} (hA : Stable S A) (hB : Stable S B) :
    Stable S (fun w => A w ∧ B w) :=
  fun w w' h hs => ⟨hA w w' h.1 hs, hB w w' h.2 hs⟩

/-- However the environment interleaves with the program: `G q` holds whenever the call `q`
is due, `Q` holds of a result and `X` of an exception. -/
def Safe (S : System Req Ans σ) (G : Req → σ → Prop) (Q : α → σ → Prop) (X : ε → σ → Prop) :
    Prog Req Ans ε α → σ → Prop
  | .ret a, w => Q a w
  | .raise e, w => X e w
  | .call q k, w => ∀ w', Relation.ReflTransGen S.rely w w' →
      G q w' ∧ ∀ a w'', S.exec q w' a w'' → Safe S G Q X (k a) w''

variable {S : System Req Ans σ} {G : Req → σ → Prop}
variable {Q Q' : α → σ → Prop} {X X' : ε → σ → Prop}

theorem Safe.mono {p : Prog Req Ans ε α} {w : σ} (h : Safe S G Q X p w)
    (hQ : ∀ a w, Q a w → Q' a w) (hX : ∀ e w, X e w → X' e w) : Safe S G Q' X' p w := by
  induction p generalizing w with
  | ret a => exact hQ a w h
  | raise e => exact hX e w h
  | call q k ih =>
    intro w' hw
    obtain ⟨hG, hk⟩ := h w' hw
    exact ⟨hG, fun a w'' hx => ih a (hk a w'' hx)⟩

theorem Safe.bind {P : β → σ → Prop} {p : Prog Req Ans ε α} {f : α → Prog Req Ans ε β} {w : σ}
    (h : Safe S G (fun a w => Safe S G P X (f a) w) X p w) : Safe S G P X (p >>= f) w := by
  induction p generalizing w with
  | ret a => exact h
  | raise e => exact h
  | call q k ih =>
    intro w' hw
    obtain ⟨hG, hk⟩ := h w' hw
    exact ⟨hG, fun a w'' hx => ih a (hk a w'' hx)⟩

theorem Safe.handle {p : Prog Req Ans ε α} {h : ε → Prog Req Ans ε α} {w : σ}
    (hp : Safe S G Q (fun e w => Safe S G Q X (h e) w) p w) : Safe S G Q X (p.handle h) w := by
  induction p generalizing w with
  | ret a => exact hp
  | raise e => exact hp
  | call q k ih =>
    intro w' hw
    obtain ⟨hG, hk⟩ := hp w' hw
    exact ⟨hG, fun a w'' hx => ih a (hk a w'' hx)⟩

/-- What a program guarantees on its own, it guarantees as a part of a larger one. -/
theorem Safe.lift {Req' : Type} {A : Req' → Type} {S' : System Req' A σ} {f : Req → Req'}
    {G' : Req' → σ → Prop} {p : Prog Req (fun q => A (f q)) ε α} {w : σ}
    (h : Safe ⟨fun q => S'.exec (f q), S'.rely⟩ (fun q => G' (f q)) Q X p w) :
    Safe S' G' Q X (p.lift f) w := by
  induction p generalizing w with
  | ret a => exact h
  | raise e => exact h
  | call q k ih =>
    intro w' hw
    obtain ⟨hG, hk⟩ := h w' hw
    exact ⟨hG, fun a w'' hx => ih a (hk a w'' hx)⟩

theorem Safe.and {p : Prog Req Ans ε α} {w : σ} (h : Safe S G Q X p w) (h' : Safe S G Q' X' p w) :
    Safe S G (fun a w => Q a w ∧ Q' a w) (fun e w => X e w ∧ X' e w) p w := by
  induction p generalizing w with
  | ret a => exact ⟨h, h'⟩
  | raise e => exact ⟨h, h'⟩
  | call q k ih =>
    intro w' hw
    obtain ⟨hG, hk⟩ := h w' hw
    exact ⟨hG, fun a w'' hx => ih a (hk a w'' hx) ((h' w' hw).2 a w'' hx)⟩

/-- A program whose calls can all be answered comes to an end. -/
theorem Safe.exists_end (hS : ∀ q w, ∃ a w', S.exec q w a w') {p : Prog Req Ans ε α} {w : σ}
    (h : Safe S G Q X p w) : (∃ a w, Q a w) ∨ ∃ e w, X e w := by
  induction p generalizing w with
  | ret a => exact .inl ⟨a, w, h⟩
  | raise e => exact .inr ⟨e, w, h⟩
  | call q k ih =>
    obtain ⟨a, w', hx⟩ := hS q w
    exact ih a ((h w .refl).2 a w' hx)

/-- One call of a proof outline: `A` is the assertion that stands before it. -/
theorem Safe.call {A : σ → Prop} (hA : Stable S A) {q : Req} {k : Ans q → Prog Req Ans ε α} {w : σ}
    (hw : A w) (hG : ∀ w, A w → G q w)
    (hk : ∀ w a w', A w → S.exec q w a w' → Safe S G Q X (k a) w') :
    Safe S G Q X (.call q k) w := by
  intro w' hr
  have hw' := hA.run hw hr
  exact ⟨hG w' hw', fun a w'' hx => hk w' a w'' hw' hx⟩

def Keeps (S : System Req Ans σ) (N : Req → Prop) (A : σ → Prop) : Prop :=
  ∀ q, N q → ∀ w a w', A w → S.exec q w a w' → A w'

theorem Safe.only {N : Req → Prop} {A : σ → Prop} (hA : Stable S A) (hN : Keeps S N A)
    (hG : ∀ q, N q → ∀ w, A w → G q w) {p : Prog Req Ans ε α} (hp : p.Only N) {w : σ} (hw : A w) :
    Safe S G (fun _ => A) X p w := by
  induction p generalizing w with
  | ret a => exact hw
  | raise e => exact hp.elim
  | call q k ih =>
    apply Safe.call hA hw (hG q hp.1)
    intro w₁ a w₂ h₁ hx
    exact ih a (hp.2 a) (hN q hp.1 w₁ a w₂ h₁ hx)

theorem Safe.within {N : Req → Prop} {A : σ → Prop} (hA : Stable S A) (hN : Keeps S N A)
    (hG : ∀ q, N q → ∀ w, A w → G q w) {p : Prog Req Ans ε α} (hp : p.Within N) {w : σ} (hw : A w) :
    Safe S G (fun _ => A) (fun _ => A) p w := by
  induction p generalizing w with
  | ret a => exact hw
  | raise e => exact hw
  | call q k ih =>
    apply Safe.call hA hw (hG q hp.1)
    intro w₁ a w₂ h₁ hx
    exact ih a (hp.2 a) (hN q hp.1 w₁ a w₂ h₁ hx)

theorem Safe.within_bind {N : Req → Prop} {A : σ → Prop} (hA : Stable S A) (hN : Keeps S N A)
    (hG : ∀ q, N q → ∀ w, A w → G q w) {p : Prog Req Ans ε β} (hp : p.Within N) {w : σ} (hw : A w)
    {f : β → Prog Req Ans ε α} (hf : ∀ b w, A w → Safe S G Q X (f b) w)
    (hX : ∀ e w, A w → X e w) : Safe S G Q X (p >>= f) w :=
  Safe.bind ((Safe.within hA hN hG hp hw).mono hf hX)

theorem Safe.of_within {N : Req → Prop} (hG : ∀ q, N q → ∀ w, G q w) {p : Prog Req Ans ε α}
    (hp : p.Within N) (w : σ) : Safe S G (fun _ _ => True) (fun _ _ => True) p w :=
  Safe.within (A := fun _ => True) (fun _ _ _ _ => trivial) (fun _ _ _ _ _ _ _ => trivial)
    (fun q hq w _ => hG q hq w) hp trivial

theorem Safe.only_bind {N : Req → Prop} {A : σ → Prop} (hA : Stable S A) (hN : Keeps S N A)
    (hG : ∀ q, N q → ∀ w, A w → G q w) {p : Prog Req Ans ε β} (hp : p.Only N) {w : σ} (hw : A w)
    {f : β → Prog Req Ans ε α} (hf : ∀ b w, A w → Safe S G Q X (f b) w) :
    Safe S G Q X (p >>= f) w :=
  Safe.bind ((Safe.only hA hN hG hp hw).mono hf fun _ _ h => h)

section Loops

variable {body : Process Req Ans ε ι β} {L : ι → σ → Prop} {P : β → σ → Prop}

/-- The induction over a run: what holds at the loop heads and is carried from one to the
next by every body holds, with the calls between, in every configuration met. -/
theorem reachable_safe (hL : ∀ i, Stable S (L i)) (hP : ∀ b, Stable S (P b))
    (hX : ∀ e, Stable S (X e)) (hbody : ∀ i w, L i w → Safe S G (Sum.elim L P) X (body i) w)
    {i : ι} {w : σ} (hw : L i w) {c : Conf Req Ans ε ι β σ} (hc : Reachable S body i w c) :
    Safe S G (Sum.elim L P) X c.code c.world := by
  induction hc with
  | refl => exact hw
  | tail _ hs ih =>
    cases hs with
    | rely p h =>
      cases p with
      | ret a =>
        cases a with
        | inl j => exact hL j _ _ ih h
        | inr b => exact hP b _ _ ih h
      | raise e => exact hX e _ _ ih h
      | call q k => exact fun w' hr => ih w' (.head h hr)
    | call k h => exact (ih _ .refl).2 _ _ h
    | loop j w => exact hbody j w ih

theorem reachable_call (hL : ∀ i, Stable S (L i)) (hP : ∀ b, Stable S (P b))
    (hX : ∀ e, Stable S (X e)) (hbody : ∀ i w, L i w → Safe S G (Sum.elim L P) X (body i) w)
    {i : ι} {w : σ} (hw : L i w) {c : Conf Req Ans ε ι β σ} (hc : Reachable S body i w c) {q : Req}
    {k : Ans q → Prog Req Ans ε (ι ⊕ β)} (hcode : c.code = .call q k) : G q c.world := by
  have h := reachable_safe hL hP hX hbody hw hc
  rw [hcode] at h
  exact (h c.world .refl).1

/-- An invariant of all runs: it is asserted at every call, and the assertions at the ends of
the bodies imply it. -/
theorem reachable_invariant {I : σ → Prop} (hL : ∀ i, Stable S (L i)) (hP : ∀ b, Stable S (P b))
    (hX : ∀ e, Stable S (X e))
    (hbody : ∀ i w, L i w → Safe S (fun _ => I) (Sum.elim L P) X (body i) w)
    (hLI : ∀ i w, L i w → I w) (hPI : ∀ b w, P b w → I w) (hXI : ∀ e w, X e w → I w)
    {i : ι} {w : σ} (hw : L i w) {c : Conf Req Ans ε ι β σ} (hc : Reachable S body i w c) :
    I c.world := by
  have h := reachable_safe hL hP hX hbody hw hc
  obtain ⟨code, world⟩ := c
  cases code with
  | ret a =>
    cases a with
    | inl j => exact hLI j world h
    | inr b => exact hPI b world h
  | raise e => exact hXI e world h
  | call q k => exact (h world .refl).1

end Loops

section Play

/-- A move of a schedule: a step of the process whose calls are answered by `answer`,
or a step of the environment. -/
inductive Move (Req : Type) (Ans : Req → Type) (σ : Type)
  | run (answer : (q : Req) → σ → Ans q × σ)
  | env (f : σ → σ)

def Move.apply (body : Process Req Ans ε ι β) : Move Req Ans σ → Conf Req Ans ε ι β σ →
    Conf Req Ans ε ι β σ
  | .env f, ⟨p, w⟩ => ⟨p, f w⟩
  | .run _, ⟨.ret (.inl i), w⟩ => ⟨body i, w⟩
  | .run answer, ⟨.call q k, w⟩ => ⟨k (answer q w).1, (answer q w).2⟩
  | .run _, c => c

def play (body : Process Req Ans ε ι β) (ms : List (Move Req Ans σ)) (c : Conf Req Ans ε ι β σ) :
    Conf Req Ans ε ι β σ :=
  ms.foldl (fun c m => m.apply body c) c

def Move.SoundIn (S : System Req Ans σ) (I : σ → Prop) : Move Req Ans σ → Prop
  | .run answer => ∀ q w, I w → S.exec q w (answer q w).1 (answer q w).2 ∧ I (answer q w).2
  | .env f => ∀ w, I w → S.rely w (f w) ∧ I (f w)

def Move.Sound (S : System Req Ans σ) : Move Req Ans σ → Prop
  | .run answer => ∀ q w, S.exec q w (answer q w).1 (answer q w).2
  | .env f => ∀ w, S.rely w (f w)

theorem Move.Sound.soundIn {m : Move Req Ans σ} (hm : m.Sound S) : m.SoundIn S fun _ => True := by
  cases m with
  | run answer => exact fun q w _ => ⟨hm q w, trivial⟩
  | env f => exact fun w _ => ⟨hm w, trivial⟩

theorem apply_step (body : Process Req Ans ε ι β) {I : σ → Prop} {m : Move Req Ans σ}
    (hm : m.SoundIn S I) {c : Conf Req Ans ε ι β σ} (hc : I c.world) :
    Relation.ReflTransGen (Step S body) c (m.apply body c) ∧ I (m.apply body c).world := by
  obtain ⟨p, w⟩ := c
  cases m with
  | env f => exact ⟨.single (.rely p (hm w hc).1), (hm w hc).2⟩
  | run answer =>
    cases p with
    | ret a =>
      cases a with
      | inl i => exact ⟨.single (.loop i w), hc⟩
      | inr b => exact ⟨.refl, hc⟩
    | raise e => exact ⟨.refl, hc⟩
    | call q k => exact ⟨.single (.call k (hm q w hc).1), (hm q w hc).2⟩

theorem play_reachable_in {body : Process Req Ans ε ι β} {I : σ → Prop}
    {ms : List (Move Req Ans σ)} (hms : ∀ m ∈ ms, m.SoundIn S I) (i : ι) {w : σ} (hw : I w) :
    Reachable S body i w (play body ms ⟨.ret (.inl i), w⟩) := by
  suffices h : ∀ c, I c.world → Reachable S body i w c → Reachable S body i w (play body ms c) from
    h _ hw .refl
  induction ms with
  | nil => exact fun c _ hc => hc
  | cons m ms ih =>
    intro c hI hc
    have hm : m.SoundIn S I := hms m (by simp)
    have hstep := apply_step body hm hI
    exact ih (fun m' hm' => hms m' (by simp [hm'])) _ hstep.2 (hc.trans hstep.1)

theorem play_reachable {body : Process Req Ans ε ι β} {ms : List (Move Req Ans σ)}
    (hms : ∀ m ∈ ms, m.Sound S) (i : ι) (w : σ) :
    Reachable S body i w (play body ms ⟨.ret (.inl i), w⟩) :=
  play_reachable_in (I := fun _ => True) (fun m hm => (hms m hm).soundIn) i trivial

end Play

end Datenbereitstellung.Lib.Rely
