import Datenbereitstellung.SettingsStore

namespace Datenbereitstellung.NumberTexts

open Strings SettingsStore

section Digits

theorem digitValue_of_isDigit {c : Char} (h : c.isDigit = true) :
    digitValue 10 c = some (c.toNat - '0'.toNat) := by
  have hc : '0' ≤ c ∧ c ≤ '9' := by
    simp only [Char.isDigit, Bool.and_eq_true, decide_eq_true_eq] at h
    exact h
  have hle : c.toNat ≤ 57 := hc.2
  rw [digitValue, if_pos hc]
  simp only [Option.filter_some]
  rw [if_pos]
  have h0 : '0'.toNat = 48 := rfl
  simp only [h0, decide_eq_true_eq]
  omega

theorem isDigit_of_digitValue {c : Char} {d : Nat} (h : digitValue 10 c = some d) :
    c.isDigit = true := by
  rw [digitValue, Option.filter_eq_some_iff, decide_eq_true_eq] at h
  obtain ⟨h, hd⟩ := h
  split at h
  · rename_i hc
    simp only [Char.isDigit, Bool.and_eq_true, decide_eq_true_eq]
    exact hc
  · split at h
    · obtain rfl := Option.some.inj h
      omega
    · split at h
      · obtain rfl := Option.some.inj h
        omega
      · cases h

theorem digits_append {ds rest : Text} (hds : ∀ c ∈ ds, c.isDigit = true)
    (hrest : ∀ c ∈ rest.head?, digitValue 10 c = none) :
    digits 10 (ds ++ rest) = (ds.map fun c => c.toNat - '0'.toNat, rest) := by
  induction ds with
  | nil =>
    cases rest with
    | nil => rfl
    | cons c rest => simp [digits, hrest c rfl]
  | cons c ds ih =>
    have ih := ih fun c' hc' => hds c' (List.mem_cons_of_mem c hc')
    simp [digits, digitValue_of_isDigit (hds c List.mem_cons_self), ih]

theorem ofDigits_digits (ds : Text) :
    ofDigits 10 (ds.map fun c => c.toNat - '0'.toNat) = Nat.ofDigitChars 10 ds 0 := by
  rw [ofDigits, List.foldl_map, Nat.ofDigitChars_eq_foldl]
  congr 1
  funext n c
  rw [Nat.mul_comm]

theorem isDigit_toDigits (n : Nat) : ∀ c ∈ Nat.toDigits 10 n, c.isDigit = true :=
  fun _ hc => Nat.isDigit_of_mem_toDigits (by decide) (by decide) hc

theorem toText_natCast (n : Nat) : toText n = Nat.toDigits 10 n := Nat.toList_repr

theorem toText_neg (n : Nat) : toText (Int.negSucc n) = '-' :: Nat.toDigits 10 (n + 1) := by
  have htext : toString (Int.negSucc n) = "-" ++ (n + 1).repr := rfl
  rw [toText, htext, String.toList_append, Nat.toList_repr]
  rfl

theorem mem_toText {i : Int} {c : Char} (hc : c ∈ toText i) : c = '-' ∨ c.isDigit = true := by
  cases i with
  | ofNat n =>
    rw [Int.ofNat_eq_natCast, toText_natCast] at hc
    exact .inr (isDigit_toDigits n c hc)
  | negSucc n =>
    rw [toText_neg] at hc
    exact (List.mem_cons.mp hc).imp id (isDigit_toDigits (n + 1) c)

theorem toText_ne_nil (i : Int) : toText i ≠ [] := by
  cases i with
  | ofNat n =>
    rw [Int.ofNat_eq_natCast, toText_natCast]
    exact Nat.toDigits_ne_nil
  | negSucc n =>
    rw [toText_neg]
    exact List.cons_ne_nil _ _

end Digits

section RoundTrip

def IsInt (i : Int) : Prop := -2 ^ 31 ≤ i ∧ i < 2 ^ 31

theorem not_isspace_of_isDigit {c : Char} (h : c.isDigit = true) : isspace c = false := by
  rw [Bool.eq_false_iff]
  intro hs
  simp only [isspace, Bool.or_eq_true, beq_iff_eq] at hs
  obtain ((((rfl | rfl) | rfl) | rfl) | rfl) | rfl := hs <;> exact absurd h (by decide)

theorem ofDigits_toDigits (n : Nat) :
    ofDigits 10 ((Nat.toDigits 10 n).map fun c => c.toNat - '0'.toNat) = n := by
  rw [ofDigits_digits]
  exact Nat.ofDigitChars_ten_toDigits

def sign (s : Text) : Bool × Text :=
  match s with
  | '-' :: r => (true, r)
  | '+' :: r => (false, r)
  | _ => (false, s)

theorem stoi_eq (s : Text) : stoi s =
    let p := sign (s.dropWhile isspace)
    let ds := (digits 10 p.2).1
    let v : Int := if p.1 then -(ofDigits 10 ds : Int) else ofDigits 10 ds
    if ds.isEmpty ∨ v < -2 ^ 31 ∨ v ≥ 2 ^ 31 then none else some v := rfl

theorem isInt_of_stoi {s : Text} {i : Int} (h : stoi s = some i) : IsInt i := by
  rw [stoi_eq] at h
  obtain ⟨hrange, hv⟩ := Option.ite_none_left_eq_some.mp h
  obtain rfl := Option.some.inj hv
  exact ⟨Int.not_lt.mp fun h => hrange (.inr (.inl h)), Int.not_le.mp fun h => hrange (.inr (.inr h))⟩

theorem stoi_of_sign {s r : Text} (negative : Bool) (hs : s.dropWhile isspace = s)
    (hsign : sign s = (negative, r)) {n : Nat}
    (hr : ofDigits 10 (digits 10 r).1 = n) (hne : (digits 10 r).1 ≠ [])
    (hi : IsInt (if negative then -n else n)) :
    stoi s = some (if negative then -(n : Int) else n) := by
  rw [stoi_eq, hs, hsign]
  dsimp only
  rw [hr, if_neg]
  rintro (h | h | h)
  · exact hne (List.isEmpty_iff.mp h)
  · exact absurd hi.1 (Int.not_le.mpr h)
  · exact absurd hi.2 (Int.not_lt.mpr h)

theorem stoi_toText_append {i : Int} (hi : IsInt i) {rest : Text}
    (hrest : ∀ c ∈ rest.head?, digitValue 10 c = none) : stoi (toText i ++ rest) = some i := by
  have hdigits : ∀ n, digits 10 (Nat.toDigits 10 n ++ rest) =
      ((Nat.toDigits 10 n).map fun c => c.toNat - '0'.toNat, rest) :=
    fun n => digits_append (isDigit_toDigits n) hrest
  have hne : ∀ n, (digits 10 (Nat.toDigits 10 n ++ rest)).1 ≠ [] := by
    intro n
    rw [hdigits]
    exact fun h => Nat.toDigits_ne_nil (List.map_eq_nil_iff.mp h)
  have hvalue : ∀ n, ofDigits 10 (digits 10 (Nat.toDigits 10 n ++ rest)).1 = n := by
    intro n
    rw [hdigits]
    exact ofDigits_toDigits n
  cases i with
  | ofNat n =>
    rw [Int.ofNat_eq_natCast] at hi ⊢
    rw [toText_natCast]
    obtain ⟨d, ds, hds⟩ := List.exists_cons_of_ne_nil (Nat.toDigits_ne_nil (n := n) (b := 10))
    have hd : d.isDigit = true := isDigit_toDigits n d (hds ▸ List.mem_cons_self)
    refine stoi_of_sign false ?_ ?_ (hvalue n) (hne n) hi
    · rw [hds, List.cons_append, List.dropWhile_cons_of_neg]
      simp [not_isspace_of_isDigit hd]
    · rw [hds, List.cons_append, sign]
      · intro r heq
        obtain ⟨rfl, -⟩ := List.cons.inj heq
        exact absurd hd (by decide)
      · intro r heq
        obtain ⟨rfl, -⟩ := List.cons.inj heq
        exact absurd hd (by decide)
  | negSucc n =>
    rw [toText_neg, List.cons_append]
    exact stoi_of_sign true rfl rfl (hvalue (n + 1)) (hne (n + 1)) hi

theorem stoi_toText {i : Int} (hi : IsInt i) : stoi (toText i) = some i := by
  have h : stoi (toText i ++ []) = some i := stoi_toText_append hi nofun
  rwa [List.append_nil] at h

end RoundTrip

end Datenbereitstellung.NumberTexts
