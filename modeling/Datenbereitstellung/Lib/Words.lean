import Mathlib.Data.List.DropRight

namespace Datenbereitstellung.Lib.Words

variable {α : Type} {p : α → Bool}

/-- The maximal runs of elements that are no separators. -/
def words (p : α → Bool) (l : List α) : List (List α) :=
  (l.splitOnP p).filter (fun w => !w.isEmpty)

/-- The parts between the separators; a last part is one only if it is not empty. -/
def lines [BEq α] (sep : α) (l : List α) : List (List α) :=
  match (l.splitOn sep).getLast? with
  | some [] => (l.splitOn sep).dropLast
  | _ => l.splitOn sep

def IsWord (p : α → Bool) (w : List α) : Prop := w ≠ [] ∧ ∀ c ∈ w, p c = false

def appendWord (sep : α) (out w : List α) : List α :=
  if out.isEmpty then w else out ++ sep :: w

theorem lines_append_cons [BEq α] [LawfulBEq α] {sep : α} {w : List α} (h : sep ∉ w)
    (rest : List α) : lines sep (w ++ sep :: rest) = w :: lines sep rest := by
  have hsplit := List.splitOn_append_cons_self_of_not_mem h rest
  obtain ⟨v, vs, hv⟩ := List.exists_cons_of_ne_nil (List.splitOn_ne_nil sep rest)
  simp only [lines]
  rw [hsplit, hv, List.getLast?_cons_cons]
  split <;> rfl

theorem lines_initial [BEq α] (sep : α) (l : List α) : lines sep l <+: l.splitOn sep := by
  rw [lines]
  split
  · exact List.dropLast_prefix _
  · exact List.prefix_rfl

theorem splitOnP_sep (l : List α) : ∀ w ∈ l.splitOnP p, ∀ c ∈ w, p c = false := by
  induction l with
  | nil => simp
  | cons x l ih =>
    rw [List.splitOnP_cons_eq_if_modifyHead]
    cases hx : p x with
    | true =>
      simp only [if_true, List.mem_cons]
      rintro w (rfl | hw)
      · simp
      · exact ih w hw
    | false =>
      obtain ⟨v, vs, hv⟩ := List.exists_cons_of_ne_nil (List.splitOnP_ne_nil p l)
      rw [hv] at ih ⊢
      simp only [Bool.false_eq_true, if_false, List.modifyHead_cons, List.mem_cons] at ih ⊢
      rintro w (rfl | hw) c hc
      · obtain rfl | hc := List.mem_cons.mp hc
        · exact hx
        · exact ih v (.inl rfl) c hc
      · exact ih w (.inr hw) c hc

theorem mem_of_mem_splitOnP (l : List α) : ∀ w ∈ l.splitOnP p, ∀ c ∈ w, c ∈ l := by
  induction l with
  | nil => simp
  | cons x l ih =>
    rw [List.splitOnP_cons_eq_if_modifyHead]
    cases hx : p x with
    | true =>
      simp only [if_true, List.mem_cons]
      rintro w (rfl | hw) c hc
      · cases hc
      · exact .inr (ih w hw c hc)
    | false =>
      obtain ⟨v, vs, hv⟩ := List.exists_cons_of_ne_nil (List.splitOnP_ne_nil p l)
      rw [hv] at ih ⊢
      simp only [Bool.false_eq_true, if_false, List.modifyHead_cons, List.mem_cons] at ih ⊢
      rintro w (rfl | hw) c hc
      · exact (List.mem_cons.mp hc).imp id (ih v (.inl rfl) c)
      · exact .inr (ih w (.inr hw) c hc)

theorem mem_of_mem_words {l w : List α} (h : w ∈ words p l) {c : α} (hc : c ∈ w) : c ∈ l :=
  mem_of_mem_splitOnP l w (List.mem_filter.mp h).1 c hc

theorem mem_of_mem_lines [BEq α] {sep : α} {l w : List α} (h : w ∈ lines sep l) {c : α}
    (hc : c ∈ w) : c ∈ l :=
  mem_of_mem_splitOnP l w ((lines_initial sep l).mem h) c hc

theorem sep_notMem_lines [BEq α] [LawfulBEq α] {sep : α} {l w : List α} (h : w ∈ lines sep l) :
    sep ∉ w := by
  intro hs
  have hsep := splitOnP_sep l w ((lines_initial sep l).mem h) sep hs
  simp at hsep

/-- Lines that are written one by one are read back. -/
theorem lines_flatMap [BEq α] [LawfulBEq α] {sep : α} {ls : List (List α)}
    (h : ∀ l ∈ ls, sep ∉ l) : lines sep (ls.flatMap (· ++ [sep])) = ls := by
  induction ls with
  | nil => simp [lines]
  | cons l ls ih =>
    have hl := lines_append_cons (h l List.mem_cons_self) (ls.flatMap (· ++ [sep]))
    rw [ih fun l hl => h l (List.mem_cons_of_mem _ hl)] at hl
    rwa [List.flatMap_cons, List.append_assoc, List.singleton_append]

theorem mem_foldl_appendWord {sep c : α} (ws : List (List α)) {out : List α}
    (h : c ∈ ws.foldl (appendWord sep) out) : c ∈ out ∨ c = sep ∨ ∃ w ∈ ws, c ∈ w := by
  induction ws generalizing out with
  | nil => exact .inl h
  | cons w ws ih =>
    obtain h | h | ⟨v, hv, hc⟩ := ih h
    · cases out with
      | nil => exact .inr (.inr ⟨w, List.mem_cons_self, h⟩)
      | cons x out =>
        obtain h | h := List.mem_append.mp h
        · exact .inl h
        · obtain rfl | h := List.mem_cons.mp h
          · exact .inr (.inl rfl)
          · exact .inr (.inr ⟨w, List.mem_cons_self, h⟩)
    · exact .inr (.inl h)
    · exact .inr (.inr ⟨v, List.mem_cons_of_mem _ hv, hc⟩)

theorem words_isWord {l w : List α} (h : w ∈ words p l) : IsWord p w := by
  obtain ⟨hm, hne⟩ := List.mem_filter.mp h
  exact ⟨by simpa using hne, splitOnP_sep l w hm⟩

theorem words_nil : words p [] = [] := by simp [words]

theorem words_of_isWord {w : List α} (h : IsWord p w) : words p w = [w] := by
  rw [words, List.splitOnP_eq_singleton h.2]
  simp [h.1]

theorem words_append_sep {l : List α} {sep : α} (hs : p sep = true) (w : List α) :
    words p (l ++ sep :: w) = words p l ++ words p w := by
  simp [words, List.splitOnP_append_cons l w hs]

theorem words_of_seps {l : List α} (h : ∀ c ∈ l, p c = true) : words p l = [] := by
  induction l with
  | nil => exact words_nil
  | cons c l ih =>
    have hl := ih fun d hd => h d (List.mem_cons_of_mem c hd)
    have hc := words_append_sep (l := []) (h c List.mem_cons_self) l
    rwa [words_nil, hl] at hc

theorem words_rdropWhile {q : α → Bool} (hqp : ∀ c, q c = true → p c = true) (l : List α) :
    words p (l.rdropWhile q) = words p l := by
  conv_rhs => rw [← List.rdropWhile_append_rtakeWhile (p := q) (l := l)]
  have ht : ∀ c ∈ l.rtakeWhile q, p c = true := fun c hc => hqp c (List.mem_rtakeWhile_imp hc)
  cases hr : l.rtakeWhile q with
  | nil => rw [List.append_nil]
  | cons c r =>
    rw [hr] at ht
    have hwords := words_of_seps fun d hd => ht d (List.mem_cons_of_mem c hd)
    rw [words_append_sep (ht c List.mem_cons_self), hwords, List.append_nil]

/-- Words written with single separators are read back. -/
theorem words_foldl_appendWord {sep : α} (hs : p sep = true) (ws : List (List α))
    (hw : ∀ w ∈ ws, IsWord p w) (out : List α) :
    words p (ws.foldl (appendWord sep) out) = words p out ++ ws := by
  induction ws generalizing out with
  | nil => simp
  | cons w ws ih =>
    rw [List.foldl_cons, ih (fun v hv => hw v (by simp [hv]))]
    have hw' := words_of_isWord (hw w (by simp))
    cases out with
    | nil => simp [appendWord, words_nil, hw']
    | cons c out =>
      have ho : appendWord sep (c :: out) w = c :: out ++ sep :: w := by simp [appendWord]
      rw [ho, words_append_sep hs, hw', List.append_assoc]
      rfl

theorem words_head {c : α} (hc : p c = false) (l : List α) :
    ∃ w ws, words p (c :: l) = (c :: w) :: ws := by
  obtain ⟨v, vs, hv⟩ := List.exists_cons_of_ne_nil (List.splitOnP_ne_nil p l)
  refine ⟨v, vs.filter (fun w => !w.isEmpty), ?_⟩
  simp [words, List.splitOnP_cons_eq_if_modifyHead, hc, hv]

theorem foldl_appendWord_head (sep : α) (ws : List (List α)) {out : List α} (ho : out ≠ []) :
    (ws.foldl (appendWord sep) out).head? = out.head? := by
  induction ws generalizing out with
  | nil => rfl
  | cons w ws ih =>
    have he : out.isEmpty = false := by simpa using ho
    have hn : appendWord sep out w ≠ [] := by simp [appendWord, he]
    rw [List.foldl_cons, ih hn]
    simp [appendWord, he, List.head?_append, Option.or_of_isSome, ho]

theorem all_rdropWhile {q : α → Bool} (hpq : ∀ c, p c = true → q c = true) (l : List α) :
    (l.rdropWhile p).all q = l.all q := by
  conv_rhs => rw [← List.rdropWhile_append_rtakeWhile (p := p) (l := l), List.all_append]
  have ht : (l.rtakeWhile p).all q = true :=
    List.all_eq_true.mpr fun c hc => hpq c (List.mem_rtakeWhile_imp hc)
  rw [ht, Bool.and_true]

end Datenbereitstellung.Lib.Words
