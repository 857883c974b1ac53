import Datenbereitstellung.TransferRefinement

namespace Datenbereitstellung.HandshakeInvariants

open Strings Files OpcUa ProjectManager Handshake TransferRefinement Lib.Program
open ProjectFileReader (countRecords)

variable {π : Type} {cfg : Config} {allow : World π → (q : Req) → Ans q → Prop}
variable {rely : World π → World π → Prop} {w₀ : World π}

section Nodes

variable {ns : Nodes} {q : Req}

theorem after_bool {n : BoolNode} {b : Bool} (hb : ns.bool n = b)
    (h : ∀ v, q = .writeBool n v → v = b) (a : Ans q) : (ns.after q a).bool n = b := by
  cases q with
  | writeBool m v =>
    simp only [Nodes.after]
    split
    · rw [setBool_bool]
      split
      · rename_i hm
        exact h v (by rw [hm])
      · exact hb
    · exact hb
  | writeInt16 | writeStrings =>
    simp only [Nodes.after]
    split <;> exact hb
  | _ => exact hb

theorem after_int16 (ns : Nodes) {n : Int16Node} (h : ∀ v, q ≠ .writeInt16 n v) (a : Ans q) :
    (ns.after q a).int16 n = ns.int16 n := by
  cases q with
  | writeInt16 m v =>
    simp only [Nodes.after]
    split
    · rw [setInt16_int16, if_neg]
      rintro rfl
      exact h v rfl
    · rfl
  | writeBool | writeStrings =>
    simp only [Nodes.after]
    split <;> rfl
  | _ => rfl

theorem after_strings (ns : Nodes) (h : ∀ n v, q ≠ .writeStrings n v) (a : Ans q) :
    (ns.after q a).strings = ns.strings := by
  cases q with
  | writeBool | writeInt16 =>
    simp only [Nodes.after]
    split <;> rfl
  | writeStrings n v => exact (h n v rfl).elim
  | _ => rfl

theorem trans_abbrechen {pc pc' : Pc} {a : Ans q} (h : Trans cfg pc q a pc') {v : Bool}
    (hq : q = .writeBool .ubertragenAbbrechen v) : v = false := by
  subst hq
  cases h with
  | quiet _ hq => cases hq
  | look hq => obtain hq | hq := hq <;> cases hq
  | cancel => rfl

end Nodes

section Lookups

theorem trans_view_add {pc pc' : Pc} {q : Req} {a : Ans q} (h : Trans cfg pc q a pc')
    (hp : pc ≠ .prelude) (v : View) :
    pc' ≠ .prelude ∧ ∃ cs, v.add q a = { v with contents := v.contents ++ cs } := by
  cases h with
  | quiet _ hq => exact ⟨hp, [], by simp [add_of_quiet hq]⟩
  | look => exact (hp rfl).elim
  | load t content => exact ⟨fun he => (by cases he), [_], rfl⟩
  | lose t => exact ⟨fun he => (by cases he), [_], rfl⟩
  | _ => exact ⟨fun he => (by cases he), [], by simp [View.add]⟩

theorem looked_contents {v : View} {r₁ r₂ : Reading Text} {content : Text}
    (h : Looked cfg v r₁ r₂ content) (cs : List (Text × Option Text)) :
    Looked cfg { v with contents := v.contents ++ cs } r₁ r₂ content where
  shown := by
    refine ⟨h.shown.named, h.shown.found, ?_, h.shown.rendered, h.shown.published⟩
    rw [List.head?_append, h.shown.counted]
    rfl
  count_ne := h.count_ne
  named := h.named
  names := h.names

theorem found_contents {v : View} {r₂ : Reading Text} (h : Found cfg v r₂)
    (cs : List (Text × Option Text)) : Found cfg { v with contents := v.contents ++ cs } r₂ := by
  obtain ⟨s₁, kind, c₁, content₂, rest, hs, hc⟩ := h
  exact ⟨s₁, kind, c₁, content₂, rest ++ cs, hs, by rw [hc]; rfl⟩

theorem engages_contents {v : View} (h : Engages cfg v) (cs : List (Text × Option Text)) :
    Engages cfg { v with contents := v.contents ++ cs } := by
  obtain ⟨r₁, r₂, content₁, hl, hf⟩ := h
  exact ⟨r₁, r₂, content₁, looked_contents hl cs, hf.imp (found_contents · cs) id⟩

theorem engages_of_run (hlog : LogKept rely) {pc : Pc} {w : World π}
    (h : Run cfg allow rely w₀ pc w) : pc ≠ .prelude → Engages cfg (view w.log) := by
  induction h with
  | init => exact fun hp => (hp rfl).elim
  | others _ hr ih =>
    rw [hlog.view_eq hr]
    exact ih
  | @call pc pc' w q a _ _ _ hs ih =>
    intro hp'
    by_cases hp : pc = .prelude
    · subst hp
      cases hs with
      | quiet => exact (hp' rfl).elim
      | look => exact (hp' rfl).elim
    · obtain ⟨-, cs, hcs⟩ := trans_view_add hs hp (view w.log)
      have he := engages_contents (ih hp) cs
      rw [← hcs] at he
      exact he
  | prepare _ hp =>
    obtain ⟨r₁, r₂, content₁, hl, hf, -⟩ := hp
    exact fun _ => ⟨r₁, r₂, content₁, hl, .inl hf⟩
  | resume _ _ ih => exact fun _ => ih nofun
  | fail _ hf =>
    obtain ⟨r₁, r₂, content₁, hl, ht⟩ := hf
    exact fun _ => ⟨r₁, r₂, content₁, hl, .inr ht⟩

end Lookups

section Plan

def planOf : Pc → Option Transfer
  | .prepared t | .published t | .opening t _ | .waiting t | .granted t | .cleared t | .indexed t
  | .loaded t _ | .patching t _ _ | .filled t | .sent t | .acking t | .acked t
  | .cancelling t => some t
  | .prelude | .closing _ _ | .done _ => none

theorem prepared_contents {v : View} {t t' : Transfer} (h : Prepared cfg v t)
    (hf : t'.filePath = t.filePath) (hn : t'.anzBlocke = t.anzBlocke)
    (cs : List (Text × Option Text)) :
    Prepared cfg { v with contents := v.contents ++ cs } t' := by
  obtain ⟨r₁, r₂, content₁, hl, hfound, hp, hb⟩ := h
  exact ⟨r₁, r₂, content₁, looked_contents hl cs, found_contents hfound cs, hf.trans hp, hn.trans hb⟩

theorem trans_plan {pc pc' : Pc} {q : Req} {a : Ans q} (h : Trans cfg pc q a pc') {t' : Transfer}
    (ht : planOf pc' = some t') : ∃ t, planOf pc = some t ∧ pc ≠ .prelude ∧
      t'.filePath = t.filePath ∧ t'.anzBlocke = t.anzBlocke := by
  cases h with
  | quiet _ hq =>
    refine ⟨t', ht, ?_, rfl, rfl⟩
    rintro rfl
    cases ht
  | look => cases ht
  | _ => cases ht <;> exact ⟨_, rfl, nofun, rfl, rfl⟩

theorem prepared_of_run (hlog : LogKept rely) {pc : Pc} {w : World π}
    (h : Run cfg allow rely w₀ pc w) :
    ∀ t, planOf pc = some t → Prepared cfg (view w.log) t := by
  induction h with
  | init => exact fun t ht => by cases ht
  | others _ hr ih =>
    rw [hlog.view_eq hr]
    exact ih
  | @call pc pc' w q a _ _ _ hs ih =>
    intro t' ht'
    obtain ⟨t, ht, hne, hf, hn⟩ := trans_plan hs ht'
    obtain ⟨-, cs, hcs⟩ := trans_view_add hs hne (view w.log)
    have hp := prepared_contents (ih t ht) hf hn cs
    rw [← hcs] at hp
    exact hp
  | prepare _ hp _ _ =>
    intro t ht
    cases ht
    exact hp
  | resume _ _ ih =>
    intro t ht
    cases ht
    exact ih _ rfl
  | fail _ _ _ => exact fun t ht => by cases ht

end Plan

section Folder

/-- The others leave the chosen project and the file at `path` alone. -/
structure SameFile (path : Text) (rely : World π → World π → Prop) : Prop where
  content : ∀ w w', rely w w' → w'.fs.content path = w.fs.content path
  ProjektName : ∀ w w', rely w w' → w'.nodes.ProjektName = w.nodes.ProjektName

theorem contents_of_run (hlog : LogKept rely) {path : Text}
    (hfile : ∀ w w', rely w w' → w'.fs.content path = w.fs.content path) (hw₀ : w₀.log = [])
    {pc : Pc} {w : World π} (h : Run cfg allow rely w₀ pc w) :
    w.fs.content path = w₀.fs.content path ∧
      ∀ c ∈ (view w.log).contents, c.1 = path → c.2 = w₀.fs.content path := by
  induction h with
  | init => exact ⟨rfl, by simp [hw₀, view]⟩
  | others _ hr ih =>
    rw [hlog.view_eq hr, hfile _ _ hr]
    exact ih
  | @call pc pc' w q a _ ht _ _ ih =>
    refine ⟨ih.1, ?_⟩
    cases q with
    | openFile p =>
      intro c hc hp
      obtain hc | hc := List.mem_append.mp hc
      · exact ih.2 c hc hp
      · obtain rfl := List.mem_singleton.mp hc
        obtain rfl : p = path := hp
        rw [← ih.1]
        exact ht
    | _ => exact ih.2
  | prepare _ _ _ ih => exact ih
  | resume _ _ ih => exact ih
  | fail _ _ ih => exact ih

end Folder

section Constant

structure Constant (rely : World π → World π → Prop) : Prop where
  fs : ∀ w w', rely w w' → w'.fs = w.fs
  ProjektName : ∀ w w', rely w w' → w'.nodes.ProjektName = w.nodes.ProjektName
  minArcRadius : ∀ w w', rely w w' → w'.nodes.minArcRadius = w.nodes.minArcRadius

theorem Constant.sameFile (h : Constant rely) (path : Text) : SameFile path rely where
  content w w' hr := by rw [h.fs w w' hr]
  ProjektName := h.ProjektName

theorem after_ProjektName (ns : Nodes) (q : Req) (a : Ans q) :
    (ns.after q a).ProjektName = ns.ProjektName := by
  cases q <;> simp only [Nodes.after] <;> split <;> rfl

theorem after_minArcRadius (ns : Nodes) (q : Req) (a : Ans q) :
    (ns.after q a).minArcRadius = ns.minArcRadius := by
  cases q <;> simp only [Nodes.after] <;> split <;> rfl

theorem names_of_run (hlog : LogKept rely)
    (hname : ∀ w w', rely w w' → w'.nodes.ProjektName = w.nodes.ProjektName)
    (hw₀ : w₀.log = []) {pc : Pc} {w : World π} (h : Run cfg allow rely w₀ pc w) :
    w.nodes.ProjektName = w₀.nodes.ProjektName ∧
      ∀ r ∈ (view w.log).names, r.success = true → r.value = w₀.nodes.ProjektName := by
  induction h with
  | init => exact ⟨rfl, by simp [hw₀, view]⟩
  | others _ hr ih =>
    rw [hlog.view_eq hr, hname _ _ hr]
    exact ih
  | @call pc pc' w q a _ ht _ _ ih =>
    refine ⟨(after_ProjektName w.nodes q a).trans ih.1, ?_⟩
    cases q with
    | readProjektName =>
      intro r hr hs
      obtain hr | hr := List.mem_append.mp hr
      · exact ih.2 r hr hs
      · obtain rfl := List.mem_singleton.mp hr
        exact (ht hs).trans ih.1
    | _ => exact ih.2
  | prepare _ _ _ ih => exact ih
  | resume _ _ ih => exact ih
  | fail _ _ ih => exact ih

def chosenPath (cfg : Config) (w₀ : World π) : Text :=
  projectPath cfg.folderPath w₀.nodes.ProjektName

theorem plan_of_run (hlog : LogKept rely) (hsame : SameFile (chosenPath cfg w₀) rely)
    (hw₀ : w₀.log = []) {pc : Pc} {w : World π} (h : Run cfg allow rely w₀ pc w) {t : Transfer}
    (ht : planOf pc = some t) :
    t.filePath = chosenPath cfg w₀ ∧ ∃ content, w₀.fs.content (chosenPath cfg w₀) = some content ∧
      t.anzBlocke = blockCount (toInt32 (countRecords content)) cfg.lenDataArray := by
  obtain ⟨-, hct⟩ := contents_of_run hlog hsame.content hw₀ h
  obtain ⟨-, hnames⟩ := names_of_run hlog hsame.ProjektName hw₀ h
  obtain ⟨r₁, r₂, content₁, hl, -, hpath, hn⟩ := prepared_of_run hlog h t ht
  have h₁ : r₁.value = w₀.nodes.ProjektName :=
    hnames r₁ (by simp [hl.names]) hl.shown.named.1
  have h₂ : r₂.value = w₀.nodes.ProjektName :=
    hnames r₂ (by simp [hl.names]) hl.named.1
  have hc := hct _ (List.mem_of_mem_head? hl.shown.counted)
  rw [h₁] at hc
  rw [h₂] at hpath
  exact ⟨hpath, content₁, (hc rfl).symm, hn⟩

def thresholdOf : Pc → Option Transfer
  | .waiting t | .granted t | .cleared t | .indexed t | .loaded t _ | .patching t _ _ | .filled t
  | .sent t | .acking t | .acked t | .cancelling t => some t
  | .prelude | .prepared _ | .published _ | .opening _ _ | .closing _ _ | .done _ => none

theorem threshold_of_run (hcon : Constant rely)
    (hread : ∀ w a, allow w .readMinArcRadius a → a.success = true) {pc : Pc} {w : World π}
    (h : Run cfg allow rely w₀ pc w) : w.nodes.minArcRadius = w₀.nodes.minArcRadius ∧
      ∀ t, thresholdOf pc = some t → t.arcThreshold = w₀.nodes.minArcRadius := by
  induction h with
  | init => exact ⟨rfl, fun t ht => by cases ht⟩
  | others _ hr ih =>
    rw [hcon.minArcRadius _ _ hr]
    exact ih
  | @call pc pc' w q a _ ht ha hs ih =>
    refine ⟨(after_minArcRadius w.nodes q a).trans ih.1, ?_⟩
    cases hs with
    | quiet => exact ih.2
    | look => exact fun t ht => by cases ht
    | threshold t a =>
      have hs := hread w a ha
      have hv : (if a.success then a.value else 0) = w₀.nodes.minArcRadius := by
        rw [if_pos hs]
        exact (ht hs).trans ih.1
      rintro t' ⟨⟩
      exact hv
    | _ =>
      intro t' ht'
      cases ht' <;>
      · have hthr := ih.2 _ rfl
        exact hthr
  | prepare _ _ _ ih => exact ⟨ih.1, fun t ht => by cases ht⟩
  | resume _ _ ih =>
    refine ⟨ih.1, ?_⟩
    rintro t ⟨⟩
    exact ih.2 _ rfl
  | fail _ _ ih => exact ⟨ih.1, fun t ht => by cases ht⟩

end Constant

end Datenbereitstellung.HandshakeInvariants
