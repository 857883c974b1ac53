import Datenbereitstellung.NumberTexts
import Datenbereitstellung.PreviewRenderer
import Datenbereitstellung.SettingsPage

namespace Datenbereitstellung.PreviewPage

open Strings Lib.Words Lib.Tables SettingsTable SettingsSchema
open SettingsStore (Key stoi isLiveKey)
open PreviewRenderer (Scalar Style)
open SettingsPage (JsonValue putSettings sanitize)
open SettingsPersistence (HasKeys)

section Service

def readRGB (s : Text) : Option (List Int) :=
  let toks := (lines ',' s).take 3
  if toks.length = 3 then toks.mapM stoi else none

def parseColorRGB (s : Text) (fallback : Scalar) : Scalar :=
  match readRGB s with
  | some [r, g, b] => ⟨b, g, r⟩
  | _ => fallback

/-- `renderParamsJson`, and the response to `GET /api/render_params`. -/
def renderKeys : List (Text × Key) :=
  [(lit "minArcRadius", .previewMinArcRadius), (lit "colorG0", .previewColorG0),
    (lit "colorG1", .previewColorG1), (lit "colorG2", .previewColorG2),
    (lit "colorG3", .previewColorG3), (lit "thicknessG0", .previewThicknessG0),
    (lit "thicknessG1", .previewThicknessG1), (lit "thicknessG2", .previewThicknessG2),
    (lit "thicknessG3", .previewThicknessG3), (lit "liveColor", .previewLiveColor),
    (lit "doneColor", .previewDoneColor), (lit "liveThickness", .previewLiveThickness),
    (lit "doneThickness", .previewDoneThickness)]

theorem nodup_renderKeys : (renderKeys.map Prod.fst).Nodup := by decide +kernel

def renderParamsJson (cache : KeyTable Text Text) : KeyTable Text Text where
  rows := renderKeys.map fun k => (k.1, valueOf cache k.2)
  nodup := by
    rw [List.map_map]
    exact nodup_renderKeys

def value (j : KeyTable Text Text) (k : String) : Text := (j.lookup (lit k)).getD []

def getd (j : KeyTable Text Text) (k : String) (d : Rat) : Rat := (stod (value j k)).getD d

def geti (j : KeyTable Text Text) (k : String) (d : Int) : Int := (stoi (value j k)).getD d

/-- What `makeParams` takes from the settings, the smallest radius of an arc and the style. -/
def minArcRadius (cache : KeyTable Text Text) : Rat :=
  getd (renderParamsJson cache) "minArcRadius" 0

def webStyle (cache : KeyTable Text Text) : Style :=
  let j := renderParamsJson cache
  let p : Style := { antialiased := false }
  { p with
    colorG0 := parseColorRGB (value j "colorG0") p.colorG0
    colorG1 := parseColorRGB (value j "colorG1") p.colorG1
    colorG2 := parseColorRGB (value j "colorG2") p.colorG2
    colorG3 := parseColorRGB (value j "colorG3") p.colorG3
    thicknessG0 := geti j "thicknessG0" p.thicknessG0
    thicknessG1 := geti j "thicknessG1" p.thicknessG1
    thicknessG2 := geti j "thicknessG2" p.thicknessG2
    thicknessG3 := geti j "thicknessG3" p.thicknessG3
    liveColor := parseColorRGB (value j "liveColor") p.liveColor
    doneColor := parseColorRGB (value j "doneColor") p.doneColor
    liveThickness := geti j "liveThickness" p.liveThickness
    doneThickness := geti j "doneThickness" p.doneThickness }

end Service

section Inputs

def whiteSpace : List Text :=
  ["\t", "\n", "\x0b", "\x0c", "\r", " ", "\u00a0", "\u1680", "\u2000", "\u2001", "\u2002",
    "\u2003", "\u2004", "\u2005", "\u2006", "\u2007", "\u2008", "\u2009", "\u200a", "\u2028",
    "\u2029", "\u202f", "\u205f", "\u3000", "\ufeff"].map lit

def skipWhiteSpace : Nat → Text → Text
  | 0, s => s
  | fuel + 1, s =>
    match whiteSpace.find? fun w => w.isPrefixOf s with
    | some w => skipWhiteSpace fuel (s.drop w.length)
    | none => s

/-- `parseInt(x, 10)`, `none` for `NaN`. -/
def parseInt (x : Text) : Option Int :=
  let (negative, s) := NumberTexts.sign (skipWhiteSpace x.length x)
  let ds := (digits 10 s).1
  if ds.isEmpty then none
  else some (if negative then -(ofDigits 10 ds : Int) else ofDigits 10 ds)

structure Colour where
  r : Fin 256
  g : Fin 256
  b : Fin 256
  deriving DecidableEq

/-- `v.toString(16).padStart(2, '0')` -/
def hex2 (v : Fin 256) : Text := [Nat.digitChar (v / 16), Nat.digitChar (v % 16)]

def Colour.text (c : Colour) : Text := '#' :: (hex2 c.r ++ hex2 c.g ++ hex2 c.b)

def ofHex2 (c d : Char) : Option (Fin 256) := do
  let high ← digitValue 16 c
  let low ← digitValue 16 d
  if h : high * 16 + low < 256 then some ⟨high * 16 + low, h⟩ else none

/-- The colour that a colour input has when it is given a text; it is black where that is none. -/
def Colour.ofText : Text → Colour
  | ['#', r₁, r₀, g₁, g₀, b₁, b₀] =>
    match ofHex2 r₁ r₀, ofHex2 g₁ g₀, ofHex2 b₁ b₀ with
    | some r, some g, some b => ⟨r, g, b⟩
    | _, _, _ => ⟨0, 0, 0⟩
  | _ => ⟨0, 0, 0⟩

def clamp (v : Int) : Fin 256 := ⟨(max 0 (min 255 v)).toNat, by omega⟩

def rgbToHex (s : Text) : Text :=
  let p := (s.splitOn ',').map fun x => clamp ((parseInt x).getD 0)
  let p := p ++ List.replicate (3 - p.length) 0
  '#' :: (p.take 3).flatMap hex2

def hexToRgb (h : Text) : Text :=
  let m := match h with
    | '#' :: r => r
    | _ => h
  match m with
  | [r₁, r₀, g₁, g₀, b₁, b₀] =>
    match ofHex2 r₁ r₀, ofHex2 g₁ g₀, ofHex2 b₁ b₀ with
    | some r, some g, some b =>
      toText (r : Nat) ++ ',' :: (toText (g : Nat) ++ ',' :: toText (b : Nat))
    | _, _, _ => lit "0,0,0"
  | _ => lit "0,0,0"

structure NumberInput where
  text : Text
  valid : sanitize .int text = text

def NumberInput.ofText (s : Text) : NumberInput :=
  ⟨sanitize .int s, SettingsPage.sanitize_sanitize _ _⟩

end Inputs

section Page

/-- The inputs of the preview page under the title `Darstellung`. -/
structure Page where
  colG0 : Colour := ⟨0, 0, 0⟩
  colG1 : Colour := ⟨0, 0, 0⟩
  colG2 : Colour := ⟨0, 0, 0⟩
  colG3 : Colour := ⟨0, 0, 0⟩
  colLive : Colour := ⟨0, 0, 0⟩
  colDone : Colour := ⟨0, 0, 0⟩
  radius : NumberInput := .ofText ['0']
  liveThick : NumberInput := .ofText ['3']
  doneThick : NumberInput := .ofText ['0']

/-- `s || d` -/
def orElse (s d : Text) : Text := if s = [] then d else s

def loadRenderParams (p : KeyTable Text Text) : Page where
  colG0 := .ofText (rgbToHex (value p "colorG0"))
  colG1 := .ofText (rgbToHex (value p "colorG1"))
  colG2 := .ofText (rgbToHex (value p "colorG2"))
  colG3 := .ofText (rgbToHex (value p "colorG3"))
  colLive := .ofText (rgbToHex (value p "liveColor"))
  colDone := .ofText (rgbToHex (value p "doneColor"))
  liveThick := .ofText (orElse (value p "liveThickness") ['3'])
  doneThick := .ofText (orElse (value p "doneThickness") ['0'])
  radius := .ofText (orElse (value p "minArcRadius") ['0'])

/-- The settings that `saveRenderParams` sends. -/
def savedValues (p : Page) : List (Key × Text) :=
  [(.previewColorG0, hexToRgb p.colG0.text), (.previewColorG1, hexToRgb p.colG1.text),
    (.previewColorG2, hexToRgb p.colG2.text), (.previewColorG3, hexToRgb p.colG3.text),
    (.previewLiveColor, hexToRgb p.colLive.text), (.previewDoneColor, hexToRgb p.colDone.text),
    (.previewLiveThickness, orElse p.liveThick.text ['3']),
    (.previewDoneThickness, orElse p.doneThick.text ['0']),
    (.previewMinArcRadius, orElse p.radius.text ['0'])]

theorem nodup_savedValues (p : Page) :
    (((savedValues p).map fun kv => (keyName kv.1, JsonValue.string kv.2)).map Prod.fst).Nodup := by
  have hkeys : [Key.previewColorG0, .previewColorG1, .previewColorG2, .previewColorG3,
    .previewLiveColor, .previewDoneColor, .previewLiveThickness, .previewDoneThickness,
    .previewMinArcRadius].Nodup := by decide
  have hnames := hkeys.map keyName_injective
  exact hnames

def payload (p : Page) : KeyTable Text JsonValue where
  rows := (savedValues p).map fun kv => (keyName kv.1, .string kv.2)
  nodup := nodup_savedValues p

end Page

section Colours

variable {s : Text} {i : Int}

def Colour.rgb (c : Colour) : Text :=
  toText (c.r : Nat) ++ ',' :: (toText (c.g : Nat) ++ ',' :: toText (c.b : Nat))

def Colour.scalar (c : Colour) : Scalar := ⟨(c.b : Nat), (c.g : Nat), (c.r : Nat)⟩

theorem ofHex2_hex2 (v : Fin 256) :
    ofHex2 (Nat.digitChar (v / 16)) (Nat.digitChar (v % 16)) = some v := by
  revert v
  decide +kernel

theorem ofText_text (c : Colour) : Colour.ofText c.text = c := by
  simp only [Colour.ofText, Colour.text, hex2, List.cons_append, List.nil_append, ofHex2_hex2]

theorem hexToRgb_text (c : Colour) : hexToRgb c.text = c.rgb := by
  simp only [hexToRgb, Colour.text, hex2, List.cons_append, List.nil_append, ofHex2_hex2]
  rfl

theorem comma_notMem_toText (i : Int) : ',' ∉ toText i := by
  intro h
  obtain h | h := NumberTexts.mem_toText h
  · exact absurd h (by decide)
  · exact absurd h (by decide)

theorem stoi_component (v : Fin 256) : stoi (toText (v : Nat)) = some ((v : Nat) : Int) := by
  apply NumberTexts.stoi_toText
  constructor
  · omega
  · omega

theorem lines_toText (i : Int) : lines ',' (toText i) = [toText i] := by
  obtain ⟨c, cs, hi⟩ := List.exists_cons_of_ne_nil (NumberTexts.toText_ne_nil i)
  rw [lines, List.splitOn_eq_singleton (comma_notMem_toText i), hi]
  rfl

theorem readRGB_rgb (c : Colour) :
    readRGB c.rgb = some [((c.r : Nat) : Int), ((c.g : Nat) : Int), ((c.b : Nat) : Int)] := by
  have hlines : lines ',' c.rgb =
      [toText (c.r : Nat), toText (c.g : Nat), toText (c.b : Nat)] := by
    rw [Colour.rgb, lines_append_cons (comma_notMem_toText _),
      lines_append_cons (comma_notMem_toText _), lines_toText]
  rw [readRGB, hlines]
  simp [stoi_component]

theorem parseColorRGB_rgb (c : Colour) (fallback : Scalar) :
    parseColorRGB c.rgb fallback = c.scalar := by
  rw [parseColorRGB, readRGB_rgb]
  rfl

/-- White space begins with nothing that a number begins with; the blanks of the service are single
characters of it. -/
def isBlank : Text → Bool
  | [] => false
  | c :: cs => !c.isDigit && c != '-' && c != '+' && (!isspace c || cs.isEmpty)

theorem isBlank_whiteSpace : ∀ w ∈ whiteSpace, isBlank w = true := by decide +kernel

theorem isspace_whiteSpace {c : Char} (h : isspace c = true) : [c] ∈ whiteSpace := by
  simp only [isspace, Bool.or_eq_true, beq_iff_eq] at h
  obtain ((((rfl | rfl) | rfl) | rfl) | rfl) | rfl := h <;> decide +kernel

def Opens (s : Text) : Prop := ∀ c ∈ s.head?, c.isDigit = true ∨ c = '-' ∨ c = '+'

theorem skipWhiteSpace_of_opens (h : Opens s) (fuel : Nat) : skipWhiteSpace fuel s = s := by
  cases fuel with
  | zero => rfl
  | succ fuel =>
    have hnone : (whiteSpace.find? fun w => w.isPrefixOf s) = none := by
      rw [List.find?_eq_none]
      intro w hw hpre
      have hblank := isBlank_whiteSpace w hw
      cases w with
      | nil => cases hblank
      | cons c w =>
        obtain ⟨t, rfl⟩ := List.isPrefixOf_iff_prefix.mp hpre
        simp only [isBlank, Bool.and_eq_true, Bool.not_eq_true', bne_iff_ne] at hblank
        obtain hd | rfl | rfl := h c rfl
        · rw [hblank.1.1.1] at hd
          cases hd
        · exact hblank.1.1.2 rfl
        · exact hblank.1.2 rfl
    rw [skipWhiteSpace, hnone]

theorem skipWhiteSpace_eq (s : Text) (fuel : Nat) (hfuel : s.length ≤ fuel)
    (h : Opens (s.dropWhile isspace)) : skipWhiteSpace fuel s = s.dropWhile isspace := by
  induction s generalizing fuel with
  | nil => exact skipWhiteSpace_of_opens (fun c hc => by cases hc) fuel
  | cons c s ih =>
    cases hc : isspace c with
    | false =>
      rw [List.dropWhile_cons_of_neg (by simp [hc])] at h ⊢
      exact skipWhiteSpace_of_opens h fuel
    | true =>
      rw [List.dropWhile_cons_of_pos hc] at h ⊢
      obtain ⟨fuel, rfl⟩ := Nat.exists_eq_succ_of_ne_zero (n := fuel) (by simp at hfuel; omega)
      have hfind : (whiteSpace.find? fun w => w.isPrefixOf (c :: s)) = some [c] := by
        have hsome : (whiteSpace.find? fun w => w.isPrefixOf (c :: s)).isSome = true := by
          rw [List.find?_isSome]
          exact ⟨[c], isspace_whiteSpace hc, by simp⟩
        obtain ⟨w, hw⟩ := Option.isSome_iff_exists.mp hsome
        have hblank := isBlank_whiteSpace w (List.mem_of_find?_eq_some hw)
        have hpre := List.find?_some hw
        rw [List.isPrefixOf_iff_prefix] at hpre
        cases w with
        | nil => cases hblank
        | cons d w =>
          obtain ⟨rfl, -⟩ := List.cons_prefix_cons.mp hpre
          simp only [isBlank, hc, Bool.and_eq_true, Bool.not_true, Bool.false_or,
            List.isEmpty_iff] at hblank
          rw [hw, hblank.2]
      rw [skipWhiteSpace, hfind]
      exact ih fuel (by simpa using hfuel) h

theorem opens_of_stoi (h : stoi s = some i) : Opens (s.dropWhile isspace) := by
  rw [NumberTexts.stoi_eq] at h
  obtain ⟨hrange, -⟩ := Option.ite_none_left_eq_some.mp h
  have hds := fun hempty => hrange (.inl hempty)
  intro c hc
  obtain ⟨r, hr⟩ := List.head?_eq_some_iff.mp hc
  rw [hr] at hds
  by_cases hneg : c = '-'
  · exact .inr (.inl hneg)
  · by_cases hpos : c = '+'
    · exact .inr (.inr hpos)
    · have hsign : NumberTexts.sign (c :: r) = (false, c :: r) := by
        rw [NumberTexts.sign]
        · exact fun r' heq => hneg (List.cons.inj heq).1
        · exact fun r' heq => hpos (List.cons.inj heq).1
      rw [hsign] at hds
      dsimp only [digits] at hds
      cases hd : digitValue 10 c with
      | none => simp [hd] at hds
      | some d => exact .inl (NumberTexts.isDigit_of_digitValue hd)

theorem parseInt_of_stoi (h : stoi s = some i) : parseInt s = some i := by
  have hskip := skipWhiteSpace_eq s s.length (Nat.le_refl _) (opens_of_stoi h)
  rw [NumberTexts.stoi_eq] at h
  obtain ⟨hrange, hv⟩ := Option.ite_none_left_eq_some.mp h
  rw [parseInt, hskip]
  refine (if_neg fun hempty => hrange (.inl hempty)).trans ?_
  exact hv

theorem rgbToHex_of_readRGB {r g b : Int} (h : readRGB s = some [r, g, b]) :
    rgbToHex s = Colour.text ⟨clamp r, clamp g, clamp b⟩ := by
  obtain ⟨hlen, h⟩ := Option.ite_none_right_eq_some.mp h
  obtain ⟨x, y, z, htoks⟩ := List.length_eq_three.mp hlen
  rw [htoks] at h
  have hread : stoi x = some r ∧ stoi y = some g ∧ stoi z = some b := by
    simpa [Option.bind_eq_some_iff] using h
  obtain ⟨rest, hrest⟩ := lines_initial ',' s
  have htail : ∃ tail, s.splitOn ',' = x :: y :: z :: tail := by
    refine ⟨(lines ',' s).drop 3 ++ rest, ?_⟩
    rw [← hrest, ← List.take_append_drop 3 (lines ',' s), htoks]
    simp
  obtain ⟨tail, htail⟩ := htail
  simp only [rgbToHex, htail, List.map_cons, parseInt_of_stoi hread.1,
    parseInt_of_stoi hread.2.1, parseInt_of_stoi hread.2.2]
  rfl

end Colours

section Saved

variable {store : Store} {cache : KeyTable Text Text} {p : Page} {k : Key}

/-- How the inputs say that a command looks; there are none for the thicknesses of a command. -/
def Page.style (p : Page) (base : Style) : Style :=
  { base with
    colorG0 := p.colG0.scalar
    colorG1 := p.colG1.scalar
    colorG2 := p.colG2.scalar
    colorG3 := p.colG3.scalar
    liveColor := p.colLive.scalar
    doneColor := p.colDone.scalar
    liveThickness := (stoi (orElse p.liveThick.text ['3'])).getD 3
    doneThickness := (stoi (orElse p.doneThick.text ['0'])).getD 0 }

def Page.minArcRadius (p : Page) : Rat := (stod (orElse p.radius.text ['0'])).getD 0

/-- Inputs that were left empty have the number that is saved instead. -/
def Page.filled (p : Page) : Page :=
  { p with
    radius := .ofText (orElse p.radius.text ['0'])
    liveThick := .ofText (orElse p.liveThick.text ['3'])
    doneThick := .ofText (orElse p.doneThick.text ['0']) }

/-- The settings are those of a page. -/
def Saved (p : Page) (cache : KeyTable Text Text) : Prop :=
  ∀ kv ∈ savedValues p, valueOf cache kv.1 = kv.2

theorem value_renderParamsJson {name : String} (h : (lit name, k) ∈ renderKeys) :
    value (renderParamsJson cache) name = valueOf cache k := by
  have hrow : (lit name, valueOf cache k) ∈ (renderParamsJson cache).rows :=
    List.mem_map.mpr ⟨_, h, rfl⟩
  rw [value, KeyTable.lookup_of_mem _ hrow]
  rfl

theorem webStyle_eq (cache : KeyTable Text Text) : webStyle cache =
    { colorG0 := parseColorRGB (valueOf cache .previewColorG0) ⟨128, 128, 128⟩
      colorG1 := parseColorRGB (valueOf cache .previewColorG1) ⟨0, 255, 0⟩
      colorG2 := parseColorRGB (valueOf cache .previewColorG2) ⟨0, 0, 255⟩
      colorG3 := parseColorRGB (valueOf cache .previewColorG3) ⟨255, 0, 0⟩
      thicknessG0 := (stoi (valueOf cache .previewThicknessG0)).getD 1
      thicknessG1 := (stoi (valueOf cache .previewThicknessG1)).getD 2
      thicknessG2 := (stoi (valueOf cache .previewThicknessG2)).getD 2
      thicknessG3 := (stoi (valueOf cache .previewThicknessG3)).getD 2
      liveColor := parseColorRGB (valueOf cache .previewLiveColor) ⟨0, 255, 255⟩
      doneColor := parseColorRGB (valueOf cache .previewDoneColor) ⟨90, 90, 90⟩
      liveThickness := (stoi (valueOf cache .previewLiveThickness)).getD 3
      doneThickness := (stoi (valueOf cache .previewDoneThickness)).getD 0
      antialiased := false } := by
  simp only [webStyle, geti]
  rw [value_renderParamsJson (k := .previewColorG0) (by simp [renderKeys]),
    value_renderParamsJson (k := .previewColorG1) (by simp [renderKeys]),
    value_renderParamsJson (k := .previewColorG2) (by simp [renderKeys]),
    value_renderParamsJson (k := .previewColorG3) (by simp [renderKeys]),
    value_renderParamsJson (k := .previewThicknessG0) (by simp [renderKeys]),
    value_renderParamsJson (k := .previewThicknessG1) (by simp [renderKeys]),
    value_renderParamsJson (k := .previewThicknessG2) (by simp [renderKeys]),
    value_renderParamsJson (k := .previewThicknessG3) (by simp [renderKeys]),
    value_renderParamsJson (k := .previewLiveColor) (by simp [renderKeys]),
    value_renderParamsJson (k := .previewDoneColor) (by simp [renderKeys]),
    value_renderParamsJson (k := .previewLiveThickness) (by simp [renderKeys]),
    value_renderParamsJson (k := .previewDoneThickness) (by simp [renderKeys])]

theorem minArcRadius_eq (cache : KeyTable Text Text) :
    minArcRadius cache = (stod (valueOf cache .previewMinArcRadius)).getD 0 := by
  rw [minArcRadius, getd, value_renderParamsJson (k := .previewMinArcRadius) (by simp [renderKeys])]

theorem loadRenderParams_eq (cache : KeyTable Text Text) :
    loadRenderParams (renderParamsJson cache) =
      { colG0 := .ofText (rgbToHex (valueOf cache .previewColorG0))
        colG1 := .ofText (rgbToHex (valueOf cache .previewColorG1))
        colG2 := .ofText (rgbToHex (valueOf cache .previewColorG2))
        colG3 := .ofText (rgbToHex (valueOf cache .previewColorG3))
        colLive := .ofText (rgbToHex (valueOf cache .previewLiveColor))
        colDone := .ofText (rgbToHex (valueOf cache .previewDoneColor))
        radius := .ofText (orElse (valueOf cache .previewMinArcRadius) ['0'])
        liveThick := .ofText (orElse (valueOf cache .previewLiveThickness) ['3'])
        doneThick := .ofText (orElse (valueOf cache .previewDoneThickness) ['0']) } := by
  rw [loadRenderParams, value_renderParamsJson (k := .previewColorG0) (by simp [renderKeys]),
    value_renderParamsJson (k := .previewColorG1) (by simp [renderKeys]),
    value_renderParamsJson (k := .previewColorG2) (by simp [renderKeys]),
    value_renderParamsJson (k := .previewColorG3) (by simp [renderKeys]),
    value_renderParamsJson (k := .previewLiveColor) (by simp [renderKeys]),
    value_renderParamsJson (k := .previewDoneColor) (by simp [renderKeys]),
    value_renderParamsJson (k := .previewMinArcRadius) (by simp [renderKeys]),
    value_renderParamsJson (k := .previewLiveThickness) (by simp [renderKeys]),
    value_renderParamsJson (k := .previewDoneThickness) (by simp [renderKeys])]

theorem rgbToHex_rgb (c : Colour) : Colour.ofText (rgbToHex c.rgb) = c := by
  have hclamp : ∀ v : Fin 256, clamp (v : Nat) = v := by
    intro v
    apply Fin.ext
    simp only [clamp]
    omega
  rw [rgbToHex_of_readRGB (readRGB_rgb c), ofText_text, hclamp, hclamp, hclamp]

theorem orElse_ne_nil {s d : Text} (hd : d ≠ []) : orElse s d ≠ [] := by
  rw [orElse]
  split
  · exact hd
  · assumption

theorem orElse_orElse {s d : Text} (hd : d ≠ []) : orElse (orElse s d) d = orElse s d :=
  if_neg (orElse_ne_nil hd)

theorem loadRenderParams_of_saved (h : Saved p cache) :
    loadRenderParams (renderParamsJson cache) = p.filled := by
  have hvalue := fun kv (hkv : kv ∈ savedValues p) => h kv hkv
  simp only [savedValues, List.forall_mem_cons, hexToRgb_text] at hvalue
  obtain ⟨h0, h1, h2, h3, hlive, hdone, hliveT, hdoneT, hradius, -⟩ := hvalue
  rw [loadRenderParams_eq, h0, h1, h2, h3, hlive, hdone, hliveT, hdoneT, hradius]
  simp only [rgbToHex_rgb, orElse_orElse (List.cons_ne_nil _ _)]
  rfl

theorem webStyle_of_saved (h : Saved p cache) : webStyle cache = p.style (webStyle cache) := by
  have hvalue := fun kv (hkv : kv ∈ savedValues p) => h kv hkv
  simp only [savedValues, List.forall_mem_cons, hexToRgb_text] at hvalue
  obtain ⟨h0, h1, h2, h3, hlive, hdone, hliveT, hdoneT, -, -⟩ := hvalue
  rw [webStyle_eq, h0, h1, h2, h3, hlive, hdone, hliveT, hdoneT]
  simp only [parseColorRGB_rgb]
  rfl

theorem minArcRadius_of_saved (h : Saved p cache) : minArcRadius cache = p.minArcRadius := by
  have hradius : valueOf cache .previewMinArcRadius = orElse p.radius.text ['0'] :=
    h (.previewMinArcRadius, orElse p.radius.text ['0']) (by simp [savedValues])
  rw [minArcRadius_eq, hradius, Page.minArcRadius]

theorem text_ofText {x : NumberInput} {d : Text} (hd : sanitize .int d = d) :
    (NumberInput.ofText (orElse x.text d)).text = orElse x.text d := by
  rw [NumberInput.ofText, orElse]
  split
  · exact hd
  · exact x.valid

theorem savedValues_filled (p : Page) : savedValues p.filled = savedValues p := by
  have hradius := text_ofText (x := p.radius) (d := ['0']) (by decide)
  have hlive := text_ofText (x := p.liveThick) (d := ['3']) (by decide)
  have hdone := text_ofText (x := p.doneThick) (d := ['0']) (by decide)
  simp only [savedValues, Page.filled, hradius, hlive, hdone, orElse_orElse (List.cons_ne_nil _ _)]

theorem payload_filled (p : Page) : payload p.filled = payload p := by
  simp only [payload, savedValues_filled]

def pageKeys : List Key :=
  [.previewColorG0, .previewColorG1, .previewColorG2, .previewColorG3, .previewLiveColor,
    .previewDoneColor, .previewLiveThickness, .previewDoneThickness, .previewMinArcRadius]

theorem keys_savedValues (p : Page) : (savedValues p).map Prod.fst = pageKeys := rfl

theorem lookup_payload_of_mem {kv : Key × Text} (h : kv ∈ savedValues p) :
    (payload p).lookup (keyName kv.1) = some (.string kv.2) := by
  have hrow : (keyName kv.1, JsonValue.string kv.2) ∈ (payload p).rows := List.mem_map.mpr ⟨_, h, rfl⟩
  exact KeyTable.lookup_of_mem _ hrow

theorem lookup_payload_of_notMem (h : k ∉ pageKeys) : (payload p).lookup (keyName k) = none := by
  rw [Option.eq_none_iff_forall_ne_some]
  intro v hv
  obtain ⟨kv, hkv, heq⟩ := List.mem_map.mp (KeyTable.mem_of_lookup hv)
  obtain rfl := keyName_injective (Prod.mk.inj heq).1
  exact h (List.mem_map_of_mem (f := Prod.fst) hkv)

theorem valueOf_putSettings (access : Access) (hkeys : HasKeys store)
    (members : KeyTable Text JsonValue) (k : Key) :
    valueOf (putSettings access store (.object members)).2.cache k =
      (members.lookup (keyName k)).elim (valueOf store.cache k) JsonValue.text := by
  have hk : isKnown (keyName k) = true := (isKnown_iff _).mpr ⟨k, rfl⟩
  obtain ⟨u, hu⟩ := Option.isSome_iff_exists.mp ((hkeys (keyName k)).trans hk)
  rw [valueOf, SettingsPage.lookup_putSettings, SettingsPage.lookup_knownValues]
  cases members.lookup (keyName k) with
  | none => rfl
  | some v => simp [hk, hu]

theorem saved_putSettings (access : Access) (hkeys : HasKeys store) (p : Page) :
    Saved p (putSettings access store (.object (payload p))).2.cache := by
  intro kv hkv
  rw [valueOf_putSettings access hkeys, lookup_payload_of_mem hkv]
  rfl

theorem live_pageKeys : ∀ k ∈ pageKeys, isLiveName (keyName k) = true := by
  intro k hk
  rw [isLiveName_keyName]
  revert k
  decide

theorem style_congr {base base' : Style} (h : base.thicknessG0 = base'.thicknessG0 ∧
    base.thicknessG1 = base'.thicknessG1 ∧ base.thicknessG2 = base'.thicknessG2 ∧
    base.thicknessG3 = base'.thicknessG3 ∧ base.antialiased = base'.antialiased) :
    p.style base = p.style base' := by
  obtain ⟨h0, h1, h2, h3, ha⟩ := h
  simp only [Page.style, h0, h1, h2, h3, ha]

theorem valueOf_other (access : Access) (hkeys : HasKeys store) (p : Page) (h : k ∉ pageKeys) :
    valueOf (putSettings access store (.object (payload p))).2.cache k = valueOf store.cache k := by
  rw [valueOf_putSettings access hkeys, lookup_payload_of_notMem h]
  rfl

theorem webStyle_putSettings (access : Access) (hkeys : HasKeys store) (p : Page) :
    webStyle (putSettings access store (.object (payload p))).2.cache =
      p.style (webStyle store.cache) := by
  have hother := fun k => valueOf_other access hkeys (k := k) p
  refine (webStyle_of_saved (saved_putSettings access hkeys p)).trans (style_congr ?_)
  simp only [webStyle_eq, hother .previewThicknessG0 (by decide),
    hother .previewThicknessG1 (by decide), hother .previewThicknessG2 (by decide),
    hother .previewThicknessG3 (by decide), and_self]

end Saved

section Untouched

variable {store : Store} {s d : Text}

/-- The nearest colour that an input can show. -/
def clamped (c : Scalar) : Scalar :=
  ⟨max 0 (min 255 c.b), max 0 (min 255 c.g), max 0 (min 255 c.r)⟩

def clampedStyle (p : Style) : Style :=
  { p with
    colorG0 := clamped p.colorG0
    colorG1 := clamped p.colorG1
    colorG2 := clamped p.colorG2
    colorG3 := clamped p.colorG3
    liveColor := clamped p.liveColor
    doneColor := clamped p.doneColor }

theorem cast_clamp (v : Int) : (((clamp v : Fin 256) : Nat) : Rat) = max 0 (min 255 (v : Rat)) := by
  have hv : (((clamp v : Fin 256) : Nat) : Int) = max 0 (min 255 v) := by
    simp only [clamp]
    omega
  have hcast := congrArg (fun i : Int => (i : Rat)) hv
  push_cast at hcast
  exact hcast

theorem exists_of_readRGB {l : List Int} (h : readRGB s = some l) : ∃ r g b, l = [r, g, b] := by
  obtain ⟨hlen, h⟩ := Option.ite_none_right_eq_some.mp h
  obtain ⟨x, y, z, htoks⟩ := List.length_eq_three.mp hlen
  rw [htoks] at h
  simp only [List.mapM_cons, List.mapM_nil, Option.bind_eq_bind, Option.bind_eq_some_iff,
    Option.pure_def, Option.some.injEq] at h
  obtain ⟨r, -, _, ⟨g, -, _, ⟨b, -, _, rfl, rfl⟩, rfl⟩, rfl⟩ := h
  exact ⟨r, g, b, rfl⟩

theorem scalar_ofText (h : readRGB s ≠ none) (fallback : Scalar) :
    (Colour.ofText (rgbToHex s)).scalar = clamped (parseColorRGB s fallback) := by
  obtain ⟨l, hl⟩ := Option.ne_none_iff_exists'.mp h
  obtain ⟨r, g, b, rfl⟩ := exists_of_readRGB hl
  rw [rgbToHex_of_readRGB hl, ofText_text, parseColorRGB, hl]
  simp only [Colour.scalar, clamped, cast_clamp]

theorem orElse_text_ofText (h : sanitize .int s = s) (hs : s ≠ []) :
    orElse (NumberInput.ofText (orElse s d)).text d = s := by
  have horElse : orElse s d = s := if_neg hs
  have htext : (NumberInput.ofText (orElse s d)).text = s :=
    (congrArg (sanitize .int) horElse).trans h
  rw [htext, horElse]

/-- To save the page as it was loaded moves a colour into the range of the inputs and changes nothing
else of what is drawn, where the service can read the colours and the inputs take the numbers. -/
theorem load_save (store : Store) (hkeys : HasKeys store) (access : Access)
    (hcolours : ∀ k ∈ pageKeys.take 6, readRGB (valueOf store.cache k) ≠ none)
    (hnumbers : ∀ k ∈ pageKeys.drop 6, sanitize .int (valueOf store.cache k) =
      valueOf store.cache k ∧ valueOf store.cache k ≠ []) :
    let p := loadRenderParams (renderParamsJson store.cache)
    let s := (putSettings access store (.object (payload p))).2
    webStyle s.cache = clampedStyle (webStyle store.cache) ∧
      minArcRadius s.cache = minArcRadius store.cache := by
  intro p s
  have hp : p = _ := loadRenderParams_eq store.cache
  simp only [pageKeys, List.take_succ_cons, List.take_zero, List.drop_succ_cons, List.drop_zero,
    List.forall_mem_cons] at hcolours hnumbers
  obtain ⟨h0, h1, h2, h3, hlive, hdone, -⟩ := hcolours
  obtain ⟨hliveT, hdoneT, hradius, -⟩ := hnumbers
  constructor
  · refine (webStyle_putSettings access hkeys p).trans ?_
    rw [hp, webStyle_eq]
    simp only [Page.style, clampedStyle, orElse_text_ofText hliveT.1 hliveT.2,
      orElse_text_ofText hdoneT.1 hdoneT.2, scalar_ofText h0 ⟨128, 128, 128⟩,
      scalar_ofText h1 ⟨0, 255, 0⟩, scalar_ofText h2 ⟨0, 0, 255⟩, scalar_ofText h3 ⟨255, 0, 0⟩,
      scalar_ofText hlive ⟨0, 255, 255⟩, scalar_ofText hdone ⟨90, 90, 90⟩]
  · rw [minArcRadius_of_saved (saved_putSettings access hkeys p), minArcRadius_eq, hp]
    simp only [Page.minArcRadius, orElse_text_ofText hradius.1 hradius.2]

theorem valueOf_fresh (k : Key) :
    valueOf SettingsPage.fresh.cache k = (defaultTable.lookup (keyName k)).getD [] := by
  have h := SettingsPersistence.lookup_init_cache (s := { table := .empty }) nofun (keyName k)
  exact congrArg (Option.getD · []) h

theorem load_save_fresh : webStyle (putSettings .works SettingsPage.fresh
    (.object (payload (loadRenderParams (renderParamsJson SettingsPage.fresh.cache))))).2.cache =
      clampedStyle (webStyle SettingsPage.fresh.cache) := by
  refine (load_save _ SettingsPage.hasKeys_fresh .works (fun k => ?_) fun k => ?_).1
  · rw [valueOf_fresh]
    revert k
    decide +kernel
  · rw [valueOf_fresh]
    revert k
    decide +kernel

end Untouched

section Runs

variable {ι : Type} [DecidableEq ι] {pages pages' : List Page} {p : Page} {k : Key} {v : Text}

def answer (values : List Text) : KeyTable Text Text where
  rows := (renderKeys.map Prod.fst).zip values
  nodup := by
    rw [List.zip_eq_zip_take_min, List.map_fst_zip (by simp)]
    exact nodup_renderKeys.sublist (List.take_sublist _ _)

/-- The service and the browsers that have opened the preview page: what each of them shows, what has
been read so far for the answers they have not shown yet, and the `PUT`s that are not handled yet. -/
structure Site (ι : Type) where
  store : Store
  pages : ι → Page
  loading : List (ι × List Text)
  sending : List (KeyTable Text JsonValue)

/-- What happens next. A `GET` reads one setting after the other, each under the lock; a `PUT` writes
all of them under it. `other` is a request of another client. -/
inductive Action (ι : Type)
  | get (i : ι)
  | read (n : Nat)
  | show (n : Nat)
  | edit (i : ι) (p : Page)
  | save (i : ι)
  | put (n : Nat) (access : Access)
  | lose (n : Nat)
  | other (body : SettingsPage.Body) (access : Access)

def step (s : Site ι) : Action ι → Site ι
  | .get i => { s with loading := s.loading ++ [(i, [])] }
  | .read n =>
    match s.loading[n]? with
    | some (i, values) =>
      match renderKeys[values.length]? with
      | some (_, k) =>
        { s with loading := s.loading.set n (i, values ++ [valueOf s.store.cache k]) }
      | none => s
    | none => s
  | .show n =>
    match s.loading[n]? with
    | some (i, values) =>
      if values.length = renderKeys.length then
        { s with
          pages := Function.update s.pages i (loadRenderParams (answer values))
          loading := s.loading.eraseIdx n }
      else s
    | none => s
  | .edit i p => { s with pages := Function.update s.pages i p }
  | .save i => { s with sending := s.sending ++ [payload (s.pages i)] }
  | .put n access =>
    match s.sending[n]? with
    | some members =>
      { s with
        store := (putSettings access s.store (.object members)).2
        sending := s.sending.eraseIdx n }
    | none => s
  | .lose n => { s with sending := s.sending.eraseIdx n }
  | .other body access => { s with store := (putSettings access s.store body).2 }

def run (s : Site ι) (actions : List (Action ι)) : Site ι := actions.foldl step s

def start (store : Store) : Site ι := ⟨store, fun _ => {}, [], []⟩

def saved (s : Site ι) : Action ι → List Page
  | .save i => [s.pages i]
  | _ => []

/-- The pages that are saved, each as it is then. -/
def saves : Site ι → List (Action ι) → List Page
  | _, [] => []
  | s, a :: actions => saved s a ++ saves (step s a) actions

/-- Another client leaves the settings of the page alone. -/
def Elsewhere : Action ι → Prop
  | .other body _ => ∀ k ∈ pageKeys, body.members.lookup (keyName k) = none
  | _ => True

def ReadFrom (pages : List Page) (values : List Text) : Prop :=
  ∀ r ∈ renderKeys.zip values, r.1.2 ∈ pageKeys → ∃ p ∈ pages, (r.1.2, r.2) ∈ savedValues p

structure Among (pages : List Page) (s : Site ι) : Prop where
  keys : HasKeys s.store
  saved : ∃ p ∈ pages, Saved p s.store.cache
  loading : ∀ r ∈ s.loading, ReadFrom pages r.2
  sending : ∀ members ∈ s.sending, ∃ p ∈ pages, members = payload p

variable {s : Site ι} {a : Action ι}

omit [DecidableEq ι] in
theorem Among.mono (h : Among pages s) (hpages : ∀ p ∈ pages, p ∈ pages') : Among pages' s := by
  obtain ⟨p, hp, hsaved⟩ := h.saved
  refine ⟨h.keys, ⟨p, hpages p hp, hsaved⟩, fun r hr row hrow hk => ?_, fun members hm => ?_⟩
  · obtain ⟨q, hq, hmem⟩ := h.loading r hr row hrow hk
    exact ⟨q, hpages q hq, hmem⟩
  · obtain ⟨q, hq, heq⟩ := h.sending members hm
    exact ⟨q, hpages q hq, heq⟩

theorem saved_other (access : Access) {store : Store} (hkeys : HasKeys store)
    {body : SettingsPage.Body} (hbody : ∀ k ∈ pageKeys, body.members.lookup (keyName k) = none)
    (h : Saved p store.cache) : Saved p (putSettings access store body).2.cache := by
  cases body with
  | object members =>
    intro kv hkv
    have hk : kv.1 ∈ pageKeys := keys_savedValues p ▸ List.mem_map_of_mem hkv
    have hnone : members.lookup (keyName kv.1) = none := hbody kv.1 hk
    rw [valueOf_putSettings access hkeys, hnone]
    exact h kv hkv
  | array empty => cases empty <;> exact h
  | _ => exact h

theorem mem_zip_concat {α β : Type} {x : α} {y z : β} (l : List α) (vs : List β)
    (h : (x, y) ∈ l.zip (vs ++ [z])) : (x, y) ∈ l.zip vs ∨ l[vs.length]? = some x ∧ y = z := by
  induction vs generalizing l with
  | nil =>
    cases l with
    | nil => cases h
    | cons w l =>
      simp only [List.nil_append, List.zip_cons_cons, List.zip_nil_right, List.mem_singleton,
        Prod.mk.injEq] at h
      exact .inr ⟨congrArg some h.1.symm, h.2⟩
  | cons v vs ih =>
    cases l with
    | nil => cases h
    | cons w l =>
      rw [List.cons_append, List.zip_cons_cons, List.mem_cons] at h
      obtain h | h := h
      · exact .inl (h ▸ List.mem_cons_self)
      · exact (ih l h).imp (List.mem_cons_of_mem _) id

theorem readFrom_concat {values : List Text} {name : Text} (h : ReadFrom pages values)
    (hk : renderKeys[values.length]? = some (name, k))
    (hv : k ∈ pageKeys → ∃ p ∈ pages, (k, v) ∈ savedValues p) : ReadFrom pages (values ++ [v]) := by
  rintro ⟨r, w⟩ hrow hpage
  obtain hrow | ⟨hr, rfl⟩ := mem_zip_concat _ _ hrow
  · exact h _ hrow hpage
  · obtain rfl := Option.some.inj (hk.symm.trans hr)
    exact hv hpage

theorem mem_savedValues_of_saved {cache : KeyTable Text Text} (h : Saved p cache)
    (hk : k ∈ pageKeys) : (k, valueOf cache k) ∈ savedValues p := by
  rw [← keys_savedValues p] at hk
  obtain ⟨kv, hkv, rfl⟩ := List.mem_map.mp hk
  rw [h kv hkv]
  exact hkv

theorem among_step (h : Among pages s) (ha : Elsewhere a) :
    Among (pages ++ saved s a) (step s a) := by
  have hmono : Among (pages ++ saved s a) s := h.mono fun p hp => List.mem_append_left _ hp
  cases a with
  | get i =>
    refine ⟨hmono.keys, hmono.saved, fun r hr => ?_, hmono.sending⟩
    obtain hr | hr := List.mem_append.mp hr
    · exact hmono.loading r hr
    · obtain rfl := List.mem_singleton.mp hr
      intro row hrow
      rw [List.zip_nil_right] at hrow
      cases hrow
  | read n =>
    simp only [step]
    split
    · rename_i i values hvalues
      have hread := hmono.loading _ (List.mem_of_getElem? hvalues)
      split
      · rename_i name k hk
        refine ⟨hmono.keys, hmono.saved, fun r hr => ?_, hmono.sending⟩
        obtain hr | rfl := List.mem_or_eq_of_mem_set hr
        · exact hmono.loading r hr
        · obtain ⟨p, hp, hsaved⟩ := hmono.saved
          exact readFrom_concat hread hk fun hk => ⟨p, hp, mem_savedValues_of_saved hsaved hk⟩
      · exact hmono
    · exact hmono
  | «show» n =>
    simp only [step]
    split
    · split
      · exact ⟨hmono.keys, hmono.saved,
          fun r hr => hmono.loading r (List.mem_of_mem_eraseIdx hr), hmono.sending⟩
      · exact hmono
    · exact hmono
  | edit i p => exact ⟨hmono.keys, hmono.saved, hmono.loading, hmono.sending⟩
  | save i =>
    refine ⟨hmono.keys, hmono.saved, hmono.loading, fun members hm => ?_⟩
    obtain hm | hm := List.mem_append.mp hm
    · exact hmono.sending members hm
    · exact ⟨s.pages i, List.mem_append_right _ List.mem_cons_self, List.mem_singleton.mp hm⟩
  | put n access =>
    simp only [step]
    split
    · rename_i members hmembers
      obtain ⟨p, hp, rfl⟩ := hmono.sending members (List.mem_of_getElem? hmembers)
      exact ⟨SettingsPage.hasKeys_putSettings access hmono.keys _,
        ⟨p, hp, saved_putSettings access hmono.keys p⟩, hmono.loading,
        fun m hm => hmono.sending m (List.mem_of_mem_eraseIdx hm)⟩
    · exact hmono
  | lose n =>
    exact ⟨hmono.keys, hmono.saved, hmono.loading,
      fun m hm => hmono.sending m (List.mem_of_mem_eraseIdx hm)⟩
  | other body access =>
    obtain ⟨p, hp, hsaved⟩ := hmono.saved
    exact ⟨SettingsPage.hasKeys_putSettings access hmono.keys _,
      ⟨p, hp, saved_other access hmono.keys ha hsaved⟩, hmono.loading, hmono.sending⟩

theorem among_run (actions : List (Action ι)) (h : Among pages s)
    (helse : ∀ a ∈ actions, Elsewhere a) : Among (pages ++ saves s actions) (run s actions) := by
  induction actions generalizing pages s with
  | nil => rwa [saves, List.append_nil]
  | cons a actions ih =>
    have hstep := among_step h (helse a List.mem_cons_self)
    have hrun := ih hstep fun a ha => helse a (List.mem_cons_of_mem _ ha)
    rwa [List.append_assoc] at hrun

omit [DecidableEq ι] in
theorem among_start {store : Store} (hkeys : HasKeys store) (h : Saved p store.cache) :
    Among [p] (start store : Site ι) :=
  ⟨hkeys, ⟨p, List.mem_cons_self, h⟩, nofun, nofun⟩

theorem rgb_of_mem (hk : k ∈ pageKeys.take 6) (h : (k, v) ∈ savedValues p) :
    ∃ c : Colour, v = c.rgb := by
  simp only [savedValues, List.mem_cons, Prod.mk.injEq, hexToRgb_text, List.not_mem_nil,
    or_false] at h
  obtain ⟨-, h⟩ | ⟨-, h⟩ | ⟨-, h⟩ | ⟨-, h⟩ | ⟨-, h⟩ | ⟨-, h⟩ | ⟨rfl, -⟩ | ⟨rfl, -⟩ | ⟨rfl, -⟩ := h
  · exact ⟨_, h⟩
  · exact ⟨_, h⟩
  · exact ⟨_, h⟩
  · exact ⟨_, h⟩
  · exact ⟨_, h⟩
  · exact ⟨_, h⟩
  · exact absurd hk (by decide)
  · exact absurd hk (by decide)
  · exact absurd hk (by decide)

theorem number_of_mem (hk : k ∈ pageKeys.drop 6) (h : (k, v) ∈ savedValues p) :
    sanitize .int v = v ∧ v ≠ [] := by
  have hnumber : ∀ (x : NumberInput) (d : Text), sanitize .int d = d → d ≠ [] →
      sanitize .int (orElse x.text d) = orElse x.text d ∧ orElse x.text d ≠ [] := by
    intro x d hd hne
    refine ⟨?_, orElse_ne_nil hne⟩
    rw [orElse]
    split
    · exact hd
    · exact x.valid
  simp only [savedValues, List.mem_cons, Prod.mk.injEq, List.not_mem_nil, or_false] at h
  obtain ⟨rfl, -⟩ | ⟨rfl, -⟩ | ⟨rfl, -⟩ | ⟨rfl, -⟩ | ⟨rfl, -⟩ | ⟨rfl, -⟩ | ⟨-, rfl⟩ | ⟨-, rfl⟩ |
    ⟨-, rfl⟩ := h
  · exact absurd hk (by decide)
  · exact absurd hk (by decide)
  · exact absurd hk (by decide)
  · exact absurd hk (by decide)
  · exact absurd hk (by decide)
  · exact absurd hk (by decide)
  · exact hnumber _ _ (by decide) (List.cons_ne_nil _ _)
  · exact hnumber _ _ (by decide) (List.cons_ne_nil _ _)
  · exact hnumber _ _ (by decide) (List.cons_ne_nil _ _)

theorem mem_savedValues_value {values : List Text} {name : String} (h : ReadFrom pages values)
    (hlength : values.length = renderKeys.length) (hk : (lit name, k) ∈ renderKeys)
    (hpage : k ∈ pageKeys) : ∃ p ∈ pages, (k, value (answer values) name) ∈ savedValues p := by
  obtain ⟨i, hi, hget⟩ := List.getElem_of_mem hk
  have hv : ((lit name, k), values[i]) ∈ renderKeys.zip values := by
    rw [← hget, ← List.getElem_zip (h := by simp [hi, hlength])]
    exact List.getElem_mem _
  have hrow : (lit name, values[i]) ∈ (renderKeys.map Prod.fst).zip values := by
    rw [List.zip_map_left]
    exact List.mem_map.mpr ⟨_, hv, rfl⟩
  rw [value, (answer values).lookup_of_mem hrow]
  exact h _ hv hpage

theorem savedValues_loadRenderParams {values : List Text} (h : ReadFrom pages values)
    (hlength : values.length = renderKeys.length) :
    ∀ kv ∈ savedValues (loadRenderParams (answer values)), ∃ p ∈ pages, kv ∈ savedValues p := by
  have hcolour : ∀ (name : String) k, (lit name, k) ∈ renderKeys → k ∈ pageKeys.take 6 →
      ∃ p ∈ pages, (k, hexToRgb (Colour.ofText (rgbToHex (value (answer values) name))).text) ∈
        savedValues p := by
    intro name k hk htake
    obtain ⟨p, hp, hmem⟩ := mem_savedValues_value h hlength hk (List.mem_of_mem_take htake)
    obtain ⟨c, hc⟩ := rgb_of_mem htake hmem
    rw [hc] at hmem ⊢
    rw [rgbToHex_rgb, hexToRgb_text]
    exact ⟨p, hp, hmem⟩
  have hnumber : ∀ (name : String) (d : Text) k, (lit name, k) ∈ renderKeys → k ∈ pageKeys.drop 6 →
      ∃ p ∈ pages, (k, orElse (NumberInput.ofText (orElse (value (answer values) name) d)).text d) ∈
        savedValues p := by
    intro name d k hk hdrop
    obtain ⟨p, hp, hmem⟩ := mem_savedValues_value h hlength hk (List.mem_of_mem_drop hdrop)
    obtain ⟨hvalid, hne⟩ := number_of_mem hdrop hmem
    rw [orElse_text_ofText hvalid hne]
    exact ⟨p, hp, hmem⟩
  simp only [savedValues, loadRenderParams, List.forall_mem_cons]
  refine ⟨hcolour _ _ ?_ ?_, hcolour _ _ ?_ ?_, hcolour _ _ ?_ ?_, hcolour _ _ ?_ ?_,
    hcolour _ _ ?_ ?_, hcolour _ _ ?_ ?_, hnumber _ _ _ ?_ ?_, hnumber _ _ _ ?_ ?_,
    hnumber _ _ _ ?_ ?_, nofun⟩ <;> decide +kernel

theorem putSettings_saved (access : Access) {store : Store} (h : Saved p store.cache) :
    putSettings access store (.object (payload p)) = (200, store) := by
  have hvalues : ∀ kv ∈ savedValues p,
      (SettingsPage.knownValues (payload p)).lookup (keyName kv.1) = some kv.2 := by
    intro kv hkv
    have hk : isKnown (keyName kv.1) = true := (isKnown_iff _).mpr ⟨kv.1, rfl⟩
    rw [SettingsPage.lookup_knownValues, lookup_payload_of_mem hkv, Option.elim_some, if_pos hk]
    rfl
  refine SettingsPage.putSettings_of_unchanged access ?_ fun name v hv u hu => ?_
  · exact List.ne_nil_of_mem (KeyTable.mem_of_lookup (hvalues _ List.mem_cons_self))
  · rw [SettingsPage.lookup_knownValues] at hv
    cases hmem : (payload p).lookup name with
    | none =>
      rw [hmem] at hv
      cases hv
    | some w =>
      obtain ⟨kv, hkv, heq⟩ := List.mem_map.mp (KeyTable.mem_of_lookup hmem)
      obtain ⟨rfl, rfl⟩ := Prod.mk.inj heq
      have hk : isKnown (keyName kv.1) = true := (isKnown_iff _).mpr ⟨kv.1, rfl⟩
      rw [hmem, Option.elim_some, if_pos hk] at hv
      have hvalue := h kv hkv
      rw [valueOf, hu] at hvalue
      exact hvalue.trans (Option.some.inj hv)

def defaults : Page :=
  { colG0 := ⟨128, 128, 128⟩
    colG1 := ⟨0, 255, 0⟩
    colG2 := ⟨255, 0, 0⟩
    colG3 := ⟨0, 0, 255⟩
    colLive := ⟨255, 255, 0⟩
    colDone := ⟨90, 90, 90⟩ }

theorem saved_fresh : Saved defaults SettingsPage.fresh.cache := by
  intro kv
  rw [valueOf_fresh]
  revert kv
  decide +kernel

def black : List (Action Unit) :=
  [.edit () {}, .save (),
    .other (.object (KeyTable.empty.upsert (keyName .ns) (.string ['4']))) .works, .put 0 .works]

theorem elsewhere_black : ∀ a ∈ black, Elsewhere a := by
  intro a ha
  simp only [black, List.mem_cons, List.not_mem_nil, or_false] at ha
  obtain rfl | rfl | rfl | rfl := ha
  · trivial
  · trivial
  · intro k
    simp only [SettingsPage.Body.members, KeyTable.lookup_upsert]
    revert k
    decide +kernel
  · trivial

end Runs

end Datenbereitstellung.PreviewPage
