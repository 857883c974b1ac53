import Datenbereitstellung.Lib.Machines
import Datenbereitstellung.SettingsPage

namespace Datenbereitstellung.WebServer

open Strings Lib.Words Lib.Tables Lib.Machines SettingsTable SettingsSchema
open OpcUa (cStr)
open SettingsStore (Key stoi)
open SettingsPage (Body putSettings)

section Certificate

def numeric : Text := lit "0123456789."

def isBlank (c : Char) : Bool := c == ' ' || c == '\t'

def trim (item : Text) : Text := (item.dropWhile isBlank).rdropWhile isBlank

def isIp (item : Text) : Bool := item.all fun c => numeric.contains c

abbrev Address := {ip : Text // isIp ip = true}

theorem Address.mem_numeric (ip : Address) {c : Char} (hc : c ∈ ip.1) : c ∈ numeric :=
  List.contains_iff_mem.mp (List.all_eq_true.mp ip.2 c hc)

def commonName (ip extraHosts : Text) : Text :=
  if extraHosts.isEmpty then ip else extraHosts.takeWhile (· != ',')

def addHost (san item : Text) : Text :=
  let item := trim item
  if item.isEmpty then san else san ++ (if isIp item then lit ",IP:" else lit ",DNS:") ++ item

def san (ip extraHosts : Text) : Text :=
  let san := lit "DNS:localhost,IP:127.0.0.1"
  let san := if !ip.isEmpty && ip != lit "127.0.0.1" then san ++ lit ",IP:" ++ ip else san
  (lines ',' extraHosts).foldl addHost san

inductive GeneralName
  | dns (name : Text)
  | ip (bytes : List Nat)
  deriving DecidableEq

/-- `key` stands for the key pair that the certificate belongs to. -/
structure Certificate where
  cn : Option Text
  subjectAltName : Option (List GeneralName)
  notBefore : Int
  notAfter : Int
  key : Nat
  deriving DecidableEq

/-- How far the writing of a file comes: it cannot be opened, no more than a part of it is written,
which may be noticed or not, or all of it is. -/
inductive Write
  | closed
  | failed
  | lost
  | whole
  deriving DecidableEq

def Write.ok : Write → Bool
  | .closed | .failed => false
  | .lost | .whole => true

def Write.content {α : Type} (old : Option α) (new : α) : Write → Option α
  | .closed => old
  | .failed | .lost => none
  | .whole => some new

/-- The same for `cert.hosts`, of which a part can be read too. -/
inductive HostsWrite
  | closed
  | cut (n : Nat)
  | whole
  deriving DecidableEq

def HostsWrite.content (old new : Text) : HostsWrite → Text
  | .closed => old
  | .cut n => new.take n
  | .whole => new

structure Disk where
  cert : Option Certificate := none
  key : Option Nat := none
  hosts : Text := []

/-- What OpenSSL, the network and the file system answer while a server is started. `fails` is an
exception. -/
structure Answers where
  rsaGen : Option Nat
  x509New : Bool := true
  ip : Address
  signed : Bool := true
  keyFile : Write := .whole
  certFile : Write := .whole
  hostsFile : HostsWrite := .whole
  fails : Bool := false

/-- Whether OpenSSL takes a text as common name, the names that it reads in a text if it makes an
extension of it, and whether an `SSLServer` is valid that is given a certificate and a key. -/
structure Libraries where
  entry : Text → Bool
  conf : Text → Option (List GeneralName)
  isValid : Option Certificate → Option Nat → Bool

variable (libs : Libraries)

def x509 (ip : Text) (now : Int) (extraHosts : Text) (pkey : Nat) : Certificate where
  cn :=
    let cn := cStr (commonName ip extraHosts)
    if libs.entry cn then some cn else none
  subjectAltName := libs.conf (cStr (san ip extraHosts))
  notBefore := now - 24 * 3600
  notAfter := now + 365 * 24 * 3600
  key := pkey

def generateSelfSignedCert (a : Answers) (now : Int) (extraHosts : Text) (d : Disk) : Bool × Disk :=
  match a.rsaGen with
  | none => (false, d)
  | some pkey =>
    if !a.x509New || !a.signed then (false, d)
    else
      let d := { d with key := a.keyFile.content d.key pkey }
      if !a.keyFile.ok then (false, d)
      else
        let x509 := x509 libs a.ip.1 now extraHosts pkey
        (a.certFile.ok, { d with cert := a.certFile.content d.cert x509 })

def certValid (now : Int) (d : Disk) : Bool := d.cert.any fun x => now < x.notAfter

end Certificate

section Start

variable (libs : Libraries)

/-- An `HttpServer` that was started; `ssl` is the certificate that it shows, if it has one. -/
structure Server where
  preferTls : Bool
  ssl : Option Certificate
  deriving DecidableEq

/-- The certificate is made again if it is not valid or not for these addresses. The first component
says whether that was tried, and whether it worked. -/
def renew (a : Answers) (now : Int) (hosts : Text) (d : Disk) : Option Bool × Disk :=
  let hostsChanged := d.hosts != hosts
  if !certValid now d || hostsChanged then
    let (made, d) := generateSelfSignedCert libs a now hosts d
    (some made, if made then { d with hosts := a.hostsFile.content d.hosts hosts } else d)
  else (none, d)

/-- `HttpServer::start`; the last component is that of `renew`. -/
def start (a : Answers) (now : Int) (preferTls : Bool) (hosts : Text) (d : Disk) :
    Server × Disk × Option Bool :=
  if preferTls then
    let (made, d) := renew libs a now hosts d
    if certValid now d && libs.isValid d.cert d.key then (⟨preferTls, d.cert⟩, d, made)
    else (⟨preferTls, none⟩, d, made)
  else (⟨preferTls, none⟩, d, none)

end Start

section Process

variable (libs : Libraries)

/-- Where the main thread is: before the web server, between that and the loop, in the loop, behind
it. `webServer` is none after an exception. -/
inductive Main
  | starting
  | serving (webServer : Option Server)
  | polling (webServer : Option Server) (tlsWanted : Bool)
  | ended
  deriving DecidableEq

structure World where
  store : Store
  disk : Disk := {}
  now : Int := 0
  shutdownRequested : Bool := false
  main : Main := .starting

/-- What happens next: a `PUT` is handled, the clock shows another time, the service is asked to end,
it is started anew, or the main thread goes on. -/
inductive Action
  | put (access : Access) (body : Body)
  | clock (now : Int)
  | shutdown
  | boot (access : Access)
  | main (a : Answers)

/-- The start of a server that prefers TLS: for which hosts, when, with which own address, and what
`renew` did. -/
structure Start where
  hosts : Text
  now : Int
  ip : Address
  made : Option Bool

/-- What the main thread did: it read `webUseTls`, or it started a server that prefers TLS. -/
inductive Event
  | wants (tls : Bool)
  | starts (s : Start)

def World.useTls (w : World) : Bool := (stoi (valueOf w.store.cache .webUseTls)).getD 1 != 0

def World.hosts (w : World) : Text := valueOf w.store.cache .webCertHosts

/-- A server is started, and `next` is where the main thread is then, without one after an
exception. -/
def World.serve (w : World) (a : Answers) (preferTls : Bool) (next : Option Server → Main) :
    World × List Event :=
  let (s, disk, made) := start libs a w.now preferTls w.hosts w.disk
  ({ w with disk, main := next (if a.fails then none else some s) },
    if preferTls then [.starts ⟨w.hosts, w.now, a.ip, made⟩] else [])

/-- The main thread goes on. An exception leaves its loop and ends the process. -/
def mainStep (w : World) (a : Answers) : World × List Event :=
  match w.main with
  | .starting =>
    let useTls := w.useTls
    let (w, out) := w.serve libs a useTls .serving
    (w, .wants useTls :: out)
  | .serving webServer => ({ w with main := .polling webServer w.useTls }, [.wants w.useTls])
  | .polling webServer tlsWanted =>
    if w.shutdownRequested then ({ w with main := .ended }, [])
    else
      let nowWanted := w.useTls
      if webServer.isSome && nowWanted != tlsWanted then
        let (w, out) := w.serve libs a nowWanted fun
          | some s => .polling (some s) nowWanted
          | none => .ended
        (w, .wants nowWanted :: out)
      else (w, [.wants nowWanted])
  | .ended => (w, [])

def Main.webServer : Main → Option Server
  | .serving webServer | .polling webServer _ => webServer
  | .starting | .ended => none

def Event.reading : Event → Option Bool
  | .wants tls => some tls
  | .starts _ => none

def Event.start : Event → Option Start
  | .wants _ => none
  | .starts s => some s

def step : Step World Action Event Empty := fun w action =>
  match action with
  | .put access body => ({ w with store := (putSettings access w.store body).2 }, [], none)
  | .clock now => ({ w with now }, [], none)
  | .shutdown => ({ w with shutdownRequested := true }, [], none)
  | .boot access =>
    ({ w with
        store := (init access { table := w.store.table }).2
        shutdownRequested := false
        main := .starting }, [], none)
  | .main a =>
    let (w, out) := mainStep libs w a
    (w, out, none)

def run (w : World) (actions : List Action) : World × List Event :=
  actions.foldl (fun r action =>
    ((step libs r.1 action).1, r.2 ++ (step libs r.1 action).2.1)) (w, [])

theorem runs_run (w : World) (actions : List Action) :
    Runs (step libs) w actions (run libs w actions).1 (run libs w actions).2 := by
  induction actions using List.reverseRecOn with
  | nil => exact .start
  | append_singleton actions action ih =>
    have hstep : ∀ w, step libs w action =
        ((step libs w action).1, (step libs w action).2.1, none) := by
      intro w
      cases action <;> rfl
    have hnext := ih.step (hstep _)
    rwa [run, List.foldl_concat] at *

def generalName (name : Text) : Option GeneralName :=
  if (lit "DNS:").isPrefixOf name then some (.dns (name.drop 4))
  else
    let parts := (name.drop 3).splitOn '.'
    let bytes := parts.map (List.foldl (fun n c => 10 * n + (c.toNat - '0'.toNat)) 0)
    if parts.length = 4 ∧ [] ∉ parts ∧ ∀ b ∈ bytes, b < 256 then some (.ip bytes) else none

def openSsl : Libraries where
  entry cn := decide (0 < cn.length ∧ cn.length ≤ 64)
  conf text := (text.splitOn ',').mapM generalName
  isValid x key := x.any fun x => key == some x.key

def works : Answers := { rsaGen := some 0, ip := ⟨lit "172.17.0.2", by decide +kernel⟩ }

def putOne (key : Key) (value : String) : Action :=
  .put .works (.object (KeyTable.empty.upsert (keyName key) (.string (lit value))))

end Process

section Names

variable (libs : Libraries)

def hostName (item : Text) : Option Text :=
  let item := trim item
  if item.isEmpty then none else some ((if isIp item then lit "IP:" else lit "DNS:") ++ item)

def altNames (ip extraHosts : Text) : List Text :=
  [lit "DNS:localhost", lit "IP:127.0.0.1"] ++
    (if !ip.isEmpty && ip != lit "127.0.0.1" then [lit "IP:" ++ ip] else []) ++
      (lines ',' extraHosts).filterMap hostName

theorem mem_trim {c : Char} {item : Text} (h : c ∈ trim item) : c ∈ item :=
  (List.dropWhile_sublist _).mem ((List.rdropWhile_prefix _ _).mem h)

theorem mem_hostName {c : Char} {item name : Text} (h : hostName item = some name) (hc : c ∈ name) :
    c ∈ lit "IP:" ++ lit "DNS:" ∨ c ∈ item := by
  rw [hostName] at h
  split at h
  · cases h
  · obtain rfl := Option.some.inj h
    obtain hc | hc := List.mem_append.mp hc
    · left
      split at hc
      · exact List.mem_append_left _ hc
      · exact List.mem_append_right _ hc
    · exact .inr (mem_trim hc)

theorem lit_ip : lit ",IP:" = ',' :: lit "IP:" := by decide +kernel

theorem lit_dns : lit ",DNS:" = ',' :: lit "DNS:" := by decide +kernel

theorem addHost_eq (san item : Text) :
    addHost san item = ((hostName item).elim san fun name => san ++ ',' :: name) := by
  rw [addHost, hostName, lit_ip, lit_dns]
  cases (trim item).isEmpty with
  | true => rfl
  | false =>
    cases isIp (trim item) with
    | true => exact List.append_assoc san (',' :: lit "IP:") (trim item)
    | false => exact List.append_assoc san (',' :: lit "DNS:") (trim item)

theorem splitOn_foldl_addHost (items : List Text) (hitems : ∀ item ∈ items, ',' ∉ item)
    (san : Text) :
    (items.foldl addHost san).splitOn ',' = san.splitOn ',' ++ items.filterMap hostName := by
  induction items generalizing san with
  | nil => exact (List.append_nil _).symm
  | cons item items ih =>
    rw [List.foldl_cons, ih fun i hi => hitems i (List.mem_cons_of_mem _ hi), addHost_eq]
    cases hname : hostName item with
    | none =>
      rw [List.filterMap_cons_none hname]
      rfl
    | some name =>
      have hcomma : ',' ∉ name := by
        intro hc
        obtain hc | hc := mem_hostName hname hc
        · exact absurd hc (by decide +kernel)
        · exact hitems item List.mem_cons_self hc
      rw [List.filterMap_cons_some hname, Option.elim_some, List.splitOn_append_cons_self,
        List.splitOn_eq_singleton hcomma, List.append_assoc, List.singleton_append]

/-- The names in a certificate, each of them once and in the order of the setting. -/
theorem splitOn_san (ip : Address) (extraHosts : Text) :
    (san ip.1 extraHosts).splitOn ',' = altNames ip.1 extraHosts := by
  have hip : ',' ∉ lit "IP:" ++ ip.1 := by
    intro hc
    obtain hc | hc := List.mem_append.mp hc
    · exact absurd hc (by decide +kernel)
    · exact absurd (Address.mem_numeric ip hc) (by decide +kernel)
  rw [san, altNames, splitOn_foldl_addHost _ fun item hi => sep_notMem_lines hi]
  congr 1
  split
  · rw [lit_ip, List.append_assoc, List.cons_append, List.splitOn_append_cons_self,
      List.splitOn_eq_singleton hip]
    congr 1
    decide +kernel
  · rw [List.append_nil]
    decide +kernel

theorem mem_foldl_addHost {c : Char} (items : List Text) {san : Text}
    (h : c ∈ items.foldl addHost san) :
    c ∈ san ∨ c ∈ lit ",IP:" ++ lit "DNS:" ∨ ∃ item ∈ items, c ∈ item := by
  induction items generalizing san with
  | nil => exact .inl h
  | cons item items ih =>
    have hmarks : lit ",IP:" ++ lit "DNS:" = ',' :: (lit "IP:" ++ lit "DNS:") := by rw [lit_ip]; rfl
    obtain hc | hc | ⟨i, hi, hc⟩ := ih h
    · rw [addHost_eq] at hc
      cases hname : hostName item with
      | none => exact .inl (by rwa [hname] at hc)
      | some name =>
        rw [hname, Option.elim_some] at hc
        obtain hc | hc := List.mem_append.mp hc
        · exact .inl hc
        · rw [hmarks]
          obtain rfl | hc := List.mem_cons.mp hc
          · exact .inr (.inl List.mem_cons_self)
          · obtain hc | hc := mem_hostName hname hc
            · exact .inr (.inl (List.mem_cons_of_mem _ hc))
            · exact .inr (.inr ⟨item, List.mem_cons_self, hc⟩)
    · exact .inr (.inl hc)
    · exact .inr (.inr ⟨i, List.mem_cons_of_mem _ hi, hc⟩)

theorem cStr_san (ip : Address) {extraHosts : Text} (h : '\x00' ∉ extraHosts) :
    cStr (san ip.1 extraHosts) = san ip.1 extraHosts := by
  have hip : '\x00' ∉ ip.1 := fun hc => absurd (Address.mem_numeric ip hc) (by decide +kernel)
  rw [OpcUa.cStr_eq_self_iff]
  intro hc
  rw [san] at hc
  obtain hc | hc | ⟨item, hi, hc⟩ := mem_foldl_addHost _ hc
  · split at hc
    · obtain hc | hc := List.mem_append.mp hc
      · exact absurd hc (by decide +kernel)
      · exact hip hc
    · exact absurd hc (by decide +kernel)
  · exact absurd hc (by decide +kernel)
  · exact h (mem_of_mem_lines hi hc)

end Names

section Renewal

variable (libs : Libraries)

def latest (made : Option Start) (e : Start) : Option Start :=
  if e.made = some true then some e else made

/-- The certificate was made at the last start that made one, for these hosts, or none was made, and
it is the one that was found on the disk, where these hosts were recorded. -/
def Origin (d₀ : Disk) (made : Option Start) (hosts : Text) (x : Certificate) : Prop :=
  (∃ m pkey, made = some m ∧ m.hosts = hosts ∧ x = x509 libs m.ip.1 m.now m.hosts pkey) ∨
    made = none ∧ d₀.cert = some x ∧ d₀.hosts = hosts

def Covers (d₀ : Disk) (made : Option Start) (d : Disk) : Prop :=
  ∀ x, d.cert = some x → Origin libs d₀ made d.hosts x

def Matching (d : Disk) : Prop := ∀ x, d.cert = some x → d.key = some x.key

/-- Nothing goes wrong. -/
structure Answers.Works (a : Answers) : Prop where
  rsaGen : a.rsaGen.isSome = true
  x509New : a.x509New = true
  signed : a.signed = true
  keyFile : a.keyFile = .whole
  certFile : a.certFile = .whole
  hostsFile : a.hostsFile = .whole

variable {libs} {a : Answers} {now : Int} {hosts : Text} {d₀ d : Disk} {made : Option Start}

variable (libs a now hosts d) in
theorem generate_cases :
    ((generateSelfSignedCert libs a now hosts d).1 = false ∧
      (generateSelfSignedCert libs a now hosts d).2.cert = d.cert ∧
        (generateSelfSignedCert libs a now hosts d).2.hosts = d.hosts) ∨
    ∃ pkey, generateSelfSignedCert libs a now hosts d = (a.certFile.ok,
      { cert := a.certFile.content d.cert (x509 libs a.ip.1 now hosts pkey)
        key := a.keyFile.content d.key pkey
        hosts := d.hosts }) := by
  rw [generateSelfSignedCert]
  cases a.rsaGen with
  | none => exact .inl ⟨rfl, rfl, rfl⟩
  | some pkey =>
    dsimp only
    by_cases hsigned : (!a.x509New || !a.signed) = true
    · rw [if_pos hsigned]
      exact .inl ⟨rfl, rfl, rfl⟩
    · rw [if_neg hsigned]
      by_cases hkey : (!a.keyFile.ok) = true
      · rw [if_pos hkey]
        exact .inl ⟨rfl, rfl, rfl⟩
      · rw [if_neg hkey]
        exact .inr ⟨pkey, rfl⟩

variable (libs now hosts d) in
theorem generate_works (h : a.Works) : ∃ pkey, generateSelfSignedCert libs a now hosts d =
    (true, { cert := some (x509 libs a.ip.1 now hosts pkey)
             key := some pkey
             hosts := d.hosts }) := by
  obtain ⟨pkey, hpkey⟩ := Option.isSome_iff_exists.mp h.rsaGen
  refine ⟨pkey, ?_⟩
  rw [generateSelfSignedCert, hpkey]
  simp only [h.x509New, h.signed, h.keyFile, h.certFile, Write.ok, Write.content, Bool.not_true,
    Bool.or_self, Bool.false_eq_true, if_false]

theorem eq_of_content {α : Type} {old : Option α} {new x : α} {write : Write}
    (h : write.content old new = some x) :
    (write.ok = false ∧ old = some x) ∨ (write.ok = true ∧ new = x) := by
  cases write with
  | closed => exact .inl ⟨rfl, h⟩
  | failed => cases h
  | lost => cases h
  | whole => exact .inr ⟨rfl, Option.some.inj h⟩

theorem generate_cert {x : Certificate}
    (h : (generateSelfSignedCert libs a now hosts d).2.cert = some x) :
    ((generateSelfSignedCert libs a now hosts d).1 = false ∧ d.cert = some x) ∨
      ((generateSelfSignedCert libs a now hosts d).1 = true ∧
        ∃ pkey, x = x509 libs a.ip.1 now hosts pkey) := by
  obtain ⟨hmade, hcert, _⟩ | ⟨pkey, hgen⟩ := generate_cases libs a now hosts d
  · exact .inl ⟨hmade, hcert ▸ h⟩
  · rw [hgen] at h ⊢
    obtain hold | ⟨hok, rfl⟩ := eq_of_content h
    · exact .inl hold
    · exact .inr ⟨hok, pkey, rfl⟩

theorem generate_hosts : (generateSelfSignedCert libs a now hosts d).2.hosts = d.hosts := by
  obtain ⟨_, _, hhosts⟩ | ⟨pkey, hgen⟩ := generate_cases libs a now hosts d
  · exact hhosts
  · rw [hgen]

theorem eq_of_valid (h : (!certValid now d || d.hosts != hosts) = false) : d.hosts = hosts := by
  have hhosts := (Bool.or_eq_false_iff.mp h).2
  simpa using hhosts

variable (libs a now hosts d) in
def startOf : Start := ⟨hosts, now, a.ip, (renew libs a now hosts d).1⟩

variable (now hosts) in
theorem renew_covers (ha : a.hostsFile = .whole) (h : Covers libs d₀ made d) :
    Covers libs d₀ (latest made (startOf libs a now hosts d)) (renew libs a now hosts d).2 ∧
      ∀ x, (renew libs a now hosts d).2.cert = some x → (renew libs a now hosts d).1 ≠ some false →
        Origin libs d₀ (latest made (startOf libs a now hosts d)) hosts x := by
  rw [startOf, latest, renew]
  dsimp only
  cases hneed : !certValid now d || d.hosts != hosts with
  | false =>
    rw [if_neg Bool.false_ne_true]
    exact ⟨h, fun x hx _ => eq_of_valid hneed ▸ h x hx⟩
  | true =>
    rw [if_pos rfl]
    cases hmade : (generateSelfSignedCert libs a now hosts d).1 with
    | false =>
      rw [if_neg Bool.false_ne_true, if_neg (by simp)]
      refine ⟨fun x hx => ?_, fun x hx hne => absurd rfl hne⟩
      obtain ⟨_, hold⟩ | ⟨htrue, _⟩ := generate_cert hx
      · rw [generate_hosts]
        exact h x hold
      · rw [hmade] at htrue
        cases htrue
    | true =>
      rw [if_pos rfl, if_pos rfl, ha]
      have hnew : ∀ x, (generateSelfSignedCert libs a now hosts d).2.cert = some x →
          Origin libs d₀ (some ⟨hosts, now, a.ip, some true⟩) hosts x := by
        intro x hx
        obtain ⟨hfalse, _⟩ | ⟨_, pkey, hpkey⟩ := generate_cert hx
        · rw [hmade] at hfalse
          cases hfalse
        · exact .inl ⟨_, pkey, rfl, rfl, hpkey⟩
      exact ⟨hnew, fun x hx _ => hnew x hx⟩

variable (libs now hosts) in
theorem renew_works (ha : a.Works) (hmatching : Matching d) :
    Matching (renew libs a now hosts d).2 ∧ (renew libs a now hosts d).1 ≠ some false ∧
      ∃ x, (renew libs a now hosts d).2.cert = some x ∧ now < x.notAfter := by
  rw [renew]
  dsimp only
  cases hneed : !certValid now d || d.hosts != hosts with
  | false =>
    rw [if_neg Bool.false_ne_true]
    have hvalid : certValid now d = true := by simpa using (Bool.or_eq_false_iff.mp hneed).1
    obtain ⟨x, hx, hnow⟩ := (Option.any_eq_true _ _).mp hvalid
    exact ⟨hmatching, by simp, x, hx, of_decide_eq_true hnow⟩
  | true =>
    obtain ⟨pkey, hgen⟩ := generate_works libs now hosts d ha
    rw [if_pos rfl, hgen, if_pos rfl, ha.hostsFile]
    refine ⟨fun x hx => ?_, by simp, x509 libs a.ip.1 now hosts pkey, rfl, ?_⟩
    · obtain rfl := Option.some.inj hx
      rfl
    · exact Int.lt_add_of_pos_right now (by decide)

end Renewal

section Runs

variable {libs : Libraries} {a : Answers} {w w' : World} {out : List Event}

def Serves (libs : Libraries) (w : World) (a : Answers) (preferTls : Bool) (w' : World)
    (out : List Event) : Prop :=
  let (s, disk, made) := start libs a w.now preferTls w.hosts w.disk
  w'.disk = disk ∧ (w'.main.webServer = none ∨ w'.main.webServer = some s) ∧
    out.filterMap Event.start = if preferTls then [⟨w.hosts, w.now, a.ip, made⟩] else []

def Quiet (w w' : World) (out : List Event) : Prop :=
  w'.disk = w.disk ∧ (w'.main.webServer = w.main.webServer ∨ w'.main.webServer = none) ∧
    out.filterMap Event.start = []

theorem serves_serve {preferTls : Bool} {next : Option Server → Main}
    (hnext : ∀ s, (next s).webServer = s) {e : Event} (he : e.start = none) :
    Serves libs w a preferTls (w.serve libs a preferTls next).1
      (e :: (w.serve libs a preferTls next).2) := by
  rw [Serves, World.serve]
  refine ⟨rfl, ?_, ?_⟩
  · cases a.fails with
    | true => exact .inl (hnext none)
    | false => exact .inr (hnext _)
  · rw [List.filterMap_cons_none he]
    cases preferTls with
    | true => rfl
    | false => rfl

variable (libs w a) in
theorem mainStep_cases :
    Quiet w (mainStep libs w a).1 (mainStep libs w a).2 ∨
      ∃ preferTls, Serves libs w a preferTls (mainStep libs w a).1 (mainStep libs w a).2 := by
  rw [mainStep]
  split
  · exact .inr ⟨w.useTls, serves_serve (fun _ => rfl) rfl⟩
  · rename_i webServer hmain
    exact .inl ⟨rfl, .inl (by rw [hmain]; rfl), rfl⟩
  · rename_i webServer tlsWanted hmain
    by_cases hshutdown : w.shutdownRequested = true
    · rw [if_pos hshutdown]
      exact .inl ⟨rfl, .inr rfl, rfl⟩
    · rw [if_neg hshutdown]
      by_cases hswitch : (webServer.isSome && w.useTls != tlsWanted) = true
      · rw [if_pos hswitch]
        dsimp only
        refine .inr ⟨w.useTls, serves_serve (fun s => ?_) rfl⟩
        cases s with
        | none => rfl
        | some s => rfl
      · rw [if_neg hswitch]
        exact .inl ⟨rfl, .inl rfl, rfl⟩
  · exact .inl ⟨rfl, .inl rfl, rfl⟩

theorem step_cases {action : Action} (h : step libs w action = (w', out, none)) :
    Quiet w w' out ∨ ∃ a preferTls, action = .main a ∧ Serves libs w a preferTls w' out := by
  cases action with
  | put access body =>
    cases h
    exact .inl ⟨rfl, .inl rfl, rfl⟩
  | clock now =>
    cases h
    exact .inl ⟨rfl, .inl rfl, rfl⟩
  | shutdown =>
    cases h
    exact .inl ⟨rfl, .inl rfl, rfl⟩
  | boot access =>
    cases h
    exact .inl ⟨rfl, .inr rfl, rfl⟩
  | main a =>
    cases h
    obtain hquiet | ⟨preferTls, hserves⟩ := mainStep_cases libs a w
    · exact .inl hquiet
    · exact .inr ⟨a, preferTls, rfl, hserves⟩

theorem start_true {now : Int} {hosts : Text} {d : Disk} : start libs a now true hosts d =
    (⟨true, if certValid now (renew libs a now hosts d).2 && libs.isValid
        (renew libs a now hosts d).2.cert (renew libs a now hosts d).2.key then
          (renew libs a now hosts d).2.cert else none⟩,
      (renew libs a now hosts d).2, (renew libs a now hosts d).1) := by
  rw [start, if_pos rfl]
  dsimp only
  split
  · rfl
  · rfl

def starts (out : List Event) : List Start := out.filterMap Event.start

def lastStart (out : List Event) : Option Start := (starts out).getLast?

def lastMade (out : List Event) : Option Start := (starts out).foldl latest none

/-- What every start keeps of the disk, and what it says about a server that prefers TLS, holds in
every run of the main thread. -/
theorem run_start {P : Option Start → Disk → Prop} {Q : Option Start → Server → Start → Prop}
    {actions : List Action} (hdisk : P none w.disk) (hmain : w.main.webServer = none)
    (hstart : ∀ a, .main a ∈ actions → ∀ now hosts made d, P made d →
      P (latest made (startOf libs a now hosts d)) (renew libs a now hosts d).2 ∧
        Q (latest made (startOf libs a now hosts d)) (start libs a now true hosts d).1
          (startOf libs a now hosts d))
    (h : Runs (step libs) w actions w' out) :
    P (lastMade out) w'.disk ∧ ∀ s, w'.main.webServer = some s →
      s = ⟨false, none⟩ ∨
        s.preferTls = true ∧ ∃ e, lastStart out = some e ∧ Q (lastMade out) s e := by
  induction h with
  | start =>
    refine ⟨hdisk, fun s hs => ?_⟩
    rw [hmain] at hs
    cases hs
  | step h hstep ih =>
    rename_i actions action s s' out out'
    obtain ⟨hP, hQ⟩ := ih fun a ha => hstart a (List.mem_append_left _ ha)
    rw [lastMade, lastStart, starts, List.filterMap_append]
    obtain ⟨hsame, hserver, hnone⟩ | ⟨a, preferTls, haction, hserves⟩ := step_cases hstep
    · rw [hnone, List.append_nil]
      refine ⟨hsame ▸ hP, fun t ht => ?_⟩
      obtain hserver | hserver := hserver
      · exact hQ t (hserver ▸ ht)
      · rw [hserver] at ht
        cases ht
    · have hnext := hstart a (by simp [haction]) s.now s.hosts (lastMade out) s.disk hP
      cases preferTls with
      | false =>
        obtain ⟨hsame, hserver, hnone⟩ := hserves
        rw [hnone, if_neg Bool.false_ne_true, List.append_nil]
        refine ⟨hsame ▸ hP, fun t ht => .inl ?_⟩
        obtain hgone | hserver := hserver
        · rw [hgone] at ht
          cases ht
        · exact (Option.some.inj (hserver.symm.trans ht)).symm
      | true =>
        rw [Serves, start_true] at hserves
        rw [start_true] at hnext
        obtain ⟨hsame, hserver, hevent⟩ := hserves
        rw [hevent, if_pos rfl, List.foldl_concat, List.getLast?_concat]
        refine ⟨hsame ▸ hnext.1, fun t ht => .inr ?_⟩
        obtain hgone | hserver := hserver
        · rw [hgone] at ht
          cases ht
        · obtain rfl := Option.some.inj (hserver.symm.trans ht)
          exact ⟨rfl, _, rfl, hnext.2⟩

end Runs

section Clock

variable {libs : Libraries} {w w' : World} {out : List Event} {actions : List Action}

def Action.time : Action → Option Int
  | .clock now => some now
  | .put .. | .shutdown | .boot _ | .main _ => none

/-- The clock does not go back. -/
def Forward (now : Int) (actions : List Action) : Prop :=
  (now :: actions.filterMap Action.time).Pairwise (· ≤ ·)

theorem mainStep_now (w : World) (a : Answers) : (mainStep libs w a).1.now = w.now := by
  rw [mainStep]
  split
  · rfl
  · rfl
  · split
    · rfl
    · dsimp only
      split
      · rfl
      · rfl
  · rfl

theorem step_now {action : Action} (h : step libs w action = (w', out, none)) :
    w'.now = action.time.getD w.now := by
  cases action with
  | main a =>
    cases h
    exact mainStep_now w a
  | put access body =>
    cases h
    rfl
  | clock now =>
    cases h
    rfl
  | shutdown =>
    cases h
    rfl
  | boot access =>
    cases h
    rfl

theorem step_starts {action : Action} (h : step libs w action = (w', out, none)) :
    starts out = [] ∨ ∃ e, starts out = [e] ∧ e.now = w.now := by
  obtain ⟨_, _, hnone⟩ | ⟨a, preferTls, _, _, _, hevent⟩ := step_cases h
  · exact .inl hnone
  · cases preferTls with
    | false => exact .inl hevent
    | true => exact .inr ⟨_, hevent, rfl⟩

theorem run_forward (h : Runs (step libs) w actions w' out) (hforward : Forward w.now actions) :
    w'.now ∈ w.now :: actions.filterMap Action.time ∧
      (∀ m, lastMade out = some m → m.now ≤ w'.now) ∧
        ∀ e, lastStart out = some e →
          w.now ≤ e.now ∧ ∀ m, lastMade out = some m → m.now ≤ e.now := by
  induction h with
  | start =>
    refine ⟨List.mem_cons_self, fun m hm => ?_, fun e he => ?_⟩
    · cases hm
    · cases he
  | step h hstep ih =>
    rename_i actions action s s' out out'
    rw [Forward, List.filterMap_append, ← List.cons_append, List.pairwise_append] at hforward
    obtain ⟨hbefore, _, hlast⟩ := hforward
    obtain ⟨hmem, hmade, hstart⟩ := ih hbefore
    have hnow := step_now hstep
    have hlater : s.now ≤ s'.now ∧
        s'.now ∈ w.now :: (actions ++ [action]).filterMap Action.time := by
      rw [List.filterMap_append, ← List.cons_append, hnow]
      cases htime : action.time with
      | none => exact ⟨Int.le_refl _, List.mem_append_left _ hmem⟩
      | some now =>
        have hsingle : now ∈ [action].filterMap Action.time := by simp [htime]
        exact ⟨hlast s.now hmem now hsingle, List.mem_append_right _ hsingle⟩
    have hfirst : w.now ≤ s.now := by
      obtain heq | hmem := List.mem_cons.mp hmem
      · exact Int.le_of_eq heq.symm
      · exact (List.pairwise_cons.mp hbefore).1 s.now hmem
    refine ⟨hlater.2, ?_⟩
    rw [lastMade, lastStart, starts, List.filterMap_append]
    obtain hnone | ⟨e, hevent, he⟩ := step_starts hstep
    · rw [← starts, ← starts, hnone, List.append_nil]
      exact ⟨fun m hm => Int.le_trans (hmade m hm) hlater.1, hstart⟩
    · rw [← starts, ← starts, hevent, List.foldl_concat, List.getLast?_concat]
      have hnew : ∀ m, latest (lastMade out) e = some m → m.now ≤ s.now := by
        intro m hm
        rw [latest] at hm
        split at hm
        · obtain rfl := Option.some.inj hm
          exact Int.le_of_eq he
        · exact hmade m hm
      refine ⟨fun m hm => Int.le_trans (hnew m hm) hlater.1, fun e' he' => ?_⟩
      obtain rfl := Option.some.inj he'
      rw [he]
      exact ⟨hfirst, hnew⟩

end Clock

section Shown

variable {libs : Libraries} {w w' : World} {out : List Event} {actions : List Action}

/-- The certificate has the names that OpenSSL reads in the list of localhost, 127.0.0.1, the address
of the time when it was made and the hosts, or no names if it takes no such list. -/
def Names (libs : Libraries) (m : Start) (x : Certificate) : Prop :=
  ∃ text : Text, text.splitOn ',' = altNames m.ip.1 m.hosts ∧ x.subjectAltName = libs.conf text

/-- The certificate is the last that was made, and is for these hosts, or none was made, and it is the
one of the first disk, where these hosts were recorded. -/
def ShownFor (libs : Libraries) (d₀ : Disk) (out : List Event) (hosts : Text) (x : Certificate) :
    Prop :=
  (∃ m, lastMade out = some m ∧ m.hosts = hosts ∧ Names libs m x) ∨
    lastMade out = none ∧ d₀.cert = some x ∧ d₀.hosts = hosts

theorem Origin.shownFor {d₀ : Disk} {hosts : Text} {x : Certificate}
    (h : Origin libs d₀ (lastMade out) hosts x) (hnul : '\x00' ∉ hosts) :
    ShownFor libs d₀ out hosts x := by
  obtain ⟨m, pkey, hmade, rfl, rfl⟩ | hfirst := h
  · refine .inl ⟨m, hmade, rfl, san m.ip.1 m.hosts, splitOn_san m.ip m.hosts, ?_⟩
    exact congrArg libs.conf (cStr_san m.ip hnul)
  · exact .inr hfirst

def panel : World × List Event := run openSsl { store := SettingsPage.fresh }
  [putOne .webCertHosts "cnc-panel", .main works]

def panelCert : Certificate where
  cn := some (lit "cnc-panel")
  subjectAltName := some [.dns (lit "localhost"), .ip [127, 0, 0, 1], .ip [172, 17, 0, 2],
    .dns (lit "cnc-panel")]
  notBefore := -86400
  notAfter := 31536000
  key := 0

theorem webServer_panel : panel.1.main.webServer = some ⟨true, some panelCert⟩ := by decide +kernel

end Shown

section Switch

variable {libs : Libraries} {a : Answers} {w w' : World} {out : List Event} {actions : List Action}

def readings (out : List Event) : List Bool := out.filterMap Event.reading

variable (libs w a) in
theorem serve_cases (preferTls : Bool) (next : Option Server → Main) :
    readings (.wants preferTls :: (w.serve libs a preferTls next).2) = [preferTls] ∧
      ∃ webServer, (w.serve libs a preferTls next).1.main = next webServer ∧
        ∀ s, webServer = some s → s.preferTls = preferTls := by
  rw [World.serve]
  refine ⟨?_, _, rfl, fun s hs => ?_⟩
  · cases preferTls with
    | true => rfl
    | false => rfl
  · cases hfails : a.fails with
    | true => rw [hfails] at hs; cases hs
    | false =>
      rw [hfails] at hs
      obtain rfl := Option.some.inj hs
      cases preferTls with
      | true => rw [start_true]
      | false => rfl

/-- What is known of the server when the main thread has read these modes: until a poll reads another
one than the second, it has the first. -/
def Follows (readings : List Bool) : Main → Prop
  | .starting => readings = []
  | .serving webServer => ∃ first, readings = [first] ∧ ∀ s, webServer = some s → s.preferTls = first
  | .polling webServer tlsWanted => ∃ first second polls, readings = first :: second :: polls ∧
      ∀ s, webServer = some s → readings.getLast? = some tlsWanted ∧
        if ∀ p ∈ polls, p = second then s.preferTls = first else s.preferTls = tlsWanted
  | .ended => True

theorem eq_second {first second tlsWanted : Bool} {polls : List Bool}
    (hlast : (first :: second :: polls).getLast? = some tlsWanted)
    (hall : ∀ p ∈ polls, p = second) : tlsWanted = second := by
  rw [List.getLast?_cons_cons] at hlast
  obtain rfl | hmem := List.mem_cons.mp (List.mem_of_getLast? hlast)
  · rfl
  · exact hall tlsWanted hmem

theorem follows_poll {bs : List Bool} {webServer webServer' : Option Server}
    {tlsWanted nowWanted : Bool} (h : Follows bs (.polling webServer tlsWanted))
    (hpoll : ∀ s, webServer' = some s → ∃ t, webServer = some t ∧
      if nowWanted = tlsWanted then s = t else s.preferTls = nowWanted) :
    Follows (bs ++ [nowWanted]) (.polling webServer' nowWanted) := by
  obtain ⟨first, second, polls, rfl, hserver⟩ := h
  refine ⟨first, second, polls ++ [nowWanted], rfl, fun s hs => ?_⟩
  obtain ⟨t, ht, hst⟩ := hpoll s hs
  obtain ⟨hlast, hmode⟩ := hserver t ht
  refine ⟨List.getLast?_concat, ?_⟩
  by_cases hsame : nowWanted = tlsWanted
  · rw [if_pos hsame] at hst
    subst hst hsame
    by_cases hall : ∀ p ∈ polls, p = second
    · have hall' : ∀ p ∈ polls ++ [nowWanted], p = second := by
        intro p hp
        obtain hp | hp := List.mem_append.mp hp
        · exact hall p hp
        · exact (List.mem_singleton.mp hp).trans (eq_second hlast hall)
      rw [if_pos hall] at hmode
      rwa [if_pos hall']
    · have hall' : ¬∀ p ∈ polls ++ [nowWanted], p = second :=
        fun h => hall fun p hp => h p (List.mem_append_left _ hp)
      rw [if_neg hall] at hmode
      rwa [if_neg hall']
  · rw [if_neg hsame] at hst
    have hall' : ¬∀ p ∈ polls ++ [nowWanted], p = second := by
      intro h
      have hsecond := eq_second hlast fun p hp => h p (List.mem_append_left _ hp)
      exact hsame ((h nowWanted (by simp)).trans hsecond.symm)
    rwa [if_neg hall']

theorem follows_mainStep {bs : List Bool} (h : Follows bs w.main) :
    Follows (bs ++ readings (mainStep libs w a).2) (mainStep libs w a).1.main := by
  rw [mainStep]
  split
  · rename_i hmain
    rw [hmain] at h
    obtain rfl : bs = [] := h
    obtain ⟨hreads, webServer, hnext, hserver⟩ := serve_cases libs a w w.useTls .serving
    dsimp only
    rw [hreads, hnext]
    exact ⟨w.useTls, rfl, hserver⟩
  · rename_i webServer hmain
    rw [hmain] at h
    obtain ⟨first, rfl, hserver⟩ := h
    refine ⟨first, w.useTls, [], rfl, fun s hs => ⟨rfl, ?_⟩⟩
    rw [if_pos (List.forall_mem_nil _)]
    exact hserver s hs
  · rename_i webServer tlsWanted hmain
    rw [hmain] at h
    by_cases hshutdown : w.shutdownRequested = true
    · rw [if_pos hshutdown]
      trivial
    · rw [if_neg hshutdown]
      by_cases hswitch : (webServer.isSome && w.useTls != tlsWanted) = true
      · rw [if_pos hswitch]
        obtain ⟨hsome, hother⟩ := Bool.and_eq_true_iff.mp hswitch
        obtain ⟨t, ht⟩ := Option.isSome_iff_exists.mp hsome
        obtain ⟨hreads, webServer', hnext, hserver⟩ := serve_cases libs a w w.useTls fun
          | some s => .polling (some s) w.useTls
          | none => .ended
        dsimp only
        rw [hreads, hnext]
        cases webServer' with
        | none => trivial
        | some s =>
          refine follows_poll h fun s' hs' => ⟨t, ht, ?_⟩
          rw [if_neg (by simpa using hother)]
          exact hserver s' hs'
      · rw [if_neg hswitch]
        dsimp only
        rw [hmain]
        cases webServer with
        | none =>
          obtain ⟨first, second, polls, rfl, _⟩ := h
          exact ⟨first, second, polls ++ [w.useTls], rfl, fun s hs => by cases hs⟩
        | some s =>
          have hsame : w.useTls = tlsWanted := by simpa using hswitch
          have hnext := follows_poll h fun s' hs' => ⟨s, rfl, by
            rw [if_pos hsame]
            exact (Option.some.inj hs').symm⟩
          rw [hsame] at hnext ⊢
          exact hnext
  · rename_i hmain
    rw [hmain]
    trivial

theorem follows_run (h : Runs (step libs) w actions w' out) (hmain : w.main = .starting)
    (hboot : ∀ access, .boot access ∉ actions) : Follows (readings out) w'.main := by
  induction h with
  | start =>
    rw [hmain]
    rfl
  | step h hstep ih =>
    rename_i actions action s s' out out'
    have hs := ih fun access hmem => hboot access (List.mem_append_left _ hmem)
    rw [readings, List.filterMap_append]
    cases action with
    | main a =>
      cases hstep
      exact follows_mainStep hs
    | boot access => exact absurd (by simp) (hboot access)
    | put access body =>
      cases hstep
      rwa [List.filterMap_nil, List.append_nil]
    | clock now =>
      cases hstep
      rwa [List.filterMap_nil, List.append_nil]
    | shutdown =>
      cases hstep
      rwa [List.filterMap_nil, List.append_nil]

/-- After any polls, the server has the mode that was read last, if and only if the thread read the
same mode before it started the server and before its loop, or has polled another one since. -/
theorem follows_iff (hruns : Runs (step libs) w actions w' out) (hmain : w.main = .starting)
    (hboot : ∀ access, .boot access ∉ actions) {s : Server} {tlsWanted : Bool}
    (hs : w'.main = .polling (some s) tlsWanted) :
    ∃ first second polls, readings out = first :: second :: polls ∧
      (readings out).getLast? = some tlsWanted ∧
        (s.preferTls = tlsWanted ↔ first = second ∨ ∃ p ∈ polls, p ≠ second) := by
  have hfollows := follows_run hruns hmain hboot
  rw [hs] at hfollows
  obtain ⟨first, second, polls, hreads, hserver⟩ := hfollows
  obtain ⟨hlast, hmode⟩ := hserver s rfl
  refine ⟨first, second, polls, hreads, hlast, ?_⟩
  by_cases hall : ∀ p ∈ polls, p = second
  · rw [hreads] at hlast
    rw [if_pos hall] at hmode
    rw [hmode, eq_second hlast hall]
    constructor
    · exact .inl
    · rintro (hfirst | ⟨p, hp, hne⟩)
      · exact hfirst
      · exact absurd (hall p hp) hne
  · rw [if_neg hall] at hmode
    have hother : ∃ p ∈ polls, p ≠ second := by
      simpa only [not_forall, exists_prop] using hall
    exact ⟨fun _ => .inr hother, fun _ => hmode⟩

def raced : World × List Event := run openSsl { store := SettingsPage.fresh }
  [.main works, putOne .webUseTls "0", .main works, .main works]

theorem follows_iff_raced : ∃ first second polls, readings raced.2 = first :: second :: polls ∧
    ¬(first = second ∨ ∃ p ∈ polls, p ≠ second) := by
  have hmain : raced.1.main =
      .polling (some ⟨true, some (x509 openSsl works.ip.1 0 [] 0)⟩) false := by
    decide +kernel
  obtain ⟨first, second, polls, hreads, _, hiff⟩ :=
    follows_iff (runs_run openSsl _ _) rfl (by simp [putOne]) hmain
  exact ⟨first, second, polls, hreads, fun h => Bool.noConfusion (hiff.mpr h)⟩

end Switch

end Datenbereitstellung.WebServer
