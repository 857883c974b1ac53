import Datenbereitstellung.DroppedProjects
import Datenbereitstellung.Lib.Paths

namespace Datenbereitstellung.OpenedProjects

open Strings Files OpcUa ProjectManager Lib.Program
open DroppedProjects (tapFiles projectNames_eq)
open ProjectFileReader (countRecords)

section Names

/-- What can be the name of a directory entry. -/
structure Plain (name : Text) : Prop where
  ne_nil : name ≠ []
  ne_dot : name ≠ ['.']
  ne_dots : name ≠ ['.', '.']
  no_separator : '/' ∉ name
  no_nul : '\x00' ∉ name

def tap : Text := ['.', 't', 'a', 'p']

theorem plain_of_extension {name : Text} (hextension : extension name = tap) (hsep : '/' ∉ name)
    (hnul : '\x00' ∉ name) : Plain name where
  ne_nil := by
    intro h
    subst h
    cases hextension
  ne_dot := by
    intro h
    subst h
    cases hextension
  ne_dots := by
    intro h
    subst h
    cases hextension
  no_separator := hsep
  no_nul := hnul

theorem mem_tapFiles {es : List DirEntry} {name : Text} :
    name ∈ tapFiles es ↔
      extension name = tap ∧ ∃ entry ∈ es, entry.isRegularFile = true ∧ entry.filename = name := by
  unfold tapFiles
  simp only [List.mem_map, List.mem_filter, Bool.and_eq_true, beq_iff_eq]
  constructor
  · intro ⟨entry, ⟨hentry, hregular, hextension⟩, hname⟩
    refine ⟨?_, entry, hentry, hregular, hname⟩
    rwa [← hname]
  · intro ⟨hextension, entry, hentry, hregular, hname⟩
    refine ⟨entry, ⟨hentry, hregular, ?_⟩, hname⟩
    rwa [hname]

end Names

section Host

/-- The files of a host. `lookup` follows one component of a path, which may be a link, empty or
dots; `listing` has the other names of a directory. They are compared byte by byte, and a
`size_t` can count them. -/
structure Tree (ι : Type) where
  root : ι
  workingDirectory : ι
  kind : ι → FileKind
  content : ι → Option Text
  lookup : ι → Text → Option ι
  listing : ι → List DirEntry
  plain_of_mem : ∀ d, ∀ entry ∈ listing d, Plain entry.filename
  exists_entry : ∀ d name i, lookup d name = some i → Plain name →
    ∃ entry ∈ listing d, entry.filename = name
  isRegularFile_iff : ∀ d, ∀ entry ∈ listing d, ∀ i, lookup d entry.filename = some i →
    (entry.isRegularFile = true ↔ kind i = .regular)
  length_listing_lt : ∀ d, (listing d).length < 2 ^ 64

variable {ι : Type}

/-- The system calls get the path as a C string. -/
def Tree.resolve (t : Tree ι) (path : Text) : Option ι :=
  Lib.Paths.resolve '/' t.lookup t.root t.workingDirectory (cStr path)

/-- A file system with the files behind it. Where it answers, it answers what is there; it may
also fail, for a path that is too long or a folder that must not be read. -/
structure Host (ι : Type) extends FileSystem where
  tree : Tree ι
  exists_of_status : ∀ path k, status path = .ok (some k) →
    ∃ i, tree.resolve path = some i ∧ tree.kind i = k
  exists_of_content : ∀ path c, content path = some c →
    ∃ i, tree.resolve path = some i ∧ tree.content i = some c
  exists_of_entries : ∀ path es, entries path = .ok es →
    ∃ d, tree.resolve path = some d ∧ tree.listing d = es ∧ status path = .ok (some .directory)

/-- The file system that answers always. -/
def Tree.host (t : Tree ι) : Host ι where
  status path := .ok ((t.resolve path).map t.kind)
  content path := (t.resolve path).bind t.content
  entries path := match t.resolve path with
    | some d => if t.kind d = .directory then .ok (t.listing d) else .error (lit "Not a directory")
    | none => .error (lit "No such file or directory")
  tree := t
  exists_of_status path k h := by
    apply Option.map_eq_some_iff.mp
    exact Except.ok.inj h
  exists_of_content path c h := by
    exact Option.bind_eq_some_iff.mp h
  exists_of_entries path es h := by
    cases hd : t.resolve path with
    | none =>
      simp only [hd] at h
      cases h
    | some d =>
      simp only [hd] at h
      by_cases hkind : t.kind d = .directory
      · rw [if_pos hkind] at h
        refine ⟨d, rfl, Except.ok.inj h, ?_⟩
        rw [← hkind]
        rfl
      · rw [if_neg hkind] at h
        cases h

theorem cStr_projectPath (basePath projectName : Text) :
    cStr (projectPath basePath projectName) =
      if '\x00' ∈ basePath then cStr basePath else basePath ++ '/' :: cStr projectName := by
  unfold projectPath cStr
  rw [List.takeWhile_append]
  by_cases h : '\x00' ∈ basePath
  · have hlen : (basePath.takeWhile fun c => c != '\x00').length ≠ basePath.length := by
      intro hlen
      exact (cStr_eq_self_iff basePath).mp ((List.takeWhile_prefix _).eq_of_length hlen) h
    rw [if_neg hlen, if_pos h]
  · have hself : cStr basePath = basePath := (cStr_eq_self_iff basePath).mpr h
    unfold cStr at hself
    rw [hself, if_pos rfl, if_neg h, List.takeWhile_cons_of_pos (by decide)]

theorem Tree.resolve_nil (t : Tree ι) : t.resolve [] = none := rfl

theorem Tree.resolve_projectPath (t : Tree ι) {basePath projectName : Text} {d : ι}
    (hbase : t.resolve basePath = some d) (hnul : '\x00' ∉ basePath) (hname : Plain projectName) :
    t.resolve (projectPath basePath projectName) = t.lookup d projectName := by
  have hne : basePath ≠ [] := by
    intro h
    rw [h, t.resolve_nil] at hbase
    cases hbase
  unfold Tree.resolve at hbase ⊢
  rw [(cStr_eq_self_iff basePath).mpr hnul] at hbase
  rw [cStr_projectPath, if_neg hnul, (cStr_eq_self_iff projectName).mpr hname.no_nul,
    Lib.Paths.resolve_append_cons_of_not_mem hne hname.no_separator, hbase]
  rfl

end Host

section Calls

def Tells (fs : FileSystem) : (q : Req) → Ans q → Prop
  | .status path, a => a = fs.status path
  | .entries path, a => a = fs.entries path
  | .openFile path, a => a = fs.content path
  | _, _ => True

/-- Something stands at the path, and an `ifstream` can open it. -/
def Openable (fs : FileSystem) (path : Text) : Prop :=
  (∃ kind, fs.status path = .ok (some kind)) ∧ ∃ content, fs.content path = some content

variable {fs : FileSystem} {basePath projectName : Text} {tr : List (Called Req Ans)}

theorem runsBy_getProjectInfo {info : ProjectInfo}
    (h : Prog.RunsBy (Tells fs) (getProjectInfo basePath projectName) tr (some info)) :
    info.filePath = projectPath basePath projectName ∧
      Openable fs (projectPath basePath projectName) := by
  obtain ⟨found, tr₁, hfound, -, h₁⟩ := Prog.runsBy_call h
  cases found with
  | error e => cases h₁
  | ok found =>
    cases found with
    | none => cases h₁
    | some kind =>
      obtain ⟨opened, tr₂, hopened, -, h₂⟩ := Prog.runsBy_call h₁
      cases opened with
      | none => cases h₂
      | some content =>
        cases h₂
        exact ⟨rfl, ⟨kind, hfound.symm⟩, content, hopened.symm⟩

theorem runsBy_getProjectInfo_of_openable {kind : FileKind} {content : Text}
    (hkind : fs.status (projectPath basePath projectName) = .ok (some kind))
    (hcontent : fs.content (projectPath basePath projectName) = some content) :
    Prog.RunsBy (Tells fs) (getProjectInfo basePath projectName)
      [⟨.status (projectPath basePath projectName), .ok (some kind)⟩,
        ⟨.openFile (projectPath basePath projectName), some content⟩]
      (some ⟨projectName, projectPath basePath projectName, countRecords content, true⟩) := by
  apply Prog.RunsBy.call _ hkind.symm
  apply Prog.RunsBy.call _ hcontent.symm
  apply Prog.RunsBy.ret

theorem runsBy_listProjects {maxCount : Int} {names : List Text}
    (h : Prog.RunsBy (Tells fs) (listProjects basePath maxCount) tr names) :
    ∃ es, fs.entries basePath = .ok es ∧ names = projectNames es maxCount := by
  obtain ⟨found, tr₁, -, -, h₁⟩ := Prog.runsBy_call h
  cases found with
  | error e => cases h₁
  | ok found =>
    cases found with
    | none => cases h₁
    | some kind =>
      obtain ⟨listed, tr₂, hlisted, -, h₂⟩ := Prog.runsBy_call h₁
      cases listed with
      | error e => cases h₂
      | ok es =>
        cases h₂
        exact ⟨es, hlisted.symm, rfl⟩

theorem runsBy_listProjects_of_entries {kind : FileKind} {es : List DirEntry}
    (hstatus : fs.status basePath = .ok (some kind)) (hentries : fs.entries basePath = .ok es)
    (maxCount : Int) :
    Prog.RunsBy (Tells fs) (listProjects basePath maxCount)
      [⟨.status basePath, .ok (some kind)⟩, ⟨.entries basePath, .ok es⟩]
      (projectNames es maxCount) := by
  apply Prog.RunsBy.call _ hstatus.symm
  apply Prog.RunsBy.call _ hentries.symm
  apply Prog.RunsBy.ret

end Calls

section Statement

/-- The project is a regular file that lies in the folder itself and has the right extension: one
of the names that are listed if the limit is large enough. -/
structure Listed (fs : FileSystem) (basePath projectName : Text) (info : ProjectInfo) : Prop where
  regular : fs.status info.filePath = .ok (some .regular)
  direct : ∃ es, fs.entries basePath = .ok es ∧ ∃ entry ∈ es,
    info.filePath = projectPath basePath entry.filename ∧ extension entry.filename = tap
  listed : ∃ maxCount tr names,
    Prog.RunsBy (Tells fs) (listProjects basePath maxCount) tr names ∧ projectName ∈ names

/-- Only listed projects can be opened. -/
def OnlyListed (fs : FileSystem) (basePath projectName : Text) : Prop :=
  ∀ tr info, Prog.RunsBy (Tells fs) (getProjectInfo basePath projectName) tr (some info) →
    Listed fs basePath projectName info

variable {ι : Type} {basePath projectName : Text}

theorem projectNames_length {es : List DirEntry} (h : es.length < 2 ^ 64) :
    projectNames es es.length = tapFiles es := by
  have hlen : (tapFiles es).length ≤ es.length := by
    unfold tapFiles
    rw [List.length_map]
    exact List.length_filter_le _ _
  have hsize : toSize es.length = es.length := by
    unfold toSize
    omega
  rw [projectNames_eq, List.take_of_length_le]
  omega

theorem not_nul_of_entries (host : Host ι) {es : List DirEntry}
    (hentries : host.entries basePath = .ok es)
    (hstatus : host.status (projectPath basePath projectName) = .ok (some .regular)) :
    '\x00' ∉ basePath := by
  intro h
  obtain ⟨d, -, -, hfolder⟩ := host.exists_of_entries basePath es hentries
  obtain ⟨i, hi, hdirectory⟩ := host.exists_of_status _ _ hfolder
  obtain ⟨j, hj, hregular⟩ := host.exists_of_status _ _ hstatus
  have hsame : host.tree.resolve (projectPath basePath projectName) =
      host.tree.resolve basePath := by
    unfold Tree.resolve
    rw [cStr_projectPath, if_pos h]
  rw [hsame, hi] at hj
  cases hj
  rw [hregular] at hdirectory
  cases hdirectory

theorem mem_tapFiles_of_status (host : Host ι) {es : List DirEntry}
    (hentries : host.entries basePath = .ok es)
    (hstatus : host.status (projectPath basePath projectName) = .ok (some .regular))
    (hextension : extension projectName = tap) (hsep : '/' ∉ projectName)
    (hnul : '\x00' ∉ projectName) : projectName ∈ tapFiles es := by
  have hplain : Plain projectName := plain_of_extension hextension hsep hnul
  have hbase : '\x00' ∉ basePath := not_nul_of_entries host hentries hstatus
  obtain ⟨d, hd, rfl, -⟩ := host.exists_of_entries basePath es hentries
  obtain ⟨i, hi, hregular⟩ := host.exists_of_status _ _ hstatus
  rw [host.tree.resolve_projectPath hd hbase hplain] at hi
  obtain ⟨entry, hentry, hname⟩ := host.tree.exists_entry d projectName i hi hplain
  rw [← hname] at hi
  rw [mem_tapFiles]
  exact ⟨hextension, entry, hentry,
    (host.tree.isRegularFile_iff d entry hentry i hi).mpr hregular, hname⟩

/-- Only listed projects can be opened exactly if nothing can be opened, or the name is that of a
regular project file, without separators, in a folder that can be read. -/
theorem onlyListed_iff (host : Host ι) (basePath projectName : Text) :
    OnlyListed host.toFileSystem basePath projectName ↔
      (Openable host.toFileSystem (projectPath basePath projectName) →
        '/' ∉ projectName ∧ '\x00' ∉ projectName ∧ extension projectName = ['.', 't', 'a', 'p'] ∧
        host.status (projectPath basePath projectName) = .ok (some .regular) ∧
        ∃ es, host.entries basePath = .ok es) := by
  constructor
  · intro h hopen
    obtain ⟨⟨kind, hkind⟩, content, hcontent⟩ := hopen
    have hlisted := h _ _ (runsBy_getProjectInfo_of_openable hkind hcontent)
    obtain ⟨hregular, -, maxCount, tr, names, hlist, hmem⟩ := hlisted
    obtain ⟨es, hentries, rfl⟩ := runsBy_listProjects hlist
    obtain ⟨d, -, rfl, -⟩ := host.exists_of_entries basePath es hentries
    rw [projectNames_eq] at hmem
    obtain ⟨hextension, entry, hentry, -, rfl⟩ := mem_tapFiles.mp (List.mem_of_mem_take hmem)
    have hplain : Plain entry.filename := host.tree.plain_of_mem d entry hentry
    exact ⟨hplain.no_separator, hplain.no_nul, hextension, hregular, _, hentries⟩
  · intro h tr info hrun
    obtain ⟨hpath, hopen⟩ := runsBy_getProjectInfo hrun
    obtain ⟨hsep, hnul, hextension, hregular, es, hentries⟩ := h hopen
    have hmem : projectName ∈ tapFiles es :=
      mem_tapFiles_of_status host hentries hregular hextension hsep hnul
    obtain ⟨-, entry, hentry, -, hname⟩ := mem_tapFiles.mp hmem
    obtain ⟨d, -, hd, hfolder⟩ := host.exists_of_entries basePath es hentries
    have hlen : es.length < 2 ^ 64 := by
      rw [← hd]
      exact host.tree.length_listing_lt d
    have hlist := runsBy_listProjects_of_entries hfolder hentries es.length
    rw [projectNames_length hlen] at hlist
    constructor
    case regular => rwa [hpath]
    case direct =>
      refine ⟨es, hentries, entry, hentry, ?_, ?_⟩
      · rw [hpath, hname]
      · rwa [hname]
    case listed => exact ⟨_, _, _, hlist, hmem⟩

/-- A folder `/p` without files, beside a file `/g`. -/
inductive Place
  | root
  | folder
  | secret

def Place.lookup : Place → Text → Option Place
  | .root, ['p'] => some .folder
  | .root, ['g'] => some .secret
  | .root, [] => some .root
  | .root, ['.'] => some .root
  | .root, ['.', '.'] => some .root
  | .folder, [] => some .folder
  | .folder, ['.'] => some .folder
  | .folder, ['.', '.'] => some .root
  | _, _ => none

def Place.kind : Place → FileKind
  | .secret => .regular
  | _ => .directory

def Place.listing : Place → List DirEntry
  | .root => [⟨['p'], false⟩, ⟨['g'], true⟩]
  | _ => []

def twoFiles : Tree Place where
  root := .root
  workingDirectory := .root
  kind := Place.kind
  content
    | .secret => some ['x']
    | _ => some []
  lookup := Place.lookup
  listing := Place.listing
  plain_of_mem d entry hentry := by
    cases d with
    | root =>
      obtain rfl | rfl : entry = ⟨['p'], false⟩ ∨ entry = ⟨['g'], true⟩ := by
        simpa [Place.listing] using hentry
      · constructor <;> decide
      · constructor <;> decide
    | folder => cases hentry
    | secret => cases hentry
  exists_entry d name i h hplain := by
    unfold Place.lookup at h
    split at h
    · exact ⟨_, .head _, rfl⟩
    · exact ⟨_, .tail _ (.head _), rfl⟩
    · exact absurd rfl hplain.ne_nil
    · exact absurd rfl hplain.ne_dot
    · exact absurd rfl hplain.ne_dots
    · exact absurd rfl hplain.ne_nil
    · exact absurd rfl hplain.ne_dot
    · exact absurd rfl hplain.ne_dots
    · cases h
  isRegularFile_iff d entry hentry i h := by
    cases d with
    | root =>
      obtain rfl | rfl : entry = ⟨['p'], false⟩ ∨ entry = ⟨['g'], true⟩ := by
        simpa [Place.listing] using hentry
      · cases h
        decide
      · cases h
        decide
    | folder => cases hentry
    | secret => cases hentry
  length_listing_lt d := by cases d <;> decide

theorem not_onlyListed_outside : ¬∀ (ι : Type) (host : Host ι) (basePath projectName : Text),
    OnlyListed host.toFileSystem basePath projectName := by
  intro h
  have hkind : twoFiles.host.status (projectPath ['/', 'p'] ['.', '.', '/', 'g']) =
      .ok (some .regular) := rfl
  have hcontent : twoFiles.host.content (projectPath ['/', 'p'] ['.', '.', '/', 'g']) =
      some ['x'] := rfl
  have hrun := runsBy_getProjectInfo_of_openable hkind hcontent
  obtain ⟨es, hentries, entry, hentry, -⟩ := (h Place twoFiles.host _ _ _ _ hrun).direct
  cases hentries
  cases hentry

end Statement

end Datenbereitstellung.OpenedProjects
