/-
Which file a configuration is loaded from.

The candidates stand in an order, and the search asks of each no more than whether it is a
regular file.  So it is the first one that is, and what is read of it is the only thing about the
files that is looked at: a file that is chosen and cannot be used is a failure, and no candidate
behind it can change that.
-/
import Mathlib.Data.List.Find
import Salutation.Config.Discovery

namespace Salutation.Config

/-! ### Loading a file -/

/-- Why a file that has been chosen cannot be used, and the failure that says so. -/
inductive Unusable (files : Files) (path : Path) : Failure → Prop where
  | unreadable {error : IoError} (hfile : files path = .unreadable error) :
      Unusable files path (.io error)
  | notText {bytes : Bytes} (hfile : files path = .file bytes)
      (htext : Utf8.decode? bytes = none) : Unusable files path (.io .notText)
  | refused {bytes : Bytes} {text : List Char} {refusal : Toml.Refusal}
      (hfile : files path = .file bytes) (htext : Utf8.decode? bytes = some text)
      (hdocument : Toml.document text = .error refusal) :
      Unusable files path (.invalidConfig path text (.refused refusal))
  | misfit {bytes : Bytes} {text : List Char} {table : Toml.Table} {found : Misfit}
      (hfile : files path = .file bytes) (htext : Utf8.decode? bytes = some text)
      (hdocument : Toml.document text = .ok table) (htable : ofTable table = .error found) :
      Unusable files path (.invalidConfig path text (.misfit found))

section

variable {files : Files} {path : Path}

theorem load_of_unusable {failure : Failure} (h : Unusable files path failure) :
    load files path = .error failure := by
  cases h with
  | unreadable hfile => simp [load, Files.readText, Files.read, hfile]
  | notText hfile htext => simp [load, Files.readText, Files.read, hfile, htext]
  | refused hfile htext hdocument =>
      simp [load, Files.readText, Files.read, hfile, htext, parse, ofText, hdocument]
  | misfit hfile htext hdocument htable =>
      simp [load, Files.readText, Files.read, hfile, htext, parse, ofText, hdocument, htable]

/-- A regular file can be used or not, and there is one reason if not. -/
theorem load_ok_or_unusable (hfile : files.isFile path = true) :
    (∃ result, load files path = .ok result) ∨ ∃ failure, Unusable files path failure := by
  cases hentry : files path with
  | file bytes =>
      cases htext : Utf8.decode? bytes with
      | none => exact Or.inr ⟨_, .notText hentry htext⟩
      | some text =>
          cases hdocument : Toml.document text with
          | error refusal => exact Or.inr ⟨_, .refused hentry htext hdocument⟩
          | ok table =>
              cases htable : ofTable table with
              | error found => exact Or.inr ⟨_, .misfit hentry htext hdocument htable⟩
              | ok result =>
                  refine Or.inl ⟨(result.1, result.2.map (warn path (Text.lines text))), ?_⟩
                  simp [load, Files.readText, Files.read, hentry, htext, parse, ofText, hdocument,
                    htable]
  | unreadable error => exact Or.inr ⟨_, .unreadable hentry⟩
  | missing => simp [Files.isFile, hentry] at hfile
  | obstructed => simp [Files.isFile, hentry] at hfile
  | tooLong => simp [Files.isFile, hentry] at hfile
  | broken => simp [Files.isFile, hentry] at hfile
  | directory => simp [Files.isFile, hentry] at hfile

/-- Loading a regular file fails if and only if it cannot be used. -/
theorem load_error_iff {failure : Failure} (hfile : files.isFile path = true) :
    load files path = .error failure ↔ Unusable files path failure := by
  refine ⟨?_, load_of_unusable⟩
  intro h
  rcases load_ok_or_unusable hfile with ⟨result, hresult⟩ | ⟨found, hunusable⟩
  · rw [hresult] at h
    cases h
  · rw [load_of_unusable hunusable] at h
    cases h
    exact hunusable

/-- A file that holds the same loads to the same. -/
theorem load_congr {others : Files} (h : others path = files path) :
    load others path = load files path := by
  simp only [load, Files.readText, Files.read, h]

end

/-! ### The search -/

/-- The candidates in the order in which they are tried, each with the source that it is. -/
def ranking (environment : Environment) (explicit? : Option Path) (root : Path) :
    List (Path × Source) :=
  match explicit? with
  | some path => [(path, .explicit path)]
  | none =>
    (projectPath root, .project (projectPath root)) ::
      (userPath? environment).toList.map fun path => (path, .user path)

/-- The ranking is of the paths that matter for a run. -/
theorem ranking_paths (environment : Environment) (explicit? : Option Path) (root : Path) :
    (ranking environment explicit? root).map Prod.fst = candidates environment explicit? root := by
  cases explicit? with
  | some path => rfl
  | none => simp [ranking, candidates, Function.comp_def]

/-- What a source has been loaded to. -/
def loadAs (files : Files) (path : Path) (source : Source) : Except Failure Loaded :=
  (load files path).map fun result => ⟨result.1, source, result.2⟩

theorem loadFrom_eq_loadAs (files : Files) (source : Path → Source) (path : Path) :
    loadFrom files source path = loadAs files path (source path) := by
  unfold loadFrom loadAs
  cases load files path <;> rfl

/-- What is loaded if no candidate is a regular file. -/
def unfound (explicit? : Option Path) : Except Failure Loaded :=
  match explicit? with
  | some path => .error (.configNotFound path)
  | none => .ok ⟨{}, .defaults, []⟩

/-- **The search loads the first candidate that is a regular file.** -/
theorem discover_eq_find? (files : Files) (environment : Environment) (explicit? : Option Path)
    (root : Path) :
    discover files environment explicit? root =
      match (ranking environment explicit? root).find? fun candidate =>
          files.isFile candidate.1 with
      | some (path, source) => loadAs files path source
      | none => unfound explicit? := by
  unfold discover ranking
  cases explicit? with
  | some path => cases hfile : files.isFile path <;> simp [hfile, loadFrom_eq_loadAs, unfound]
  | none =>
      cases hproject : files.isFile (projectPath root) with
      | true => simp [hproject, loadFrom_eq_loadAs]
      | false =>
          cases userPath? environment with
          | none => simp [hproject, unfound]
          | some path =>
              cases huser : files.isFile path <;> simp [hproject, huser, loadFrom_eq_loadAs, unfound]

section

variable {files : Files} {environment : Environment} {explicit? : Option Path} {root path : Path}
  {source : Source} {before later : List (Path × Source)}

/-- Without a regular file among the candidates nothing is loaded. -/
theorem discover_of_no_file
    (hnone : ∀ candidate ∈ ranking environment explicit? root,
      files.isFile candidate.1 = false) :
    discover files environment explicit? root = unfound explicit? := by
  have hfind : (ranking environment explicit? root).find?
      (fun candidate => files.isFile candidate.1) = none := by
    simpa [List.find?_eq_none] using hnone
  rw [discover_eq_find?, hfind]

/-- A candidate that is a regular file is loaded if those before it are none. -/
theorem discover_of_first (hranking : ranking environment explicit? root =
      before ++ (path, source) :: later)
    (hbefore : ∀ candidate ∈ before, files.isFile candidate.1 = false)
    (hfile : files.isFile path = true) :
    discover files environment explicit? root = loadAs files path source := by
  have hfind : (ranking environment explicit? root).find?
      (fun candidate => files.isFile candidate.1) = some (path, source) := by
    rw [List.find?_eq_some_iff_append]
    refine ⟨hfile, before, later, hranking, ?_⟩
    intro candidate hcandidate
    rw [hbefore candidate hcandidate]
    rfl
  rw [discover_eq_find?, hfind]

/-- The search looks at nothing but the candidates, so a run need not know any other file. -/
theorem discover_of_candidates {others : Files}
    (h : ∀ path ∈ candidates environment explicit? root, others path = files path) :
    discover others environment explicit? root = discover files environment explicit? root := by
  have hsame : ∀ candidate ∈ ranking environment explicit? root,
      others candidate.1 = files candidate.1 := by
    intro candidate hcandidate
    refine h _ ?_
    rw [← ranking_paths]
    exact List.mem_map_of_mem hcandidate
  have hfind : (ranking environment explicit? root).find? (fun candidate =>
        others.isFile candidate.1) =
      (ranking environment explicit? root).find? fun candidate => files.isFile candidate.1 := by
    refine List.find?_congr ?_
    intro candidate hcandidate
    simp only [Files.isFile, hsame candidate hcandidate]
  rw [discover_eq_find?, discover_eq_find?, hfind]
  split
  case h_1 path source hchosen =>
    unfold loadAs
    rw [load_congr (hsame _ (List.mem_of_find?_eq_some hchosen))]
  case h_2 => rfl

theorem loadAs_error_iff {failure : Failure} (hfile : files.isFile path = true) :
    loadAs files path source = .error failure ↔ Unusable files path failure := by
  rw [← load_error_iff hfile]
  unfold loadAs
  cases load files path <;> simp [Except.map]

end

/-- **The search takes the first candidate that is a regular file, and stays with it.**  A file
that is named is the only candidate and must be a regular file; without one the defaults hold if
there is no regular file among the candidates.

What has been taken is loaded and named as the source.  If it cannot be used, that is what the
search comes to.  So all that counts is what it holds, and that no candidate before it is a
regular file: the candidates behind it, and the variables that lead there, do not matter. -/
theorem discover_takes_first (files : Files) (environment : Environment)
    (explicit? : Option Path) (root : Path) :
    (∀ path, explicit? = some path → files.isFile path = false →
      discover files environment explicit? root = .error (.configNotFound path)) ∧
    (explicit? = none →
      (∀ candidate ∈ ranking environment explicit? root, files.isFile candidate.1 = false) →
      discover files environment explicit? root = .ok ⟨{}, .defaults, []⟩) ∧
    ∀ before path source later,
      ranking environment explicit? root = before ++ (path, source) :: later →
      (∀ candidate ∈ before, files.isFile candidate.1 = false) → files.isFile path = true →
      discover files environment explicit? root =
        (load files path).map (fun result => ⟨result.1, source, result.2⟩) ∧
      (∀ failure, discover files environment explicit? root = .error failure ↔
        Unusable files path failure) ∧
      ∀ (others : Files) (home : Environment) (beyond : List (Path × Source)),
        ranking home explicit? root = before ++ (path, source) :: beyond →
        (∀ candidate ∈ before, others.isFile candidate.1 = files.isFile candidate.1) →
        others path = files path →
        discover others home explicit? root = discover files environment explicit? root := by
  refine ⟨?_, ?_, ?_⟩
  · rintro path rfl hnone
    refine discover_of_no_file ?_
    simpa [ranking] using hnone
  · rintro rfl hnone
    exact discover_of_no_file hnone
  · intro before path source later hranking hbefore hfile
    have hfirst := discover_of_first hranking hbefore hfile
    refine ⟨hfirst, ?_, ?_⟩
    · intro failure
      rw [hfirst, loadAs_error_iff hfile]
    · intro others home beyond hranking' hbefore' hsame
      have hnone : ∀ candidate ∈ before, others.isFile candidate.1 = false := by
        intro candidate hcandidate
        rw [hbefore' candidate hcandidate, hbefore candidate hcandidate]
      have hfile' : others.isFile path = true := by
        rw [Files.isFile, hsame]
        exact hfile
      rw [discover_of_first hranking' hnone hfile', hfirst]
      unfold loadAs
      rw [load_congr hsame]

/-- A project's file that is no text is not passed over for the user's.  Where a directory stands
in its place the user's file is taken, and it is the same whichever variable leads there; a
directory that is named is no file, and without any file the defaults hold. -/
theorem discover_takes_first_of_four :
    let project := Path.ofString "/work/greeter.toml"
    let user := Path.ofString "/home/.config/greeter/config.toml"
    let greets : Entry := .file (bytesOf "nam = 1\n[greeting]\nname = 'Ada'\n")
    let chosen : Files := fun path =>
      if path = project then .file [0xFF] else if path = user then greets else .missing
    let blocked : Files := fun path =>
      if path = project then .directory else if path = user then greets else .missing
    let bare : Files := fun path => if path = user then greets else .missing
    let named : Environment := fun name =>
      if name = "GREETER_CONFIG_HOME" then some (bytesOf "/home/.config/") else none
    let usual : Environment := fun name =>
      if name = "XDG_CONFIG_HOME" then some (bytesOf "relative")
      else if name = "HOME" then some (bytesOf "/home") else none
    discover chosen named none (.ofString "/work") = .error (.io .notText) ∧
      discover blocked named none (.ofString "/work") =
        .ok ⟨⟨⟨"Ada", "Hello"⟩, {}⟩, .user user, [⟨"nam", user, some 1, none⟩]⟩ ∧
      discover bare usual none (.ofString "/work") =
        discover blocked named none (.ofString "/work") ∧
      discover blocked named (some (.ofString "/work/greeter.toml")) (.ofString "/") =
        .error (.configNotFound project) ∧
      discover bare (fun _ => none) none (.ofString "/work") = .ok ⟨{}, .defaults, []⟩ := by
  intro project user greets chosen blocked bare named usual
  have hproject : ranking named none (.ofString "/work") =
      [] ++ (project, .project project) :: [(user, .user user)] := by decide +kernel
  have huser : ranking named none (.ofString "/work") =
      [(project, .project project)] ++ (user, .user user) :: [] := by decide +kernel
  have husual : ranking usual none (.ofString "/work") =
      [(project, .project project)] ++ (user, .user user) :: [] := by decide +kernel
  obtain ⟨-, -, hchosen⟩ := discover_takes_first chosen named none (.ofString "/work")
  obtain ⟨-, -, hblocked⟩ := discover_takes_first blocked named none (.ofString "/work")
  obtain ⟨hnamed, -, -⟩ := discover_takes_first blocked named (some project) (.ofString "/")
  obtain ⟨-, hdefaults, -⟩ := discover_takes_first bare (fun _ => none) none (.ofString "/work")
  obtain ⟨-, hfails, -⟩ := hchosen _ _ _ _ hproject (by simp) (by decide +kernel)
  obtain ⟨hloads, -, hsame⟩ := hblocked _ _ _ _ huser (by decide +kernel) (by decide +kernel)
  refine ⟨?_, ?_, ?_, ?_, ?_⟩
  · have hbytes : chosen project = .file [0xFF] := by decide +kernel
    exact (hfails _).mpr (.notText hbytes (by decide +kernel))
  · rw [hloads]
    decide +kernel
  · exact hsame bare usual [] husual (by decide +kernel) (by decide +kernel)
  · exact hnamed project rfl (by decide +kernel)
  · exact hdefaults rfl (by decide +kernel)

end Salutation.Config
