import LoongNvr.Auth.UserStore
import LoongNvr.Support.PosixPath

/-!
# Network — FileEndpoints

The handlers that open files named by a request: the two for recordings, and the upload of a plugin.
The user is authenticated.  The recordings handlers refuse a name with two dots in it and open any
other; the upload puts the name it is given behind the plugin directory.

* `openRecording`, `uploadDest`: the checks, and the path that is opened.
* `opened_recording`, `opened_upload`: which file is opened.
* `confined_iff`: exactly when a request opens files in their directory only.
-/

namespace LoongNvr.Network
open Support PosixPath
open LoongNvr.Auth (UserRole)

/-! ### The handlers -/

/-- What comes of opening files: what `std::ifstream` finds at a path, whether `std::ofstream` can
write to it, and whether `LoadPlugin` takes it. -/
structure FileSystem where
  read : Bytes → Option Bytes
  write : Bytes → Bool
  load : Bytes → Bool
  /-- A path that ends in no name is a directory's. -/
  write_name : ∀ path, write path = true → ∃ name, (steps path).getLast? = some (.down name)

inductive FileContent
  | error (message : String)
  | file (body : Bytes) (contentType : String) (disposition : Option Bytes)
  | uploaded (success : Bool) (file : Bytes)
  deriving DecidableEq

/-- A response, and the files that were opened for it. -/
structure FileResponse where
  status : ℕ
  content : FileContent
  opened : List Bytes := []
  deriving DecidableEq

/-- `HttpServer::JsonError` -/
def fileError (status : ℕ) (message : String) : FileResponse :=
  { status := status, content := .error message }

/-- What the two handlers of recordings have in common; `found` is what they send. -/
def openRecording (fs : FileSystem) (filePath : Bytes) (found : Bytes → FileContent) :
    FileResponse :=
  if filePath = [] then fileError 400 "file parameter required"
  else if [dot, dot] <:+: filePath then fileError 400 "invalid file path"
  else
    match fs.read (cString filePath) with
    | none => fileError 404 "recording file not found"
    | some body => { status := 200, content := found body, opened := [cString filePath] }

def handleRecordingPlayback (fs : FileSystem) (filePath : Bytes) : FileResponse :=
  openRecording fs filePath fun body => .file body "video/mp4" none

/-- What is behind the last slash. -/
def baseName (filePath : Bytes) : Bytes := (filePath.reverse.takeWhile (· ≠ slash)).reverse

def handleRecordingDownload (fs : FileSystem) (filePath : Bytes) : FileResponse :=
  openRecording fs filePath fun body =>
    .file body "application/octet-stream"
      (some ("attachment; filename=\"".toUTF8.toList ++ baseName filePath ++ "\"".toUTF8.toList))

/-- The plugin manager: its directory, a path the operating system takes whole. -/
structure PluginManager where
  pluginDir : Bytes
  noZero : 0 ∉ pluginDir

structure UploadedFile where
  filename : Bytes
  content : Bytes

/-- `".so"` -/
def soSuffix : Bytes := [46, 115, 111]

/-- The path `HandleUploadPlugin` writes to, or the status and text it refuses the request with. -/
def uploadDest (role : UserRole) (pluginMgr : Option PluginManager) (file : Option UploadedFile) :
    Except (ℕ × String) Bytes :=
  if role ≠ .admin then .error (403, "admin only")
  else
    match pluginMgr, file with
    | none, _ => .error (500, "plugin manager not configured")
    | some _, none => .error (400, "missing 'plugin' file field")
    | some mgr, some file =>
        if mgr.pluginDir = [] then .error (500, "plugin directory not configured")
        else if file.filename.length < 4 ∨ ¬ soSuffix <:+ file.filename then
          .error (400, "file must be a .so shared library")
        else .ok (mgr.pluginDir ++ slash :: file.filename)

def handleUploadPlugin (fs : FileSystem) (role : UserRole) (pluginMgr : Option PluginManager)
    (file : Option UploadedFile) : FileResponse :=
  match uploadDest role pluginMgr file with
  | .error (status, message) => fileError status message
  | .ok dest =>
      if fs.write (cString dest) then
        { status := if fs.load (cString dest) then 201 else 400
          content := .uploaded (fs.load (cString dest)) (file.elim [] UploadedFile.filename)
          opened := [cString dest] }
      else fileError 500 "failed to write plugin file"

/-! ### Which files are opened -/

theorem opened_recording {fs : FileSystem} {filePath path : Bytes} {found : Bytes → FileContent} :
    path ∈ (openRecording fs filePath found).opened ↔
      filePath ≠ [] ∧ ¬ [dot, dot] <:+: filePath ∧ (fs.read (cString filePath)).isSome = true ∧
        path = cString filePath := by
  rw [openRecording]
  by_cases hempty : filePath = []
  · simp [hempty, fileError]
  by_cases hdots : [dot, dot] <:+: filePath
  · simp [hempty, hdots, fileError]
  cases hread : fs.read (cString filePath) <;> simp [hempty, hdots, fileError]

/-- What is opened is the string up to a zero byte, and so has no two dots either. -/
theorem noDots_cString {filePath : Bytes} (h : ¬ [dot, dot] <:+: filePath) :
    ¬ [dot, dot] <:+: cString filePath :=
  fun hdots => h (hdots.trans (List.takeWhile_prefix _).isInfix)

theorem uploadDest_eq_ok {role : UserRole} {pluginMgr : Option PluginManager}
    {file : Option UploadedFile} {dest : Bytes} (h : uploadDest role pluginMgr file = .ok dest) :
    ∃ mgr f, pluginMgr = some mgr ∧ file = some f ∧ mgr.pluginDir ≠ [] ∧
      dest = mgr.pluginDir ++ slash :: f.filename := by
  unfold uploadDest at h
  split at h
  · cases h
  · split at h
    · cases h
    · cases h
    · next mgr f =>
        split at h
        · cases h
        · next hdir =>
            split at h
            · cases h
            · exact ⟨mgr, f, rfl, rfl, hdir, (Except.ok.inj h).symm⟩

theorem opened_upload {fs : FileSystem} {role : UserRole} {pluginMgr : Option PluginManager}
    {file : Option UploadedFile} {path : Bytes} :
    path ∈ (handleUploadPlugin fs role pluginMgr file).opened ↔
      ∃ dest, uploadDest role pluginMgr file = .ok dest ∧ fs.write (cString dest) = true ∧
        path = cString dest := by
  rw [handleUploadPlugin]
  cases hdest : uploadDest role pluginMgr file with
  | error refusal => simp [fileError]
  | ok dest =>
      dsimp only
      by_cases hwrite : fs.write (cString dest) = true
      · simp [hwrite]
      · simp [hwrite, fileError]

/-! ### Whether they are in their directory -/

/-- A request to one of the three handlers. -/
inductive FileRequest
  | playback (filePath : Bytes)
  | download (filePath : Bytes)
  | upload (role : UserRole) (pluginMgr : Option PluginManager) (file : Option UploadedFile)

section
variable (cwd : List Bytes) (recordingsDir : Bytes) (fs : FileSystem)

/-- A file is opened only below the recordings directory, and written only directly in the plugin
directory. -/
def Confined : FileRequest → Prop
  | .playback filePath => ∀ path ∈ (handleRecordingPlayback fs filePath).opened,
      place cwd recordingsDir <+: place cwd path
  | .download filePath => ∀ path ∈ (handleRecordingDownload fs filePath).opened,
      place cwd recordingsDir <+: place cwd path
  | .upload role pluginMgr file => ∀ mgr ∈ pluginMgr,
      ∀ path ∈ (handleUploadPlugin fs role pluginMgr file).opened,
        ∃ name, place cwd path = place cwd mgr.pluginDir ++ [name]

/-- The names of a path that can be read start with those of the recordings directory. -/
def NamesRecording (filePath : Bytes) : Prop :=
  filePath ≠ [] → ¬ [dot, dot] <:+: filePath → (fs.read (cString filePath)).isSome = true →
    place cwd recordingsDir <+: base cwd (cString filePath) ++ names (cString filePath)

/-- What keeps a request in its directory.  A recording's path must name the recordings directory
first; the steps of an uploaded filename up to the last must lead back to the plugin directory. -/
def StaysInside : FileRequest → Prop
  | .playback filePath => NamesRecording cwd recordingsDir fs filePath
  | .download filePath => NamesRecording cwd recordingsDir fs filePath
  | .upload role pluginMgr file => ∀ mgr ∈ pluginMgr, ∀ f ∈ file,
      ∀ dest, uploadDest role pluginMgr file = .ok dest → fs.write (cString dest) = true →
        walk (place cwd mgr.pluginDir) (steps (cString f.filename)).dropLast =
          place cwd mgr.pluginDir

variable {cwd recordingsDir fs}

theorem confined_recording {filePath : Bytes} {found : Bytes → FileContent} :
    (∀ path ∈ (openRecording fs filePath found).opened,
      place cwd recordingsDir <+: place cwd path) ↔
      NamesRecording cwd recordingsDir fs filePath := by
  simp only [opened_recording, NamesRecording]
  constructor
  · intro h hempty hdots hread
    rw [← place_of_noParent cwd (noDots_cString hdots)]
    exact h _ ⟨hempty, hdots, hread, rfl⟩
  · rintro h path ⟨hempty, hdots, hread, rfl⟩
    rw [place_of_noParent cwd (noDots_cString hdots)]
    exact h hempty hdots hread

/-- **An uploaded file** is directly in the plugin directory exactly if all its steps but the last
lead back there. -/
theorem confined_upload {mgr : PluginManager} (hdir : mgr.pluginDir ≠ []) {filename : Bytes}
    (hwrite : fs.write (cString (mgr.pluginDir ++ slash :: filename)) = true) :
    (∃ name, place cwd (cString (mgr.pluginDir ++ slash :: filename)) =
        place cwd mgr.pluginDir ++ [name]) ↔
      walk (place cwd mgr.pluginDir) (steps (cString filename)).dropLast =
        place cwd mgr.pluginDir := by
  have hcut : cString (mgr.pluginDir ++ slash :: filename) =
      mgr.pluginDir ++ slash :: cString filename := cString_append mgr.noZero
  obtain ⟨last, hlast⟩ := fs.write_name _ hwrite
  rw [hcut] at hlast ⊢
  have hsteps : steps (cString filename) = (steps (cString filename)).dropLast ++ [.down last] := by
    have hne : steps (cString filename) ≠ [] := by
      rw [steps, Ne, List.map_eq_nil_iff]
      exact List.splitOn_ne_nil _ _
    rw [steps_join, List.getLast?_append_of_ne_nil _ hne, List.getLast?_eq_some_getLast hne]
      at hlast
    rw [← Option.some.inj hlast]
    exact (List.dropLast_append_getLast hne).symm
  rw [place_join cwd hdir, hsteps, walk_append, List.dropLast_concat]
  have htake : ∀ dir : List Bytes, walk dir [.down last] = dir ++ [last] := fun _ => rfl
  rw [htake]
  constructor
  · rintro ⟨name, hname⟩
    exact (List.append_inj' hname rfl).1
  · intro h
    exact ⟨last, by rw [h]⟩

end

/-- **A request opens files in their directory only** exactly if its path stays inside. -/
theorem confined_iff (cwd : List Bytes) (recordingsDir : Bytes) (fs : FileSystem)
    (req : FileRequest) :
    Confined cwd recordingsDir fs req ↔ StaysInside cwd recordingsDir fs req := by
  cases req with
  | playback filePath => exact confined_recording
  | download filePath => exact confined_recording
  | upload role pluginMgr file =>
      simp only [Confined, StaysInside, opened_upload]
      refine forall₂_congr fun mgr hmgr => ?_
      constructor
      · intro h f hf dest hdest hwrite
        obtain ⟨mgr', f', hmgr', hf', hdir, rfl⟩ := uploadDest_eq_ok hdest
        obtain rfl := Option.some.inj (hmgr.symm.trans hmgr')
        obtain rfl := Option.some.inj (hf.symm.trans hf')
        exact (confined_upload hdir hwrite).mp (h _ ⟨_, hdest, hwrite, rfl⟩)
      · rintro h path ⟨dest, hdest, hwrite, rfl⟩
        obtain ⟨mgr', f, hmgr', hf, hdir, rfl⟩ := uploadDest_eq_ok hdest
        obtain rfl := Option.some.inj (hmgr.symm.trans hmgr')
        exact (confined_upload hdir hwrite).mpr (h f hf _ hdest hwrite)

/-- A file system with this file in it, which cannot be written to. -/
def holding (path : Bytes) : FileSystem where
  read p := if p = path then some [] else none
  write _ := false
  load _ := false
  write_name _ h := nomatch h

/-- The path of the password file has no two dots. -/
theorem confined_refuted :
    ¬ ∀ (cwd : List Bytes) (recordingsDir : Bytes) (fs : FileSystem) (req : FileRequest),
      Confined cwd recordingsDir fs req := by
  intro h
  have hpasswd := h [] "/recordings".toUTF8.toList (holding "/etc/passwd".toUTF8.toList)
    (.playback "/etc/passwd".toUTF8.toList) "/etc/passwd".toUTF8.toList (by decide +kernel)
  exact absurd hpasswd (by decide +kernel)

end LoongNvr.Network
