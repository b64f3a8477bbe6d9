import LoongNvr.Support.Trimmed
import Mathlib.Algebra.BigOperators.Group.List.Basic
import Mathlib.Algebra.Ring.Int.Defs
import Mathlib.Data.List.Nodup

/-!
# Storage — CloudBackup

What `CloudBackupService` calls the files it uploads, and what it notes of the uploads.  A scan goes
through the recordings and through the snapshots, and each file is uploaded under a key made of its
path.  Which directory the path belongs to is decided by looking for the directory's name at its
front.

* `scanAndUpload`, `makeRemoteKey`: the scan and the key of a path.
* `entryPath_eq`: a path is its directory, with a slash behind it, and what is in the directory.
* `KeysApart`: the keys tell the files apart and say where they come from.
* `keysApart_iff`: they do exactly when the name of the recordings directory is not the front of
  the name of the snapshots directory.
* `uploadFile`: `UploadFile`, with what it notes in the status and the recent tasks.
* `accounted_iff`: the notes are right exactly when the size of every file could be found.
-/

namespace LoongNvr.Storage
open Support

/-- The name of a file or of a directory in another. -/
structure EntryName where
  chars : List Char
  chars_ne_nil : chars ≠ []
  no_slash : '/' ∉ chars
  deriving DecidableEq

/-- What is to be backed up. -/
inductive BackupMode
  | eventOnly
  | full
  | custom
  deriving DecidableEq, Repr

/-- The service, as far as it names what it uploads. -/
structure CloudBackupService where
  keyPrefix : List Char := "loong-nvr/".toList
  mode : BackupMode := .eventOnly
  recordingsDir : List Char
  snapshotsDir : List Char

/-! ### Paths -/

/-- `directory / name`, with a slash between them where there is none. -/
def joinPath (path : List Char) (name : EntryName) : List Char :=
  if path = [] ∨ path.getLast? = some '/' then path ++ name.chars else path ++ '/' :: name.chars

/-- The path a `recursive_directory_iterator` over the directory has for an entry below it. -/
def entryPath (dir : List Char) (names : List EntryName) : List Char := names.foldl joinPath dir

/-- `path.extension()`: from the last dot on, but for a dot in front. -/
def extension (name : EntryName) : List Char :=
  let ext := name.chars.reverse.takeWhile (· ≠ '.')
  match name.chars.reverse.drop ext.length with
  | '.' :: _ :: _ => '.' :: ext.reverse
  | _ => []

/-- `should_backup` -/
def shouldBackup (names : List EntryName) : Bool :=
  names.getLast?.any fun name =>
    [".mp4".toList, ".ts".toList, ".mkv".toList, ".jpg".toList, ".png".toList].contains
      (extension name)

/-! ### Keys -/

/-- `if (!rel.empty() && rel[0] == '/') rel = rel.substr(1);` -/
def stripSlash : List Char → List Char
  | '/' :: rel => rel
  | rel => rel

namespace CloudBackupService

def makeRemoteKey (service : CloudBackupService) (localPath : List Char) : List Char :=
  if service.recordingsDir ≠ [] ∧ service.recordingsDir <+: localPath then
    service.keyPrefix ++
      ("recordings/".toList ++ stripSlash (localPath.drop service.recordingsDir.length))
  else if service.snapshotsDir ≠ [] ∧ service.snapshotsDir <+: localPath then
    service.keyPrefix ++
      ("snapshots/".toList ++ stripSlash (localPath.drop service.snapshotsDir.length))
  else service.keyPrefix ++ localPath

/-- `scan_dir`: the uploads, path and key, for the regular files the iterator visits. -/
def scanDir (service : CloudBackupService) (visits : List Char → List (List EntryName))
    (dir : List Char) : List (List Char × List Char) :=
  if dir = [] then []
  else
    ((visits dir).filter shouldBackup).map fun names =>
      (entryPath dir names, service.makeRemoteKey (entryPath dir names))

/-- `ScanAndUpload` -/
def scanAndUpload (service : CloudBackupService) (visits : List Char → List (List EntryName)) :
    List (List Char × List Char) :=
  if service.mode = .full ∨ service.mode = .eventOnly then
    service.scanDir visits service.recordingsDir ++ service.scanDir visits service.snapshotsDir
  else []

end CloudBackupService

/-- The path is one of a file below the directory. -/
def Below (dir path : List Char) : Prop := ∃ name names, path = entryPath dir (name :: names)

/-- Different files have different keys, and a key says which directory its file is from. -/
def KeysApart (service : CloudBackupService) : Prop :=
  (∀ path path', (Below service.recordingsDir path ∨ Below service.snapshotsDir path) →
    (Below service.recordingsDir path' ∨ Below service.snapshotsDir path') → path ≠ path' →
      service.makeRemoteKey path ≠ service.makeRemoteKey path') ∧
  (∀ path, Below service.recordingsDir path →
    service.keyPrefix ++ "recordings/".toList <+: service.makeRemoteKey path) ∧
  (∀ path, Below service.snapshotsDir path →
    service.keyPrefix ++ "snapshots/".toList <+: service.makeRemoteKey path)

/-- A directory with a slash behind it. -/
def slashed (dir : List Char) : List Char :=
  if dir.getLast? = some '/' then dir else dir ++ ['/']

/-- Two directories, neither of them the other or in the other. -/
structure NotNested (dir dir' : List Char) : Prop where
  left_ne_nil : dir ≠ []
  right_ne_nil : dir' ≠ []
  left : ¬ slashed dir <+: slashed dir'
  right : ¬ slashed dir' <+: slashed dir

/-! ### What a path is made of -/

/-- An entry, from the directory on. -/
def relPath (name : EntryName) (names : List EntryName) : List Char :=
  name.chars ++ names.flatMap fun name => '/' :: name.chars

theorem getLast?_chars (path : List Char) (name : EntryName) :
    (path ++ name.chars).getLast? ≠ some '/' := by
  rw [List.getLast?_append_of_ne_nil _ name.chars_ne_nil]
  intro h
  exact name.no_slash (List.mem_of_getLast? h)

/-- Below an entry everything has a slash in front. -/
theorem entryPath_append (path : List Char) (name : EntryName) (names : List EntryName) :
    entryPath (path ++ name.chars) names =
      path ++ name.chars ++ names.flatMap fun name => '/' :: name.chars := by
  induction names generalizing path name with
  | nil => simp [entryPath]
  | cons next names ih =>
      have hne : path ++ name.chars ≠ [] := by simp [name.chars_ne_nil]
      have hjoin : joinPath (path ++ name.chars) next =
          (path ++ name.chars ++ ['/']) ++ next.chars := by
        rw [joinPath, if_neg (not_or.mpr ⟨hne, getLast?_chars path name⟩)]
        simp
      rw [entryPath, List.foldl_cons, ← entryPath, hjoin, ih]
      simp

/-- **A path** is its directory, with a slash behind it, and what is in the directory. -/
theorem entryPath_eq {dir : List Char} (hdir : dir ≠ []) (name : EntryName)
    (names : List EntryName) :
    entryPath dir (name :: names) = slashed dir ++ relPath name names := by
  have hjoin : joinPath dir name = slashed dir ++ name.chars := by
    by_cases hlast : dir.getLast? = some '/' <;> simp [joinPath, slashed, hdir, hlast]
  rw [entryPath, List.foldl_cons, ← entryPath, hjoin, entryPath_append, relPath, List.append_assoc]

theorem stripSlash_relPath (name : EntryName) (names : List EntryName) :
    stripSlash (relPath name names) = relPath name names := by
  have hslash := name.no_slash
  rw [relPath]
  cases hchars : name.chars with
  | nil => exact absurd hchars name.chars_ne_nil
  | cons c chars =>
      have hc : c ≠ '/' := by
        rintro rfl
        exact hslash (hchars ▸ List.mem_cons_self)
      rw [List.cons_append, stripSlash]
      exact fun rel h => hc (List.cons.inj h).1

theorem prefix_slashed (dir : List Char) : dir <+: slashed dir := by
  rw [slashed]
  split
  · exact List.prefix_rfl
  · exact List.prefix_append _ _

/-- What is left of a path without its directory and a slash. -/
theorem stripSlash_drop (dir : List Char) (name : EntryName) (names : List EntryName) :
    stripSlash ((slashed dir ++ relPath name names).drop dir.length) = relPath name names := by
  rw [slashed]
  split
  · rw [List.drop_left, stripSlash_relPath]
  · rw [List.append_assoc, List.drop_left]
    rfl

section Keys

variable {service : CloudBackupService} {name name' : EntryName} {names names' : List EntryName}

/-- The key of a recording. -/
theorem makeRemoteKey_recording (hdir : service.recordingsDir ≠ []) :
    service.makeRemoteKey (slashed service.recordingsDir ++ relPath name names) =
      service.keyPrefix ++ ("recordings/".toList ++ relPath name names) := by
  have hfront : service.recordingsDir <+: slashed service.recordingsDir ++ relPath name names :=
    (prefix_slashed _).trans (List.prefix_append _ _)
  rw [CloudBackupService.makeRemoteKey, if_pos ⟨hdir, hfront⟩, stripSlash_drop]

/-- The key of a snapshot whose path does not begin with the name of the recordings directory. -/
theorem makeRemoteKey_snapshot (hdir : service.snapshotsDir ≠ [])
    (hother : ¬ service.recordingsDir <+: slashed service.snapshotsDir ++ relPath name names) :
    service.makeRemoteKey (slashed service.snapshotsDir ++ relPath name names) =
      service.keyPrefix ++ ("snapshots/".toList ++ relPath name names) := by
  have hfront : service.snapshotsDir <+: slashed service.snapshotsDir ++ relPath name names :=
    (prefix_slashed _).trans (List.prefix_append _ _)
  rw [CloudBackupService.makeRemoteKey, if_neg fun h => hother h.2, if_pos ⟨hdir, hfront⟩,
    stripSlash_drop]

/-- A name in front of a path below another directory is in front of that directory's name. -/
theorem prefix_of_prefix_path {dir dir' rel : List Char} (hnested : NotNested dir dir')
    (h : dir <+: slashed dir' ++ rel) : dir <+: dir' := by
  rcases List.prefix_or_prefix_of_prefix h (List.prefix_append (slashed dir') rel) with hle | hge
  · rw [slashed] at hle
    split at hle
    case isTrue => exact hle
    case isFalse hlast =>
      rcases List.prefix_concat_iff.mp hle with heq | hle
      · -- the same directory, once with a slash and once without
        refine absurd ?_ hnested.left
        have hdir : slashed dir = dir := by rw [slashed, if_pos (by simp [heq])]
        rw [hdir, slashed, if_neg hlast]
        exact hle
      · exact hle
  · exact absurd (hge.trans (prefix_slashed dir)) hnested.right

end Keys

/-! ### Keys apart -/

variable {service : CloudBackupService}

theorem recordings_ne_snapshots (keyPrefix rel rel' : List Char) :
    keyPrefix ++ ("recordings/".toList ++ rel) ≠ keyPrefix ++ ("snapshots/".toList ++ rel') := by
  intro h
  have hhead := congrArg List.head? (List.append_cancel_left h)
  exact absurd hhead (by simp)

/-- The keys of files with the same label tell what the files are called below their directory. -/
theorem relPath_of_key_eq {keyPrefix label rel rel' : List Char}
    (h : keyPrefix ++ (label ++ rel) = keyPrefix ++ (label ++ rel')) : rel = rel' :=
  List.append_cancel_left (List.append_cancel_left h)

theorem keysApart_of_not_prefix
    (hnested : NotNested service.recordingsDir service.snapshotsDir)
    (h : ¬ service.recordingsDir <+: service.snapshotsDir) : KeysApart service := by
  have hrecording : ∀ name names, service.makeRemoteKey
      (entryPath service.recordingsDir (name :: names)) =
        service.keyPrefix ++ ("recordings/".toList ++ relPath name names) := by
    intro name names
    rw [entryPath_eq hnested.left_ne_nil, makeRemoteKey_recording hnested.left_ne_nil]
  have hsnapshot : ∀ name names, service.makeRemoteKey
      (entryPath service.snapshotsDir (name :: names)) =
        service.keyPrefix ++ ("snapshots/".toList ++ relPath name names) := by
    intro name names
    rw [entryPath_eq hnested.right_ne_nil, makeRemoteKey_snapshot hnested.right_ne_nil]
    exact fun hfront => h (prefix_of_prefix_path hnested hfront)
  refine ⟨?_, ?_, ?_⟩
  · rintro _ _ (⟨name, names, rfl⟩ | ⟨name, names, rfl⟩)
      (⟨name', names', rfl⟩ | ⟨name', names', rfl⟩) hne hkey
    · rw [hrecording, hrecording] at hkey
      rw [entryPath_eq hnested.left_ne_nil, entryPath_eq hnested.left_ne_nil,
        relPath_of_key_eq hkey] at hne
      exact hne rfl
    · rw [hrecording, hsnapshot] at hkey
      exact recordings_ne_snapshots _ _ _ hkey
    · rw [hsnapshot, hrecording] at hkey
      exact recordings_ne_snapshots _ _ _ hkey.symm
    · rw [hsnapshot, hsnapshot] at hkey
      rw [entryPath_eq hnested.right_ne_nil, entryPath_eq hnested.right_ne_nil,
        relPath_of_key_eq hkey] at hne
      exact hne rfl
  · rintro _ ⟨name, names, rfl⟩
    rw [hrecording, ← List.append_assoc]
    exact List.prefix_append _ _
  · rintro _ ⟨name, names, rfl⟩
    rw [hsnapshot, ← List.append_assoc]
    exact List.prefix_append _ _

/-- The picture `a.jpg`. -/
def aJpg : EntryName := ⟨"a.jpg".toList, by decide, by decide⟩

/-- Where the recordings directory's name is the front of the other's, every snapshot gets the key
of a recording. -/
theorem not_keysApart_of_prefix (hdir : service.recordingsDir ≠ [])
    (hdir' : service.snapshotsDir ≠ []) (h : service.recordingsDir <+: service.snapshotsDir) :
    ¬ KeysApart service := by
  rintro ⟨-, -, hsnapshots⟩
  have hkey := hsnapshots _ ⟨aJpg, [], rfl⟩
  rw [entryPath_eq hdir'] at hkey
  have hfront : service.recordingsDir <+: slashed service.snapshotsDir ++ relPath aJpg [] :=
    (h.trans (prefix_slashed _)).trans (List.prefix_append _ _)
  rw [CloudBackupService.makeRemoteKey, if_pos ⟨hdir, hfront⟩, List.prefix_append_right_inj] at hkey
  exact absurd hkey (by simp)

/-- What a scan uploads are files below the two directories, under their keys. -/
theorem below_of_mem_scan {visits : List Char → List (List EntryName)}
    {upload : List Char × List Char} (h : upload ∈ service.scanAndUpload visits) :
    (Below service.recordingsDir upload.1 ∨ Below service.snapshotsDir upload.1) ∧
      upload.2 = service.makeRemoteKey upload.1 := by
  have hdir : ∀ dir, upload ∈ service.scanDir visits dir →
      Below dir upload.1 ∧ upload.2 = service.makeRemoteKey upload.1 := by
    intro dir h
    rw [CloudBackupService.scanDir] at h
    split at h
    · cases h
    · obtain ⟨names, hnames, rfl⟩ := List.mem_map.mp h
      have hbackup := (List.mem_filter.mp hnames).2
      cases names with
      | nil => cases hbackup
      | cons name names => exact ⟨⟨name, names, rfl⟩, rfl⟩
  rw [CloudBackupService.scanAndUpload] at h
  split at h
  · rcases List.mem_append.mp h with h | h
    · exact ⟨.inl (hdir _ h).1, (hdir _ h).2⟩
    · exact ⟨.inr (hdir _ h).1, (hdir _ h).2⟩
  · cases h

/-- Where the keys are apart, no upload of a scan overwrites another. -/
theorem nodup_keys_of_keysApart (hapart : KeysApart service)
    {visits : List Char → List (List EntryName)}
    (hpaths : ((service.scanAndUpload visits).map (·.1)).Nodup) :
    ((service.scanAndUpload visits).map (·.2)).Nodup := by
  rw [List.nodup_map_iff_inj_on (List.Nodup.of_map _ hpaths)]
  intro upload h upload' h' hkey
  obtain ⟨hbelow, hupload⟩ := below_of_mem_scan h
  obtain ⟨hbelow', hupload'⟩ := below_of_mem_scan h'
  have hpath : upload.1 = upload'.1 := by
    by_contra hne
    rw [hupload, hupload'] at hkey
    exact hapart.1 _ _ hbelow hbelow' hne hkey
  exact Prod.ext hpath hkey

/-- **The keys are apart** exactly when the name of the recordings directory is not the front of the
name of the snapshots directory. -/
theorem keysApart_iff (service : CloudBackupService)
    (hnested : NotNested service.recordingsDir service.snapshotsDir) :
    KeysApart service ↔ ¬ service.recordingsDir <+: service.snapshotsDir :=
  ⟨fun hapart h =>
      not_keysApart_of_prefix hnested.left_ne_nil hnested.right_ne_nil h hapart,
    keysApart_of_not_prefix hnested⟩

/-- Names with a common front that is no directory's name. -/
def recordingsRecSnap : CloudBackupService where
  recordingsDir := "/data/recordings".toList
  snapshotsDir := "/data/rec_snap/".toList

theorem keysApart_recordings : KeysApart recordingsRecSnap :=
  (keysApart_iff recordingsRecSnap ⟨by decide, by decide, by decide, by decide⟩).mpr (by decide)

/-- Recordings in `/data/rec` and snapshots in `/data/rec_snap`. -/
def recSnap : CloudBackupService where
  recordingsDir := "/data/rec".toList
  snapshotsDir := "/data/rec_snap".toList

/-- A picture below each of them. -/
def recSnapVisits (dir : List Char) : List (List EntryName) :=
  if dir = recSnap.recordingsDir then [[⟨"_snap".toList, by decide, by decide⟩, aJpg]] else [[aJpg]]

/-- The snapshot is uploaded under the key of the recording. -/
theorem keysApart_refuted :
    NotNested recSnap.recordingsDir recSnap.snapshotsDir ∧ ¬ KeysApart recSnap ∧
    recSnap.scanAndUpload recSnapVisits =
      [("/data/rec/_snap/a.jpg".toList, "loong-nvr/recordings/_snap/a.jpg".toList),
        ("/data/rec_snap/a.jpg".toList, "loong-nvr/recordings/_snap/a.jpg".toList)] :=
  ⟨⟨by decide, by decide, by decide, by decide⟩,
    not_keysApart_of_prefix (by decide) (by decide) (by decide), by decide⟩

/-! ### What is noted of the uploads -/

/-- Status of a single backup operation. -/
structure BackupTask where
  localPath : List Char
  remoteKey : List Char
  fileSize : ℤ := 0
  completed : Bool := false
  success : Bool := false
  errorMessage : String := ""
  startedAt : ℤ := 0
  finishedAt : ℤ := 0
  deriving DecidableEq, Repr

/-- Overall backup service status.  The counters have no bound here: `bytes_uploaded` is taken to
stay within an `int64_t`, that is below 2⁶³ bytes in all. -/
structure BackupStatus where
  totalUploaded : ℤ := 0
  totalFailed : ℤ := 0
  bytesUploaded : ℤ := 0
  lastUploadTime : ℤ := 0
  lastError : String := ""
  deriving DecidableEq, Repr

/-- `status_` and `recent_tasks_` -/
structure BackupNotes where
  status : BackupStatus := {}
  recentTasks : List BackupTask := []
  deriving DecidableEq, Repr

def kMaxRecentTasks : ℕ := 100

/-- A call of `UploadFile` with what it meets: the size of the file, if `file_size` finds one, and
the backend's answer. -/
structure UploadCall where
  localPath : List Char
  remoteKey : List Char
  startedAt : ℤ := 0
  fileSize : Option ℕ
  uploaded : Bool
  finishedAt : ℤ := 0

/-- The task a call leaves. -/
def UploadCall.task (call : UploadCall) : BackupTask :=
  let task : BackupTask :=
    { localPath := call.localPath, remoteKey := call.remoteKey, startedAt := call.startedAt }
  match call.fileSize with
  | none => { task with fileSize := -1, errorMessage := "cannot stat file", completed := true }
  | some size =>
      { task with
        fileSize := size
        completed := true
        success := call.uploaded
        finishedAt := call.finishedAt
        errorMessage := if call.uploaded then "" else "upload failed" }

/-- `UploadFile` -/
def uploadFile (notes : BackupNotes) (call : UploadCall) : BackupNotes :=
  match call.fileSize with
  | none => { notes with recentTasks := notes.recentTasks ++ [call.task] }
  | some size =>
      let status := notes.status
      let status :=
        if call.uploaded then
          { status with
            totalUploaded := status.totalUploaded + 1
            bytesUploaded := status.bytesUploaded + size
            lastUploadTime := call.finishedAt }
        else
          { status with
            totalFailed := status.totalFailed + 1
            lastError := "upload failed" }
      let recentTasks := notes.recentTasks ++ [call.task]
      { status := status
        recentTasks :=
          if recentTasks.length > kMaxRecentTasks then recentTasks.tail else recentTasks }

/-- The notes after some calls. -/
def notesAfter (calls : List UploadCall) : BackupNotes := calls.foldl uploadFile {}

/-- The recent tasks are the last attempts, at most so many; the two counts make up the number of
attempts, and the bytes are those of the successful ones. -/
structure Accounted (notes : BackupNotes) (calls : List UploadCall) : Prop where
  bounded : notes.recentTasks.length ≤ kMaxRecentTasks
  recent : notes.recentTasks = (calls.map (·.task)).rtake kMaxRecentTasks
  attempts : notes.status.totalUploaded + notes.status.totalFailed = calls.length
  bytes : notes.status.bytesUploaded =
    ((calls.filter (·.task.success)).map (·.task.fileSize)).sum

theorem notesAfter_concat (calls : List UploadCall) (call : UploadCall) :
    notesAfter (calls ++ [call]) = uploadFile (notesAfter calls) call := by
  rw [notesAfter, List.foldl_append]
  rfl

/-- Whatever else is wrong, the counts count the files whose size could be found. -/
theorem counts_notesAfter (calls : List UploadCall) :
    (notesAfter calls).status.totalUploaded + (notesAfter calls).status.totalFailed =
      calls.countP (·.fileSize.isSome) := by
  induction calls using List.reverseRecOn with
  | nil => rfl
  | append_singleton calls call ih =>
      rw [notesAfter_concat, List.countP_append, List.countP_singleton, uploadFile]
      cases hsize : call.fileSize with
      | none => simpa using ih
      | some size =>
          cases call.uploaded
          · simp only [Bool.false_eq_true, if_false, Option.isSome_some, if_true]
            omega
          · simp only [Option.isSome_some, if_true]
            omega

/-- One more task, and one fewer where there are too many. -/
theorem recent_concat {tasks : List BackupTask} (task : BackupTask) :
    (if (tasks.rtake kMaxRecentTasks ++ [task]).length > kMaxRecentTasks then
        (tasks.rtake kMaxRecentTasks ++ [task]).tail
      else tasks.rtake kMaxRecentTasks ++ [task]) = (tasks ++ [task]).rtake kMaxRecentTasks := by
  have hlength : (tasks.rtake kMaxRecentTasks ++ [task]).length =
      min kMaxRecentTasks tasks.length + 1 := by
    rw [List.length_append, length_rtake, List.length_singleton]
  rw [← rtake_rtake_concat]
  split
  · rename_i hlong
    have hone : (tasks.rtake kMaxRecentTasks ++ [task]).length - kMaxRecentTasks = 1 := by omega
    rw [← List.drop_one, ← hone]
    rfl
  · rename_i hfits
    exact (rtake_of_length_le (not_lt.mp hfits)).symm

/-- **A step**: a call whose file has a size keeps the notes right. -/
theorem Accounted.step {calls : List UploadCall} {call : UploadCall}
    (h : Accounted (notesAfter calls) calls) (hsize : call.fileSize.isSome) :
    Accounted (notesAfter (calls ++ [call])) (calls ++ [call]) := by
  obtain ⟨size, hsize⟩ := Option.isSome_iff_exists.mp hsize
  have hrecent : (notesAfter (calls ++ [call])).recentTasks =
      ((calls ++ [call]).map (·.task)).rtake kMaxRecentTasks := by
    rw [notesAfter_concat, uploadFile, hsize, List.map_append, List.map_singleton,
      ← recent_concat, ← h.recent]
  refine ⟨?_, hrecent, ?_, ?_⟩
  · rw [hrecent, length_rtake]
    exact min_le_left _ _
  · have hbefore := h.attempts
    rw [counts_notesAfter] at hbefore ⊢
    rw [List.countP_append, List.countP_singleton, hsize, List.length_append]
    simp only [Option.isSome_some, if_true, List.length_singleton]
    omega
  · have hbefore := h.bytes
    have hfile : call.task.fileSize = size := by rw [UploadCall.task, hsize]
    have hsuccess : call.task.success = call.uploaded := by rw [UploadCall.task, hsize]
    rw [notesAfter_concat, uploadFile, hsize, List.filter_append, List.map_append, List.sum_append,
      ← hbefore]
    cases huploaded : call.uploaded with
    | false => simp [hsuccess, huploaded]
    | true => simp [hsuccess, huploaded, hfile]

/-- **The notes are right** exactly when the size of every file could be found. -/
theorem accounted_iff (calls : List UploadCall) :
    Accounted (notesAfter calls) calls ↔ ∀ call ∈ calls, call.fileSize.isSome := by
  constructor
  · intro h
    have hall := h.attempts
    rw [counts_notesAfter] at hall
    exact List.countP_eq_length.mp (by exact_mod_cast hall)
  · intro h
    induction calls using List.reverseRecOn with
    | nil => exact ⟨Nat.zero_le _, rfl, rfl, rfl⟩
    | append_singleton calls call ih =>
        obtain ⟨hcalls, hcall⟩ := List.forall_mem_append.mp h
        exact (ih hcalls).step (hcall call (List.mem_singleton_self call))

/-- Tasks of files without a size are not dropped. -/
theorem length_recentTasks_of_none {call : UploadCall} (h : call.fileSize = none) (n : ℕ) :
    (notesAfter (List.replicate n call)).recentTasks.length = n := by
  induction n with
  | zero => rfl
  | succ n ih =>
      rw [List.replicate_succ', notesAfter_concat, uploadFile, h]
      simpa using ih

/-- A recording that was deleted during the scan. -/
def deletedRecording : UploadCall where
  localPath := "/data/recordings/a.mp4".toList
  remoteKey := "loong-nvr/recordings/a.mp4".toList
  fileSize := none
  uploaded := false

/-- An attempt that is counted nowhere, and after 101 of them there are 101 recent tasks. -/
theorem accounted_refuted :
    ¬ Accounted (notesAfter [deletedRecording]) [deletedRecording] ∧
      (notesAfter (List.replicate 101 deletedRecording)).recentTasks.length = 101 := by
  refine ⟨fun h => ?_, length_recentTasks_of_none rfl 101⟩
  have hattempts := h.attempts
  rw [counts_notesAfter] at hattempts
  exact absurd hattempts (by decide)

end LoongNvr.Storage
