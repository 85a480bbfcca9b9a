import PacketProbe.ByteStrings
import PacketProbe.FileTrees
import PacketProbe.TransitionRuns

/-!
# The files at IPC socket paths

`IpcEventServer` removes what is at its socket path: a stale socket before it starts, and its
own socket when it stops or is destroyed. It does not look whether that is a socket.
-/

namespace PacketProbe
open TransitionRuns FileTrees

/-! ### The server -/

/-- The components of a path, the last one first; an absolute path begins with an empty name. -/
abbrev FilePath := List ByteString

def FilePath.text (path : FilePath) : ByteString := [47].intercalate path.reverse

/-- What `UdsServer` does in `start_sync`: whether a socket file is there afterwards, and what
is returned or thrown. -/
structure TransportStart where
  created : Bool
  started : Except StdException Bool

structure IpcEventServer where
  socketPath : FilePath
  server : Bool := false
  isRunning : Bool := false

/-- The outcome of `start`. -/
structure ServerStart where
  files : FileTree ByteString
  server : IpcEventServer
  thrown : Option StdException

namespace IpcEventServer

/-- Stale socket cleanup. -/
def cleanedUp (path : FilePath) (files : FileTree ByteString) : FileTree ByteString :=
  if files.kind path ≠ none ∧ files.kind path ≠ some .directory then files.remove path else files

def start (s : IpcEventServer) (transport : TransportStart) (files : FileTree ByteString) :
    ServerStart :=
  if s.socketPath =
    [] then ⟨files, s, some (invalidArgument (ascii "--ipc requires a socket path"))⟩
  else if s.isRunning then ⟨files, s, none⟩
  else
    let parent : FilePath := s.socketPath.tail
    if parent ≠ [] ∧ files.kind parent = none then
      ⟨files, s,
        some (runtimeError (ascii "IPC socket parent directory does not exist: " ++ parent.text))⟩
    else if files.kind s.socketPath = some .directory then
      ⟨files, s,
        some (runtimeError (ascii "IPC socket path is a directory: " ++ s.socketPath.text))⟩
    else
      let files := cleanedUp s.socketPath files
      let files := if transport.created then files.bind s.socketPath else files
      match transport.started with
      | .error ex => ⟨files, { s with server := true }, some ex⟩
      | .ok false =>
        ⟨files, { s with server := false, isRunning := false },
          some (runtimeError (ascii "failed to start IPC UDS server"))⟩
      | .ok true => ⟨files, { s with server := true, isRunning := true }, none⟩

def stop (s : IpcEventServer) (files : FileTree ByteString) :
    FileTree ByteString × IpcEventServer :=
  (files.remove s.socketPath, { s with server := false, isRunning := false })

end IpcEventServer

/-! ### Runs -/

/-- The file system and the servers that have been constructed and not destroyed. -/
structure IpcServers where
  files : FileTree ByteString
  servers : ℕ → Option IpcEventServer := fun _ => none

inductive IpcServerCall where
  | construct (id : ℕ) (path : FilePath)
  | start (id : ℕ) (transport : TransportStart)
  | stop (id : ℕ)
  | destroy (id : ℕ)

namespace IpcServers

/-- The server becomes this one, or nothing is left of it. -/
def put (s : IpcServers) (id : ℕ) (files : FileTree ByteString) (server : Option IpcEventServer) :
    IpcServers where
  files := files
  servers := fun other => if other = id then server else s.servers other

def perform (s : IpcServers) : IpcServerCall → Option IpcServers
  | .construct id path =>
    if (s.servers id).isSome then none else some (s.put id s.files (some { socketPath := path }))
  | .start id transport =>
    (s.servers id).map fun server =>
      let started := server.start transport s.files
      s.put id started.files (some started.server)
  | .stop id =>
    (s.servers id).map fun server =>
      let (files, server) := server.stop s.files
      s.put id files (some server)
  | .destroy id =>
    -- The destructor calls `stop`.
    (s.servers id).map fun server => s.put id (server.stop s.files).1 none

def Step (s : IpcServers) (call : IpcServerCall) (t : IpcServers) : Prop := s.perform call = some t

/-- A start on a regular file or a directory throws and leaves the files as they are. -/
def StartRefused (s : IpcServers) : IpcServerCall → Prop
  | .start id transport => ∀ server, s.servers id = some server →
      s.files.kind server.socketPath = some .file ∨
        s.files.kind server.socketPath = some .directory →
      (server.start transport s.files).thrown ≠ none ∧
        (server.start transport s.files).files = s.files
  | _ => True

/-- No server is started on a regular file, and none is stopped or destroyed on a regular file or
an empty directory. -/
def Spares (s : IpcServers) : IpcServerCall → Prop
  | .construct _ _ => True
  | .start id _ =>
    ∀ server, s.servers id = some server → s.files.kind server.socketPath ≠ some .file
  | .stop id | .destroy id => ∀ server, s.servers id = some server →
      s.files.kind server.socketPath ≠ some .file ∧ ¬ s.files.IsEmptyDirectory server.socketPath

/-- There is neither a file nor a directory where a server runs. -/
def RunsOnSockets (s : IpcServers) : Prop :=
  ∀ id server, s.servers id = some server → server.isRunning = true →
    s.files.kind server.socketPath ≠ some .file ∧ s.files.kind server.socketPath ≠ some .directory

end IpcServers

/-! ### Steps -/

namespace IpcEventServer

variable {files : FileTree ByteString} {path : FilePath}

theorem cleanedUp_keeps (path : FilePath) (files : FileTree ByteString) :
    (cleanedUp path files).Keeps files := by
  unfold cleanedUp
  split
  · exact files.remove_keeps path
  · exact .refl files

theorem kind_cleanedUp (h : files.kind path = some .file) :
    (cleanedUp path files).kind path = none := by
  have hne : path ≠ [] := by
    rintro rfl
    rw [FileTree.kind_nil] at h
    cases h
  have hdir : files.kind path ≠ some .directory := by
    rw [h]
    decide
  rw [cleanedUp, if_pos ⟨by rw [h]; decide, hdir⟩]
  exact FileTree.kind_remove_self hne (FileTree.hasEntries_of_ne_directory hdir)

theorem keeps_cleanedUp (hfile : files.kind path ≠ some .file) :
    files.Keeps (cleanedUp path files) := by
  unfold cleanedUp
  split
  · rename_i h
    exact FileTree.keeps_remove_iff.2 ⟨hfile, fun hempty => h.2 hempty.2.1⟩
  · exact .refl files

/-- The files after the clean-up and the start of the transport. -/
def startedFiles (s : IpcEventServer) (transport : TransportStart) (files : FileTree ByteString) :
    FileTree ByteString :=
  if transport.created then (cleanedUp s.socketPath files).bind s.socketPath
  else cleanedUp s.socketPath files

/-- A start does nothing, or throws at once, or cleans up. -/
theorem start_cases (s : IpcEventServer) (transport : TransportStart)
    (files : FileTree ByteString) :
    (s.isRunning = true ∧ s.start transport files = ⟨files, s, none⟩) ∨
    (files.kind s.socketPath ≠ some .file ∧ ∃ ex, s.start transport files = ⟨files, s, some ex⟩) ∨
    (files.kind s.socketPath ≠ some .directory ∧ ∃ after thrown,
      s.start transport files = ⟨s.startedFiles transport files, after, thrown⟩ ∧
      after.socketPath = s.socketPath) := by
  unfold start
  by_cases hempty : s.socketPath = []
  · rw [if_pos hempty]
    refine .inr (.inl ⟨?_, _, rfl⟩)
    rw [hempty, FileTree.kind_nil]
    decide
  rw [if_neg hempty]
  by_cases hrunning : s.isRunning = true
  · rw [if_pos hrunning]
    exact .inl ⟨hrunning, rfl⟩
  rw [if_neg hrunning]
  dsimp only
  by_cases hparent : s.socketPath.tail ≠ [] ∧ files.kind s.socketPath.tail = none
  · rw [if_pos hparent]
    refine .inr (.inl ⟨fun hfile => ?_, _, rfl⟩)
    obtain ⟨name, dir, hpath⟩ := List.exists_cons_of_ne_nil hempty
    rw [hpath] at hfile
    rw [hpath, List.tail_cons, FileTree.kind_parent hfile] at hparent
    cases hparent.2
  rw [if_neg hparent]
  by_cases hdir : files.kind s.socketPath = some .directory
  · rw [if_pos hdir]
    refine .inr (.inl ⟨?_, _, rfl⟩)
    rw [hdir]
    decide
  rw [if_neg hdir]
  refine .inr (.inr ⟨hdir, ?_⟩)
  match transport.started with
  | .error ex => exact ⟨_, _, rfl, rfl⟩
  | .ok false => exact ⟨_, _, rfl, rfl⟩
  | .ok true => exact ⟨_, _, rfl, rfl⟩

variable {s : IpcEventServer} {transport : TransportStart}

theorem startedFiles_keeps : (s.startedFiles transport files).Keeps files := by
  have hclean := cleanedUp_keeps s.socketPath files
  unfold startedFiles
  split
  · exact (FileTree.keeps_bind _ _).2.trans hclean
  · exact hclean

theorem keeps_startedFiles (hfile : files.kind s.socketPath ≠ some .file) :
    files.Keeps (s.startedFiles transport files) := by
  have hclean := keeps_cleanedUp hfile
  unfold startedFiles
  split
  · exact hclean.trans (FileTree.keeps_bind _ _).1
  · exact hclean

/-- A file at the socket path is gone. -/
theorem startedFiles_ne (hfile : files.kind s.socketPath = some .file) :
    s.startedFiles transport files ≠ files := by
  intro heq
  have hclean := kind_cleanedUp hfile
  rw [← heq, startedFiles] at hfile
  split at hfile
  · have hkept := (FileTree.keeps_bind _ _).2 _ _ (by decide) hfile
    rw [hclean] at hkept
    cases hkept
  · rw [hclean] at hfile
    cases hfile

/-- A start leaves the files as they are, or it cleans up. -/
theorem start_files (s : IpcEventServer) (transport : TransportStart)
    (files : FileTree ByteString) :
    (s.start transport files).files = files ∨
      (s.start transport files).files = s.startedFiles transport files := by
  rcases s.start_cases transport files with
    ⟨-, hstart⟩ | ⟨-, ex, hstart⟩ | ⟨-, after, thrown, hstart, -⟩
  · exact .inl (congrArg ServerStart.files hstart)
  · exact .inl (congrArg ServerStart.files hstart)
  · exact .inr (congrArg ServerStart.files hstart)

theorem start_keeps : (s.start transport files).files.Keeps files := by
  rcases s.start_files transport files with hsame | hcleaned
  · rw [hsame]
    exact .refl files
  · rw [hcleaned]
    exact startedFiles_keeps

theorem keeps_start (hfile : files.kind s.socketPath ≠ some .file) :
    files.Keeps (s.start transport files).files := by
  rcases s.start_files transport files with hsame | hcleaned
  · rw [hsame]
    exact .refl files
  · rw [hcleaned]
    exact keeps_startedFiles hfile

/-- A server that does not run yet refuses to start on a directory; a file is removed. -/
theorem start_refused_iff (transport : TransportStart)
    (hrunning : s.isRunning = true →
      files.kind s.socketPath ≠ some .file ∧ files.kind s.socketPath ≠ some .directory) :
    (files.kind s.socketPath = some .file ∨ files.kind s.socketPath = some .directory →
      (s.start transport files).thrown ≠ none ∧ (s.start transport files).files = files) ↔
    files.kind s.socketPath ≠ some .file := by
  rcases s.start_cases transport files with
    ⟨hr, hstart⟩ | ⟨hfile, ex, hstart⟩ | ⟨hdir, after, thrown, hstart, -⟩
  · obtain ⟨hfile, hdir⟩ := hrunning hr
    exact iff_of_true (fun h => absurd h (not_or.2 ⟨hfile, hdir⟩)) hfile
  · refine iff_of_true (fun _ => ?_) hfile
    rw [hstart]
    exact ⟨Option.some_ne_none ex, rfl⟩
  · rw [hstart]
    constructor
    · intro h hfile
      exact startedFiles_ne hfile (h (.inl hfile)).2
    · intro hfile h
      exact absurd h (not_or.2 ⟨hfile, hdir⟩)

/-- A server that runs after a start ran before, or its path has no directory, and it has kept its
path. -/
theorem start_running (h : (s.start transport files).server.isRunning = true) :
    (s.start transport files).server.socketPath = s.socketPath ∧
      (s.isRunning = true ∨ files.kind s.socketPath ≠ some .directory) := by
  rcases s.start_cases transport files with
    ⟨hr, hstart⟩ | ⟨-, ex, hstart⟩ | ⟨hdir, after, thrown, hstart, hpath⟩
  · rw [hstart]
    exact ⟨rfl, .inl hr⟩
  · rw [hstart] at h ⊢
    exact ⟨rfl, .inl h⟩
  · rw [hstart]
    exact ⟨hpath, .inr hdir⟩

end IpcEventServer

namespace IpcServers

variable {s t : IpcServers} {call : IpcServerCall} {calls : List IpcServerCall}

/-- What a call does to the files. -/
theorem Step.files_eq (h : Step s call t) :
    (∃ id path, call = .construct id path ∧ t.files = s.files) ∨
    (∃ id transport server, call = .start id transport ∧ s.servers id = some server ∧
      t.files = (server.start transport s.files).files) ∨
    (∃ id server, (call = .stop id ∨ call = .destroy id) ∧ s.servers id = some server ∧
      t.files = s.files.remove server.socketPath) := by
  cases call with
  | construct id path =>
    simp only [Step, perform, Option.ite_none_left_eq_some, Option.some.injEq] at h
    obtain ⟨-, rfl⟩ := h
    exact .inl ⟨id, path, rfl, rfl⟩
  | start id transport =>
    obtain ⟨server, hserver, rfl⟩ := Option.map_eq_some_iff.1 h
    exact .inr (.inl ⟨id, transport, server, rfl, hserver, rfl⟩)
  | stop id =>
    obtain ⟨server, hserver, rfl⟩ := Option.map_eq_some_iff.1 h
    exact .inr (.inr ⟨id, server, .inl rfl, hserver, rfl⟩)
  | destroy id =>
    obtain ⟨server, hserver, rfl⟩ := Option.map_eq_some_iff.1 h
    exact .inr (.inr ⟨id, server, .inr rfl, hserver, rfl⟩)

/-- No call makes a file or a directory. -/
theorem Step.adds_none (h : Step s call t) : t.files.Keeps s.files := by
  rcases h.files_eq with ⟨-, -, -, heq⟩ | ⟨_, _, server, -, -, heq⟩ | ⟨_, server, -, -, heq⟩
  · rw [heq]
    exact .refl s.files
  · rw [heq]
    exact IpcEventServer.start_keeps
  · rw [heq]
    exact s.files.remove_keeps server.socketPath

/-- A server that runs after a call ran before it, or the call started it where no directory was. -/
theorem Step.running_cases (h : Step s call t) {id : ℕ} {server : IpcEventServer}
    (hserver : t.servers id = some server) (hrunning : server.isRunning = true) :
    (∃ old, s.servers id = some old ∧ old.isRunning = true ∧ old.socketPath = server.socketPath) ∨
    ∃ transport started, call = .start id transport ∧ s.servers id = some started ∧
      started.socketPath = server.socketPath ∧
        s.files.kind server.socketPath ≠ some .directory := by
  cases call with
  | construct id' path =>
    simp only [Step, perform, Option.ite_none_left_eq_some, Option.some.injEq] at h
    obtain ⟨-, rfl⟩ := h
    simp only [put] at hserver
    split at hserver
    · cases hserver
      cases hrunning
    · exact .inl ⟨server, hserver, hrunning, rfl⟩
  | start id' transport =>
    obtain ⟨started, hstarted, rfl⟩ := Option.map_eq_some_iff.1 h
    simp only [put] at hserver
    split at hserver
    · rename_i hid
      subst hid
      cases hserver
      obtain ⟨hpath, hr | hdir⟩ := IpcEventServer.start_running hrunning
      · exact .inl ⟨started, hstarted, hr, hpath.symm⟩
      · exact .inr ⟨transport, started, rfl, hstarted, hpath.symm, by rwa [hpath]⟩
    · exact .inl ⟨server, hserver, hrunning, rfl⟩
  | stop id' =>
    obtain ⟨stopped, hstopped, rfl⟩ := Option.map_eq_some_iff.1 h
    simp only [put] at hserver
    split at hserver
    · cases hserver
      cases hrunning
    · exact .inl ⟨server, hserver, hrunning, rfl⟩
  | destroy id' =>
    obtain ⟨stopped, hstopped, rfl⟩ := Option.map_eq_some_iff.1 h
    simp only [put] at hserver
    split at hserver
    · cases hserver
    · exact .inl ⟨server, hserver, hrunning, rfl⟩

theorem Step.runsOnSockets (h : Step s call t) (hs : s.RunsOnSockets) (hspares : s.Spares call) :
    t.RunsOnSockets := by
  have hkept : ∀ {path : FilePath} {k : FileKind}, k ≠ .socket → s.files.kind path ≠ some k →
      t.files.kind path ≠ some k := fun hk hne hkind => hne (h.adds_none _ _ hk hkind)
  intro id server hserver hrunning
  obtain ⟨old, hold, hr, hpath⟩ | ⟨transport, started, rfl, hstarted, hpath, hdir⟩ :=
    h.running_cases hserver hrunning
  · obtain ⟨hfile, hdir⟩ := hs id old hold hr
    rw [hpath] at hfile hdir
    exact ⟨hkept (by decide) hfile, hkept (by decide) hdir⟩
  · have hfile := hspares started hstarted
    rw [hpath] at hfile
    exact ⟨hkept (by decide) hfile, hkept (by decide) hdir⟩

/-- A call keeps all files and directories and is refused where it should be exactly if it spares
them. -/
theorem Step.spares_iff (h : Step s call t) (hs : s.RunsOnSockets) :
    s.files.Keeps t.files ∧ s.StartRefused call ↔ s.Spares call := by
  rcases h.files_eq with ⟨id, path, rfl, heq⟩ | ⟨id, transport, server, rfl, hserver, heq⟩ |
      ⟨id, server, hcall, hserver, heq⟩
  · rw [heq]
    exact iff_of_true ⟨.refl s.files, trivial⟩ trivial
  · have honly : ∀ {P : IpcEventServer → Prop}, (∀ server, s.servers id = some server → P server) ↔
        P server := by
      intro P
      rw [hserver]
      exact ⟨fun hall => hall server rfl, fun hP server' heq' => Option.some.inj heq' ▸ hP⟩
    have hrefused := server.start_refused_iff transport (hs id server hserver)
    rw [StartRefused, Spares, honly, honly, hrefused, heq]
    exact and_iff_right_of_imp IpcEventServer.keeps_start
  · have hspares : s.Spares call ↔ ∀ server, s.servers id = some server →
        s.files.kind server.socketPath ≠ some .file ∧
          ¬ s.files.IsEmptyDirectory server.socketPath := by
      rcases hcall with rfl | rfl <;> rfl
    have hrefused : s.StartRefused call := by
      rcases hcall with rfl | rfl <;> trivial
    rw [hspares, heq, FileTree.keeps_remove_iff, hserver]
    constructor
    · rintro ⟨hkept, -⟩ server' heq'
      cases heq'
      exact hkept
    · intro hall
      exact ⟨hall server rfl, hrefused⟩

theorem adds_none_of_run (h : Run Step s calls t) : t.files.Keeps s.files := by
  induction h with
  | nil s => exact .refl s.files
  | cons hstep _ ih => exact ih.trans hstep.adds_none

theorem keeps_and_refused_iff (h : Run Step s calls t) (hs : s.RunsOnSockets) :
    s.files.Keeps t.files ∧ Run (Guarded Step StartRefused) s calls t ↔
      Run (Guarded Step Spares) s calls t := by
  induction h with
  | nil s => exact iff_of_true ⟨.refl s.files, .nil s⟩ (.nil s)
  | cons hstep hrest ih =>
    have hspares := hstep.spares_iff hs
    constructor
    · rintro ⟨hkeeps, hrefused⟩
      cases hrefused with
      | cons hguarded hbehind =>
        obtain ⟨hrefused, hstep'⟩ := hguarded
        cases Option.some.inj (hstep.symm.trans hstep')
        -- What is there at the end has been there all the time.
        have hcall := hspares.1 ⟨hkeeps.trans (adds_none_of_run hrest), hrefused⟩
        exact .cons ⟨hcall, hstep⟩ ((ih (hstep.runsOnSockets hs hcall)).1
          ⟨hstep.adds_none.trans hkeeps, hbehind⟩)
    · intro hguarded
      cases hguarded with
      | cons hguarded hbehind =>
        obtain ⟨hcall, hstep'⟩ := hguarded
        cases Option.some.inj (hstep.symm.trans hstep')
        obtain ⟨hkept, hrefused⟩ := hspares.2 hcall
        obtain ⟨hrestKept, hrestRefused⟩ := (ih (hstep.runsOnSockets hs hcall)).2 hbehind
        exact ⟨hkept.trans hrestKept, .cons ⟨hrefused, hstep⟩ hrestRefused⟩

end IpcServers

open IpcServers

/-- In a run of the servers on any file system, all files and directories stay and every start on
one of them is refused, exactly if every call spares them. -/
theorem only_sockets_removed_iff {files : FileTree ByteString} {calls : List IpcServerCall}
    {t : IpcServers} (hrun : Run Step { files := files } calls t) :
    files.Keeps t.files ∧ Run (Guarded Step StartRefused) { files := files } calls t ↔
      Run (Guarded Step Spares) { files := files } calls t := by
  apply keeps_and_refused_iff hrun
  intro id server hserver
  cases hserver

/-- A capture file where the socket should be. -/
def capturePath : FilePath := [ascii "capture.jsonl"]

def captureFiles : FileTree ByteString where
  entries := .singleton capturePath .file
  inDirectory := by
    intro name dir hmem
    have hpath : name :: dir = capturePath :=
      (List.mem_singleton.1 (AList.keys_singleton capturePath _ ▸ hmem))
    cases hpath
    exact .inl rfl

/-- The file goes when a server is started on it. -/
theorem start_removes_file :
    ∃ t, Run Step { files := captureFiles }
        [.construct 0 capturePath, .start 0 ⟨true, .ok true⟩] t ∧
      ¬ captureFiles.Keeps t.files := by
  refine ⟨_, .cons rfl (.cons rfl (.nil _)), fun h => ?_⟩
  have hkept := h capturePath .file (by decide) (by decide)
  exact absurd hkept (by decide)

/-- A socket next to the file comes and goes. -/
theorem only_sockets_removed_beside_file :
    ∃ t, Run Step { files := captureFiles }
        [.construct 0 [ascii "p.sock"], .start 0 ⟨true, .ok true⟩, .destroy 0] t ∧
      captureFiles.Keeps t.files := by
  obtain ⟨t, hspared⟩ : ∃ t, Run (Guarded Step Spares) { files := captureFiles }
      [.construct 0 [ascii "p.sock"], .start 0 ⟨true, .ok true⟩, .destroy 0] t := by
    refine ⟨_, .cons ⟨trivial, rfl⟩ (.cons ⟨fun server hserver => ?_, rfl⟩
      (.cons ⟨fun server hserver => ?_, rfl⟩ (.nil _)))⟩
    · cases hserver
      decide
    · cases hserver
      exact ⟨by decide, fun hempty => absurd hempty.2.1 (by decide)⟩
  have hrun := hspared.mono (fun _ _ _ h => h.2)
  exact ⟨t, hrun, ((only_sockets_removed_iff hrun).2 hspared).1⟩

end PacketProbe
