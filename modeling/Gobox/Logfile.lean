import Gobox.Basic
import Gobox.Signals
import Gobox.Telefork

/-!
`logfile.Hook` (`pkg/cli/logfile/logfile_unix.go`): a CLI re-runs itself, in a PTY when stdin and stdout are
terminals and with its standard streams copied otherwise, and records the re-run's output to a log file, which it
renames once complete; and `trace.CommonProps` (the logfile tracer of `pkg/trace`), the properties a CLI's traces carry.

`Hook()` is a function of what the environment and its calls into the OS return (`Os`) and of the package's
constants, which are defined outside the files modelled (`Consts`). It gives its outcome (a returned error, or
`os.Exit`) and the effects it had, in order (`Event`). It is cut along the code's phases: `setup` (the home directory,
the log directory and file, the trace server), the re-run in a PTY (`runPty`, with `ptyOutputHook`) or without
(`runPlain`), and `complete` (closing and renaming the log file, the exit). An error made by `errors.Wrap(err, msg)`
is its messages, outermost first, and the error at the bottom of the chain.

The output goroutine of `ptyOutputHook` ends once the PTY's output ends. Its last steps (restoring stdin,
`rec.Shutdown()`) may run before or after `cmd.Wait()` returns, and `<-exited` waits for them: the trace puts them
after `cmd.Wait()`. `hook` takes `forwardSignals` to return; the section on it shows a run where it does not.

`forwardSignals` is a step machine (`Fwd`) of its goroutine, the statement after it (`c <- syscall.SIGWINCH`), the
output goroutine closing `exited`, and the signals the OS delivers to `c`. Every list of `FwdOp` is an
interleaving, and a `select` with both cases ready may take either.

Results:
- `rerun_hook_noop`: the process `Hook` re-runs gets the loop guard and the port of the trace server, so its own
  `Hook()` returns nil at once and does nothing: there is one re-run, never a chain of them.
- `hook_exits_with_rerun_code`: `Hook` returns nil only in the re-run. When it exits, it is with the re-run's exit code,
  after the re-run ended, stdin was restored if it had been made raw, the recorder was shut down, and the log file it
  created was closed and renamed to its completed name.
- `hook_error_paths`: every error `Hook` returns is wrapped with the message of the step that failed and leaves the log
  file under its in-progress name. A re-run it started has ended by then unless `ptyOutputHook` failed, and stdin is
  left raw only when `term.GetSize` failed.
- `forwardSignals_blocks_hook`: if the output ends and a signal fills `c` before the goroutine's `select`, the goroutine
  may take `<-exited` and return. `c` then stays full and `c <- syscall.SIGWINCH` never completes, whatever happens
  next, so `Hook` never reaches `cmd.Wait()`.
- `commonProps_personal_fields`: the developer's e-mail, user name, host name and working directory are added only when
  `git config user.email` prints an `@outreach.io` address, and the e-mail is added without its newline.
-/

namespace Gobox.Logfile

/-! ## `Hook()` -/

/-- the package's constants `EnvironmentVariable`, `TracePortEnvironmentVariable`, `LogDirectoryBase`,
`InProgressSuffix` and `LogExtension` -/
structure Consts where
  environmentVariable : String
  tracePortEnvironmentVariable : String
  logDirectoryBase : String
  inProgressSuffix : String
  logExtension : String
deriving DecidableEq, Repr

/-- the error of `cmd.Wait()` or `cmd.Run()`: an `*exec.ExitError` with its `ExitCode()` (`-1` for a re-run killed by a
signal), or another error -/
inductive CmdErr where
  | exit (code : Int)
  | other (e : GoErr)
deriving DecidableEq, Repr

/-- what the environment and the calls into the OS give `Hook()` -/
structure Os where
  /-- `os.Environ()`, an entry `KEY=VALUE` being the pair -/
  environ : List (String × String)
  /-- `term.IsTerminal` of stdin -/
  stdinTerminal : Bool
  /-- `term.IsTerminal` of stdout -/
  stdoutTerminal : Bool
  userHomeDir : Except GoErr String
  /-- `app.Info().Name` -/
  appName : String
  /-- `os.Stat(logDir)` returns an error that `errors.Is` `os.ErrNotExist` -/
  logDirMissing : Bool
  mkdirAll : Option GoErr
  /-- `uuid.New()` -/
  uuid : String
  create : Option GoErr
  /-- `net.Listen(TraceSocketType, "localhost:0")`: the port it listens on -/
  listen : Except GoErr Nat
  ptyStart : Option GoErr
  /-- `term.MakeRaw` of stdin -/
  makeRaw : Option GoErr
  /-- `term.GetSize` of stdin -/
  getSize : Option GoErr
  /-- what `cmd.Wait()` or `cmd.Run()` returns -/
  cmdErr : Option CmdErr
  rename : Option GoErr

/-- an effect of `Hook()` that took place -/
inductive Event where
  /-- `os.MkdirAll(logDir, 0o755)` -/
  | mkdirAll (dir : String)
  /-- `os.Create(path)` -/
  | create (path : String)
  /-- the trace server listens on `port` -/
  | listen (port : Nat)
  /-- the re-run starts (`pty.Start(cmd)` or `cmd.Run()`) with environment `env` -/
  | run (env : List (String × String))
  /-- `term.MakeRaw`: stdin is in raw mode -/
  | makeRaw
  /-- the re-run has ended: `cmd.Wait()` or `cmd.Run()` returned -/
  | wait
  /-- `term.Restore`: stdin is back in its old mode -/
  | restore
  /-- `rec.Shutdown()`: the trace server is told to shut down -/
  | shutdownRecorder
  /-- `logFile.Close()` -/
  | closeLog
  /-- `os.Rename(src, dst)` -/
  | rename (src dst : String)
deriving DecidableEq, Repr

/-- an error made by `errors.Wrap`: its messages, outermost first, and the error it wraps -/
structure Wrapped where
  msgs : List String
  cause : GoErr
deriving DecidableEq, Repr

/-- `errors.Wrap(err, msg)` -/
def wrap (e : GoErr) (msg : String) : Wrapped := ⟨[msg], e⟩

/-- `errors.Wrap(err, msg)` of an error made by `errors.Wrap` -/
def Wrapped.wrap (w : Wrapped) (msg : String) : Wrapped := ⟨msg :: w.msgs, w.cause⟩

/-- how `Hook()` ends: it returns nil or an error, or the process exits with `os.Exit(code)` -/
inductive Outcome where
  | ret (err : Option Wrapped)
  | exit (code : Int)
deriving DecidableEq, Repr

/-- `os.LookupEnv(key)` finds `key` -/
def lookupEnv (env : List (String × String)) (key : String) : Bool := env.any (·.1 == key)

/-- the home directory, the log directory, the log file and the trace server: the effects, and the log file's path
and the port, or the error `Hook()` returns -/
def setup (c : Consts) (join : List String → String) (os : Os) : List Event × Except Wrapped (String × Nat) :=
  match os.userHomeDir with
  | .error e => ([], .error (wrap e "failed to get user's home directory"))
  | .ok homeDir =>
    let logDir := join [homeDir, c.logDirectoryBase, os.appName]
    match os.logDirMissing, os.mkdirAll with
    | true, some e => ([], .error (wrap e "failed to create log directory"))
    | missing, _ =>
      let made := if missing then [Event.mkdirAll logDir] else []
      let logPath := join [logDir, os.uuid ++ "_inprog." ++ c.logExtension]
      match os.create, os.listen with
      | some e, _ => (made, .error (wrap e "failed to create log file"))
      | none, .error e => (made ++ [.create logPath], .error (wrap e "failed to start trace server"))
      | none, .ok port => (made ++ [.create logPath, .listen port], .ok (logPath, port))

/-- `attachStdinToPty()`: whether the func it returns restores stdin, or the error of `term.MakeRaw` -/
def attachStdinToPty (os : Os) : Except GoErr Bool :=
  if !os.stdinTerminal then .ok false else
    match os.makeRaw with
    | some e => .error e
    | none => .ok true

/-- `ptyOutputHook(l, cmd, ptmx, logFile)` up to its return: the effects, and whether its output goroutine restores
stdin when it ends, or the error -/
def ptyOutputHook (os : Os) : List Event × Except Wrapped Bool :=
  match attachStdinToPty os with
  | .error e => ([], .error (wrap e "failed to attach stdin to pty"))
  | .ok raw =>
    let made := if raw then [Event.makeRaw] else []
    match os.getSize with
    | some e => (made, .error (wrap e "failed to get terminal size"))
    | none => (made, .ok raw)

/-- the re-run in a PTY: `pty.Start(cmd)`, `ptyOutputHook`, `forwardSignals`, `cmd.Wait()`, `ptmx.Close()` and
`<-exited`, which waits for the output goroutine to restore stdin and shut the recorder down -/
def runPty (os : Os) (env : List (String × String)) : List Event × Except Wrapped (Option CmdErr) :=
  match os.ptyStart with
  | some e => ([], .error (wrap e "failed to start pty"))
  | none =>
    match ptyOutputHook os with
    | (made, .error w) => (.run env :: made, .error (w.wrap "failed to hook into pty output"))
    | (made, .ok raw) =>
      (.run env :: made ++ .wait :: (if raw then [.restore] else []) ++ [.shutdownRecorder], .ok os.cmdErr)

/-- the re-run without a terminal: `cmd.Run()`, then `rec.Shutdown()` -/
def runPlain (os : Os) (env : List (String × String)) : List Event × Option CmdErr :=
  ([.run env, .wait, .shutdownRecorder], os.cmdErr)

/-- the re-run, in a PTY when stdin and stdout are terminals -/
def rerun (os : Os) (env : List (String × String)) : List Event × Except Wrapped (Option CmdErr) :=
  if os.stdinTerminal && os.stdoutTerminal then runPty os env else ((runPlain os env).1, .ok (runPlain os env).2)

/-- `cmd.Env`: `os.Environ()`, the loop guard, and the trace server's port -/
def rerunEnv (c : Consts) (os : Os) (port : Nat) : List (String × String) :=
  os.environ ++ [(c.environmentVariable, "1"), (c.tracePortEnvironmentVariable, toString port)]

/-- the path `os.Rename` gives the log file -/
def completedPath (c : Consts) (logPath : String) : String :=
  Telefork.trimSuffix logPath (c.inProgressSuffix ++ "." ++ c.logExtension) ++ "." ++ c.logExtension

/-- the exit code `Hook()` passes on: the re-run's, 1 when the error has none, 0 on success -/
def exitCode : Option CmdErr → Int
  | none => 0
  | some (.exit code) => code
  | some (.other _) => 1

/-- `logFile.Close()`, `os.Rename`, and `os.Exit` with the re-run's exit code -/
def complete (c : Consts) (os : Os) (logPath : String) (cmdErr : Option CmdErr) : List Event × Outcome :=
  match os.rename with
  | some e => ([.closeLog], .ret (some (wrap e "failed to rename log file to be completed")))
  | none => ([.closeLog, .rename logPath (completedPath c logPath)], .exit (exitCode cmdErr))

/-- `Hook()`, `join` being `filepath.Join` -/
def hook (c : Consts) (join : List String → String) (os : Os) : List Event × Outcome :=
  if lookupEnv os.environ c.environmentVariable then ([], .ret none) else
    match setup c join os with
    | (made, .error w) => (made, .ret (some w))
    | (made, .ok (logPath, port)) =>
      match rerun os (rerunEnv c os port) with
      | (ran, .error w) => (made ++ ran, .ret (some w))
      | (ran, .ok cmdErr) => (made ++ ran ++ (complete c os logPath cmdErr).1, (complete c os logPath cmdErr).2)

/-- the messages `Hook()` wraps its errors with, one per step that can fail -/
def hookMessages : List String :=
  ["failed to get user's home directory", "failed to create log directory", "failed to create log file",
    "failed to start trace server", "failed to start pty", "failed to hook into pty output",
    "failed to rename log file to be completed"]

/-! ## The phases -/

/-- an effect of `setup` -/
def Event.ofSetup : Event → Bool
  | .mkdirAll _ | .create _ | .listen _ => true
  | _ => false

/-- what `setup` does: only its own effects; the log file and the trace server when it succeeds; and one of the
first four messages when it fails -/
theorem setup_spec {c : Consts} {join : List String → String} {os : Os} {made : List Event}
    {r : Except Wrapped (String × Nat)} (h : setup c join os = (made, r)) :
    (∀ e ∈ made, e.ofSetup) ∧ (∀ logPath port, r = .ok (logPath, port) →
      Event.create logPath ∈ made ∧ Event.listen port ∈ made) ∧
    ∀ w, r = .error w → w.msgs.head? ∈ (hookMessages.take 4).map some := by
  unfold setup at h
  dsimp only at h
  split at h
  · cases h; simp [wrap, hookMessages]
  · split at h
    · cases h; simp [wrap, hookMessages]
    · split at h <;> cases h <;> split <;> simp [Event.ofSetup, wrap, hookMessages]

/-- what `ptyOutputHook` does before it returns: stdin made raw if that is what `attachStdinToPty` did, and that
only; and when it fails after that, `term.GetSize` failed -/
theorem ptyOutputHook_spec {os : Os} {made : List Event} {r : Except Wrapped Bool} (h : ptyOutputHook os = (made, r)) :
    (∀ raw, r = .ok raw → made = if raw then [.makeRaw] else []) ∧
      (∀ e ∈ made, e = .makeRaw) ∧ ∀ w, r = .error w → Event.makeRaw ∈ made → w.msgs = ["failed to get terminal size"] := by
  unfold ptyOutputHook at h
  dsimp only at h
  split at h
  · cases h; simp
  · split at h <;> cases h <;> split <;> simp [*, wrap]

/-- a re-run that got as far as `cmd.Wait()`: it ran, ended, stdin was restored if it had been made raw, and the
recorder was shut down -/
theorem rerun_ok {os : Os} {env : List (String × String)} {ran : List Event} {cmdErr : Option CmdErr}
    (h : rerun os env = (ran, .ok cmdErr)) :
    cmdErr = os.cmdErr ∧ ∃ raw : Bool,
      ran = .run env :: (if raw then [.makeRaw] else []) ++ .wait :: (if raw then [.restore] else []) ++
        [.shutdownRecorder] := by
  unfold rerun runPty runPlain at h
  split at h
  · split at h
    · cases h
    · split at h
      · cases h
      · rename_i made raw hp
        cases h
        exact ⟨rfl, raw, by rw [(ptyOutputHook_spec hp).1 raw rfl]⟩
  · cases h
    exact ⟨rfl, false, rfl⟩

/-- a re-run that failed: `pty.Start` failed, or `ptyOutputHook` failed after it, with stdin made raw only when
`term.GetSize` was what failed -/
theorem rerun_error {os : Os} {env : List (String × String)} {ran : List Event} {w : Wrapped}
    (h : rerun os env = (ran, .error w)) :
    (ran = [] ∧ w.msgs.head? = some "failed to start pty") ∨
      (w.msgs.head? = some "failed to hook into pty output" ∧ Event.run env ∈ ran ∧
        (Event.makeRaw ∈ ran → w.msgs = ["failed to hook into pty output", "failed to get terminal size"]) ∧
        ∀ e ∈ ran, e = .run env ∨ e = .makeRaw) := by
  unfold rerun runPty at h
  split at h
  · split at h
    · cases h; exact .inl ⟨rfl, rfl⟩
    · split at h
      · rename_i made w' hp
        cases h
        obtain ⟨-, hm, hr⟩ := ptyOutputHook_spec hp
        refine .inr ⟨rfl, by simp, fun h => ?_, fun e he => ?_⟩
        · simp [Wrapped.wrap, hr _ rfl (by simpa using h)]
        · rcases List.mem_cons.1 he with rfl | he
          · exact .inl rfl
          · exact .inr (hm e he)
      · cases h
  · cases h

theorem complete_ok {c : Consts} {os : Os} {logPath : String} {cmdErr : Option CmdErr} {n : Int}
    (h : (complete c os logPath cmdErr).2 = .exit n) :
    n = exitCode cmdErr ∧ (complete c os logPath cmdErr).1 = [.closeLog, .rename logPath (completedPath c logPath)] := by
  unfold complete at *
  split at h
  · cases h
  · cases h; simp_all

/-- the ways `hook` can end, one per phase -/
theorem hook_cases (c : Consts) (join : List String → String) (os : Os) :
    (lookupEnv os.environ c.environmentVariable = true ∧ hook c join os = ([], .ret none)) ∨
    (lookupEnv os.environ c.environmentVariable = false ∧
      ((∃ w, setup c join os = ((hook c join os).1, .error w) ∧ (hook c join os).2 = .ret (some w)) ∨
       ∃ made logPath port, setup c join os = (made, .ok (logPath, port)) ∧
        ((∃ ran w, rerun os (rerunEnv c os port) = (ran, .error w) ∧ hook c join os = (made ++ ran, .ret (some w))) ∨
         ∃ ran cmdErr, rerun os (rerunEnv c os port) = (ran, .ok cmdErr) ∧
          hook c join os = (made ++ ran ++ (complete c os logPath cmdErr).1, (complete c os logPath cmdErr).2)))) := by
  unfold hook
  split
  · exact .inl ⟨‹_›, rfl⟩
  · refine .inr ⟨Bool.eq_false_iff.2 ‹_›, ?_⟩
    split
    · exact .inl ⟨_, ‹_›, rfl⟩
    · refine .inr ⟨_, _, _, ‹_›, ?_⟩
      split
      · exact .inl ⟨_, _, ‹_›, rfl⟩
      · exact .inr ⟨_, _, ‹_›, rfl⟩

/-! ## What `Hook()` does -/

/-- **The re-run does not re-run.** The process `Hook` starts gets the loop guard and the port the trace server
listens on; its own `Hook()`, whatever its OS gives it, returns nil and has no effect. -/
theorem rerun_hook_noop (c : Consts) (join : List String → String) (os : Os) (env : List (String × String))
    (h : Event.run env ∈ (hook c join os).1) :
    (∃ port, Event.listen port ∈ (hook c join os).1 ∧ (c.tracePortEnvironmentVariable, toString port) ∈ env) ∧
      ∀ os' : Os, hook c join { os' with environ := env } = ([], .ret none) := by
  have hrun : ∃ port, Event.listen port ∈ (hook c join os).1 ∧ env = rerunEnv c os port := by
    rcases hook_cases c join os with ⟨-, hh⟩ | ⟨-, ⟨w, hs, -⟩ | ⟨made, logPath, port, hs, hr⟩⟩
    · simp [hh] at h
    · exact absurd ((setup_spec hs).1 _ h) (by simp [Event.ofSetup])
    · have hl := ((setup_spec hs).2.1 _ _ rfl).2
      have hmade : Event.run env ∉ made := fun hm => absurd ((setup_spec hs).1 _ hm) (by simp [Event.ofSetup])
      rcases hr with ⟨ran, w, hr, hh⟩ | ⟨ran, cmdErr, hr, hh⟩
      · rw [hh] at h ⊢
        refine ⟨port, by simp [hl], ?_⟩
        rcases List.mem_append.1 h with h | h
        · exact absurd h hmade
        · rcases rerun_error hr with ⟨rfl, -⟩ | ⟨-, -, -, hm⟩
          · simp at h
          · simpa using hm _ h
      · rw [hh] at h ⊢
        refine ⟨port, by simp [hl], ?_⟩
        obtain ⟨-, raw, rfl⟩ := rerun_ok hr
        have hc : Event.run env ∉ (complete c os logPath cmdErr).1 := by unfold complete; split <;> simp
        simp only [List.mem_append, List.mem_cons] at h
        rcases h with (h | h) | h
        · exact absurd h hmade
        · split at h <;> simp_all
        · exact absurd h hc
  obtain ⟨port, hl, rfl⟩ := hrun
  exact ⟨⟨port, hl, by simp [rerunEnv]⟩, fun os' => by simp [hook, lookupEnv, rerunEnv]⟩

/-- **`Hook` passes on the re-run's exit code, once everything is flushed.** It returns nil only when the loop guard
is set. When it exits, the code is the re-run's exit code (1 for an error without one, 0 on success), and its effects
end with: the re-run ending, stdin restored exactly when it had been made raw, the recorder shut down, and the log
file it created closed and renamed to its completed name. -/
theorem hook_exits_with_rerun_code (c : Consts) (join : List String → String) (os : Os) :
    ((hook c join os).2 = .ret none ↔ lookupEnv os.environ c.environmentVariable = true) ∧
    ∀ n, (hook c join os).2 = .exit n → n = exitCode os.cmdErr ∧
      ∃ pre mid logPath env, (hook c join os).1 =
          pre ++ .wait :: mid ++ [.shutdownRecorder, .closeLog, .rename logPath (completedPath c logPath)] ∧
        Event.create logPath ∈ pre ∧ Event.run env ∈ pre ∧ (Event.makeRaw ∈ pre ↔ Event.restore ∈ mid) := by
  rcases hook_cases c join os with ⟨hg, hh⟩ | ⟨hg, ⟨w, -, hh⟩ | ⟨made, logPath, port, hs, hr⟩⟩
  · simp [hh, hg]
  · simp [hh, hg]
  · rcases hr with ⟨ran, w, -, hh⟩ | ⟨ran, cmdErr, hr, hh⟩
    · simp [hh, hg]
    · rw [hh]
      obtain ⟨rfl, raw, rfl⟩ := rerun_ok hr
      refine ⟨by cases hrn : os.rename <;> simp [complete, hrn, hg], fun n hn => ?_⟩
      obtain ⟨rfl, hc⟩ := complete_ok hn
      have hraw : Event.makeRaw ∉ made := fun hm => absurd ((setup_spec hs).1 _ hm) (by simp [Event.ofSetup])
      refine ⟨rfl, made ++ .run (rerunEnv c os port) :: (if raw then [.makeRaw] else []),
        if raw then [.restore] else [], logPath, rerunEnv c os port, by rw [hc]; simp, by simp [((setup_spec hs).2.1 _ _ rfl).1],
        by simp, ?_⟩
      cases raw <;> simp [hraw]

/-- **How `Hook` fails.** Every error it returns is wrapped with the message of the step that failed, and the log
file is never renamed to its completed name. A re-run it started has ended, unless `ptyOutputHook` failed after
`pty.Start`; and stdin is left in raw mode only when `term.GetSize` failed. -/
theorem hook_error_paths (c : Consts) (join : List String → String) (os : Os) (w : Wrapped)
    (h : (hook c join os).2 = .ret (some w)) :
    w.msgs.head? ∈ hookMessages.map some ∧ (∀ src dst, Event.rename src dst ∉ (hook c join os).1) ∧
      ((∃ env, Event.run env ∈ (hook c join os).1) →
        Event.wait ∈ (hook c join os).1 ∨ w.msgs.head? = some "failed to hook into pty output") ∧
      (Event.makeRaw ∈ (hook c join os).1 →
        Event.restore ∈ (hook c join os).1 ∨ w.msgs = ["failed to hook into pty output", "failed to get terminal size"]) := by
  rcases hook_cases c join os with ⟨-, hh⟩ | ⟨-, ⟨w', hs, hh⟩ | ⟨made, logPath, port, hs, hr⟩⟩
  · simp [hh] at h
  · obtain rfl : w' = w := by simpa [hh] using h
    have hm := (setup_spec hs).2.2 _ rfl
    have hne := (setup_spec hs).1
    refine ⟨by simp [hookMessages] at hm ⊢; tauto, fun src dst hd => absurd (hne _ hd) (by simp [Event.ofSetup]),
      fun ⟨env, he⟩ => absurd (hne _ he) (by simp [Event.ofSetup]), fun he => absurd (hne _ he) (by simp [Event.ofSetup])⟩
  · have hne := (setup_spec hs).1
    rcases hr with ⟨ran, w', hr, hh⟩ | ⟨ran, cmdErr, hr, hh⟩
    · obtain rfl : w' = w := by simpa [hh] using h
      rw [hh]
      rcases rerun_error hr with ⟨rfl, hm⟩ | ⟨hm, -, hraw, hran⟩
      · refine ⟨by simp [hm, hookMessages], fun src dst hd => ?_, fun ⟨env, he⟩ => ?_, fun he => ?_⟩
        · exact absurd (hne _ (by simpa using hd)) (by simp [Event.ofSetup])
        · exact absurd (hne _ (by simpa using he)) (by simp [Event.ofSetup])
        · exact absurd (hne _ (by simpa using he)) (by simp [Event.ofSetup])
      · refine ⟨by simp [hm, hookMessages], fun src dst hd => ?_, fun _ => .inr hm, fun he => .inr ?_⟩
        · rcases List.mem_append.1 hd with hd | hd
          · exact absurd (hne _ hd) (by simp [Event.ofSetup])
          · rcases hran _ hd with h' | h' <;> cases h'
        · rcases List.mem_append.1 he with he | he
          · exact absurd (hne _ he) (by simp [Event.ofSetup])
          · exact hraw he
    · obtain ⟨rfl, raw, rfl⟩ := rerun_ok hr
      cases hrn : os.rename with
      | none => simp [hh, complete, hrn] at h
      | some e =>
        simp only [complete, hrn] at hh
        obtain rfl : wrap e "failed to rename log file to be completed" = w := by simpa [hh] using h
        rw [hh]
        have hmr : Event.makeRaw ∉ made := fun hm => absurd (hne _ hm) (by simp [Event.ofSetup])
        refine ⟨by simp [wrap, hookMessages], fun src dst hd => ?_, fun _ => .inl (by simp),
          fun hm => .inl (by cases raw <;> simp [hmr] at hm ⊢)⟩
        simp only [List.mem_append, List.mem_singleton] at hd
        rcases hd with (hd | hd) | hd
        · exact absurd (hne _ hd) (by simp [Event.ofSetup])
        · cases raw <;> simp at hd
        · cases hd

/-! ## `forwardSignals` -/

/-- `syscall.SIGWINCH` -/
def sigwinch : Nat := 28

/-- the signals `forwardSignals` subscribes `c` to: `os.Interrupt`, `SIGTERM`, `SIGHUP` and `SIGWINCH` -/
def forwardedSignals : List Nat := [Signals.sigint, Signals.sigterm, Signals.sighup, sigwinch]

/-- `forwardSignals`, once `signal.Notify` and `go func()` have run -/
structure Fwd where
  /-- the buffer of `c`, of capacity 1 -/
  buf : List Nat
  /-- `signal.Stop(c)` has not run -/
  notify : Bool
  /-- the goroutine has returned -/
  returned : Bool
  /-- `c <- syscall.SIGWINCH` has completed: `forwardSignals` has returned -/
  sent : Bool
  /-- `exited` is closed -/
  exited : Bool
  /-- the signals passed to `cmd.Process.Signal` -/
  forwarded : List Nat
  /-- the `pty.InheritSize` calls -/
  resized : Nat
deriving DecidableEq, Repr

def Fwd.init : Fwd := ⟨[], true, false, false, false, [], 0⟩

inductive FwdOp where
  /-- the OS delivers signal `n` -/
  | signal (n : Nat)
  /-- the output goroutine of `ptyOutputHook` closes `exited` -/
  | exit
  /-- the goroutine's `select` takes `<-exited`: `signal.Stop(c)`, and it returns -/
  | takeExited
  /-- the goroutine's `select` takes `s := <-c` -/
  | takeSignal
  /-- `c <- syscall.SIGWINCH` -/
  | send
deriving DecidableEq, Repr

/-- one step; `os/signal` never blocks, so a signal for a full `c` is dropped -/
def Fwd.step (s : Fwd) : FwdOp → Fwd
  | .signal n =>
    if s.notify && forwardedSignals.contains n && s.buf.length < 1 then { s with buf := s.buf ++ [n] } else s
  | .exit => { s with exited := true }
  | .takeExited => if !s.returned && s.exited then { s with notify := false, returned := true } else s
  | .takeSignal =>
    match s.returned, s.buf with
    | false, n :: rest =>
      if n = sigwinch then { s with buf := rest, resized := s.resized + 1 }
      else { s with buf := rest, forwarded := s.forwarded ++ [n] }
    | _, _ => s
  | .send => if !s.sent && s.buf.length < 1 then { s with buf := s.buf ++ [sigwinch], sent := true } else s

def Fwd.run (s : Fwd) (ops : List FwdOp) : Fwd := ops.foldl Fwd.step s

/-- the send is blocked for good: `c` is full, its goroutine has returned and it is no longer subscribed -/
structure Fwd.Blocked (s : Fwd) : Prop where
  unsent : s.sent = false
  full : s.buf.length = 1
  returned : s.returned = true
  stopped : s.notify = false

theorem Fwd.Blocked.step {s : Fwd} (h : s.Blocked) (o : FwdOp) : (s.step o).Blocked := by
  obtain ⟨h1, h2, h3, h4⟩ := h
  have : s.step o = s ∨ s.step o = { s with exited := true } := by
    cases o <;> simp [Fwd.step, h1, h2, h3, h4]
  rcases this with h | h <;> rw [h] <;> exact ⟨h1, h2, h3, h4⟩

theorem Fwd.Blocked.run {s : Fwd} (h : s.Blocked) (ops : List FwdOp) : (s.run ops).Blocked := by
  induction ops generalizing s with
  | nil => exact h
  | cons o ops ih => exact ih (h.step o)

/-- **`forwardSignals` can block `Hook` for good.** The output ends (`exited` is closed) and a signal `c` is
subscribed to arrives before the goroutine's `select`, which takes `<-exited`. Whatever happens next,
`c <- syscall.SIGWINCH` never completes, so `Hook` never reaches `cmd.Wait()`. -/
theorem forwardSignals_blocks_hook (n : Nat) (hn : n ∈ forwardedSignals) (ops : List FwdOp) :
    (Fwd.init.run ([.signal n, .exit, .takeExited] ++ ops)).sent = false := by
  have hb : (Fwd.init.run [.signal n, .exit, .takeExited]).Blocked := by
    simp [Fwd.run, Fwd.step, Fwd.init, List.elem_eq_mem, hn] ; exact ⟨rfl, rfl, rfl, rfl⟩
  rw [Fwd.run, List.foldl_append]
  exact (hb.run ops).unsent

theorem forwardSignals_blocks_hook_on_resize :
    sigwinch ∈ forwardedSignals ∧ (Fwd.init.run [.signal sigwinch, .exit, .takeExited, .takeSignal, .send]).sent = false :=
  ⟨by decide, forwardSignals_blocks_hook sigwinch (by decide) [.takeSignal, .send]⟩

/-! ## `trace.CommonProps()` -/

/-- `CommonProps()`: `goos` and `goarch` are `runtime.GOOS` and `runtime.GOARCH`, `gitEmail` what
`git config user.email` prints (`none` when it fails), and the user name, host name and working directory what
`user.Current`, `os.Hostname` and `os.Getwd` give (`none` when they fail). The `log.F` it returns is a Go map, held
as a list of entries with distinct keys (`Telefork.put` replaces a key's entry); the order of the list means
nothing, and the statements below read the map only through `lookup` and its keys. -/
def commonProps (goos goarch : String) (gitEmail username hostname workDir : Option String) : List (String × String) :=
  let props := [("os.name", goos), ("os.arch", goarch)]
  match gitEmail with
  | none => props
  | some b =>
    let email := Telefork.trimSuffix b "\n"
    if "@outreach.io".toList.isSuffixOf email.toList then
      let props := Telefork.put props "dev.email" email
      let props := match username with | some u => Telefork.put props "os.user" u | none => props
      let props := match hostname with | some h => Telefork.put props "os.hostname" h | none => props
      match workDir with | some p => Telefork.put props "os.workDir" p | none => props
    else props

/-- **Personal fields only for the company's developers.** `os.name` and `os.arch` are always set. Any other key is
`dev.email`, `os.user`, `os.hostname` or `os.workDir`, and is set only when `git config user.email` printed an
`@outreach.io` address; `dev.email` is then that address without its newline. -/
theorem commonProps_personal_fields (goos goarch : String) (gitEmail username hostname workDir : Option String) :
    (commonProps goos goarch gitEmail username hostname workDir).lookup "os.name" = some goos ∧
    (commonProps goos goarch gitEmail username hostname workDir).lookup "os.arch" = some goarch ∧
    (∀ k ∈ (commonProps goos goarch gitEmail username hostname workDir).map Prod.fst,
      k = "os.name" ∨ k = "os.arch" ∨ (k ∈ ["dev.email", "os.user", "os.hostname", "os.workDir"] ∧
        ∃ b, gitEmail = some b ∧ "@outreach.io".toList.isSuffixOf (Telefork.trimSuffix b "\n").toList)) ∧
    (commonProps goos goarch gitEmail username hostname workDir).lookup "dev.email" =
      (gitEmail.map fun b => Telefork.trimSuffix b "\n").filter fun e => "@outreach.io".toList.isSuffixOf e.toList := by
  cases gitEmail with
  | none => simp [commonProps]
  | some b =>
    simp only [commonProps, Option.map_some', Option.filter]
    split
    · rename_i hs
      simp only [List.isSuffixOf_iff_suffix] at hs
      cases username <;> cases hostname <;> cases workDir <;> (simp [Telefork.put]; exact hs)
    · rename_i hs
      simp [hs]

end Gobox.Logfile
