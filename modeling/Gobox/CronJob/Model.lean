import Gobox.Basic

/-!
`cronjob.ServiceActivity` (`pkg/serviceactivities/cronjob/cronjob.go`) composed with the `cron.Cron` that `New`
builds with `cron.New()`: robfig/cron v3 with its default options, an empty job-wrapper chain and `startJob`
running every firing in a goroutine of its own, counted by the scheduler's `jobWaiter` WaitGroup.

State `St`: the scheduler (`entries`, `running`, `jobWaiter`), the tick goroutines, `sa.done`, and one `Call` per
`sa.Run(ctx)` call. `Run` calls on one activity follow each other (`begin` waits until every earlier call
returned); everything they leave behind stays: the scheduler's entries, the earlier calls' `errCh` and watcher
goroutines, and the ticks still running. An `Op` is one step of one party:
- the current call's statements: `NewJob` and `errCh` (`begin`), `AddJob` (with the watcher
  `go func() { <-ctx.Done(); sa.cron.Stop() }()` it is followed by), `Start`, the `select`, `Stop`,
  `<-ctx2.Done()` (`drain`, which `RunClose` follows) and the return (`close`);
- the scheduler's run loop firing entry `e` (`fire e`): the schedule and the clock are abstracted, so any entry
  can come due at any moment while the scheduler runs. A wake that finds several entries due is several `fire`
  steps in a row;
- a tick: `job.Run(ctx)` returning (`tickRet`), its send `errCh <- err` completing (`tickSend`);
- the environment: a call's `ctx` ending, a watcher's `Stop`, `sa.Close`.
`step` is total and a step its party cannot take changes nothing, so every list of `Op` is an interleaving.

`cron.Stop` is `if c.running { c.stop <- struct{}{}; c.running = false }` under `runningMu`; the run loop takes
the `stop` message only between wakes, so the step sets `running` to false and no tick starts after it. The
context `Stop` returns is cancelled once `jobWaiter.Wait()` returns; no tick starts after the current call's
`Stop` until the next call's `Start`, so `drain` is enabled exactly when `jobWaiter` is zero.

`parse` is the error cron's parser gives `sa.frequency` (`none`: it accepts it); the activity's frequency is
fixed, so every call sees the same.

- `job_outlives_run`: with a schedule cron rejects, `Run` returns `AddJob`'s error and its Job is never closed;
  and the entry a returned call registered fires again in the next call, so that call's Job, already closed, runs
  again.
-/

namespace Gobox.CronJob

/-! ## Model -/

/-- where a tick goroutine (`go func() { defer c.jobWaiter.Done(); j.Run() }()`) is -/
inductive TickPhase where
  /-- inside `job.Run(ctx)` -/
  | running
  /-- `job.Run` returned `e`; blocked at `errCh <- err` -/
  | sending (e : GoErr)
  /-- returned (`job.Run` returned `res`), and its `jobWaiter.Done()` ran -/
  | finished (res : Option GoErr)
deriving DecidableEq, Repr

/-- one firing of the `runner` that Run call `call` registered (its `job` and its `errCh`) -/
structure Tick where
  call : Nat
  phase : TickPhase
deriving DecidableEq, Repr

/-- where a `ServiceActivity.Run` call is -/
inductive Phase where
  /-- `job := sa.NewJob()` and `errCh` made; `sa.cron.AddJob` is next -/
  | adding
  /-- the entry is added and the watcher started; `sa.cron.Start()` is next -/
  | starting
  /-- blocked in the `select` -/
  | selecting
  /-- past the `select` with `err`; `ctx2 := sa.cron.Stop()` is next -/
  | stopping (err : Option GoErr)
  /-- blocked at `<-ctx2.Done()` -/
  | draining (err : Option GoErr)
  /-- inside `async.RunClose(ctx, job)` -/
  | closing (err : Option GoErr)
  | returned (res : Option GoErr)
deriving DecidableEq, Repr

/-- the cases of `Run`'s `select` -/
inductive Case where
  /-- `<-ctx.Done()` -/
  | ctxDone
  /-- `<-sa.done` -/
  | closed
  /-- `err = <-errCh` -/
  | recv
deriving DecidableEq, Repr

/-- one `sa.Run(ctx)` call -/
structure Call where
  /-- the close method of the Job `NewJob` returned -/
  closer : Closer
  /-- the call's `ctx`: `none` while live -/
  ctx : Option CtxEnd
  /-- `errCh`, of capacity 1 -/
  errCh : List GoErr
  phase : Phase
  /-- the watcher goroutine is blocked at `<-ctx.Done()` -/
  watcher : Bool
  /-- `async.RunClose(ctx, job)` invocations -/
  closes : Nat
  /-- ghost: what `RunClose` returned -/
  closeRes : Option GoErr
deriving DecidableEq, Repr

structure St where
  /-- `sa.cron`'s entries: the Run call whose `runner` each one runs -/
  entries : List Nat
  /-- `sa.cron.running` -/
  running : Bool
  /-- `sa.cron.jobWaiter`'s counter -/
  jobWaiter : Int
  ticks : List Tick
  /-- `sa.done` is closed -/
  done : Bool
  /-- a `Close` found `sa.done` closed already: `close of closed channel` panicked -/
  closePanic : Bool
  calls : List Call
deriving DecidableEq, Repr

def init : St := ⟨[], false, 0, [], false, false, []⟩

inductive Op where
  /-- a new `sa.Run(ctx)` call: `job := sa.NewJob()`, whose close method is `c`, and `errCh` -/
  | begin (c : Closer)
  | addJob
  | start
  | select (c : Case)
  | stop
  /-- `<-ctx2.Done()` returns and `async.RunClose(ctx, job)` begins -/
  | drain
  /-- `RunClose` returns; `res` is what the Job's close method returned -/
  | close (res : Option GoErr)
  /-- the scheduler fires entry `e` -/
  | fire (e : Nat)
  | tickRet (j : Nat) (res : Option GoErr)
  | tickSend (j : Nat)
  /-- the `ctx` of call `k` ends -/
  | cancel (k : Nat) (e : CtxEnd)
  /-- the watcher goroutine of call `k` runs `sa.cron.Stop()` -/
  | watch (k : Nat)
  /-- `sa.Close(ctx)`: `close(sa.done)` -/
  | closeSa
deriving DecidableEq, Repr

def Phase.isReturned : Phase → Bool
  | .returned _ => true
  | _ => false

namespace Call

/-- `if _, err := sa.cron.AddJob(sa.frequency, runner); err != nil { return err }` -/
def addJob (parse : Option GoErr) (c : Call) : Option Call :=
  match c.phase, parse with
  | .adding, some e => some { c with phase := .returned (some e) }
  | .adding, none => some { c with phase := .starting, watcher := true }
  | _, _ => none

/-- `sa.cron.Start()` -/
def start (c : Call) : Option Call :=
  match c.phase with
  | .starting => some { c with phase := .selecting }
  | _ => none

/-- the `select` takes case `k`, if it is ready -/
def select (done : Bool) : Case → Call → Option Call
  | .ctxDone, c =>
    match c.phase, c.ctx with
    | .selecting, some e => some { c with phase := .stopping (some e.err) }
    | _, _ => none
  | .closed, c =>
    match c.phase, done with
    | .selecting, true => some { c with phase := .stopping none }
    | _, _ => none
  | .recv, c =>
    match c.phase, c.errCh with
    | .selecting, e :: rest => some { c with phase := .stopping (some e), errCh := rest }
    | _, _ => none

/-- `ctx2 := sa.cron.Stop()` -/
def stop (c : Call) : Option Call :=
  match c.phase with
  | .stopping err => some { c with phase := .draining err }
  | _ => none

/-- `<-ctx2.Done()` returns; `async.RunClose(ctx, job)` begins -/
def drain (c : Call) : Option Call :=
  match c.phase with
  | .draining err => some { c with phase := .closing err, closes := c.closes + 1 }
  | _ => none

/-- `err2 := async.RunClose(ctx, job); if err == nil { err = err2 }; return err` -/
def close (res : Option GoErr) (c : Call) : Option Call :=
  match c.phase with
  | .closing err => some { c with phase := .returned (err.or (runClose c.closer res)),
                                  closeRes := runClose c.closer res }
  | _ => none

/-- the call's `ctx` ends -/
def cancel (e : CtxEnd) (c : Call) : Option Call :=
  match c.ctx with
  | none => some { c with ctx := some e }
  | some _ => none

/-- the watcher sees `ctx.Done()` and runs `sa.cron.Stop()` -/
def watch (c : Call) : Option Call :=
  match c.watcher, c.ctx with
  | true, some _ => some { c with watcher := false }
  | _, _ => none

end Call

/-- the current `Run` call: the last one -/
def St.cur (s : St) : Nat := s.calls.length - 1

/-- call `k` takes transition `f` and the shared state takes `eff`; nothing happens if the call cannot -/
def St.act (s : St) (k : Nat) (f : Call → Option Call) (eff : St → St) : St :=
  match s.calls[k]?.bind f with
  | some c => eff { s with calls := s.calls.set k c }
  | none => s

/-- a fresh call: `job := sa.NewJob()`, `errCh := make(chan error, 1)` -/
def Call.fresh (cl : Closer) : Call := ⟨cl, none, [], .adding, false, 0, none⟩

def step (parse : Option GoErr) (s : St) : Op → St
  | .begin cl =>
    if s.calls.all (·.phase.isReturned) then { s with calls := s.calls ++ [Call.fresh cl] } else s
  | .addJob =>
    s.act s.cur (Call.addJob parse) fun s' =>
      match parse with
      | none => { s' with entries := s'.entries ++ [s.cur] }
      | some _ => s'
  | .start => s.act s.cur Call.start fun s' => { s' with running := true }
  | .select k => s.act s.cur (Call.select s.done k) id
  | .stop => s.act s.cur Call.stop fun s' => { s' with running := false }
  | .drain => if s.jobWaiter = 0 then s.act s.cur Call.drain id else s
  | .close res => s.act s.cur (Call.close res) id
  | .fire e =>
    match s.running, s.entries[e]? with
    | true, some k => { s with ticks := s.ticks ++ [⟨k, .running⟩], jobWaiter := s.jobWaiter + 1 }
    | _, _ => s
  | .tickRet j res =>
    match s.ticks[j]?, res with
    | some ⟨k, .running⟩, none => { s with ticks := s.ticks.set j ⟨k, .finished none⟩, jobWaiter := s.jobWaiter - 1 }
    | some ⟨k, .running⟩, some e => { s with ticks := s.ticks.set j ⟨k, .sending e⟩ }
    | _, _ => s
  | .tickSend j =>
    match s.ticks[j]? with
    | some ⟨k, .sending e⟩ =>
      match s.calls[k]? with
      | some c =>
        if c.errCh.length < 1 then
          { s with ticks := s.ticks.set j ⟨k, .finished (some e)⟩, jobWaiter := s.jobWaiter - 1,
                   calls := s.calls.set k { c with errCh := c.errCh ++ [e] } }
        else s
      | none => s
    | _ => s
  | .cancel k e => s.act k (Call.cancel e) id
  | .watch k => s.act k Call.watch fun s' => { s' with running := false }
  | .closeSa => if s.done then { s with closePanic := true } else { s with done := true }

def run (parse : Option GoErr) (s : St) (ops : List Op) : St := ops.foldl (step parse) s

theorem run_cons (parse : Option GoErr) (s : St) (o : Op) (ops : List Op) :
    run parse s (o :: ops) = run parse (step parse s o) ops := rfl

theorem run_append (parse : Option GoErr) (s : St) (ops ops' : List Op) :
    run parse s (ops ++ ops') = run parse (run parse s ops) ops' := by
  simp [run, List.foldl_append]

/-! ## The Job's life over successive calls

`Run` makes a Job with `sa.NewJob()` before `sa.cron.AddJob`, and closes it only on the path past the `select`;
`AddJob`'s entry is never removed from `sa.cron` (the `EntryID` is discarded), and the scheduler lives as long as
the activity. -/

/-- one `Run` on `New(newJob, spec)` where cron's parser rejects `spec` with error `new 7`, and `newJob` returns a
Job with a `Close` method -/
def rejectedSpec : List Op := [.begin .closer, .addJob]

/-- two `Run` calls on one activity with an accepted schedule: the first is cancelled before any firing, drains,
closes its Job and returns; the second starts the scheduler, which fires the first call's entry -/
def secondRun : List Op :=
  [.begin .closer, .addJob, .start, .cancel 0 .cancel, .select .ctxDone, .stop, .drain, .close none,
    .begin .closer, .addJob, .start, .fire 0]

/-- **The Job outlives its `Run` call.** On a rejected schedule `Run` returns without closing the Job it made; on
an accepted one, the Job of a call that has returned, closed once, is run again by the next call's scheduler. -/
theorem job_outlives_run :
    (run (some (.new 7)) init rejectedSpec).calls = [{ Call.fresh .closer with phase := .returned (some (.new 7)) }] ∧
      (run none init secondRun).calls.map (fun c => (c.phase, c.closes)) =
        [(.returned (some .canceled), 1), (.selecting, 0)] ∧
      (run none init secondRun).ticks = [⟨0, .running⟩] := by decide

end Gobox.CronJob
