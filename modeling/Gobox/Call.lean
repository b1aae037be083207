import Gobox.Basic

/-!
The call tracker of `internal/call` (`src/unnamed/part_009`) with the call options `pkg/trace` makes
(`roundtripper.go`): `Tracker.StartCall` starts a call `Info`, keeps all its arguments and applies the call options
among them in order; `SetStatus` and `EndCall` end the call, and `ReportLatency` reports it to the metric of its type.

`time.Now()` at each call is a number given to it. The `Durations` that `End` computes from the times, the service
seconds `ReportLatency` passes on, `MarshalLog` and `WithCallOptions` rest on code outside the files modelled and are
left out. `events.NewErrorInfo(err)` and `events.NewErrorInfoFromPanic(r)` are held as the error they are made from,
which is the `RawError` that `ReportLatency` reads.

Results:
- `applyOpts_spec`: the options leave the name, the kind, the arguments and the error; the call type is the one the
  last `As*Call` option sets, and info logging is disabled once `WithInfoLoggingDisabled()` is applied.
- `startCall_reports_by_last_option`: a call reports its latency exactly when an `As*Call` option is among the
  arguments of `StartCall`, to the metric of the last one, with the call's name, the kind `CallKindInternal`, and the
  error of the panic `EndCall` recovered, else the one `SetStatus` set. Every argument, option or not, is kept in
  `Args`, and info logging is disabled exactly when `WithInfoLoggingDisabled()` is among them.
-/

namespace Gobox.Call

/-! ## Model -/

/-- `call.TypeHTTP` -/
def typeHTTP : String := "http"

/-- `call.TypeGRPC` -/
def typeGRPC : String := "grpc"

/-- `call.TypeOutbound` -/
def typeOutbound : String := "outbound"

/-- `metrics.CallKind`: unset (`""`), `metrics.CallKindInternal`, or another kind -/
inductive Kind where
  | unset
  | internal
  | other (k : String)
deriving DecidableEq, Repr

/-- a `call.Option`, as `pkg/trace` makes them -/
inductive Opt where
  /-- `WithScheduledTime(t)` -/
  | scheduledTime (t : Nat)
  /-- `AsGRPCCall()` -/
  | asGRPC
  /-- `AsHTTPCall()` -/
  | asHTTP
  /-- `AsOutboundCall()` -/
  | asOutbound
  /-- `WithInfoLoggingDisabled()` -/
  | infoLoggingDisabled
deriving DecidableEq, Repr

/-- an argument of `StartCall`: a `logf.Marshaler` given by the fields its `MarshalLog` adds, or a call option -/
inductive Arg where
  | fields (fs : List (String × String))
  | opt (o : Opt)
deriving DecidableEq, Repr

/-- `call.Info`, without its mutex -/
structure Info where
  name : String
  type : String
  /-- `Opts.DisableInfoLogging` -/
  disableInfoLogging : Bool
  kind : Kind
  args : List Arg
  /-- the error `ErrInfo` was made from; `none` for a nil `ErrInfo` -/
  errInfo : Option GoErr
  /-- `Times.Scheduled` -/
  scheduled : Nat
  /-- `Times.Started` -/
  started : Nat
  /-- `Times.Finished` -/
  finished : Nat
deriving DecidableEq, Repr

/-- `var info Info` -/
def Info.zero : Info := ⟨"", "", false, .unset, [], none, 0, 0, 0⟩

/-- `opt(info)` -/
def Opt.apply : Opt → Info → Info
  | .scheduledTime t, i => { i with scheduled := t }
  | .asGRPC, i => { i with type := typeGRPC }
  | .asHTTP, i => { i with type := typeHTTP }
  | .asOutbound, i => { i with type := typeOutbound }
  | .infoLoggingDisabled, i => { i with disableInfoLogging := true }

/-- `info.Start(ctx, name)` at time `now` -/
def Info.start (now : Nat) (name : String) (i : Info) : Info :=
  { i with name := name, kind := if i.kind = .unset then .internal else i.kind, started := now }

/-- `info.AddArgs(ctx, args...)` -/
def Info.addArgs (args : List Arg) (i : Info) : Info := { i with args := i.args ++ args }

/-- one turn of the loop of `ApplyOpts`: `if opt, ok := a.(Option); ok { opt(info) }` -/
def Info.applyArg (i : Info) : Arg → Info
  | .opt o => o.apply i
  | .fields _ => i

/-- `info.ApplyOpts(ctx, args...)` -/
def Info.applyOpts (args : List Arg) (i : Info) : Info := args.foldl Info.applyArg i

/-- `t.StartCall(ctx, name, args)` at time `now`: the call `Info` the context it returns holds -/
def startCall (now : Nat) (name : String) (args : List Arg) : Info :=
  ((Info.zero.start now name).addArgs args).applyOpts args

/-- `info.SetStatus(ctx, err)` -/
def Info.setStatus (err : Option GoErr) (i : Info) : Info := { i with errInfo := err }

/-- `info.End(ctx)` at time `now` -/
def Info.«end» (now : Nat) (i : Info) : Info := { i with finished := now }

/-- `t.EndCall(ctx)` at time `now`, `panicked` being the error made from what `recover()` returned; the panic is
rethrown after it -/
def Info.endCall (now : Nat) (panicked : Option GoErr) (i : Info) : Info :=
  (match panicked with
   | some p => { i with errInfo := some p }
   | none => i).«end» now

/-- the metric `ReportLatency` reports to: `metrics.ReportHTTPLatency`, `ReportGRPCLatency` or
`ReportOutboundLatency` -/
inductive Metric where
  | http
  | grpc
  | outbound
deriving DecidableEq, Repr

/-- a latency report: the metric, the app name, the call's name, its error and its kind -/
structure Report where
  metric : Metric
  appName : String
  name : String
  err : Option GoErr
  kind : Kind
deriving DecidableEq, Repr

/-- `info.ReportLatency(ctx)`, `appName` being `app.Info().Name` -/
def Info.reportLatency (appName : String) (i : Info) : Option Report :=
  if i.type = typeHTTP then some ⟨.http, appName, i.name, i.errInfo, i.kind⟩
  else if i.type = typeGRPC then some ⟨.grpc, appName, i.name, i.errInfo, i.kind⟩
  else if i.type = typeOutbound then some ⟨.outbound, appName, i.name, i.errInfo, i.kind⟩
  else none

/-! ## The last option decides -/

/-- the metric an `As*Call` option is for -/
def Arg.metric? : Arg → Option Metric
  | .opt .asHTTP => some .http
  | .opt .asGRPC => some .grpc
  | .opt .asOutbound => some .outbound
  | _ => none

/-- the call type of a metric -/
def Metric.type : Metric → String
  | .http => typeHTTP
  | .grpc => typeGRPC
  | .outbound => typeOutbound

/-- an option leaves the name, the kind, the arguments and the error -/
theorem applyArg_frame (i : Info) (a : Arg) :
    (i.applyArg a).name = i.name ∧ (i.applyArg a).kind = i.kind ∧ (i.applyArg a).args = i.args ∧
      (i.applyArg a).errInfo = i.errInfo := by
  rcases a with _ | ⟨_ | _ | _ | _ | _⟩ <;> exact ⟨rfl, rfl, rfl, rfl⟩

theorem getLast?_metric_cons (a : Arg) (args : List Arg) :
    ((a :: args).filterMap Arg.metric?).getLast? = ((args.filterMap Arg.metric?).getLast?).or a.metric? := by
  cases h : a.metric? <;> cases hl : (args.filterMap Arg.metric?).getLast? <;>
    simp [List.filterMap_cons, h, hl, List.getLast?_cons]

/-- the options leave the name, the kind, the arguments and the error; the call type is the one the last `As*Call`
option sets, and info logging is disabled once `WithInfoLoggingDisabled()` is applied -/
theorem applyOpts_spec (args : List Arg) (i : Info) :
    (i.applyOpts args).name = i.name ∧ (i.applyOpts args).kind = i.kind ∧ (i.applyOpts args).args = i.args ∧
    (i.applyOpts args).errInfo = i.errInfo ∧
    (i.applyOpts args).type = (((args.filterMap Arg.metric?).getLast?).map Metric.type).getD i.type ∧
    ((i.applyOpts args).disableInfoLogging = true ↔
      i.disableInfoLogging = true ∨ Arg.opt .infoLoggingDisabled ∈ args) := by
  induction args generalizing i with
  | nil => simp [Info.applyOpts]
  | cons a args ih =>
    obtain ⟨h1, h2, h3, h4, h5, h6⟩ := ih (i.applyArg a)
    obtain ⟨e1, e2, e3, e4⟩ := applyArg_frame i a
    refine ⟨h1.trans e1, h2.trans e2, h3.trans e3, h4.trans e4, h5.trans ?_, h6.trans ?_⟩
    · rw [getLast?_metric_cons]
      cases (args.filterMap Arg.metric?).getLast? <;> rcases a with _ | ⟨_ | _ | _ | _ | _⟩ <;> rfl
    · rcases a with _ | ⟨_ | _ | _ | _ | _⟩ <;> simp [Info.applyArg, Opt.apply]

/-- `SetStatus` and `EndCall` leave the name, the kind and the type; the error is the recovered panic's, else the
status's -/
theorem endCall_setStatus (i : Info) (t : Nat) (err panicked : Option GoErr) :
    ((i.setStatus err).endCall t panicked).name = i.name ∧ ((i.setStatus err).endCall t panicked).kind = i.kind ∧
      ((i.setStatus err).endCall t panicked).type = i.type ∧
      ((i.setStatus err).endCall t panicked).errInfo = panicked.or err := by
  cases panicked <;> exact ⟨rfl, rfl, rfl, rfl⟩

/-- **A call reports its latency by the last `As*Call` option.** For every name, every list of arguments and every
status, panic and times: the call `StartCall` starts reports its latency exactly when an `As*Call` option is among
the arguments, to the metric of the last one, with the call's name, the kind `CallKindInternal`, and the error of
the panic `EndCall` recovered, else the one `SetStatus` set. Every argument, option or not, is kept in `Args`, and
info logging is disabled exactly when `WithInfoLoggingDisabled()` is among them. -/
theorem startCall_reports_by_last_option (now t : Nat) (name appName : String) (args : List Arg)
    (err panicked : Option GoErr) :
    (((startCall now name args).setStatus err).endCall t panicked).reportLatency appName =
      ((args.filterMap Arg.metric?).getLast?).map
        (fun m => (⟨m, appName, name, panicked.or err, .internal⟩ : Report)) ∧
    (startCall now name args).args = args ∧
    ((startCall now name args).disableInfoLogging = true ↔ Arg.opt .infoLoggingDisabled ∈ args) := by
  obtain ⟨h1, h2, h3, -, h5, h6⟩ := applyOpts_spec args ((Info.zero.start now name).addArgs args)
  obtain ⟨e1, e2, e3, e4⟩ := endCall_setStatus (startCall now name args) t err panicked
  refine ⟨?_, by simpa [Info.addArgs, Info.start, Info.zero] using h3,
    by simpa [Info.addArgs, Info.start, Info.zero] using h6⟩
  unfold Info.reportLatency
  rw [e1, e2, e3, e4, startCall, h1, h2, h5]
  simp only [Info.addArgs, Info.start, Info.zero]
  rcases (args.filterMap Arg.metric?).getLast? with _ | ⟨_ | _ | _⟩ <;>
    simp [Metric.type, typeHTTP, typeGRPC, typeOutbound]

end Gobox.Call
