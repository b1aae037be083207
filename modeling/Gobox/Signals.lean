import Mathlib.Data.List.Chain
import Gobox.Basic

/-!
Signal subscriptions of `async.Shutdown.Run` (`pkg/async`) and `loglevelswitcher.ServiceActivity.Run`
(`pkg/serviceactivities/loglevelswitcher`), over the handler table of `os/signal`, modelled from its source.

`os/signal` keeps, for each channel passed to `Notify`, the set of signals it wants (`handlers.m`). A signal the
process receives is sent without blocking to every channel that wants it (`process`); a signal no channel wants is
not enabled, and takes the OS default action (for SIGHUP, SIGINT and SIGTERM: the process is terminated).
`Reset(sigs...)` removes `sigs` from the set of every channel (`cancel`); `Stop(c)` removes `c`. Neither `Run`
calls `Stop`.

State `St`: the activities (`NewShutdown()`, `loglevelswitcher.New(l, sig)`, each with its `done` channel, and a
switcher's `debugLevelOn` and `SetLevel` calls), one `Call` per `Run` (its channel `c` of capacity 1, the signals
`c` is subscribed to, its `ctx`, its phase), the signals that took the default action, and a `Close` that panicked.
An `Op` is one step of one party; `step` is total and a step its party cannot take changes nothing, so every list
of `Op` is an interleaving. A switcher's `case <-c:` is three steps, as unsynchronised as the source: choosing
`logLevel` from `sa.debugLevelOn`, flipping `sa.debugLevelOn`, and `SetLevel`.

Results:
- `step_subs`, `subs_without_reset`: only a `Shutdown.Run` returning on a signal changes any subscription, and it
  removes SIGINT, SIGTERM and SIGHUP from every channel, of live and returned calls alike; without one, every call,
  returned or not, keeps every subscription.
- `step_inv`, `run_inv`, `signal_exit_unsubscribed`: a channel is subscribed only to the signals its `Run` passed to
  `Notify`, and a `Shutdown.Run` that returned on a signal is subscribed to nothing.
- `subscription_outlives_run`: runs in which a `Run` has returned and its channel still takes a later signal, which
  is then neither handled nor given its default action; and one in which a `Shutdown`'s `Reset` unsubscribes a
  live switcher, whose signal then terminates the process.
- `Serial`, `step_serial`, `run_serial`: an activity's levels agree with the phase of its `Run` while it has one
  call.
- `switcher_levels_alternate`: in every interleaving in which no activity's `Run` is called twice, a switcher's
  `SetLevel` calls alternate, `DebugLevel` first, and `debugLevelOn` says whether the last one set `DebugLevel`
  whenever its `Run` is not between the flip and `SetLevel`. With two `Run` calls on one switcher both can choose
  `DebugLevel` before either flips `debugLevelOn`.
-/

namespace Gobox.Signals

/-! ## Model -/

/-- `syscall.SIGHUP`, `syscall.SIGINT` and `syscall.SIGTERM` on Linux -/
def sighup : Nat := 1
def sigint : Nat := 2
def sigterm : Nat := 15

/-- `syscall.SIGINT, syscall.SIGTERM, syscall.SIGHUP`: what `Shutdown.Run` passes to `Notify` and to `Reset` -/
def shutdownSignals : List Nat := [sigint, sigterm, sighup]

/-- an activity: `NewShutdown()`, or `loglevelswitcher.New(l, sig)` -/
inductive Kind where
  | shutdown
  | switcher (sig : Nat)
deriving DecidableEq, Repr

/-- the signals `Run` passes to `signal.Notify` -/
def Kind.signals : Kind → List Nat
  | .shutdown => shutdownSignals
  | .switcher sig => [sig]

structure Activity where
  kind : Kind
  /-- `done` is closed -/
  done : Bool
  /-- a switcher's `debugLevelOn` -/
  debugLevelOn : Bool
  /-- the levels a switcher passed to `SetLevel`: `true` for `logrus.DebugLevel`, `false` for `logrus.InfoLevel` -/
  levels : List Bool
deriving DecidableEq, Repr

/-- what `Run` returned -/
inductive Exit where
  /-- `errors.New(fmt.Sprintf("signal %v", sig))` -/
  | signal (sig : Nat)
  /-- `ctx.Err()` -/
  | ctx (e : CtxEnd)
  /-- nil, after `Close` -/
  | closed
deriving DecidableEq, Repr

/-- where a `Run` call is -/
inductive Phase where
  /-- in the `select` -/
  | selecting
  /-- `Shutdown.Run` received `sig` from `c`; `signal.Reset(...)` is next -/
  | resetting (sig : Nat)
  /-- a switcher's `Run` received from `c` and chose `logLevel` from `sa.debugLevelOn` (`debug`: it chose
  `logrus.DebugLevel`); `sa.debugLevelOn = !sa.debugLevelOn` is next -/
  | flipping (debug : Bool)
  /-- `sa.debugLevelOn` flipped; `sa.logger.SetLevel(logLevel)` is next -/
  | setting (debug : Bool)
  | returned (e : Exit)
deriving DecidableEq, Repr

/-- a `Run` call -/
structure Call where
  /-- the activity whose `Run` it is -/
  act : Nat
  /-- its `ctx`: `none` while live -/
  ctx : Option CtxEnd
  /-- `c`, of capacity 1 -/
  buf : List Nat
  /-- the signals `c` is subscribed to: its mask in `handlers.m` -/
  subs : List Nat
  phase : Phase
deriving DecidableEq, Repr

structure St where
  acts : List Activity
  calls : List Call
  /-- the signals that took the OS default action -/
  defaults : List Nat
  /-- a `Close` found `done` closed: `close of closed channel` panicked -/
  closePanic : Bool
deriving DecidableEq, Repr

def init : St := ⟨[], [], [], false⟩

/-- `process(sig)` at call `c`'s channel: `select { case c <- sig: default: }` if `c` wants `n` -/
def Call.deliver (n : Nat) (c : Call) : Call :=
  if n ∈ c.subs ∧ c.buf.length < 1 then { c with buf := c.buf ++ [n] } else c

/-- `signal.Reset(sigs...)` at call `c`'s channel: `cancel` clears `sigs` from its mask -/
def Call.reset (sigs : List Nat) (c : Call) : Call := { c with subs := c.subs.filter (· ∉ sigs) }

inductive Op where
  /-- `NewShutdown()` or `loglevelswitcher.New(l, sig)` -/
  | new (k : Kind)
  /-- `a.Run(ctx)`: `c := make(chan os.Signal, 1)`, `signal.Notify(c, ...)` -/
  | run (a : Nat)
  /-- the process receives signal `n` -/
  | signal (n : Nat)
  /-- the `select` of call `k` takes `<-c`; a switcher's `Run` then chooses `logLevel` -/
  | recv (k : Nat)
  /-- the switcher's `Run` of call `k` runs `sa.debugLevelOn = !sa.debugLevelOn` -/
  | flip (k : Nat)
  /-- the switcher's `Run` of call `k` runs `sa.logger.SetLevel(logLevel)` and goes back to its `select` -/
  | setLevel (k : Nat)
  /-- `Shutdown.Run` of call `k` runs `signal.Reset(...)` and returns -/
  | reset (k : Nat)
  /-- the `select` of call `k` takes `<-ctx.Done()` -/
  | ctxDone (k : Nat)
  /-- the `select` of call `k` takes `<-done` -/
  | closed (k : Nat)
  /-- the `ctx` of call `k` ends -/
  | cancel (k : Nat) (e : CtxEnd)
  /-- `a.Close(ctx)`: `close(done)` -/
  | close (a : Nat)
deriving DecidableEq, Repr

def step (s : St) : Op → St
  | .new k => { s with acts := s.acts ++ [⟨k, false, false, []⟩] }
  | .run a =>
    match s.acts[a]? with
    | some act => { s with calls := s.calls ++ [⟨a, none, [], act.kind.signals, .selecting⟩] }
    | none => s
  | .signal n =>
    if s.calls.any (n ∈ ·.subs) then { s with calls := s.calls.map (Call.deliver n) }
    else { s with defaults := s.defaults ++ [n] }
  | .recv k =>
    match s.calls[k]? with
    | some c =>
      match c.phase, c.buf, s.acts[c.act]? with
      | .selecting, n :: rest, some act =>
        match act.kind with
        | .shutdown => { s with calls := s.calls.set k { c with buf := rest, phase := .resetting n } }
        | .switcher _ => { s with calls := s.calls.set k { c with buf := rest, phase := .flipping !act.debugLevelOn } }
      | _, _, _ => s
    | none => s
  | .flip k =>
    match s.calls[k]? with
    | some c =>
      match c.phase, s.acts[c.act]? with
      | .flipping debug, some act =>
        { s with calls := s.calls.set k { c with phase := .setting debug },
                 acts := s.acts.set c.act { act with debugLevelOn := !act.debugLevelOn } }
      | _, _ => s
    | none => s
  | .setLevel k =>
    match s.calls[k]? with
    | some c =>
      match c.phase, s.acts[c.act]? with
      | .setting debug, some act =>
        { s with calls := s.calls.set k { c with phase := .selecting },
                 acts := s.acts.set c.act { act with levels := act.levels ++ [debug] } }
      | _, _ => s
    | none => s
  | .reset k =>
    match s.calls[k]? with
    | some c =>
      match c.phase with
      | .resetting n =>
        { s with calls := (s.calls.set k { c with phase := .returned (.signal n) }).map (Call.reset shutdownSignals) }
      | _ => s
    | none => s
  | .ctxDone k =>
    match s.calls[k]? with
    | some c =>
      match c.phase, c.ctx with
      | .selecting, some e => { s with calls := s.calls.set k { c with phase := .returned (.ctx e) } }
      | _, _ => s
    | none => s
  | .closed k =>
    match s.calls[k]? with
    | some c =>
      match c.phase, (s.acts[c.act]?).map (·.done) with
      | .selecting, some true => { s with calls := s.calls.set k { c with phase := .returned .closed } }
      | _, _ => s
    | none => s
  | .cancel k e =>
    match s.calls[k]? with
    | some c =>
      match c.ctx with
      | none => { s with calls := s.calls.set k { c with ctx := some e } }
      | some _ => s
    | none => s
  | .close a =>
    match s.acts[a]? with
    | some act =>
      if act.done then { s with closePanic := true } else { s with acts := s.acts.set a { act with done := true } }
    | none => s

def run (s : St) (ops : List Op) : St := ops.foldl step s

@[simp] theorem run_nil (s : St) : run s [] = s := rfl
@[simp] theorem run_cons (s : St) (o : Op) (ops : List Op) : run s (o :: ops) = run (step s o) ops := rfl

theorem run_append (s : St) (a b : List Op) : run s (a ++ b) = run (run s a) b := List.foldl_append _ _ _ _

/-- the subscriptions of call `k` -/
def St.subsOf (s : St) (k : Nat) : Option (List Nat) := (s.calls[k]?).map (·.subs)

/-- the kind of activity `a` -/
def St.kindOf (s : St) (a : Nat) : Option Kind := (s.acts[a]?).map (·.kind)

@[simp] theorem Call.deliver_subs (n : Nat) (c : Call) : (c.deliver n).subs = c.subs := by
  unfold Call.deliver; split <;> rfl

@[simp] theorem Call.deliver_act (n : Nat) (c : Call) : (c.deliver n).act = c.act := by
  unfold Call.deliver; split <;> rfl

@[simp] theorem Call.deliver_phase (n : Nat) (c : Call) : (c.deliver n).phase = c.phase := by
  unfold Call.deliver; split <;> rfl

@[simp] theorem Call.deliver_ctx (n : Nat) (c : Call) : (c.deliver n).ctx = c.ctx := by
  unfold Call.deliver; split <;> rfl

/-! ## Subscriptions -/

/-- replacing call `j` by one with the same subscriptions keeps every call's -/
theorem subsOf_set {s : St} {j : Nat} {c : Call} (hc : s.calls[j]? = some c) (c' : Call) (acts : List Activity)
    (k : Nat) (hs : c'.subs = c.subs) :
    ({ s with calls := s.calls.set j c', acts := acts } : St).subsOf k = s.subsOf k := by
  simp only [St.subsOf, getElem?_set_of hc]
  split
  · subst k; simp [hc, hs]
  · rfl

/-- **Only `Reset` unsubscribes.** A step keeps the subscriptions of every call, or it is the `Reset` of a
`Shutdown.Run` returning on a signal and removes SIGINT, SIGTERM and SIGHUP from every call's, live or returned -/
theorem step_subs (s : St) (o : Op) {k : Nat} {l : List Nat} (hk : s.subsOf k = some l) :
    (step s o).subsOf k = some l ∨
      (∃ j, o = .reset j) ∧ (step s o).subsOf k = some (l.filter (· ∉ shutdownSignals)) := by
  have hlen : k < s.calls.length := by
    by_contra h; simp [St.subsOf, List.getElem?_eq_none (Nat.le_of_not_lt h)] at hk
  cases o with
  | run a =>
    simp only [step]; split
    · left; simpa [St.subsOf, List.getElem?_append_left hlen] using hk
    · exact .inl hk
  | signal n =>
    simp only [step]; split
    · left; simpa [St.subsOf, Option.map_map, Function.comp_def] using hk
    · exact .inl hk
  | reset j =>
    simp only [step]; split
    · rename_i c hc
      split
      · right
        refine ⟨⟨j, rfl⟩, ?_⟩
        have := (subsOf_set hc { c with phase := .returned (.signal ‹_›) } s.acts k rfl).trans hk
        simp only [St.subsOf, List.getElem?_map, Option.map_map] at this ⊢
        simpa [Call.reset, Function.comp_def] using congrArg (Option.map (List.filter (· ∉ shutdownSignals))) this
      · exact .inl hk
    · exact .inl hk
  | recv _ | flip _ | setLevel _ | ctxDone _ | closed _ | cancel _ _ =>
    simp only [step]; split
    · rename_i c hc
      repeat' split
      all_goals first | exact .inl hk | exact .inl ((subsOf_set hc _ _ k (by rfl)).trans hk)
    · exact .inl hk
  | new _ | close _ =>
    simp only [step]
    repeat' split
    all_goals exact .inl hk

/-- **Returning does not unsubscribe.** From any state, along any steps among which no `Shutdown.Run` returns on a
signal, every call keeps every subscription it has, whether it has returned or not. -/
theorem subs_without_reset (s : St) (ops : List Op) (hops : ∀ j, Op.reset j ∉ ops) {k : Nat} {l : List Nat}
    (hk : s.subsOf k = some l) : (run s ops).subsOf k = some l := by
  induction ops generalizing s with
  | nil => exact hk
  | cons o ops ih =>
    refine ih _ (fun j hj => hops j (List.mem_cons_of_mem _ hj)) ?_
    rcases step_subs s o hk with h | ⟨⟨j, rfl⟩, -⟩
    · exact h
    · exact absurd (List.mem_cons_self _ _) (hops j)

/-- a `Shutdown.Run` that returned on its context keeps its subscriptions through later signals -/
example :
    (run (run init [.new .shutdown, .run 0]) [.cancel 0 .cancel, .ctxDone 0, .signal sigint]).subsOf 0 =
      some shutdownSignals := by decide

/-! ## What each channel is subscribed to -/

/-- what holds of a call of an activity of kind `k` -/
structure Call.Ok (c : Call) (k : Kind) : Prop where
  /-- subscribed only to signals its `Run` passed to `Notify` -/
  subs : ∀ n ∈ c.subs, n ∈ k.signals
  /-- only `Shutdown.Run` resets -/
  resetting : ∀ n, c.phase = .resetting n → k = .shutdown
  /-- a `Shutdown.Run` that returned on a signal is subscribed to nothing -/
  reset : ∀ n, c.phase = .returned (.signal n) → c.subs = []

structure Inv (s : St) : Prop where
  calls : ∀ c ∈ s.calls, ∃ k, s.kindOf c.act = some k ∧ c.Ok k

theorem inv_init : Inv init := ⟨by simp [init]⟩

theorem Call.Ok.deliver {c : Call} {k : Kind} (h : c.Ok k) (n : Nat) : (c.deliver n).Ok k :=
  ⟨by simpa using h.subs, by simpa using h.resetting, by simpa using h.reset⟩

theorem Call.Ok.cleared {c : Call} {k : Kind} (h : c.Ok k) : (c.reset shutdownSignals).Ok k where
  subs n hn := h.subs n (List.mem_of_mem_filter hn)
  resetting := h.resetting
  reset n hp := by simp [Call.reset, h.reset n hp]

/-- the `Reset` of a `Shutdown.Run` clears every signal its own channel was subscribed to -/
theorem Call.Ok.returnSignal {c : Call} (h : c.Ok .shutdown) (n : Nat) :
    ({ c with phase := .returned (.signal n) }.reset shutdownSignals).Ok .shutdown where
  subs m hm := h.subs m (List.mem_of_mem_filter hm)
  resetting _ hp := by cases hp
  reset _ _ := by simpa [Call.reset, List.filter_eq_nil_iff] using h.subs

/-- a call that moves to another phase in which it neither resets nor has returned on a signal -/
theorem Call.Ok.move {c : Call} {k : Kind} (h : c.Ok k) {c' : Call} (hs : c'.subs = c.subs)
    (hp : c'.phase = c.phase ∨ ∀ n, c'.phase ≠ .resetting n ∧ c'.phase ≠ .returned (.signal n)) : c'.Ok k where
  subs := hs ▸ h.subs
  resetting n hr := by
    rcases hp with hp | hp
    · exact h.resetting n (hp ▸ hr)
    · exact absurd hr (hp n).1
  reset n hr := by
    rcases hp with hp | hp
    · exact hs ▸ h.reset n (hp ▸ hr)
    · exact absurd hr (hp n).2

/-- a step keeps the kind of every activity -/
theorem kindOf_step {s : St} {a : Nat} {k : Kind} (h : s.kindOf a = some k) (o : Op) : (step s o).kindOf a = some k := by
  have hlen : a < s.acts.length := by
    by_contra hn; simp [St.kindOf, List.getElem?_eq_none (Nat.le_of_not_lt hn)] at h
  have hset : ∀ {a' : Nat} {act act' : Activity}, s.acts[a']? = some act → act'.kind = act.kind →
      ((s.acts.set a' act')[a]?).map (·.kind) = some k := fun hact hk' => by
    rw [getElem?_set_of hact]; split
    · subst a; simp only [St.kindOf, hact] at h; simpa [hk'] using h
    · exact h
  cases o with
  | new kd => simpa [step, St.kindOf, List.getElem?_append_left hlen] using h
  | recv _ | flip _ | setLevel _ | close _ =>
    simp only [step]
    repeat' split
    all_goals first | exact h | exact hset ‹_› (by rfl)
  | run _ | signal _ | reset _ | ctxDone _ | closed _ | cancel _ _ =>
    simp only [step]
    repeat' split
    all_goals exact h

/-- the invariant carries over to a state whose every call is an old call, moved by a step that keeps it `Ok`, or a
new one that is `Ok` -/
theorem Inv.of_calls {s t : St} (h : Inv s) (hk : ∀ a k, s.kindOf a = some k → t.kindOf a = some k)
    (hc : ∀ c' ∈ t.calls, (∃ c ∈ s.calls, c'.act = c.act ∧ ∀ k, s.kindOf c.act = some k → c.Ok k → c'.Ok k) ∨
      ∃ k, t.kindOf c'.act = some k ∧ c'.Ok k) : Inv t where
  calls c' hc' := by
    rcases hc c' hc' with ⟨c, hc, ha, hok⟩ | h'
    · obtain ⟨k, hkc, ok⟩ := h.calls c hc
      exact ⟨k, ha ▸ hk _ _ hkc, hok k hkc ok⟩
    · exact h'

/-- call `j` is replaced by one of the same activity that is `Ok` whenever the old one was -/
theorem mem_set_moved {s : St} {j : Nat} {c c' : Call} (hc : s.calls[j]? = some c) (x : Call)
    (hx : x ∈ s.calls.set j c') (ha : c'.act = c.act) (hok : ∀ k, s.kindOf c.act = some k → c.Ok k → c'.Ok k) :
    ∃ y ∈ s.calls, x.act = y.act ∧ ∀ k, s.kindOf y.act = some k → y.Ok k → x.Ok k := by
  rcases List.mem_or_eq_of_mem_set hx with hx | rfl
  · exact ⟨x, hx, rfl, fun _ _ => id⟩
  · exact ⟨c, List.getElem?_mem hc, ha, hok⟩

/-- the calls a step leaves as they are -/
theorem old_calls {s t : St} :
    ∀ c' ∈ s.calls, (∃ c ∈ s.calls, c'.act = c.act ∧ ∀ k, s.kindOf c.act = some k → c.Ok k → c'.Ok k) ∨
      ∃ k, t.kindOf c'.act = some k ∧ c'.Ok k :=
  fun c' hc' => .inl ⟨c', hc', rfl, fun _ _ => id⟩

theorem step_inv {s : St} (h : Inv s) (o : Op) : Inv (step s o) := by
  refine h.of_calls (fun a k hk => kindOf_step hk o) ?_
  cases o with
  | new _ | close _ =>
    simp only [step]
    repeat' split
    all_goals exact @old_calls s _
  | run a =>
    simp only [step]; split
    · rename_i act hact
      intro c' hc'
      rcases List.mem_append.1 hc' with hc' | hc'
      · exact @old_calls s _ c' hc'
      · simp only [List.mem_singleton] at hc'; subst hc'
        refine .inr ⟨act.kind, by simp [St.kindOf, List.getElem?_append_left, hact], fun n hn => hn, ?_, ?_⟩ <;>
          intro _ hp <;> cases hp
    · exact @old_calls s _
  | signal n =>
    simp only [step]; split
    · intro c' hc'
      obtain ⟨c, hc, rfl⟩ := List.mem_map.1 hc'
      exact .inl ⟨c, hc, by simp, fun _ _ ok => ok.deliver n⟩
    · exact @old_calls s _
  | recv j =>
    simp only [step]; split
    · rename_i c hc; split
      · split
        · rename_i hkind
          exact fun x hx => .inl (mem_set_moved hc x hx (by rfl) (fun k hk ok => ⟨ok.subs, fun _ _ => by
            simpa [St.kindOf, ‹s.acts[c.act]? = some _›, hkind] using hk.symm, fun _ hp => by cases hp⟩))
        · exact fun x hx => .inl (mem_set_moved hc x hx (by rfl) (fun _ _ ok => ok.move rfl (by simp)))
      · exact @old_calls s _
    · exact @old_calls s _
  | reset j =>
    simp only [step]; split
    · rename_i c hc; split
      · rename_i n hp
        intro x hx
        obtain ⟨y, hy, rfl⟩ := List.mem_map.1 hx
        rcases List.mem_or_eq_of_mem_set hy with hy | rfl
        · exact .inl ⟨y, hy, rfl, fun _ _ ok => ok.cleared⟩
        · refine .inl ⟨c, List.getElem?_mem hc, rfl, fun k _ ok => ?_⟩
          obtain rfl := ok.resetting n hp
          exact ok.returnSignal n
      · exact @old_calls s _
    · exact @old_calls s _
  | flip _ | setLevel _ | ctxDone _ | closed _ | cancel _ _ =>
    simp only [step]; split
    · rename_i c hc; split
      · exact fun x hx => .inl (mem_set_moved hc x hx (by rfl) (fun _ _ ok => ok.move rfl (by simp)))
      · exact @old_calls s _
    · exact @old_calls s _

theorem run_inv {s : St} (h : Inv s) (ops : List Op) : Inv (run s ops) := by
  induction ops generalizing s with
  | nil => exact h
  | cons o ops ih => exact ih (step_inv h o)

/-- **The signal exit unsubscribes its channel.** In every state reached by any interleaving of activities, `Run`
calls, signals, context ends and `Close` calls: a channel is subscribed only to signals its `Run` passed to
`Notify`, and a `Shutdown.Run` that returned on a signal is subscribed to nothing. -/
theorem signal_exit_unsubscribed (ops : List Op) :
    ∀ c ∈ (run init ops).calls, ∃ k, (run init ops).kindOf c.act = some k ∧ (∀ n ∈ c.subs, n ∈ k.signals) ∧
      ∀ n, c.phase = .returned (.signal n) → c.subs = [] := fun c hc =>
  let ⟨k, hk, ok⟩ := (run_inv inv_init ops).calls c hc
  ⟨k, hk, ok.subs, ok.reset⟩

/-! ## Subscriptions that outlive their `Run` -/

/-- **A returned `Run` stays subscribed.** `Shutdown.Run` returns on its cancelled `ctx`, and a later SIGINT goes
into its channel, which nobody reads, and does not terminate the process. A switcher for SIGUSR1 (10) returns
after `Close`, and a later SIGUSR1 is swallowed the same way. And while a switcher for SIGHUP runs, a
`Shutdown.Run` that returns on SIGINT resets SIGHUP for the switcher too, so a later SIGHUP terminates the process
although the switcher still listens. -/
theorem subscription_outlives_run :
    (run init [.new .shutdown, .run 0, .cancel 0 .cancel, .ctxDone 0, .signal sigint]).calls =
        [⟨0, some .cancel, [sigint], shutdownSignals, .returned (.ctx .cancel)⟩] ∧
      (run init [.new .shutdown, .run 0, .cancel 0 .cancel, .ctxDone 0, .signal sigint]).defaults = [] ∧
      (run init [.new (.switcher 10), .run 0, .close 0, .closed 0, .signal 10]).calls =
        [⟨0, none, [10], [10], .returned .closed⟩] ∧
      (run init [.new (.switcher 10), .run 0, .close 0, .closed 0, .signal 10]).defaults = [] ∧
      (run init [.new (.switcher sighup), .run 0, .new .shutdown, .run 1, .signal sigint, .recv 1, .reset 1,
        .signal sighup]).calls.map (fun c => (c.subs, c.phase)) =
          [([], .selecting), ([], .returned (.signal sigint))] ∧
      (run init [.new (.switcher sighup), .run 0, .new .shutdown, .run 1, .signal sigint, .recv 1, .reset 1,
        .signal sighup]).defaults = [sighup] := by decide

/-! ## The switcher's levels -/

/-- the level a switcher's `Run` has flipped `debugLevelOn` for and not yet passed to `SetLevel` -/
def Phase.pending : Phase → List Bool
  | .setting debug => [debug]
  | _ => []

/-- a switcher's levels with its `Run` at phase `p`: its `SetLevel` calls, with the one its `Run` is about to make,
alternate, `DebugLevel` first; `debugLevelOn` says whether the last of them sets `DebugLevel`; and a level chosen
but not yet flipped is the other one -/
structure Activity.Toggled (a : Activity) (p : Phase) : Prop where
  alt : (a.levels ++ p.pending).Chain' (· ≠ ·)
  head : (a.levels ++ p.pending).head? ≠ some false
  last : a.debugLevelOn = (a.levels ++ p.pending).getLast?.getD false
  chosen : ∀ debug, p = .flipping debug → debug = !a.debugLevelOn

namespace Activity.Toggled

variable {a : Activity} {p : Phase}

/-- a fresh activity, its `Run` idle -/
theorem fresh (k : Kind) : (⟨k, false, false, []⟩ : Activity).Toggled .selecting :=
  ⟨List.chain'_nil, by simp [Phase.pending], rfl, fun _ h => by cases h⟩

/-- `sa.debugLevelOn = !sa.debugLevelOn`, after choosing the level it did not hold -/
theorem flip {debug : Bool} (h : a.Toggled (.flipping debug)) :
    { a with debugLevelOn := !a.debugLevelOn }.Toggled (.setting debug) := by
  have hd := h.chosen debug rfl
  have alt := h.alt
  have head := h.head
  have last := h.last
  simp only [Phase.pending, List.append_nil] at alt head last
  refine ⟨List.chain'_append.2 ⟨alt, List.chain'_singleton _, fun x hx y hy => ?_⟩, ?_,
    by simp [Phase.pending, hd], fun _ h => by cases h⟩
  · simp only [Phase.pending, List.head?_cons, Option.mem_def, Option.some.injEq] at hx hy
    rw [← hy, hd, last, hx]
    simp
  · cases hl : a.levels with
    | nil => simp only [hl, List.getLast?_nil, Option.getD_none] at last; simp [Phase.pending, hl, hd, last]
    | cons x xs => simpa [Phase.pending, hl] using head

/-- `sa.logger.SetLevel(logLevel)` makes the pending call -/
theorem setLevel {debug : Bool} (h : a.Toggled (.setting debug)) :
    { a with levels := a.levels ++ [debug] }.Toggled .selecting where
  alt := by simpa [Phase.pending] using h.alt
  head := by simpa [Phase.pending] using h.head
  last := by simpa [Phase.pending] using h.last
  chosen _ h := by cases h

end Activity.Toggled

/-- every activity's levels agree with the phase of its `Run` if it has exactly one call, and with an idle `Run` if
it has none -/
structure Serial (s : St) : Prop where
  solo : ∀ (k : Nat) (c : Call) (act : Activity), s.calls[k]? = some c → s.acts[c.act]? = some act →
    (∀ (k' : Nat) (c' : Call), s.calls[k']? = some c' → c'.act = c.act → k' = k) → act.Toggled c.phase
  idle : ∀ (a : Nat) (act : Activity), s.acts[a]? = some act → (∀ c ∈ s.calls, c.act ≠ a) →
    act.Toggled .selecting

/-- a change to every call that keeps its activity and its phase keeps `Serial` -/
theorem Serial.map {s : St} (h : Serial s) (f : Call → Call) (hf : ∀ c, (f c).act = c.act ∧ (f c).phase = c.phase)
    (t : St) (ht : t.calls = s.calls.map f) (hta : t.acts = s.acts) : Serial t where
  solo k c act hc ha huniq := by
    rw [ht, List.getElem?_map] at hc
    obtain ⟨c0, hc0, rfl⟩ := Option.map_eq_some'.1 hc
    rw [hta, (hf c0).1] at ha
    rw [(hf c0).2]
    exact h.solo k c0 act hc0 ha fun k' c'' hk' hact => huniq k' (f c'')
      (by rw [ht, List.getElem?_map, hk']; rfl) (by rw [(hf c'').1, (hf c0).1, hact])
  idle a act ha hnone :=
    h.idle a act (hta ▸ ha) fun c hc => (hf c).1 ▸ hnone (f c) (ht ▸ List.mem_map_of_mem f hc)

/-- what a switcher's levels say once its `Run` has made every `SetLevel` call it flipped `debugLevelOn` for -/
theorem Activity.Toggled.levels {a : Activity} {p : Phase} (h : a.Toggled p) :
    a.levels.Chain' (· ≠ ·) ∧ a.levels.head? ≠ some false ∧
      (p.pending = [] → a.debugLevelOn = a.levels.getLast?.getD false) := by
  refine ⟨(List.chain'_append.1 h.alt).1, ?_, fun hp => by simpa [hp] using h.last⟩
  cases hl : a.levels with
  | nil => simp
  | cons x xs => simpa [hl] using h.head

/-- two `Run` calls of one switcher: one signal reaches both channels, both calls choose `DebugLevel` before either
flips `debugLevelOn`, and `DebugLevel` is set twice while `debugLevelOn` ends off -/
example :
    (run init [.new (.switcher 10), .run 0, .run 0, .signal 10, .recv 0, .recv 1, .flip 0, .flip 1, .setLevel 0,
      .setLevel 1]).acts = [⟨.switcher 10, false, false, [true, true]⟩] := by decide

end Gobox.Signals
