import Gobox.Async.Outcomes
import Gobox.Signals

/-!
`AsyncTask.Run` (`examples/async_task`): on `ctx2, cancel := context.WithCancel(ctx)` it starts a goroutine running
`shutdown.Run(ctx2)` on a new `Shutdown`, which calls `cancel()` if that returns an error; it calls `at.Loop(ctx2,
r)` `replicas` times, where `r` runs `at.f()` and returns nil whatever `f` returned; then `at.Wait()` and
`shutdown.Close(ctx)`.

State `St`: the task's group (a state of the `TaskGroup` model), the signal handler table holding the `Shutdown`
and its `Run` call (a state of the `Signals` model), `ctx` and `ctx2`, the shutdown goroutine, and where `Run` is.
Each `Op` is one step of one party, and it moves each component by steps of that component's own model. `ctx2` is
kept once: a replica reads it at its loop head and `shutdown.Run` in its `select`, and each component's own `ctx`
records the value it last read. `step` is total and a step its party cannot take changes nothing, so `run (init r)
ops` ranges over every interleaving, with any results of `f`, any signals and any end of `ctx`.

Results:
- `step_inv`, `run_inv`: the group and the handler table are reachable states of their models; every replica is a
  `Loop` on `ctx2` and nothing is logged; `ctx2` has ended only if `ctx` has or `shutdown.Run` returned on SIGINT,
  SIGTERM or SIGHUP.
- `replicas_stop_only_on_ctx2`: a replica leaves its loop only once `ctx2` has ended, whatever `f` returns.
- `run_returns_after`: `Run` returns only after every replica has finished, and, with at least one replica, only
  after `ctx` ended or the `Shutdown` caught a shutdown signal.
- `returns_after_cancel`, `returns_after_signal`: from every reachable state, once `ctx` ends, or a shutdown signal
  arrives after `shutdown.Run` has called `Notify`, the steps `drain` take `Run` to its return. `drain` has each
  running `at.f()` return (`ret`): `f` takes no context, so these are runs in which every running `at.f()` returns;
  one that never returns keeps `Run` in `at.Wait()`.
-/

namespace Gobox.AsyncTask

open Signals (shutdownSignals)

/-! ## Model -/

/-- where `Run`'s own goroutine is -/
inductive Pc where
  /-- in the `for` loop, after `i` calls of `at.Loop` -/
  | looping (i : Nat)
  /-- in `at.Wait()` -/
  | waiting
  /-- `at.Wait()` returned; `shutdown.Close(ctx)` is next -/
  | closing
  | returned
deriving DecidableEq, Repr

/-- the goroutine `if err := shutdown.Run(ctx2); err != nil { cancel() }` -/
inductive Watcher where
  /-- `shutdown.Run` has not called `signal.Notify` -/
  | start
  /-- in `shutdown.Run`, or at the `if` after it -/
  | running
  | finished
deriving DecidableEq, Repr

structure St where
  /-- `at.replicas`, a Go `int` -/
  replicas : Int
  /-- `ctx`: `none` while live -/
  ctx : Option CtxEnd
  /-- `ctx2`: `none` while live -/
  ctx2 : Option CtxEnd
  /-- `at.TaskGroup` -/
  group : TaskGroup.St
  /-- the signal handler table: `shutdown` is its activity 0, and `shutdown.Run(ctx2)` its call 0 -/
  sig : Signals.St
  watcher : Watcher
  pc : Pc
deriving DecidableEq, Repr

/-- `at.Run(ctx)` on `NewAsyncTask(f, replicas)`, after `async.NewShutdown()` -/
def init (replicas : Int) : St :=
  ⟨replicas, none, none, TaskGroup.init, Signals.step Signals.init (.new .shutdown), .start, .looping 0⟩

/-- the group as replica `i` finds it at its loop head, having read `ctx2` -/
def St.seen (s : St) (i : Nat) : TaskGroup.St :=
  match s.ctx2 with
  | some e => TaskGroup.step s.group (.cancel i e)
  | none => s.group

/-- the handler table as `shutdown.Run`'s `select` finds it, having read `ctx2` -/
def St.sigSeen (s : St) : Signals.St :=
  match s.ctx2 with
  | some e => Signals.step s.sig (.cancel 0 e)
  | none => s.sig

inductive Op where
  /-- the shutdown goroutine enters `shutdown.Run(ctx2)`: `signal.Notify(c, ...)` -/
  | notify
  /-- the process receives signal `n` -/
  | signal (n : Nat)
  /-- `shutdown.Run`'s `select` takes `<-c`; then `signal.Reset(...)` -/
  | recv
  | reset
  /-- `shutdown.Run`'s `select` takes `<-ctx.Done()`, or `<-s.done` -/
  | ctxDone
  | closed
  /-- the shutdown goroutine's `if err != nil { cancel() }` -/
  | afterRun
  /-- `ctx` ends -/
  | cancel (e : CtxEnd)
  /-- the `for` loop: `at.Loop(ctx2, r)`, or `i < at.replicas` fails and `at.Wait()` begins -/
  | loop
  /-- replica `i`: its loop head (or `trace.StartSpan`), `r.Run` returning after `at.f()` returned `f`,
  `trace.End`, and `Done`. A run in which `at.f()` never returns is one that never takes its `ret` -/
  | begin (i : Nat)
  | ret (i : Nat) (f : Option GoErr)
  | endSpan (i : Nat)
  | done (i : Nat)
  /-- `at.Wait()` returns -/
  | waitEnd
  /-- `shutdown.Close(ctx)` -/
  | close
deriving DecidableEq, Repr

def step (s : St) : Op → St
  | .notify =>
    match s.watcher with
    | .start => { s with sig := Signals.step s.sig (.run 0), watcher := .running }
    | _ => s
  | .signal n => { s with sig := Signals.step s.sig (.signal n) }
  | .recv => { s with sig := Signals.step s.sig (.recv 0) }
  | .reset => { s with sig := Signals.step s.sig (.reset 0) }
  | .ctxDone => { s with sig := Signals.step s.sigSeen (.ctxDone 0) }
  | .closed => { s with sig := Signals.step s.sig (.closed 0) }
  | .afterRun =>
    match s.watcher, (s.sig.calls[0]?).map Signals.Call.phase with
    | .running, some (.returned .closed) => { s with watcher := .finished }
    | .running, some (.returned _) => { s with watcher := .finished, ctx2 := s.ctx2.or (some .cancel) }
    | _, _ => s
  | .cancel e =>
    match s.ctx with
    | none => { s with ctx := some e, ctx2 := s.ctx2.or (some e) }
    | some _ => s
  | .loop =>
    match s.pc with
    | .looping i =>
      if (i : Int) < s.replicas then { s with group := TaskGroup.step s.group (.call .loop), pc := .looping (i + 1) }
      else { s with group := TaskGroup.step s.group .waitBegin, pc := .waiting }
    | _ => s
  | .begin i => { s with group := TaskGroup.step (s.seen i) (.begin i) }
  | .ret i _ => { s with group := TaskGroup.step s.group (.ret i none) }
  | .endSpan i => { s with group := TaskGroup.step s.group (.endSpan i) }
  | .done i => { s with group := TaskGroup.step s.group (.done i) }
  | .waitEnd =>
    match s.pc with
    | .waiting => if s.group.wg = 0 then { s with group := TaskGroup.step s.group (.waitEnd 0), pc := .closing } else s
    | _ => s
  | .close =>
    match s.pc with
    | .closing => { s with sig := Signals.step s.sig (.close 0), pc := .returned }
    | _ => s

def run (s : St) (ops : List Op) : St := ops.foldl step s

@[simp] theorem run_nil (s : St) : run s [] = s := rfl
@[simp] theorem run_cons (s : St) (o : Op) (ops : List Op) : run s (o :: ops) = run (step s o) ops := rfl

theorem run_append (s : St) (a b : List Op) : run s (a ++ b) = run (run s a) b := List.foldl_append _ _ _ _

/-! ## The `Shutdown` alone in the handler table -/

/-- what holds of `shutdown.Run`'s call, given `ctx2` and whether `shutdown.Close` has run -/
structure Shut (ctx2 : Option CtxEnd) (closed : Bool) (c : Signals.Call) : Prop where
  act : c.act = 0
  /-- the `ctx` it last read is `ctx2` -/
  ctx : ∀ e, c.ctx = some e → ctx2 = some e
  /-- subscribed to shutdown signals only, and to all of them until its own `Reset` -/
  subs : ∀ n ∈ c.subs, n ∈ shutdownSignals
  live : (∀ n, c.phase ≠ .returned (.signal n)) → c.subs = shutdownSignals
  buf : ∀ n ∈ c.buf, n ∈ shutdownSignals
  resetting : ∀ n, c.phase = .resetting n → n ∈ shutdownSignals
  signal : ∀ n, c.phase = .returned (.signal n) → n ∈ shutdownSignals
  /-- it returned `ctx.Err()` only once `ctx2` ended, and nil only after `Close` -/
  ctxEnd : ∀ e, c.phase = .returned (.ctx e) → ctx2.isSome
  done : c.phase = .returned .closed → closed = true
  /-- only a switcher's `Run` toggles a level -/
  switching : ∀ b, c.phase ≠ .flipping b ∧ c.phase ≠ .setting b

/-- `c := make(chan os.Signal, 1)`, `signal.Notify(c, syscall.SIGINT, syscall.SIGTERM, syscall.SIGHUP)` -/
theorem shut_fresh (ctx2 : Option CtxEnd) (closed : Bool) :
    Shut ctx2 closed ⟨0, none, [], shutdownSignals, .selecting⟩ :=
  ⟨rfl, by simp, fun _ h => h, fun _ => rfl, by simp, by simp, by simp, by simp, by simp, by simp⟩

section Solo

variable {sig : Signals.St} {d : Bool} {ctx2 : Option CtxEnd} {c : Signals.Call}
  (ha : sig.acts = [⟨.shutdown, d, false, []⟩]) (hc : sig.calls = [c]) (h : Shut ctx2 d c)
include ha hc h

/-- a signal, or a step of `shutdown.Run` other than its `ctx` case, keeps the `Shutdown` alone with its call
`Shut`, and a returned call as it is -/
theorem solo_step (o : Signals.Op) (ho : (∃ n, o = .signal n) ∨ o = .recv 0 ∨ o = .reset 0 ∨ o = .closed 0) :
    ∃ c', (Signals.step sig o).calls = [c'] ∧ (Signals.step sig o).acts = [⟨.shutdown, d, false, []⟩] ∧
      Shut ctx2 d c' ∧ ∀ x, c.phase = .returned x → c'.phase = c.phase := by
  rcases ho with ⟨n, rfl⟩ | rfl | rfl | rfl
  · simp only [Signals.step, hc, List.any_cons, List.any_nil, Bool.or_false, decide_eq_true_eq]
    split
    · refine ⟨c.deliver n, rfl, ha, ⟨by simp [h.act], by simpa using h.ctx, by simpa using h.subs,
        by simpa using h.live, ?_, by simpa using h.resetting, by simpa using h.signal, by simpa using h.ctxEnd,
        by simpa using h.done, by simpa using h.switching⟩, fun _ _ => by simp⟩
      unfold Signals.Call.deliver; split
      · simpa [or_imp, forall_and] using ⟨h.buf, h.subs n (by assumption)⟩
      · exact h.buf
    · exact ⟨c, rfl, ha, h, fun _ _ => rfl⟩
  · simp only [Signals.step, hc, List.getElem?_cons_zero, h.act, ha]
    split
    · rename_i n rest act hp hb hact
      cases hact
      refine ⟨_, rfl, rfl, ⟨rfl, h.ctx, h.subs, fun _ => h.live (by simp [hp]), fun m hm => h.buf m (by simp [hb, hm]),
        fun m hm => ?_, by simp, by simp, by simp, by simp⟩, by simp [hp]⟩
      cases hm; exact h.buf _ (by simp [hb])
    · exact ⟨c, hc, ha, h, fun _ _ => rfl⟩
  · simp only [Signals.step, hc, List.getElem?_cons_zero]
    split
    · rename_i n hp
      refine ⟨_, rfl, ha, ⟨h.act, h.ctx, fun m hm => h.subs m (List.mem_of_mem_filter hm), fun hn => absurd rfl (hn n),
        h.buf, by simp [Signals.Call.reset], fun m hm => ?_, by simp [Signals.Call.reset],
        by simp [Signals.Call.reset], by simp [Signals.Call.reset]⟩, by simp [hp]⟩
      simp only [Signals.Call.reset, Signals.Phase.returned.injEq, Signals.Exit.signal.injEq] at hm
      subst hm; exact h.resetting n hp
    · exact ⟨c, hc, ha, h, fun _ _ => rfl⟩
  · simp only [Signals.step, hc, List.getElem?_cons_zero, h.act, ha]
    split
    · rename_i hp hd
      simp only [List.getElem?_cons_zero, Option.map_some', Option.some.injEq] at hd
      refine ⟨_, rfl, rfl, ⟨rfl, h.ctx, h.subs, fun _ => h.live (by simp [hp]), h.buf, by simp, by simp, by simp,
        fun _ => hd, by simp⟩, by simp [hp]⟩
    · exact ⟨c, hc, ha, h, fun _ _ => rfl⟩

/-- a shutdown signal, the `select`'s receive and `signal.Reset` make `shutdown.Run`'s call return, wherever it was -/
theorem solo_signal_returns {n : Nat} (hn : n ∈ shutdownSignals) :
    ∃ x c', (Signals.run sig [.signal n, .recv 0, .reset 0]).calls = [c'] ∧ c'.phase = .returned x := by
  obtain ⟨a, ctx, buf, subs, phase⟩ := c
  obtain rfl : a = 0 := h.act
  cases phase with
  | returned x =>
    obtain ⟨c1, hc1, ha1, h1, hp1⟩ := solo_step ha hc h _ (.inl ⟨n, rfl⟩)
    obtain ⟨c2, hc2, ha2, h2, hp2⟩ := solo_step ha1 hc1 h1 _ (.inr (.inl rfl))
    obtain ⟨c3, hc3, -, -, hp3⟩ := solo_step ha2 hc2 h2 _ (.inr (.inr (.inl rfl)))
    have e1 := hp1 x rfl
    have e2 := hp2 x e1
    exact ⟨x, c3, hc3, (hp3 x (e2.trans e1)).trans (e2.trans e1)⟩
  | selecting =>
    obtain rfl : subs = shutdownSignals := h.live (by simp)
    cases buf <;> simp [Signals.step, Signals.Call.deliver, Signals.Call.reset, hc, ha, hn]
  | resetting m =>
    obtain rfl : subs = shutdownSignals := h.live (by simp)
    simp [Signals.step, Signals.Call.reset, hc, hn]
  | flipping b => exact ((h.switching b).1 rfl).elim
  | setting b => exact ((h.switching b).2 rfl).elim

end Solo

/-- `ctx2` may end meanwhile -/
theorem Shut.mono {ctx2 : Option CtxEnd} {d : Bool} {c : Signals.Call} (h : Shut ctx2 d c) (o : Option CtxEnd) :
    Shut (ctx2.or o) d c :=
  { h with
    ctx := fun e he => by rw [h.ctx e he]; rfl
    ctxEnd := fun e he => by have := h.ctxEnd e he; cases ctx2 <;> simp_all }

/-- `shutdown.Close` -/
theorem Shut.close {ctx2 : Option CtxEnd} {d : Bool} {c : Signals.Call} (h : Shut ctx2 d c) : Shut ctx2 true c :=
  { h with done := fun _ => rfl }

/-- with no call in the table, `shutdown.Run`'s steps do nothing and a signal takes its default action -/
theorem solo_empty {sig : Signals.St} (hc : sig.calls = []) (o : Signals.Op)
    (ho : (∃ n, o = .signal n) ∨ o = .recv 0 ∨ o = .reset 0 ∨ o = .closed 0 ∨ o = .ctxDone 0 ∨ ∃ e, o = .cancel 0 e) :
    (Signals.step sig o).calls = [] ∧ (Signals.step sig o).acts = sig.acts := by
  rcases ho with ⟨n, rfl⟩ | rfl | rfl | rfl | rfl | ⟨e, rfl⟩ <;> simp [Signals.step, hc]

/-- `shutdown.Run`'s `select` reads `ctx2` and takes `<-ctx.Done()` if it has ended -/
theorem solo_ctxDone {s : St} {d : Bool} {c : Signals.Call} (ha : s.sig.acts = [⟨.shutdown, d, false, []⟩])
    (hc : s.sig.calls = [c]) (h : Shut s.ctx2 d c) :
    ∃ c', (Signals.step s.sigSeen (.ctxDone 0)).calls = [c'] ∧
      (Signals.step s.sigSeen (.ctxDone 0)).acts = [⟨.shutdown, d, false, []⟩] ∧ Shut s.ctx2 d c' ∧
      ∀ x, c.phase = .returned x → c'.phase = c.phase := by
  obtain ⟨c1, hc1, ha1, h1, hp1⟩ : ∃ c1, s.sigSeen.calls = [c1] ∧ s.sigSeen.acts = [⟨.shutdown, d, false, []⟩] ∧
      Shut s.ctx2 d c1 ∧ c1.phase = c.phase := by
    unfold St.sigSeen
    split
    · rename_i e he
      simp only [Signals.step, hc, List.getElem?_cons_zero]
      split
      · exact ⟨_, rfl, ha, { h with ctx := fun _ h' => by cases h'; exact he }, rfl⟩
      · exact ⟨c, hc, ha, h, rfl⟩
    · exact ⟨c, hc, ha, h, rfl⟩
  simp only [Signals.step, hc1, List.getElem?_cons_zero]
  split
  · rename_i e hp hctx
    refine ⟨_, rfl, ha1, ⟨h1.act, h1.ctx, h1.subs, fun _ => h1.live (by simp [hp]), h1.buf, by simp, by simp,
      fun _ _ => by simp [h1.ctx e hctx], by simp, by simp⟩, by simp [← hp1, hp]⟩
  · exact ⟨c1, hc1, ha1, h1, fun _ _ => hp1⟩

/-! ## The replicas in the group -/

/-- a transition of a task other than the end of its `ctx` keeps its kind and its `ctx` -/
theorem Task.kind_ctx {t t' : TaskGroup.Task} {f : TaskGroup.Task → Option TaskGroup.Task}
    (hf : f = TaskGroup.Task.begin ∨ f = TaskGroup.Task.ret none ∨ f = TaskGroup.Task.endSpan ∨
      f = TaskGroup.Task.done) (h : f t = some t') : t'.kind = t.kind ∧ t'.ctx = t.ctx := by
  rcases hf with rfl | rfl | rfl | rfl
  all_goals
    simp only [TaskGroup.Task.begin, TaskGroup.Task.ret, TaskGroup.Task.endSpan, TaskGroup.Task.done] at h
    split at h <;> (try split at h) <;> cases h <;> exact ⟨rfl, rfl⟩

/-- the frame of a transition of task `i` whose shared effect keeps the tasks, the `Wait` calls and the log, and
adds at most a nil outcome of call `i`: every task is an old one or related to one by `P` -/
theorem act_frame (g : TaskGroup.St) (i : Nat) (f : TaskGroup.Task → Option TaskGroup.Task)
    (eff : TaskGroup.St → TaskGroup.St)
    (heff : ∀ s, (eff s).tasks = s.tasks ∧ (eff s).waits = s.waits ∧ (eff s).log = s.log ∧
      ∀ x ∈ (eff s).outs, x ∈ s.outs ∨ x = (i, none))
    (P : TaskGroup.Task → TaskGroup.Task → Prop) (hP : ∀ t, P t t) (hf : ∀ t t', f t = some t' → P t t') :
    (g.act i f eff).tasks.length = g.tasks.length ∧ (g.act i f eff).waits = g.waits ∧ (g.act i f eff).log = g.log ∧
      (∀ x ∈ (g.act i f eff).outs, x ∈ g.outs ∨ x = (i, none)) ∧ ∀ u ∈ (g.act i f eff).tasks, ∃ v ∈ g.tasks, P v u := by
  rcases TaskGroup.act_cases g i f eff with he | ⟨t, t', ht, htf, he⟩ <;> rw [he]
  · exact ⟨rfl, rfl, rfl, fun x hx => .inl hx, fun u hu => ⟨u, hu, hP u⟩⟩
  · obtain ⟨h1, h2, h3, h4⟩ := heff { g with tasks := g.tasks.set i t' }
    refine ⟨by simp [h1], h2, h3, h4, fun u hu => ?_⟩
    rw [h1] at hu
    rcases List.mem_or_eq_of_mem_set hu with hu | rfl
    · exact ⟨u, hu, hP u⟩
    · exact ⟨t, List.getElem?_mem ht, hf t _ htf⟩

/-- a step of replica `i`, `Func` returning nil, keeps every task's kind and `ctx`, the `Wait` calls and the log,
and adds at most a nil outcome -/
theorem task_step (g : TaskGroup.St) (i : Nat) (o : TaskGroup.Op)
    (ho : o = .begin i ∨ o = .ret i none ∨ o = .endSpan i ∨ o = .done i) :
    (TaskGroup.step g o).tasks.length = g.tasks.length ∧ (TaskGroup.step g o).waits = g.waits ∧
      (TaskGroup.step g o).log = g.log ∧ (∀ x ∈ (TaskGroup.step g o).outs, x ∈ g.outs ∨ x = (i, none)) ∧
      ∀ u ∈ (TaskGroup.step g o).tasks, ∃ v ∈ g.tasks, u.kind = v.kind ∧ u.ctx = v.ctx := by
  have keep : ∀ {f}, (f = TaskGroup.Task.begin ∨ f = TaskGroup.Task.ret none ∨ f = TaskGroup.Task.endSpan ∨
      f = TaskGroup.Task.done) → ∀ t t', f t = some t' → t'.kind = t.kind ∧ t'.ctx = t.ctx :=
    fun hf _ _ h => Task.kind_ctx hf h
  have same : ∀ t : TaskGroup.Task, t.kind = t.kind ∧ t.ctx = t.ctx := fun _ => ⟨rfl, rfl⟩
  have idle : ∀ s : TaskGroup.St, s.tasks = s.tasks ∧ s.waits = s.waits ∧ s.log = s.log ∧
      ∀ x ∈ s.outs, x ∈ s.outs ∨ x = (i, none) := fun _ => ⟨rfl, rfl, rfl, fun _ hx => .inl hx⟩
  rcases ho with rfl | rfl | rfl | rfl
  · exact act_frame g i _ id idle _ same (keep (.inl rfl))
  · exact act_frame g i _ _ (by exact fun s => ⟨rfl, rfl, List.append_nil s.log,
      fun x hx => (List.mem_append.1 hx).imp id List.mem_singleton.1⟩) _ same (keep (.inr (.inl rfl)))
  · exact act_frame g i _ id idle _ same (keep (.inr (.inr (.inl rfl))))
  · exact act_frame g i _ _ (by exact fun s => idle s) _ same (keep (.inr (.inr (.inr rfl))))

/-- the end of task `i`'s `ctx` with `e` keeps every task's kind, and every task's `ctx` but task `i`'s -/
theorem cancel_step (g : TaskGroup.St) (i : Nat) (e : CtxEnd) :
    (TaskGroup.step g (.cancel i e)).tasks.length = g.tasks.length ∧
      (TaskGroup.step g (.cancel i e)).waits = g.waits ∧ (TaskGroup.step g (.cancel i e)).log = g.log ∧
      (TaskGroup.step g (.cancel i e)).outs = g.outs ∧
      ∀ u ∈ (TaskGroup.step g (.cancel i e)).tasks, ∃ v ∈ g.tasks, u.kind = v.kind ∧
        (u.ctx = v.ctx ∨ u.ctx = some e) := by
  obtain ⟨h1, h2, h3, -, h5⟩ := act_frame g i (TaskGroup.Task.cancel e) id
    (fun s => ⟨rfl, rfl, rfl, fun x hx => .inl hx⟩) (fun v u => u.kind = v.kind ∧ (u.ctx = v.ctx ∨ u.ctx = some e))
    (fun _ => ⟨rfl, .inl rfl⟩) fun t t' h => by
      simp only [TaskGroup.Task.cancel] at h
      split at h <;> cases h
      exact ⟨rfl, .inr rfl⟩
  exact ⟨h1, h2, h3, by rcases TaskGroup.act_cases g i (TaskGroup.Task.cancel e) id with he | ⟨_, _, _, _, he⟩ <;>
    simp only [TaskGroup.step, he, id], h5⟩

/-! ## The invariant -/

/-- the `Loop` calls `Run` has made at `pc` -/
def Pc.spawned (r : Int) : Pc → Nat
  | .looping i => i
  | _ => r.toNat

/-- the group's `Wait` calls at `pc` -/
def Pc.waits (r : Int) : Pc → List (Nat × Bool)
  | .looping _ => []
  | .waiting => [(r.toNat, false)]
  | _ => [(r.toNat, true)]

structure Inv (s : St) : Prop where
  /-- the group and the handler table are reachable states of their own models -/
  group : ∃ ops, s.group = TaskGroup.run TaskGroup.init ops
  sig : ∃ ops, s.sig = Signals.run Signals.init ops
  /-- every replica is a `Loop` whose `ctx` is `ctx2` as it last read it -/
  replicas : ∀ t ∈ s.group.tasks, t.kind = .loop ∧ ∀ e, t.ctx = some e → s.ctx2 = some e
  /-- every invocation of `r.Run` returned nil, and nothing is logged -/
  outs : ∀ o ∈ s.group.outs, o.2 = none
  log : s.group.log = []
  spawned : s.group.tasks.length = s.pc.spawned s.replicas
  waits : s.group.waits = s.pc.waits s.replicas
  bound : ∀ i, s.pc = .looping i → i ≤ s.replicas.toNat
  acts : s.sig.acts = [⟨.shutdown, decide (s.pc = .returned), false, []⟩]
  start : s.watcher = .start → s.sig.calls = []
  call : s.watcher ≠ .start → ∃ c, s.sig.calls = [c] ∧ Shut s.ctx2 (decide (s.pc = .returned)) c
  finished : s.watcher = .finished → s.ctx2.isSome ∨ s.pc = .returned
  ctx : s.ctx.isSome → s.ctx2.isSome
  /-- `ctx2` ended only with `ctx`, or on a shutdown signal -/
  cause : s.ctx2.isSome → s.ctx.isSome ∨
    ∃ c n, s.sig.calls = [c] ∧ c.phase = .returned (.signal n) ∧ n ∈ shutdownSignals

theorem inv_init (r : Int) : Inv (init r) where
  group := ⟨[], rfl⟩
  sig := ⟨[.new .shutdown], rfl⟩
  replicas := by simp [init, TaskGroup.init]
  outs := by simp [init, TaskGroup.init]
  log := rfl
  spawned := rfl
  waits := rfl
  bound i h := by cases h; omega
  acts := rfl
  start _ := rfl
  call h := absurd rfl h
  finished h := by cases h
  ctx h := by cases h
  cause h := by cases h

theorem group_reach {g : TaskGroup.St} (h : ∃ ops, g = TaskGroup.run TaskGroup.init ops) (o : TaskGroup.Op) :
    ∃ ops, TaskGroup.step g o = TaskGroup.run TaskGroup.init ops :=
  let ⟨ops, hg⟩ := h; ⟨ops ++ [o], by rw [TaskGroup.run_append, ← hg]; rfl⟩

theorem sig_reach {sig : Signals.St} (h : ∃ ops, sig = Signals.run Signals.init ops) (o : Signals.Op) :
    ∃ ops, Signals.step sig o = Signals.run Signals.init ops :=
  let ⟨ops, hs⟩ := h; ⟨ops ++ [o], by rw [Signals.run_append, ← hs]; rfl⟩

/-! ## One lemma per kind of step -/

section Steps

variable {s : St} (h : Inv s)
include h

/-- a signal, or a step of `shutdown.Run` other than its `ctx` case -/
theorem inv_sig (o : Signals.Op) (ho : (∃ n, o = .signal n) ∨ o = .recv 0 ∨ o = .reset 0 ∨ o = .closed 0) :
    Inv { s with sig := Signals.step s.sig o } := by
  by_cases hw : s.watcher = .start
  · have hc := h.start hw
    obtain ⟨hc', ha'⟩ := solo_empty hc o (by rcases ho with ho | ho | ho | ho <;> simp [ho])
    exact { h with
      sig := sig_reach h.sig o, acts := ha'.trans h.acts, start := fun _ => hc', call := fun h' => absurd hw h'
      cause := fun hs => (h.cause hs).imp_right fun ⟨c, n, hc2, _⟩ => by simp [hc] at hc2 }
  · obtain ⟨c, hc, hsh⟩ := h.call hw
    obtain ⟨c', hc', ha', hsh', hret⟩ := solo_step h.acts hc hsh o ho
    exact { h with
      sig := sig_reach h.sig o, acts := ha', start := fun h' => absurd h' hw, call := fun _ => ⟨c', hc', hsh'⟩
      cause := fun hs => (h.cause hs).imp_right fun ⟨c0, n, hc0, hp, hn⟩ => by
        cases hc.symm.trans hc0
        exact ⟨c', n, hc', (hret _ hp).trans hp, hn⟩ }

/-- `shutdown.Run`'s `select` reads `ctx2` -/
theorem inv_ctxDone : Inv { s with sig := Signals.step s.sigSeen (.ctxDone 0) } := by
  have hreach : ∃ ops, s.sigSeen = Signals.run Signals.init ops := by
    unfold St.sigSeen; split
    · exact sig_reach h.sig _
    · exact h.sig
  by_cases hw : s.watcher = .start
  · have hc := h.start hw
    have hseen : s.sigSeen.calls = [] ∧ s.sigSeen.acts = s.sig.acts := by
      unfold St.sigSeen; split
      · exact solo_empty hc _ (by simp)
      · exact ⟨hc, rfl⟩
    obtain ⟨hc', ha'⟩ := solo_empty hseen.1 (.ctxDone 0) (by simp)
    exact { h with
      sig := sig_reach hreach (.ctxDone 0), acts := ha'.trans (hseen.2.trans h.acts), start := fun _ => hc'
      call := fun h' => absurd hw h'
      cause := fun hs => (h.cause hs).imp_right fun ⟨c, n, hc2, _⟩ => by simp [hc] at hc2 }
  · obtain ⟨c, hc, hsh⟩ := h.call hw
    obtain ⟨c', hc', ha', hsh', hret⟩ := solo_ctxDone h.acts hc hsh
    exact { h with
      sig := sig_reach hreach (.ctxDone 0), acts := ha', start := fun h' => absurd h' hw, call := fun _ => ⟨c', hc', hsh'⟩
      cause := fun hs => (h.cause hs).imp_right fun ⟨c0, n, hc0, hp, hn⟩ => by
        cases hc.symm.trans hc0
        exact ⟨c', n, hc', (hret _ hp).trans hp, hn⟩ }

/-- the group steps, and `Run` moves in its own code, returning exactly when it did -/
theorem Inv.move {g : TaskGroup.St} {p : Pc} (hp : p = .returned ↔ s.pc = .returned)
    (hg : ∃ ops, g = TaskGroup.run TaskGroup.init ops)
    (hrep : ∀ t ∈ g.tasks, t.kind = .loop ∧ ∀ e, t.ctx = some e → s.ctx2 = some e)
    (houts : ∀ o ∈ g.outs, o.2 = none) (hlog : g.log = []) (hsp : g.tasks.length = p.spawned s.replicas)
    (hwaits : g.waits = p.waits s.replicas) (hbound : ∀ i, p = .looping i → i ≤ s.replicas.toNat) :
    Inv { s with group := g, pc := p } := by
  have hd : decide (p = .returned) = decide (s.pc = .returned) := decide_eq_decide.2 hp
  exact { h with
    group := hg, replicas := hrep, outs := houts, log := hlog, spawned := hsp, waits := hwaits, bound := hbound
    acts := by rw [hd]; exact h.acts
    call := by rw [hd]; exact h.call
    finished := fun hw => (h.finished hw).imp_right hp.2 }

/-- a step of replica `i`, `Func` returning nil -/
theorem Inv.replica (i : Nat) (o : TaskGroup.Op) (ho : o = .begin i ∨ o = .ret i none ∨ o = .endSpan i ∨ o = .done i) :
    Inv { s with group := TaskGroup.step s.group o } := by
  obtain ⟨hlen, hw, hl, houts, hts⟩ := task_step s.group i o ho
  refine h.move Iff.rfl (group_reach h.group o) (fun u hu => ?_) (fun x hx => ?_) (hl.trans h.log)
    (hlen.trans h.spawned) (hw.trans h.waits) h.bound
  · obtain ⟨v, hv, hk, hc⟩ := hts u hu
    exact ⟨hk.trans (h.replicas v hv).1, hc ▸ (h.replicas v hv).2⟩
  · rcases houts x hx with hx | rfl
    · exact h.outs x hx
    · rfl

/-- replica `i` reads `ctx2` at its loop head -/
theorem Inv.seen (i : Nat) : Inv { s with group := s.seen i } := by
  unfold St.seen
  split
  · rename_i e he
    obtain ⟨hlen, hw, hl, houts, hts⟩ := cancel_step s.group i e
    refine h.move Iff.rfl (group_reach h.group _) (fun u hu => ?_) (houts ▸ h.outs) (hl.trans h.log)
      (hlen.trans h.spawned) (hw.trans h.waits) h.bound
    obtain ⟨v, hv, hk, hc⟩ := hts u hu
    refine ⟨hk.trans (h.replicas v hv).1, fun e' he' => ?_⟩
    rcases hc with hc | hc
    · exact (h.replicas v hv).2 e' (hc ▸ he')
    · rw [he]; exact hc.symm.trans he'
  · exact h

/-- `signal.Notify` in `shutdown.Run` -/
theorem inv_notify (hw : s.watcher = .start) :
    Inv { s with sig := Signals.step s.sig (.run 0), watcher := .running } := by
  have hc := h.start hw
  have hstep : (Signals.step s.sig (.run 0)).calls = [⟨0, none, [], shutdownSignals, .selecting⟩] ∧
      (Signals.step s.sig (.run 0)).acts = s.sig.acts := by
    simp [Signals.step, h.acts, hc, Signals.Kind.signals]
  exact { h with
    sig := sig_reach h.sig (.run 0), acts := hstep.2.trans h.acts, start := fun h' => (by cases h')
    call := fun _ => ⟨_, hstep.1, shut_fresh _ _⟩, finished := fun h' => (by cases h')
    cause := fun hs => (h.cause hs).imp_right fun ⟨c, n, hc2, _⟩ => by simp [hc] at hc2 }

/-- `ctx2` ends with `e` unless it has already, with `ctx` or after `shutdown.Run` returned an error -/
theorem Inv.end2 (e : CtxEnd) (c : Option CtxEnd) (w : Watcher) (hw : w ≠ .start ↔ s.watcher ≠ .start)
    (hcause : c.isSome ∨ ∃ c n, s.sig.calls = [c] ∧ c.phase = .returned (.signal n) ∧ n ∈ shutdownSignals) :
    Inv { s with ctx := c, ctx2 := s.ctx2.or (some e), watcher := w } where
  group := h.group
  sig := h.sig
  replicas t ht := ⟨(h.replicas t ht).1, fun e he => by rw [(h.replicas t ht).2 e he]; rfl⟩
  outs := h.outs
  log := h.log
  spawned := h.spawned
  waits := h.waits
  bound := h.bound
  acts := h.acts
  start h' := h.start (not_not.1 fun hs => hw.2 hs h')
  call h' := let ⟨c, hc, hsh⟩ := h.call (hw.1 h'); ⟨c, hc, hsh.mono _⟩
  finished _ := .inl (by cases s.ctx2 <;> rfl)
  ctx _ := by cases s.ctx2 <;> rfl
  cause _ := hcause

/-- the shutdown goroutine's `if err != nil { cancel() }` -/
theorem inv_afterRun : Inv (step s .afterRun) := by
  simp only [step]
  split
  · rename_i hw hp
    obtain ⟨c, hc, hsh⟩ := h.call (by simp [hw])
    simp only [hc, List.getElem?_cons_zero, Option.map_some', Option.some.injEq] at hp
    have := hsh.done hp
    exact { h with
      start := fun h' => (by cases h')
      call := fun _ => h.call (by simp [hw])
      finished := fun _ => .inr (by simpa using this) }
  · rename_i x hne hw hp
    obtain ⟨c, hc, hsh⟩ := h.call (by simp [hw])
    simp only [hc, List.getElem?_cons_zero, Option.map_some', Option.some.injEq] at hp
    refine h.end2 .cancel s.ctx .finished (by simp [hw]) ?_
    cases hs2 : s.ctx2 with
    | some _ => exact h.cause (by simp [hs2])
    | none =>
      cases x with
      | signal n => exact .inr ⟨c, n, hc, hp, hsh.signal n hp⟩
      | ctx e => have := hsh.ctxEnd e hp; simp [hs2] at this
      | closed => exact absurd rfl hne
  · exact h

/-- `ctx` ends -/
theorem inv_cancel (e : CtxEnd) : Inv (step s (.cancel e)) := by
  simp only [step]
  split
  · exact h.end2 e (some e) s.watcher Iff.rfl (.inl rfl)
  · exact h

/-- the `for` loop: `at.Loop(ctx2, r)`, or `at.Wait()` begins -/
theorem inv_loop : Inv (step s .loop) := by
  simp only [step]
  split
  · rename_i i hpc
    have hb := h.bound i hpc
    split
    · rename_i hi
      refine h.move (by simp [hpc]) (group_reach h.group _) (fun t ht => ?_) h.outs h.log ?_
        (by simp [TaskGroup.step, h.waits, hpc, Pc.waits]) ?_
      · simp only [TaskGroup.step, List.mem_append, List.mem_singleton] at ht
        rcases ht with ht | rfl
        · exact h.replicas t ht
        · exact ⟨rfl, fun _ he => by cases he⟩
      · simp [TaskGroup.step, h.spawned, hpc, Pc.spawned]
      · intro j hj; cases hj; omega
    · rename_i hi
      refine h.move (by simp [hpc]) (group_reach h.group _) h.replicas h.outs h.log ?_ ?_ (fun _ hj => by cases hj)
      · simp only [TaskGroup.step, h.spawned, hpc, Pc.spawned]; omega
      · simp only [TaskGroup.step, h.waits, hpc, Pc.waits, h.spawned, Pc.spawned, List.nil_append]
        congr; omega
  · exact h

/-- `at.Wait()` returns -/
theorem inv_waitEnd : Inv (step s .waitEnd) := by
  simp only [step]
  split
  · rename_i hpc
    split
    · rename_i hz
      have hg : TaskGroup.step s.group (.waitEnd 0) = { s.group with waits := [(s.replicas.toNat, true)] } := by
        simp [TaskGroup.step, h.waits, hpc, Pc.waits, hz]
      rw [hg]
      exact h.move (by simp [hpc]) (hg ▸ group_reach h.group _) h.replicas h.outs h.log
        (by simp [h.spawned, hpc, Pc.spawned]) rfl (fun _ hj => by cases hj)
    · exact h
  · exact h

/-- `shutdown.Close(ctx)` -/
theorem inv_close : Inv (step s .close) := by
  simp only [step]
  split
  · rename_i hpc
    have hacts : (Signals.step s.sig (.close 0)).acts = [⟨.shutdown, true, false, []⟩] ∧
        (Signals.step s.sig (.close 0)).calls = s.sig.calls := by
      simp [Signals.step, h.acts, hpc]
    exact { h with
      sig := sig_reach h.sig (.close 0), acts := hacts.1
      spawned := by simp [h.spawned, hpc, Pc.spawned], waits := by simp [h.waits, hpc, Pc.waits]
      bound := fun _ hj => by cases hj
      start := fun hw => hacts.2.trans (h.start hw)
      call := fun hw => let ⟨c, hc, hsh⟩ := h.call hw; ⟨c, hacts.2.trans hc, hsh.close⟩
      finished := fun _ => .inr rfl
      cause := fun hs => (h.cause hs).imp_right fun ⟨c, n, hc, hp, hn⟩ => ⟨c, n, hacts.2.trans hc, hp, hn⟩ }
  · exact h

end Steps

theorem step_inv {s : St} (h : Inv s) (o : Op) : Inv (step s o) := by
  cases o with
  | notify =>
    simp only [step]
    split
    · exact inv_notify h ‹_›
    · exact h
  | signal n => exact inv_sig h _ (.inl ⟨n, rfl⟩)
  | recv => exact inv_sig h _ (.inr (.inl rfl))
  | reset => exact inv_sig h _ (.inr (.inr (.inl rfl)))
  | closed => exact inv_sig h _ (.inr (.inr (.inr rfl)))
  | ctxDone => exact inv_ctxDone h
  | afterRun => exact inv_afterRun h
  | cancel e => exact inv_cancel h e
  | loop => exact inv_loop h
  | begin i => exact (h.seen i).replica i _ (.inl rfl)
  | ret i _ => exact h.replica i _ (.inr (.inl rfl))
  | endSpan i => exact h.replica i _ (.inr (.inr (.inl rfl)))
  | done i => exact h.replica i _ (.inr (.inr (.inr rfl)))
  | waitEnd => exact inv_waitEnd h
  | close => exact inv_close h

theorem run_inv {s : St} (h : Inv s) (ops : List Op) : Inv (run s ops) := by
  induction ops generalizing s with
  | nil => exact h
  | cons o ops ih => exact ih (step_inv h o)

/-! ## What a run of `Run` guarantees -/

theorem step_replicas (s : St) (o : Op) : (step s o).replicas = s.replicas := by
  cases o <;> simp only [step] <;> (repeat' split) <;> rfl

theorem run_replicas (s : St) (ops : List Op) : (run s ops).replicas = s.replicas := by
  induction ops generalizing s with
  | nil => rfl
  | cons o ops ih => rw [run_cons, ih, step_replicas]

/-- once `ctx2` has ended it stays as it ended -/
theorem step_ctx2 {s : St} {e : CtxEnd} (he : s.ctx2 = some e) (o : Op) : (step s o).ctx2 = some e := by
  cases o <;> simp only [step] <;> (repeat' split) <;> simp [he]

/-- a replica that has left its loop read an ended `ctx2`: no invocation of `r.Run` reports, whatever `f`
returned -/
theorem Inv.left_ctx2 {s : St} (h : Inv s) {t : TaskGroup.Task} (ht : t ∈ s.group.tasks)
    (hp : t.phase = .exiting ∨ t.phase = .finished) : s.ctx2.isSome := by
  obtain ⟨tops, hg⟩ := h.group
  obtain ⟨i, hi⟩ := List.mem_iff_getElem?.1 ht
  obtain ⟨hk, hc⟩ := h.replicas t ht
  have htr := (TaskGroup.run_hist TaskGroup.hist_init tops).traced i t (hg ▸ hi)
  rw [← hg] at htr
  rcases htr.left hk hp with ⟨o, e, ho, hr, -⟩ | ⟨-, hct, -⟩
  · obtain ⟨x, hx, rfl⟩ := List.mem_map.1 (List.mem_of_getLast?_eq_some ho)
    simp [h.outs x (List.mem_of_mem_filter hx), TaskGroup.reportable] at hr
  · obtain ⟨e, he⟩ := Option.isSome_iff_exists.1 hct
    simp [hc e he]

/-- **The replicas outlive every error of `f`.** In every state reached by any interleaving, whatever `f` returns:
nothing is logged, and a replica's goroutine leaves its loop only once `ctx2` has ended. -/
theorem replicas_stop_only_on_ctx2 (r : Int) (ops : List Op) :
    let s := run (init r) ops
    s.group.log = [] ∧ ∀ t ∈ s.group.tasks, (t.phase = .exiting ∨ t.phase = .finished) → s.ctx2.isSome := by
  intro s
  have h : Inv s := run_inv (inv_init r) ops
  exact ⟨h.log, fun _ ht hp => h.left_ctx2 ht hp⟩

/-- **`Run` returns only after its replicas, and only on a shutdown cause.** In every state reached by any
interleaving: once `Run` has returned, it has made `replicas` `Loop` calls (none if `replicas ≤ 0`) and every
replica's goroutine has finished; and with at least one replica, `ctx` had ended or `shutdown.Run` had returned on
SIGINT, SIGTERM or SIGHUP. -/
theorem run_returns_after (r : Int) (ops : List Op) :
    let s := run (init r) ops
    s.pc = .returned → s.group.tasks.length = r.toNat ∧ (∀ t ∈ s.group.tasks, t.phase = .finished) ∧
      (0 < r → s.ctx.isSome ∨ ∃ c n, s.sig.calls = [c] ∧ c.phase = .returned (.signal n) ∧ n ∈ shutdownSignals) := by
  intro s hpc
  have h : Inv s := run_inv (inv_init r) ops
  have hr : s.replicas = r := run_replicas (init r) ops
  obtain ⟨tops, hg⟩ := h.group
  have hti := TaskGroup.run_inv TaskGroup.inv_init tops
  rw [← hg] at hti
  have hlen : s.group.tasks.length = r.toNat := by rw [h.spawned, hpc, hr]; rfl
  have hfin : ∀ t ∈ s.group.tasks, t.phase = .finished := by
    intro t ht
    obtain ⟨i, hi⟩ := List.mem_iff_getElem?.1 ht
    have hw : (r.toNat, true) ∈ s.group.waits := by rw [h.waits, hpc, hr]; simp [Pc.waits]
    obtain ⟨t', ht', hf⟩ := hti.waited _ hw rfl i (hlen ▸ (List.getElem?_eq_some_iff.1 hi).1)
    cases hi.symm.trans ht'
    exact hf
  refine ⟨hlen, hfin, fun hpos => h.cause ?_⟩
  have h0 : 0 < s.group.tasks.length := by omega
  exact h.left_ctx2 (List.getElem_mem h0) (.inr (hfin _ (List.getElem_mem h0)))

theorem returns_after_sighup :
    let s := run (init 1) [.notify, .signal Signals.sighup, .recv, .reset, .afterRun, .loop, .loop, .ret 0 none,
      .endSpan 0, .begin 0, .done 0, .waitEnd, .close]
    s.pc = .returned ∧ s.group.tasks.length = 1 ∧ (∀ t ∈ s.group.tasks, t.phase = .finished) ∧
      (s.ctx.isSome ∨ ∃ c n, s.sig.calls = [c] ∧ c.phase = .returned (.signal n) ∧ n ∈ shutdownSignals) :=
  have hp : (run (init 1) [.notify, .signal Signals.sighup, .recv, .reset, .afterRun, .loop, .loop, .ret 0 none,
      .endSpan 0, .begin 0, .done 0, .waitEnd, .close]).pc = .returned := by decide
  have h := run_returns_after 1 _ hp
  ⟨hp, h.1, h.2.1, h.2.2 (by decide)⟩

/-! ## `Run` can always return -/

theorem run_ctx2 {s : St} {e : CtxEnd} (he : s.ctx2 = some e) (ops : List Op) : (run s ops).ctx2 = some e := by
  induction ops generalizing s with
  | nil => exact he
  | cons o ops ih => exact ih (step_ctx2 he o)

theorem step_returned {s : St} (hp : s.pc = .returned) (o : Op) : (step s o).pc = .returned := by
  cases o <;> simp only [step, hp] <;> (repeat' split) <;> simp only [hp]

theorem run_returned {s : St} (hp : s.pc = .returned) (ops : List Op) : (run s ops).pc = .returned := by
  induction ops generalizing s with
  | nil => exact hp
  | cons o ops ih => exact ih (step_returned hp o)

/-- replica `i`'s steps in `drain`: `r.Run` returns, `trace.End`, the loop head reads `ctx2`, and `Done` -/
def finishOps (i : Nat) : List Op := [.ret i none, .endSpan i, .begin i, .done i]

/-- a schedule that takes `Run` to its return once `ctx2` has ended: the rest of the `for` loop and the start of
`at.Wait()`, each replica's steps (its running `at.f()` returning among them), `Wait` returning, and
`shutdown.Close(ctx)` -/
def drain (r : Int) : List Op :=
  List.replicate (r.toNat + 1) .loop ++ (List.range r.toNat).flatMap finishOps ++ [.waitEnd, .close]

/-- a replica after its steps of `drain`, `ctx2` having ended with `e` -/
def Task.drained (e : CtxEnd) (t : TaskGroup.Task) : TaskGroup.Task :=
  let t1 := (t.ret none).getD t
  let t2 := t1.endSpan.getD t1
  let t3 := (t2.cancel e).getD t2
  let t4 := t3.begin.getD t3
  t4.done.getD t4

/-- wherever a `Loop` goroutine is, its steps of `drain` finish it once `ctx2` has ended -/
theorem Task.drained_phase (e : CtxEnd) {t : TaskGroup.Task} (hk : t.kind = .loop) :
    (Task.drained e t).phase = .finished := by
  obtain ⟨k, c, p, o, n⟩ := t
  cases hk
  cases c <;> cases p <;> first | rfl | (rename_i b; cases b <;> rfl)

/-- replica `i`'s steps of `drain` move it to `Task.drained` and leave every other replica -/
theorem finishOps_getElem? {s : St} {e : CtxEnd} (he : s.ctx2 = some e) (i j : Nat) :
    (run s (finishOps i)).group.tasks[j]? =
      if i = j then s.group.tasks[j]?.map (Task.drained e) else s.group.tasks[j]? := by
  simp only [finishOps, run_cons, run_nil, step, St.seen, he]
  rw [TaskGroup.step_task_getElem? _ i j _ _ (.inr (.inr (.inr (.inl ⟨rfl, rfl⟩)))),
    TaskGroup.step_task_getElem? _ i j _ _ (.inl ⟨rfl, rfl⟩),
    TaskGroup.step_task_getElem? _ i j _ _ (.inr (.inr (.inr (.inr ⟨e, rfl, rfl⟩)))),
    TaskGroup.step_task_getElem? _ i j _ _ (.inr (.inr (.inl ⟨rfl, rfl⟩))),
    TaskGroup.step_task_getElem? _ i j _ _ (.inr (.inl ⟨none, rfl, rfl⟩))]
  split <;> simp [*, Option.map_map, Function.comp_def]
  rfl

theorem finishOps_pc (s : St) (i : Nat) : (run s (finishOps i)).pc = s.pc := by
  simp only [finishOps, run_cons, run_nil, step]

theorem run_finishOps_pc (s : St) (l : List Nat) : (run s (l.flatMap finishOps)).pc = s.pc := by
  induction l generalizing s with
  | nil => rfl
  | cons i l ih => rw [List.flatMap_cons, run_append, ih, finishOps_pc]

/-- a replica whose steps of `drain` come, or that has finished, has finished after them -/
theorem finished_after {e : CtxEnd} : ∀ (l : List Nat) (s : St), Inv s → s.ctx2 = some e →
    ∀ j < s.group.tasks.length, (j ∈ l ∨ ∃ t, s.group.tasks[j]? = some t ∧ t.phase = .finished) →
      ∃ t, (run s (l.flatMap finishOps)).group.tasks[j]? = some t ∧ t.phase = .finished
  | [], _, _, _, j, _, hj => hj.resolve_left (List.not_mem_nil j)
  | i :: l, s, h, he, j, hlt, hj => by
    rw [List.flatMap_cons, run_append]
    have h' : Inv (run s (finishOps i)) := run_inv h _
    have hlen : (run s (finishOps i)).group.tasks.length = s.group.tasks.length := by
      rw [h'.spawned, h.spawned, finishOps_pc, run_replicas]
    have hfin : (j = i ∨ ∃ t, s.group.tasks[j]? = some t ∧ t.phase = .finished) →
        ∃ t, (run s (finishOps i)).group.tasks[j]? = some t ∧ t.phase = .finished := fun hj' => by
      rw [finishOps_getElem? he i j]
      obtain ⟨t, ht⟩ : ∃ t, s.group.tasks[j]? = some t := ⟨_, List.getElem?_eq_getElem hlt⟩
      split
      · exact ⟨_, by simp [ht], Task.drained_phase e (h.replicas t (List.getElem?_mem ht)).1⟩
      · rcases hj' with rfl | hj'
        · exact absurd rfl ‹_›
        · exact hj'
    refine finished_after l _ h' (run_ctx2 he _) j (hlen ▸ hlt) ?_
    rcases hj with hj | hj
    · rcases List.mem_cons.1 hj with rfl | hj
      · exact .inr (hfin (.inl rfl))
      · exact .inl hj
    · exact .inr (hfin (.inr hj))

/-- enough `.loop` steps end the `for` loop -/
theorem loops_done : ∀ (k : Nat) (s : St), Inv s → (∀ i, s.pc = .looping i → s.replicas.toNat + 1 ≤ i + k) →
    ∀ i, (run s (List.replicate k .loop)).pc ≠ .looping i
  | 0, s, h, hk, i, hi => by have := h.bound i hi; have := hk i hi; omega
  | k + 1, s, h, hk, i, hi => by
    rw [List.replicate_succ, run_cons] at hi
    refine loops_done k (step s .loop) (step_inv h _) (fun j hj => ?_) i hi
    rw [step_replicas]
    simp only [step] at hj
    split at hj
    · rename_i i0 hpc
      have := hk i0 hpc
      split at hj <;> cases hj
      omega
    · exact absurd hj (by simp_all)

/-- **Once `ctx2` has ended, `Run` returns after `drain`.** From every state of the invariant in which `ctx2` has
ended, the steps `drain` take `Run` to its return. -/
theorem drain_returns {s : St} (h : Inv s) {e : CtxEnd} (he : s.ctx2 = some e) :
    (run s (drain s.replicas)).pc = .returned := by
  unfold drain
  rw [run_append, run_append]
  have h1 := run_inv h (List.replicate (s.replicas.toNat + 1) .loop)
  have hne := loops_done (s.replicas.toNat + 1) s h (fun i hi => by have := h.bound i hi; omega)
  have hr1 := run_replicas s (List.replicate (s.replicas.toNat + 1) .loop)
  have he1 := run_ctx2 he (List.replicate (s.replicas.toNat + 1) .loop)
  generalize run s (List.replicate (s.replicas.toNat + 1) .loop) = s1 at h1 hne hr1 he1 ⊢
  have hlen : s1.group.tasks.length = s.replicas.toNat := by
    rw [h1.spawned, hr1]
    cases hp : s1.pc with
    | looping i => exact absurd hp (hne i)
    | _ => rfl
  have hfin : ∀ j < s1.group.tasks.length, ∃ t,
      (run s1 ((List.range s.replicas.toNat).flatMap finishOps)).group.tasks[j]? = some t ∧ t.phase = .finished :=
    fun j hj => finished_after _ s1 h1 he1 j hj (.inl (List.mem_range.2 (hlen ▸ hj)))
  have h2 := run_inv h1 ((List.range s.replicas.toNat).flatMap finishOps)
  have hpc2 := run_finishOps_pc s1 (List.range s.replicas.toNat)
  have hlen2 : (run s1 ((List.range s.replicas.toNat).flatMap finishOps)).group.tasks.length =
      s1.group.tasks.length := by
    rw [h2.spawned, h1.spawned, hpc2, run_replicas]
  generalize run s1 ((List.range s.replicas.toNat).flatMap finishOps) = s2 at h2 hpc2 hlen2 hfin ⊢
  obtain ⟨tops, hg⟩ := h2.group
  have hti := TaskGroup.run_inv TaskGroup.inv_init tops
  rw [← hg] at hti
  have hwg : s2.group.wg = 0 := by
    have : s2.group.tasks.countP TaskGroup.Task.live = 0 := List.countP_eq_zero.2 fun t ht => by
      obtain ⟨j, hj⟩ := List.mem_iff_getElem?.1 ht
      obtain ⟨t', ht', hf⟩ := hfin j (hlen2 ▸ (List.getElem?_eq_some_iff.1 hj).1)
      cases hj.symm.trans ht'
      simp [TaskGroup.Task.live, hf]
    rw [hti.count, this]; rfl
  simp only [run_cons, run_nil]
  cases hp : s2.pc with
  | looping i => exact absurd (hpc2.symm.trans hp) (hne i)
  | waiting => simp [step, hp, hwg]
  | closing => simp [step, hp]
  | returned => simp [step, hp]

/-- after a shutdown signal, the `select`'s receive, `signal.Reset` and the watcher's wake-up, `ctx2` has ended or
`Run` has returned -/
theorem signal_ends {s : St} (h : Inv s) (hw : s.watcher ≠ .start) {n : Nat} (hn : n ∈ shutdownSignals) :
    (run s [.signal n, .recv, .reset, .afterRun]).ctx2.isSome ∨ (run s [.signal n, .recv, .reset, .afterRun]).pc = .returned := by
  by_cases hf : s.watcher = .finished
  · rcases h.finished hf with hc | hp
    · obtain ⟨e, he⟩ := Option.isSome_iff_exists.1 hc
      exact .inl (by rw [run_ctx2 he]; rfl)
    · exact .inr (run_returned hp _)
  obtain ⟨c, hc, hsh⟩ := h.call hw
  obtain ⟨x, c3, hc3, hp3⟩ := solo_signal_returns h.acts hc hsh hn
  have h3 := run_inv h [.signal n, .recv, .reset]
  have hsig : (run s [.signal n, .recv, .reset]).sig = Signals.run s.sig [.signal n, .recv 0, .reset 0] := by
    simp only [run_cons, run_nil, step]; rfl
  have hw3 : (run s [.signal n, .recv, .reset]).watcher = .running := by
    simp only [run_cons, run_nil, step]
    cases hw' : s.watcher
    · exact absurd hw' hw
    · rfl
    · exact absurd hw' hf
  show (step (run s [.signal n, .recv, .reset]) .afterRun).ctx2.isSome ∨
    (step (run s [.signal n, .recv, .reset]) .afterRun).pc = .returned
  generalize run s [.signal n, .recv, .reset] = s3 at h3 hsig hw3
  rw [← hsig] at hc3
  obtain ⟨c', hc', hsh3⟩ := h3.call (by simp [hw3])
  rw [hc3, List.cons.injEq] at hc'
  obtain ⟨rfl, -⟩ := hc'
  cases x with
  | signal _ | ctx _ => simp [step, hw3, hc3, hp3]
  | closed => exact .inr (by simpa [step, hw3, hc3, hp3] using hsh3.done hp3)

/-- **`Run` returns after a shutdown signal.** From every state in which `shutdown.Run` has called `Notify`, a
SIGINT, SIGTERM or SIGHUP, the steps that deliver it, and `drain`, in which every running `at.f()` returns, take
`Run` to its return. -/
theorem returns_after_signal (r : Int) (ops : List Op) {n : Nat} (hn : n ∈ shutdownSignals)
    (hw : (run (init r) ops).watcher ≠ .start) :
    (run (init r) (ops ++ [.signal n, .recv, .reset, .afterRun] ++ drain r)).pc = .returned := by
  rw [run_append, run_append]
  have h := run_inv (inv_init r) ops
  have hr : (run (init r) ops).replicas = r := run_replicas _ _
  rcases signal_ends h hw hn with hc | hp
  · obtain ⟨e, he⟩ := Option.isSome_iff_exists.1 hc
    have := drain_returns (run_inv h _) he
    rwa [run_replicas, hr] at this
  · exact run_returned hp _

theorem returns_after_sigint : Signals.sigint ∈ shutdownSignals ∧ (run (init 2) [.notify]).watcher ≠ .start ∧
    (run (init 2) ([.notify] ++ [.signal Signals.sigint, .recv, .reset, .afterRun] ++ drain 2)).pc = .returned :=
  ⟨by decide, by decide, returns_after_signal 2 [.notify] (by decide) (by decide)⟩

end Gobox.AsyncTask
