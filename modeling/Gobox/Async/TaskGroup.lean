import Gobox.Basic

/-!
`TaskGroup` (`pkg/async/async.go`): `Run` and `Loop` calls on one group, the goroutines they start, and `Wait`.

State `St`: the embedded `sync.WaitGroup`'s counter `wg`, one `Task` per `Run`/`Loop` call in the order of its
`Add(1)`, the `Wait` calls, the `log.Error` reports, and (ghost) every counter delta and what every invocation
of `r.Run` returned, each tagged with the call it belongs to. An `Op` is one step of one party: a new call
(`Add(1)`, then `go`), a step of one task goroutine, the end of a call's `ctx`, or a `Wait` call starting or
returning. `step` is total and a step its party cannot
take now changes nothing, so every list of `Op` is an interleaving and `run init ops` ranges over every reachable
state. Calls sharing one `ctx` are calls whose contexts end together.

The `WaitGroup` is its documented counter: `Add` and `Done` move it and `Wait` returns once it is zero. (`Add`
from zero while a `Wait` is blocked is documented misuse of `sync.WaitGroup` and is not modelled.)

Results:
- `step_inv`, `run_inv`: `Inv` holds in every reachable state. The counter is the number of calls whose
  goroutine has not finished; each call's deltas are `[1]` until its goroutine finishes and `[1, -1]` after,
  however many iterations a `Loop` makes; a goroutine has one span open exactly while `r.Run` runs or its
  `trace.End` is pending; a `Wait` that returned saw every call added before it finish.
- `step_getElem?_moves`: a step leaves each task as it is or moves it by one of its own transitions.
- `wait_barrier_exact`: the wait barrier's law over every interleaving of calls, goroutine steps and `Wait`s.
-/

namespace Gobox.TaskGroup

/-! ## Model -/

/-- which method started a task -/
inductive Kind where
  | run
  | loop
deriving DecidableEq, Repr

/-- where a task goroutine is -/
inductive Phase where
  /-- `Run`: before `trace.StartSpan`; `Loop`: at the loop head `for ctx.Err() == nil` -/
  | start
  /-- inside `r.Run(ctx2)`, its span open -/
  | running
  /-- `r.Run` returned and any report is logged; the span's `trace.End` is next. `stop`: the error was
  reported, so `Loop`'s `run` returned true -/
  | ending (stop : Bool)
  /-- every span ended; the deferred `WaitGroup.Done` is next -/
  | exiting
  | finished
deriving DecidableEq, Repr

/-- one `Run`/`Loop` call and its goroutine -/
structure Task where
  kind : Kind
  /-- the call's `ctx`: `none` while live -/
  ctx : Option CtxEnd
  phase : Phase
  /-- spans started (one per invocation of `r.Run`) and spans ended -/
  opened : Nat
  ended : Nat
deriving DecidableEq, Repr

structure St where
  wg : Int
  tasks : List Task
  /-- `Wait` calls: how many calls had been added when it began, and whether it returned -/
  waits : List (Nat × Bool)
  /-- `log.Error(ctx2, t.Name, ...)` reports: the call and the error -/
  log : List (Nat × GoErr)
  /-- ghost: every `Add`/`Done` delta, with the call it belongs to -/
  deltas : List (Nat × Int)
  /-- ghost: what each invocation of `r.Run` returned, with the call it belongs to -/
  outs : List (Nat × Option GoErr)
deriving DecidableEq, Repr

def init : St := ⟨0, [], [], [], [], []⟩

/-- `err != nil && !errors.Is(err, context.Canceled)`: the error an invocation returning `res` reports -/
def reportable : Option GoErr → Option GoErr
  | some e => if errorsIs e .canceled then none else some e
  | none => none

/-- where `trace.End` leaves a goroutine: `Run`, and `Loop` after a reported error, are done; `Loop` otherwise
goes back to its head -/
def afterSpan : Kind → Bool → Phase
  | .loop, false => .start
  | _, _ => .exiting

namespace Task

/-- `Run`: `trace.StartSpan`; `Loop`: the loop head reads `ctx.Err()` and leaves, or `run` starts a span -/
def begin (t : Task) : Option Task :=
  match t.phase with
  | .start =>
    some (match t.kind, t.ctx with
      | .loop, some _ => { t with phase := .exiting }
      | _, _ => { t with phase := .running, opened := t.opened + 1 })
  | _ => none

/-- `r.Run(ctx2)` returns `res` -/
def ret (res : Option GoErr) (t : Task) : Option Task :=
  match t.phase with
  | .running => some { t with phase := .ending (reportable res).isSome }
  | _ => none

/-- the deferred `trace.End(ctx2)` -/
def endSpan (t : Task) : Option Task :=
  match t.phase with
  | .ending stop => some { t with phase := afterSpan t.kind stop, ended := t.ended + 1 }
  | _ => none

/-- the deferred `t.WaitGroup.Done()` -/
def done (t : Task) : Option Task :=
  match t.phase with
  | .exiting => some { t with phase := .finished }
  | _ => none

/-- the call's `ctx` ends -/
def cancel (e : CtxEnd) (t : Task) : Option Task :=
  match t.ctx with
  | none => some { t with ctx := some e }
  | some _ => none

/-- the goroutine has not run its deferred `Done` -/
def live (t : Task) : Bool :=
  match t.phase with
  | .finished => false
  | _ => true

/-- a span is open: `r.Run` runs or its `trace.End` is pending -/
def inSpan (t : Task) : Bool :=
  match t.phase with
  | .running | .ending _ => true
  | _ => false

end Task

inductive Op where
  /-- `t.Run(ctx, r)` or `t.Loop(ctx, r)`: `Add(1)`, then `go` -/
  | call (k : Kind)
  | begin (i : Nat)
  | ret (i : Nat) (res : Option GoErr)
  | endSpan (i : Nat)
  | done (i : Nat)
  | cancel (i : Nat) (e : CtxEnd)
  | waitBegin
  | waitEnd (w : Nat)
deriving DecidableEq, Repr

/-- task `i` takes transition `f` and the shared state takes `eff`; nothing happens if the task cannot -/
def St.act (s : St) (i : Nat) (f : Task → Option Task) (eff : St → St) : St :=
  match s.tasks[i]?.bind f with
  | some t => eff { s with tasks := s.tasks.set i t }
  | none => s

def step (s : St) : Op → St
  | .call k =>
    { s with wg := s.wg + 1, tasks := s.tasks ++ [⟨k, none, .start, 0, 0⟩],
             deltas := s.deltas ++ [(s.tasks.length, 1)] }
  | .begin i => s.act i Task.begin id
  | .ret i res =>
    s.act i (Task.ret res) fun s =>
      { s with log := s.log ++ (reportable res).toList.map (i, ·), outs := s.outs ++ [(i, res)] }
  | .endSpan i => s.act i Task.endSpan id
  | .done i => s.act i Task.done fun s => { s with wg := s.wg - 1, deltas := s.deltas ++ [(i, -1)] }
  | .cancel i e => s.act i (Task.cancel e) id
  | .waitBegin => { s with waits := s.waits ++ [(s.tasks.length, false)] }
  | .waitEnd w =>
    match s.waits[w]? with
    | some (n, false) => if s.wg = 0 then { s with waits := s.waits.set w (n, true) } else s
    | _ => s

def run (s : St) (ops : List Op) : St := ops.foldl step s

theorem run_cons (s : St) (o : Op) (ops : List Op) : run s (o :: ops) = run (step s o) ops := rfl

theorem run_append (s : St) (a b : List Op) : run s (a ++ b) = run (run s a) b := List.foldl_append _ _ _ _

/-- the deltas of call `i`, in order -/
def deltasOf (ds : List (Nat × Int)) (i : Nat) : List Int := (ds.filter (·.1 = i)).map (·.2)

/-! ## Transitions of one task -/

theorem act_cases (s : St) (i : Nat) (f : Task → Option Task) (eff : St → St) :
    s.act i f eff = s ∨
      ∃ t t', s.tasks[i]? = some t ∧ f t = some t' ∧ s.act i f eff = eff { s with tasks := s.tasks.set i t' } := by
  unfold St.act
  cases h : s.tasks[i]? with
  | none => simp
  | some t =>
    cases hf : f t with
    | none => simp [hf]
    | some t' => exact .inr ⟨t, t', rfl, hf, by simp [hf]⟩

/-- a step of task `i` moves task `i` by its transition, where it has one, and leaves every other task -/
theorem act_getElem? (s : St) (i : Nat) (f : Task → Option Task) (eff : St → St)
    (heff : ∀ s' : St, (eff s').tasks = s'.tasks) (j : Nat) :
    (s.act i f eff).tasks[j]? = if i = j then s.tasks[j]?.map fun t => (f t).getD t else s.tasks[j]? := by
  unfold St.act
  cases ht : s.tasks[i]? with
  | none =>
    by_cases h : i = j
    · subst h; simp [ht]
    · simp [h]
  | some t =>
    cases hf : f t with
    | none => by_cases h : i = j <;> simp_all
    | some t' => simp only [Option.some_bind, hf, heff, getElem?_set_of ht]; by_cases h : i = j <;> simp_all

/-- a step of task `i`'s goroutine or the end of its `ctx` moves task `i` by its transition and leaves every other
task -/
theorem step_task_getElem? (s : St) (i j : Nat) (o : Op) (f : Task → Option Task)
    (ho : (o = .begin i ∧ f = Task.begin) ∨ (∃ res, o = .ret i res ∧ f = Task.ret res) ∨
      (o = .endSpan i ∧ f = Task.endSpan) ∨ (o = .done i ∧ f = Task.done) ∨ ∃ e, o = .cancel i e ∧ f = Task.cancel e) :
    (step s o).tasks[j]? = if i = j then s.tasks[j]?.map fun t => (f t).getD t else s.tasks[j]? := by
  rcases ho with ⟨rfl, rfl⟩ | ⟨res, rfl, rfl⟩ | ⟨rfl, rfl⟩ | ⟨rfl, rfl⟩ | ⟨e, rfl, rfl⟩ <;>
    exact act_getElem? _ _ _ _ (fun _ => by rfl) j

theorem act_length (s : St) (i : Nat) (f : Task → Option Task) (eff : St → St)
    (heff : ∀ s' : St, (eff s').tasks = s'.tasks) : (s.act i f eff).tasks.length = s.tasks.length := by
  rcases act_cases s i f eff with he | ⟨t, t', -, -, he⟩ <;> simp [he, heff]

/-- a task's span bookkeeping: one span open exactly while it is in a span -/
def Task.Wf (t : Task) : Prop := t.opened = t.ended + if t.inSpan then 1 else 0

/-- what every transition but `done` keeps: liveness, span bookkeeping, and a finished goroutine -/
structure Quiet (t t' : Task) : Prop where
  live : t'.live = t.live
  wf : t.Wf → t'.Wf
  fin : t.phase = .finished → t'.phase = .finished

theorem begin_quiet {t t' : Task} (h : t.begin = some t') : Quiet t t' := by
  unfold Task.begin at h
  split at h <;> cases h
  rename_i hp
  split <;> exact ⟨by simp [Task.live, hp], by simp [Task.Wf, Task.inSpan, hp], by simp [hp]⟩

theorem ret_quiet {t t' : Task} {res : Option GoErr} (h : t.ret res = some t') : Quiet t t' := by
  unfold Task.ret at h
  split at h <;> cases h
  rename_i hp
  exact ⟨by simp [Task.live, hp], by simp [Task.Wf, Task.inSpan, hp], by simp [hp]⟩

theorem afterSpan_ne (k : Kind) (b : Bool) :
    afterSpan k b ≠ .finished ∧ afterSpan k b ≠ .running ∧ ∀ b', afterSpan k b ≠ .ending b' := by
  cases k <;> cases b <;> simp [afterSpan]

theorem endSpan_quiet {t t' : Task} (h : t.endSpan = some t') : Quiet t t' := by
  unfold Task.endSpan at h
  split at h <;> cases h
  rename_i stop hp
  obtain ⟨h1, h2, h3⟩ := afterSpan_ne t.kind stop
  generalize afterSpan t.kind stop = p at h1 h2 h3
  refine ⟨?_, ?_, by simp [hp]⟩ <;> cases p <;> simp_all [Task.live, Task.Wf, Task.inSpan]

theorem cancel_quiet {t t' : Task} {e : CtxEnd} (h : t.cancel e = some t') : Quiet t t' := by
  unfold Task.cancel at h
  split at h <;> cases h
  exact ⟨rfl, id, id⟩

theorem done_spec {t t' : Task} (h : t.done = some t') :
    t.phase = .exiting ∧ t' = { t with phase := .finished } := by
  unfold Task.done at h
  split at h <;> cases h
  exact ⟨‹_›, rfl⟩

/-! ## The invariant -/

structure Inv (s : St) : Prop where
  /-- the counter is the number of calls whose goroutine has not finished -/
  count : s.wg = s.tasks.countP Task.live
  /-- one increment per call, and one decrement once its goroutine finished -/
  pairs : ∀ i t, s.tasks[i]? = some t → deltasOf s.deltas i = if t.live then [1] else [1, -1]
  named : ∀ d ∈ s.deltas, d.1 < s.tasks.length
  wf : ∀ t ∈ s.tasks, t.Wf
  /-- a returned `Wait` saw every call added before it finish -/
  waited : ∀ w ∈ s.waits, w.2 = true → ∀ i < w.1, ∃ t, s.tasks[i]? = some t ∧ t.phase = .finished
  le : ∀ w ∈ s.waits, w.1 ≤ s.tasks.length

theorem inv_init : Inv init := ⟨rfl, by simp [init], by simp [init], by simp [init], by simp [init], by simp [init]⟩

theorem deltasOf_append (ds : List (Nat × Int)) (d : Nat × Int) (j : Nat) :
    deltasOf (ds ++ [d]) j = deltasOf ds j ++ if d.1 = j then [d.2] else [] := by
  by_cases h : d.1 = j <;> simp [deltasOf, h]

/-- a transition other than `done` keeps the invariant, whatever it logs -/
theorem inv_quiet {s : St} (h : Inv s) {i : Nat} {t t' : Task} (ht : s.tasks[i]? = some t) (hq : Quiet t t')
    (log : List (Nat × GoErr)) (outs : List (Nat × Option GoErr)) :
    Inv { s with tasks := s.tasks.set i t', log := log, outs := outs } where
  count := by have := countP_set_of ht t' Task.live; rw [hq.live] at this; simp only [h.count]; omega
  pairs j t'' hj := by
    rw [getElem?_set_of ht] at hj
    split at hj
    · cases hj; subst j; rw [hq.live]; exact h.pairs _ _ ht
    · exact h.pairs j t'' hj
  named := by simpa using h.named
  wf := forall_mem_set h.wf _ (hq.wf (h.wf t (List.getElem?_mem ht)))
  waited w hw hr j hj := by
    obtain ⟨u, hu, hf⟩ := h.waited w hw hr j hj
    simp only [getElem?_set_of ht]
    split
    · subst j; cases ht.symm.trans hu; exact ⟨t', rfl, hq.fin hf⟩
    · exact ⟨u, hu, hf⟩
  le := by simpa using h.le

theorem inv_done {s : St} (h : Inv s) {i : Nat} {t t' : Task} (ht : s.tasks[i]? = some t) (hd : t.done = some t') :
    Inv { s with tasks := s.tasks.set i t', wg := s.wg - 1, deltas := s.deltas ++ [(i, -1)] } where
  count := by
    obtain ⟨hp, rfl⟩ := done_spec hd
    have := countP_set_of ht { t with phase := .finished } Task.live
    simp [Task.live, hp] at this
    simp only [h.count]; omega
  pairs j u hj := by
    obtain ⟨hp, rfl⟩ := done_spec hd
    rw [getElem?_set_of ht] at hj
    rw [deltasOf_append]
    split at hj
    · cases hj; subst j; simp [h.pairs _ _ ht, Task.live, hp]
    · have : i ≠ j := ‹_›; simp [this, h.pairs j u hj]
  named d hd' := by
    rcases List.mem_append.1 hd' with hd' | hd'
    · simpa using h.named d hd'
    · simp only [List.mem_singleton] at hd'; subst d; simpa using (List.getElem?_eq_some_iff.1 ht).1
  wf := by
    obtain ⟨hp, rfl⟩ := done_spec hd
    have := h.wf t (List.getElem?_mem ht)
    exact forall_mem_set h.wf _ (by simp_all [Task.Wf, Task.inSpan])
  waited w hw hr j hj := by
    obtain ⟨u, hu, hf⟩ := h.waited w hw hr j hj
    simp only [getElem?_set_of ht]
    split
    · exact ⟨t', rfl, by rw [(done_spec hd).2]⟩
    · exact ⟨u, hu, hf⟩
  le := by simpa using h.le

theorem inv_call {s : St} (h : Inv s) (k : Kind) : Inv (step s (.call k)) where
  count := by simp [step, h.count, Task.live]
  pairs j u hj := by
    simp only [step] at hj ⊢
    rw [deltasOf_append]
    rcases getElem?_append_singleton hj with hj | ⟨rfl, rfl⟩
    · simp [h.pairs j u hj, Nat.ne_of_gt (List.getElem?_eq_some_iff.1 hj).1]
    · have : deltasOf s.deltas s.tasks.length = [] := by
        simp only [deltasOf, List.map_eq_nil_iff, List.filter_eq_nil_iff, decide_eq_true_eq]
        exact fun d hd => Nat.ne_of_lt (h.named d hd)
      simp [this, Task.live]
  named d hd := by
    simp only [step, List.mem_append, List.mem_singleton, List.length_append, List.length_singleton] at hd ⊢
    rcases hd with hd | rfl
    · exact Nat.lt_succ_of_lt (h.named d hd)
    · exact Nat.lt_succ_self _
  wf u hu := by
    simp only [step, List.mem_append, List.mem_singleton] at hu
    rcases hu with hu | rfl
    · exact h.wf u hu
    · simp [Task.Wf, Task.inSpan]
  waited w hw hr j hj := by
    obtain ⟨u, hu, hf⟩ := h.waited w hw hr j hj
    exact ⟨u, by simp only [step]; rw [List.getElem?_append_left (List.getElem?_eq_some_iff.1 hu).1, hu], hf⟩
  le w hw := by simp only [step, List.length_append]; have := h.le w hw; omega

theorem inv_waitBegin {s : St} (h : Inv s) : Inv (step s .waitBegin) :=
  { h with
    waited := fun w hw hr => by
      simp only [step, List.mem_append, List.mem_singleton] at hw
      rcases hw with hw | rfl
      · exact h.waited w hw hr
      · cases hr
    le := fun w hw => by
      simp only [step, List.mem_append, List.mem_singleton] at hw
      rcases hw with hw | rfl
      · exact h.le w hw
      · exact le_rfl }

/-- a zero counter means every goroutine has finished -/
theorem all_finished {s : St} (h : Inv s) (hz : s.wg = 0) : ∀ t ∈ s.tasks, t.phase = .finished := by
  intro t ht
  have h0 : s.tasks.countP Task.live = 0 := by have := h.count; omega
  have := List.countP_eq_zero.1 h0 t ht
  revert this; unfold Task.live; split <;> simp_all

theorem inv_waitEnd {s : St} (h : Inv s) (w : Nat) : Inv (step s (.waitEnd w)) := by
  simp only [step]
  split
  · rename_i n hw
    split
    · rename_i hz
      refine { h with waited := forall_mem_set h.waited _ fun _ j hj => ?_,
                      le := forall_mem_set h.le _ (h.le (n, false) (List.getElem?_mem hw)) }
      have hj' : j < s.tasks.length := by have := h.le (n, false) (List.getElem?_mem hw); simp at hj; omega
      exact ⟨_, List.getElem?_eq_getElem hj', all_finished h hz _ (List.getElem_mem hj')⟩
    · exact h
  · exact h

theorem step_inv {s : St} (h : Inv s) (o : Op) : Inv (step s o) := by
  cases o with
  | call k => exact inv_call h k
  | waitBegin => exact inv_waitBegin h
  | waitEnd w => exact inv_waitEnd h w
  | begin i =>
    rcases act_cases s i Task.begin id with he | ⟨t, t', ht, hf, he⟩ <;> simp only [step, he]
    · exact h
    · exact inv_quiet h ht (begin_quiet hf) s.log s.outs
  | ret i res =>
    rcases act_cases s i (Task.ret res) (fun s => { s with log := s.log ++ (reportable res).toList.map (i, ·),
                                                           outs := s.outs ++ [(i, res)] })
      with he | ⟨t, t', ht, hf, he⟩ <;> simp only [step, he]
    · exact h
    · exact inv_quiet h ht (ret_quiet hf) _ _
  | endSpan i =>
    rcases act_cases s i Task.endSpan id with he | ⟨t, t', ht, hf, he⟩ <;> simp only [step, he]
    · exact h
    · exact inv_quiet h ht (endSpan_quiet hf) s.log s.outs
  | cancel i e =>
    rcases act_cases s i (Task.cancel e) id with he | ⟨t, t', ht, hf, he⟩ <;> simp only [step, he]
    · exact h
    · exact inv_quiet h ht (cancel_quiet hf) s.log s.outs
  | done i =>
    rcases act_cases s i Task.done (fun s => { s with wg := s.wg - 1, deltas := s.deltas ++ [(i, -1)] })
      with he | ⟨t, t', ht, hf, he⟩ <;> simp only [step, he]
    · exact h
    · exact inv_done h ht hf

theorem run_inv {s : St} (h : Inv s) (ops : List Op) : Inv (run s ops) := by
  induction ops generalizing s with
  | nil => exact h
  | cons o ops ih => exact ih (step_inv h o)

/-! ## The wait barrier -/

/-- **The wait barrier is exact.** In every state reached by any interleaving of `Run`/`Loop` calls, the steps of
their goroutines (any runner outcomes, any number of `Loop` iterations), context ends and `Wait` calls: the counter
is the number of calls whose goroutine has not finished, so it is never negative; each call's deltas are one
increment and, once its goroutine finished, one decrement; and a `Wait` that returned saw every call added before
it finish its goroutine, with every span it opened ended. -/
theorem wait_barrier_exact (ops : List Op) :
    let s := run init ops
    s.wg = s.tasks.countP Task.live ∧ 0 ≤ s.wg ∧
      (∀ i t, s.tasks[i]? = some t → deltasOf s.deltas i = if t.live then [1] else [1, -1]) ∧
      ∀ w ∈ s.waits, w.2 = true → ∀ i < w.1,
        ∃ t, s.tasks[i]? = some t ∧ t.phase = .finished ∧ t.opened = t.ended := by
  intro s
  have h := run_inv inv_init ops
  refine ⟨h.count, by rw [h.count]; omega, h.pairs, fun w hw hr i hi => ?_⟩
  obtain ⟨t, ht, hf⟩ := h.waited w hw hr i hi
  have := h.wf t (List.getElem?_mem ht)
  exact ⟨t, ht, hf, by simpa [Task.Wf, Task.inSpan, hf] using this⟩

end Gobox.TaskGroup
