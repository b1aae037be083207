import Gobox.Basic

/-!
`RunGroup(rg).Run(ctx)` (`pkg/async/async.go`) on top of `golang.org/x/sync/errgroup` (`WithContext`, `Go`, `Wait`,
no concurrency limit).

State `St`: one `Member` per runner of `rg`, where the group's `Run` is (its `for idx := range rg` loop, then
`g.Wait()`), errgroup's `wg` counter and `err`, the derived context `ctx`, the parent context, the
`log.Error(ctx, "Error when closing:", ...)` reports, and (ghost) the members in the order their goroutines
finished, with what their `r.Run` returned. Each member's function is
`defer func() { if err := RunClose(ctx, r); ... }(); return r.Run(ctx)`: its close runs after `r.Run` returns and
before errgroup sees the result, which it records with `errOnce` (setting `g.err` and cancelling `ctx`) before
`g.done()`. An `Op` is one step of one party; every list of `Op` is an interleaving.

Results:
- `run_inv`: `Inv` holds in every reachable state;
- `run_group_outcome`: every member's `RunClose` is invoked once, after its `Run` returned, and by the time the
  group returns; the group returns nil exactly when every member's `Run` did, and otherwise an error one of them
  returned;
- `close_before_cancel`: a failing member's close runs with the group context live, and the group can return the
  error of a member that failed later but finished first;
- `first_finished_error`: the group context is cancelled exactly when the parent is, a member finishes (its
  close returned) after a failed `Run`, or `Wait` returns; the group returns the error of the first member to
  finish with a failed `Run`;
- `run_group_returns`: from every reachable state, once each member's `Run` and then its close return, `g.Wait()`
  and the group's `Run` return (`finish` is such a schedule).
-/

namespace Gobox.RunGroup

/-! ## Model -/

/-- where a member goroutine is -/
inductive Phase where
  /-- `g.Go` has not been called for it yet -/
  | idle
  /-- inside `r.Run(ctx)` -/
  | running
  /-- `r.Run` returned `res`; the deferred `RunClose(ctx, r)` runs -/
  | closing (res : Option GoErr)
  /-- its function returned `res` to errgroup, which recorded it and ran `g.done()` -/
  | finished (res : Option GoErr)
deriving DecidableEq, Repr

structure Member where
  /-- the close method of the runner -/
  closer : Closer
  phase : Phase
  /-- `RunClose(ctx, r)` invocations -/
  closes : Nat
  /-- ghost: what `RunClose` returned -/
  closeRes : Option GoErr
deriving DecidableEq, Repr

/-- where the group's `Run` is -/
inductive Stage where
  /-- the loop `for idx := range rg` at `idx` -/
  | spawning (idx : Nat)
  /-- in `g.Wait()` -/
  | waiting
  | returned (res : Option GoErr)
deriving DecidableEq, Repr

structure St where
  members : List Member
  stage : Stage
  /-- errgroup's `wg` counter -/
  wg : Int
  /-- `g.err` -/
  err : Option GoErr
  /-- the context `errgroup.WithContext` derived: `none` while live, else its `ctx.Err()` -/
  ctx : Option GoErr
  /-- the parent context: `none` while live -/
  parent : Option CtxEnd
  /-- `log.Error(ctx, "Error when closing:", ...)` reports -/
  log : List GoErr
  /-- ghost: the members in the order their goroutines finished, with what their `r.Run` returned -/
  results : List (Nat × Option GoErr)
deriving DecidableEq, Repr

/-- `RunGroup(rg).Run(ctx)` called on runners with close methods `rs` -/
def init (rs : List Closer) : St := ⟨rs.map fun c => ⟨c, .idle, 0, none⟩, .spawning 0, 0, none, none, none, [], []⟩

inductive Op where
  /-- one turn of `for idx := range rg`: `g.Go(...)` (`g.wg.Add(1)`, then `go`), or leaving the loop -/
  | go
  /-- member `i`'s `r.Run(ctx)` returns `res`; its deferred `RunClose` begins -/
  | ret (i : Nat) (res : Option GoErr)
  /-- member `i`'s `RunClose` returns, its close method having returned `res`; errgroup records the function's
  result and runs `g.done()` -/
  | closed (i : Nat) (res : Option GoErr)
  /-- `g.Wait()` returns -/
  | wait
  /-- the parent context ends -/
  | cancel (e : CtxEnd)
deriving DecidableEq, Repr

/-- `if err := RunClose(ctx, r); err != nil { log.Error(...) }` -/
def closeReport (err : Option GoErr) : List GoErr := err.toList

/-- `if err := f(); err != nil { g.errOnce.Do(func() { g.err = err; g.cancel(g.err) }) }` -/
def recordErr (s : St) : Option GoErr → St
  | some e =>
    match s.err with
    | none => { s with err := some e, ctx := s.ctx.or (some .canceled) }
    | some _ => s
  | none => s

def step (s : St) : Op → St
  | .go =>
    match s.stage with
    | .spawning idx =>
      match s.members[idx]? with
      | some m => { s with members := s.members.set idx { m with phase := .running }, wg := s.wg + 1,
                           stage := .spawning (idx + 1) }
      | none => { s with stage := .waiting }
    | _ => s
  | .ret i res =>
    match s.members[i]? with
    | some m =>
      match m.phase with
      | .running => { s with members := s.members.set i { m with phase := .closing res, closes := m.closes + 1 } }
      | _ => s
    | none => s
  | .closed i cres =>
    match s.members[i]? with
    | some m =>
      match m.phase with
      | .closing res =>
        recordErr { s with members := s.members.set i { m with phase := .finished res, closeRes := runClose m.closer cres },
                           log := s.log ++ closeReport (runClose m.closer cres), wg := s.wg - 1,
                           results := s.results ++ [(i, res)] } res
      | _ => s
    | none => s
  | .wait =>
    match s.stage with
    | .waiting => if s.wg = 0 then { s with ctx := s.ctx.or (some .canceled), stage := .returned s.err } else s
    | _ => s
  | .cancel e =>
    match s.parent with
    | none => { s with parent := some e, ctx := s.ctx.or (some e.err) }
    | some _ => s

def run (s : St) (ops : List Op) : St := ops.foldl step s

theorem run_cons (s : St) (o : Op) (ops : List Op) : run s (o :: ops) = run (step s o) ops := rfl

/-- the error `g.Wait()` returns: the first recorded non-nil result -/
def firstErr (results : List (Nat × Option GoErr)) : Option GoErr := results.findSome? (·.2)


/-! ## The invariant -/

/-- between `g.Go` and `g.done()` -/
def Member.active (m : Member) : Bool :=
  match m.phase with
  | .running | .closing _ => true
  | _ => false

/-- `r.Run` has returned -/
def Phase.ran : Phase → Bool
  | .closing _ | .finished _ => true
  | _ => false

/-- the loop has not reached member `i` yet -/
def Stage.before : Stage → Nat → Bool
  | .spawning idx, i => idx ≤ i
  | _, _ => false

def Stage.isReturned : Stage → Bool
  | .returned _ => true
  | _ => false

structure Inv (s : St) : Prop where
  wg : s.wg = s.members.countP Member.active
  closes : ∀ m ∈ s.members, m.closes = if m.phase.ran then 1 else 0
  /-- the loop has called `g.Go` for the members before it, and only for them -/
  spawned : ∀ i m, s.members[i]? = some m → (m.phase = .idle ↔ s.stage.before i)
  err : s.err = firstErr s.results
  /-- the recorded results are those of the finished members -/
  results : ∀ i r, (i, r) ∈ s.results ↔ ∃ m, s.members[i]? = some m ∧ m.phase = .finished r
  ctx : s.ctx.isSome ↔ s.parent.isSome ∨ s.err.isSome ∨ s.stage.isReturned
  returned : ∀ res, s.stage = .returned res → res = s.err ∧ ∀ m ∈ s.members, ∃ r, m.phase = .finished r
  /-- the log holds exactly the errors the close methods of finished members returned -/
  logged : ∀ e, e ∈ s.log ↔ ∃ m ∈ s.members, (∃ r, m.phase = .finished r) ∧ m.closeRes = some e

theorem inv_init (rs : List Closer) : Inv (init rs) where
  wg := by simp [init, List.countP_map, List.countP_eq_zero, Function.comp_def, Member.active]
  closes := by simp [init, Phase.ran]
  spawned i m h := by
    simp only [init, List.getElem?_map, Option.map_eq_some'] at h
    obtain ⟨c, -, rfl⟩ := h
    simp [init, Stage.before]
  err := rfl
  results i r := by simp [init]
  ctx := by simp [init, Stage.isReturned]
  returned res h := by cases h
  logged := by simp [init]

theorem recordErr_eq (s : St) (r : Option GoErr) :
    recordErr s r = { s with err := s.err.or r,
                             ctx := if s.err.isNone && r.isSome then s.ctx.or (some .canceled) else s.ctx } := by
  obtain ⟨_, _, _, err, _, _, _, _⟩ := s
  cases r <;> cases err <;> rfl

theorem firstErr_append (l : List (Nat × Option GoErr)) (i : Nat) (r : Option GoErr) :
    firstErr (l ++ [(i, r)]) = (firstErr l).or r := by
  cases r <;> simp [firstErr, List.findSome?_append, List.findSome?]

/-! ## One lemma per step -/

section Steps

variable {s : St} (h : Inv s) {i : Nat} {m : Member} (hm : s.members[i]? = some m)
include h hm

/-- `g.Go` for member `i` -/
theorem inv_go {idx : Nat} (hst : s.stage = .spawning idx) (hi : i = idx) :
    Inv { s with members := s.members.set i { m with phase := .running }, wg := s.wg + 1,
                 stage := .spawning (idx + 1) } := by
  subst hi
  have hp : m.phase = .idle := (h.spawned i m hm).2 (by simp [hst, Stage.before])
  refine ⟨?_, forall_mem_set h.closes i ?_, fun j m' hj => ?_, h.err, fun j r => ?_, ?_, fun _ hr => (by cases hr),
    fun e => ?_⟩
  · have := countP_set_of hm { m with phase := .running } Member.active
    simp [Member.active, hp] at this; dsimp only; rw [h.wg]; omega
  · simpa [hp, Phase.ran] using h.closes m (List.getElem?_mem hm)
  · rw [getElem?_set_of hm] at hj
    split at hj
    · cases hj; subst j; simp [Stage.before]
    · have := h.spawned j m' hj; simp only [hst, Stage.before, decide_eq_true_eq] at this ⊢
      rw [this]; omega
  · rw [h.results, getElem?_set_of hm]
    split
    · subst j; simp [hm, hp]
    · rfl
  · simpa [hst, Stage.isReturned] using h.ctx
  · rw [h.logged, exists_mem_set hm _ (fun x => (∃ r, x.phase = .finished r) ∧ x.closeRes = some e) (by simp [hp])]
    simp

/-- member `i`'s `r.Run` returns -/
theorem inv_ret (hp : m.phase = .running) (res : Option GoErr) :
    Inv { s with members := s.members.set i { m with phase := .closing res, closes := m.closes + 1 } } := by
  have hnr : ∀ r, s.stage ≠ .returned r := fun r hr => by
    obtain ⟨r', hr'⟩ := (h.returned r hr).2 m (List.getElem?_mem hm); simp [hp] at hr'
  refine ⟨?_, forall_mem_set h.closes i ?_, fun j m' hj => ?_, h.err, fun j r => ?_, h.ctx, fun r hr => absurd hr (hnr r),
    fun e => ?_⟩
  · have := countP_set_of hm { m with phase := .closing res, closes := m.closes + 1 } Member.active
    simp [Member.active, hp] at this; dsimp only; rw [h.wg]; omega
  · simpa [hp, Phase.ran] using h.closes m (List.getElem?_mem hm)
  · rw [getElem?_set_of hm] at hj
    split at hj
    · cases hj; subst j; simpa [hp] using h.spawned i m hm
    · exact h.spawned j m' hj
  · rw [h.results, getElem?_set_of hm]
    split
    · subst j; simp [hm, hp]
    · rfl
  · rw [h.logged, exists_mem_set hm _ (fun x => (∃ r, x.phase = .finished r) ∧ x.closeRes = some e) (by simp [hp])]
    simp

/-- member `i`'s close returns and errgroup records its result -/
theorem inv_closed {res : Option GoErr} (hp : m.phase = .closing res) (cres : Option GoErr) :
    Inv (recordErr { s with members := s.members.set i { m with phase := .finished res,
                                                                closeRes := runClose m.closer cres },
                            log := s.log ++ closeReport (runClose m.closer cres), wg := s.wg - 1,
                            results := s.results ++ [(i, res)] } res) := by
  have hnr : ∀ r, s.stage ≠ .returned r := fun r hr => by
    obtain ⟨r', hr'⟩ := (h.returned r hr).2 m (List.getElem?_mem hm); simp [hp] at hr'
  rw [recordErr_eq]
  refine ⟨?_, forall_mem_set h.closes i ?_, fun j m' hj => ?_, ?_, fun j r => ?_, ?_, fun r hr => absurd hr (hnr r),
    fun e => ?_⟩
  · have := countP_set_of hm { m with phase := .finished res, closeRes := runClose m.closer cres } Member.active
    simp [Member.active, hp] at this; dsimp only; rw [h.wg]; omega
  · simpa [hp, Phase.ran] using h.closes m (List.getElem?_mem hm)
  · simp only at hj
    rw [getElem?_set_of hm] at hj
    split at hj
    · cases hj; subst j; simpa [hp] using h.spawned i m hm
    · exact h.spawned j m' hj
  · simp [h.err, firstErr_append]
  · simp only [List.mem_append, List.mem_singleton, Prod.mk.injEq]
    rw [h.results, getElem?_set_of hm]
    split
    · subst j; simp [hm, hp, eq_comm]
    · rename_i hij; simp [Ne.symm hij]
  · have := h.ctx
    cases hr : res <;> cases he : s.err <;> simp_all
  · simp only [List.mem_append]
    rw [h.logged, exists_mem_set hm _ (fun x => (∃ r, x.phase = .finished r) ∧ x.closeRes = some e) (by simp [hp])]
    simp [closeReport, eq_comm]

end Steps

/-- the loop is past the last member: `g.Wait()` comes next -/
theorem inv_spawned {s : St} (h : Inv s) {idx : Nat} (hst : s.stage = .spawning idx)
    (hm : s.members[idx]? = none) : Inv { s with stage := .waiting } :=
  { h with
    spawned := fun j m hj => by
      have hj' : j < s.members.length := (List.getElem?_eq_some_iff.1 hj).1
      have hidx : s.members.length ≤ idx := by simpa using hm
      have := h.spawned j m hj
      simp only [hst, Stage.before, decide_eq_true_eq] at this
      simp only [Stage.before, Bool.false_eq_true, iff_false]
      exact fun hi => absurd (this.1 hi) (by omega)
    ctx := by simpa [hst, Stage.isReturned] using h.ctx
    returned := fun r hr => by cases hr }

theorem inv_wait {s : St} (h : Inv s) (hst : s.stage = .waiting) (hz : s.wg = 0) :
    Inv { s with ctx := s.ctx.or (some .canceled), stage := .returned s.err } := by
  have hfin : ∀ m ∈ s.members, ∃ r, m.phase = .finished r := by
    intro m hm
    obtain ⟨i, hi⟩ := List.mem_iff_getElem?.1 hm
    have hidle := h.spawned i m hi
    have hact : m.active = false := by
      have h0 : s.members.countP Member.active = 0 := by have := h.wg; omega
      exact Bool.eq_false_iff.2 (List.countP_eq_zero.1 h0 m hm)
    simp only [hst, Stage.before, Bool.false_eq_true, iff_false] at hidle
    unfold Member.active at hact
    cases hp : m.phase <;> simp_all
  refine ⟨h.wg, h.closes, fun j m hj => ?_, h.err, h.results, by simp [Stage.isReturned],
    fun r hr => ⟨by cases hr; rfl, hfin⟩, h.logged⟩
  simpa [hst, Stage.before] using h.spawned j m hj

theorem step_inv {s : St} (h : Inv s) (o : Op) : Inv (step s o) := by
  cases o with
  | go =>
    simp only [step]
    split
    · rename_i idx hst
      split
      · exact inv_go h ‹_› hst rfl
      · exact inv_spawned h hst ‹_›
    · exact h
  | ret i res =>
    simp only [step]
    split
    · rename_i m hm
      split
      · rename_i hp; exact inv_ret h hm hp res
      · exact h
    · exact h
  | closed i cres =>
    simp only [step]
    split
    · rename_i m hm
      split
      · rename_i res hp; exact inv_closed h hm hp cres
      · exact h
    · exact h
  | wait =>
    simp only [step]
    split
    · rename_i hst
      split
      · rename_i hz; exact inv_wait h hst hz
      · exact h
    · exact h
  | cancel e =>
    simp only [step]
    split
    · exact { h with ctx := by simp }
    · exact h

theorem run_inv {s : St} (h : Inv s) (ops : List Op) : Inv (run s ops) := by
  induction ops generalizing s with
  | nil => exact h
  | cons o ops ih => exact ih (step_inv h o)

/-! ## Outcome of the group -/

/-- the recorded error is nil exactly when every finished member's `Run` returned nil -/
theorem firstErr_none {s : St} (h : Inv s) :
    firstErr s.results = none ↔ ∀ m ∈ s.members, ∀ r, m.phase = .finished r → r = none := by
  simp only [firstErr, List.findSome?_eq_none_iff]
  constructor
  · intro hn m hm r hr
    obtain ⟨i, hi⟩ := List.mem_iff_getElem?.1 hm
    exact hn (i, r) ((h.results i r).2 ⟨m, hi, hr⟩)
  · rintro hn ⟨i, r⟩ hir
    obtain ⟨m, hi, hr⟩ := (h.results i r).1 hir
    exact hn m (List.getElem?_mem hi) r hr

/-- the recorded error is one a finished member's `Run` returned -/
theorem firstErr_some {s : St} (h : Inv s) {e : GoErr} (he : firstErr s.results = some e) :
    ∃ m ∈ s.members, m.phase = .finished (some e) := by
  obtain ⟨⟨i, r⟩, hir, hr⟩ := List.exists_of_findSome?_eq_some he
  obtain ⟨m, hi, hm⟩ := (h.results i r).1 hir
  simp only at hr
  exact ⟨m, List.getElem?_mem hi, hr ▸ hm⟩

/-- **Each member closed once; the group's result is its members'.** For every list of runners and every
interleaving: a member's `RunClose` has been invoked once if its `Run` has returned and never before; when the
group's `Run` returns, every member's close has returned, and the group returns nil exactly when every member's
`Run` returned nil, and otherwise an error one of them returned. -/
theorem run_group_outcome (rs : List Closer) (ops : List Op) :
    let s := run (init rs) ops
    (∀ m ∈ s.members, m.closes = if m.phase.ran then 1 else 0) ∧
      ∀ res, s.stage = .returned res →
        (∀ m ∈ s.members, m.closes = 1 ∧ ∃ r, m.phase = .finished r) ∧
        (res = none ↔ ∀ m ∈ s.members, m.phase = .finished none) ∧
        ∀ e, res = some e → ∃ m ∈ s.members, m.phase = .finished (some e) := by
  intro s
  have h := run_inv (inv_init rs) ops
  refine ⟨h.closes, fun res hst => ?_⟩
  obtain ⟨hres, hfin⟩ := h.returned res hst
  rw [h.err] at hres
  subst hres
  refine ⟨fun m hm => ⟨?_, hfin m hm⟩, ?_, fun e he => firstErr_some h he⟩
  · obtain ⟨r, hr⟩ := hfin m hm
    simp [h.closes m hm, hr, Phase.ran]
  · rw [firstErr_none h]
    constructor
    · intro hn m hm
      obtain ⟨r, hr⟩ := hfin m hm
      rw [hr, hn m hm r hr]
    · intro hn m hm r hr
      simpa [hr] using hn m hm

/-! ## Cancellation and the first error -/

/-- two members with close methods, both failing. The first member's `Run` fails; while its close runs the group
context is still live. Then the second fails, closes at once and finishes first: the group returns its error,
although the first member's `Run` failed first. -/
theorem close_before_cancel :
    (run (init [.closer, .closer]) [.go, .go, .go, .ret 0 (some (.new 1))]).members.map (·.phase) =
        [.closing (some (.new 1)), .running] ∧
      (run (init [.closer, .closer]) [.go, .go, .go, .ret 0 (some (.new 1))]).ctx = none ∧
      (run (init [.closer, .closer])
        [.go, .go, .go, .ret 0 (some (.new 1)), .ret 1 (some (.new 2)), .closed 1 none, .closed 0 none,
          .wait]).stage = .returned (some (.new 2)) := by decide

/-- **The first member to finish with an error decides.** For every list of runners and every interleaving: the
group context is cancelled exactly when the parent context ended, a member finished (its close returned) after
its `Run` failed, or `Wait` returned; and the group returns the error of the first member to finish after a failed
`Run`, nil if there is none. -/
theorem first_finished_error (rs : List Closer) (ops : List Op) :
    let s := run (init rs) ops
    (s.ctx.isSome ↔ s.parent.isSome ∨ (firstErr s.results).isSome ∨ s.stage.isReturned) ∧
      ∀ res, s.stage = .returned res → res = firstErr s.results := by
  intro s
  have h := run_inv (inv_init rs) ops
  exact ⟨h.err ▸ h.ctx, fun res hst => (h.returned res hst).1.trans h.err⟩

/-! ## The group returns once its members do -/

/-- the steps that finish a group of `n` members: the rest of the `for` loop, each member's `Run` returning `res i`
and its close `cres i`, and `g.Wait()` returning -/
def finish (n : Nat) (res cres : Nat → Option GoErr) : List Op :=
  List.replicate (n + 1) .go ++ (List.range n).flatMap (fun i => [.ret i (res i), .closed i (cres i)]) ++ [.wait]

theorem run_nil (s : St) : run s [] = s := rfl

theorem run_append (s : St) (ops ops' : List Op) : run s (ops ++ ops') = run (run s ops) ops' :=
  List.foldl_append _ _ _ _

/-- no step adds or removes a member -/
theorem step_length (s : St) (o : Op) : (step s o).members.length = s.members.length := by
  cases o <;> simp only [step] <;> (repeat' split) <;> simp [recordErr_eq]

theorem run_length (s : St) (ops : List Op) : (run s ops).members.length = s.members.length := by
  induction ops generalizing s with
  | nil => rfl
  | cons o ops ih => rw [run_cons, ih, step_length]

/-- a member's `Run` returning, or its close, leaves the group's stage and every other member -/
theorem ret_frame (s : St) (i : Nat) (r : Option GoErr) :
    (step s (.ret i r)).stage = s.stage ∧ ∀ j, i ≠ j → (step s (.ret i r)).members[j]? = s.members[j]? := by
  simp only [step]
  split
  · split
    · exact ⟨rfl, fun j hj => List.getElem?_set_ne hj⟩
    · exact ⟨rfl, fun _ _ => rfl⟩
  · exact ⟨rfl, fun _ _ => rfl⟩

theorem closed_frame (s : St) (i : Nat) (c : Option GoErr) :
    (step s (.closed i c)).stage = s.stage ∧ ∀ j, i ≠ j → (step s (.closed i c)).members[j]? = s.members[j]? := by
  simp only [step]
  split
  · split
    · rw [recordErr_eq]; exact ⟨rfl, fun j hj => List.getElem?_set_ne hj⟩
    · exact ⟨rfl, fun _ _ => rfl⟩
  · exact ⟨rfl, fun _ _ => rfl⟩

/-- a member the loop has started has finished once its `Run` and its close have returned -/
theorem pair_finished (s : St) {i : Nat} {m : Member} (hm : s.members[i]? = some m) (hp : m.phase ≠ .idle)
    (r c : Option GoErr) :
    ∃ m' x, (run s [.ret i r, .closed i c]).members[i]? = some m' ∧ m'.phase = .finished x := by
  simp only [run_cons, run_nil]
  cases hph : m.phase with
  | idle => exact absurd hph hp
  | running =>
    simp only [step, hm, hph, getElem?_set_self hm]
    exact ⟨_, r, by rw [recordErr_eq]; exact getElem?_set_self (getElem?_set_self hm), rfl⟩
  | closing x =>
    simp only [step, hm, hph]
    exact ⟨_, x, by rw [recordErr_eq]; exact getElem?_set_self hm, rfl⟩
  | finished x => exact ⟨m, x, by simp [step, hm, hph], hph⟩

/-- the members still to finish, each started, finish after their steps; the finished ones stay finished, and the
stage is left -/
theorem finished_after (res cres : Nat → Option GoErr) : ∀ (l : List Nat) (s : St),
    (∀ (j : Nat) (m : Member), s.members[j]? = some m → (j ∈ l ∧ m.phase ≠ .idle) ∨ ∃ x, m.phase = .finished x) →
      (run s (l.flatMap fun i => [.ret i (res i), .closed i (cres i)])).stage = s.stage ∧
      ∀ (j : Nat) (m : Member), (run s (l.flatMap fun i => [.ret i (res i), .closed i (cres i)])).members[j]? = some m →
        ∃ x, m.phase = .finished x
  | [], s, hs => ⟨rfl, fun j m hm => (hs j m hm).resolve_left fun h => List.not_mem_nil j h.1⟩
  | i :: l, s, hs => by
    rw [List.flatMap_cons, run_append]
    obtain ⟨hr1, hr2⟩ := ret_frame s i (res i)
    obtain ⟨hc1, hc2⟩ := closed_frame (step s (.ret i (res i))) i (cres i)
    have hs' : ∀ (j : Nat) (m : Member), (run s [.ret i (res i), .closed i (cres i)]).members[j]? = some m →
        (j ∈ l ∧ m.phase ≠ .idle) ∨ ∃ x, m.phase = .finished x := fun j m hm => by
      by_cases hij : i = j
      · subst hij
        obtain ⟨m0, hm0⟩ : ∃ m0, s.members[i]? = some m0 := by
          refine ⟨_, List.getElem?_eq_getElem ?_⟩
          have := (List.getElem?_eq_some_iff.1 hm).1
          simpa only [run_cons, run_nil, step_length] using this
        have hp : m0.phase ≠ .idle := by rcases hs i m0 hm0 with ⟨-, hp⟩ | ⟨x, hx⟩ <;> simp [*]
        obtain ⟨m', x, hm', hx⟩ := pair_finished s hm0 hp (res i) (cres i)
        exact .inr ⟨x, by rw [hm'] at hm; cases hm; exact hx⟩
      · rw [run_cons, run_cons, run_nil, hc2 j hij, hr2 j hij] at hm
        exact (hs j m hm).imp (fun h => ⟨(List.mem_cons.1 h.1).resolve_left (Ne.symm hij), h.2⟩) id
    obtain ⟨h1, h2⟩ := finished_after res cres l _ hs'
    exact ⟨h1.trans (hc1.trans hr1), h2⟩

/-- enough turns of the loop end it -/
theorem gos_done : ∀ (k : Nat) (s : St), (∀ idx, s.stage = .spawning idx → s.members.length - idx + 1 ≤ k) →
    ∀ idx, (run s (List.replicate k .go)).stage ≠ .spawning idx
  | 0, s, hk, idx, hi => by have := hk idx hi; omega
  | k + 1, s, hk, idx, hi => by
    rw [List.replicate_succ, run_cons] at hi
    refine gos_done k (step s .go) (fun j hj => ?_) idx hi
    rw [step_length]
    simp only [step] at hj
    split at hj
    · rename_i i0 hst
      have := hk i0 hst
      split at hj
      · rename_i m hm
        cases hj
        have := (List.getElem?_eq_some_iff.1 hm).1
        omega
      · cases hj
    · exact absurd hj (by simp_all)

/-- **The group returns once its members do.** From every state an interleaving reaches, if the loop goes on,
each member's `Run` returns and then its close returns (with any results), `g.Wait()` returns and the group's
`Run` returns: nothing in `RunGroup` can block it. -/
theorem run_group_returns (rs : List Closer) (ops : List Op) (res cres : Nat → Option GoErr) :
    ∃ r, (run (init rs) (ops ++ finish rs.length res cres)).stage = .returned r := by
  have hlen : (run (init rs) ops).members.length = rs.length := by rw [run_length]; simp [init]
  have h0 := run_inv (inv_init rs) ops
  unfold finish
  rw [run_append, run_append, run_append]
  generalize run (init rs) ops = s at h0 hlen
  have h1 := run_inv h0 (List.replicate (rs.length + 1) .go)
  have hne := gos_done (rs.length + 1) s (fun idx _ => by omega)
  have hlen1 : (run s (List.replicate (rs.length + 1) .go)).members.length = rs.length := by rw [run_length, hlen]
  generalize run s (List.replicate (rs.length + 1) .go) = s1 at h1 hne hlen1
  obtain ⟨hst, hfin⟩ := finished_after res cres (List.range rs.length) s1 fun j m hm => .inl
    ⟨List.mem_range.2 (hlen1 ▸ (List.getElem?_eq_some_iff.1 hm).1), fun hp => by
      cases hs : s1.stage with
      | spawning idx => exact hne idx hs
      | _ => simpa [hs, Stage.before] using (h1.spawned j m hm).1 hp⟩
  have h2 := run_inv h1 ((List.range rs.length).flatMap fun i => [.ret i (res i), .closed i (cres i)])
  generalize run s1 ((List.range rs.length).flatMap fun i => [.ret i (res i), .closed i (cres i)]) = s2
    at h2 hst hfin
  have hwg : s2.wg = 0 := by
    have : s2.members.countP Member.active = 0 := List.countP_eq_zero.2 fun m hm => by
      obtain ⟨j, hj⟩ := List.mem_iff_getElem?.1 hm
      obtain ⟨x, hx⟩ := hfin j m hj
      simp [Member.active, hx]
    rw [h2.wg, this]; rfl
  simp only [run_cons, run_nil, step]
  cases hs : s2.stage with
  | spawning idx => exact absurd (hst.symm.trans hs) (hne idx)
  | waiting => exact ⟨s2.err, by simp [hs, hwg]⟩
  | returned r => exact ⟨r, by simp [hs]⟩

end Gobox.RunGroup
