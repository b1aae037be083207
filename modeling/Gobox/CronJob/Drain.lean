import Gobox.CronJob.Invariant

/-!
Draining and overlapping ticks of the cron job activity, on an accepted schedule.

- `step_ticks`: a step keeps the ticks, advances one of them, or, only by a firing while the scheduler runs,
  starts one.
- `drain_before_close`: once the current call's `Stop` has been processed no step starts a tick, `RunClose` runs
  only when every tick has finished, and each call invokes `RunClose` at most once and exactly once by its return.
- `ticks_overlap`: `cron.New()` has no `SkipIfStillRunning` wrapper and `startJob` runs every firing in its own
  goroutine, so a firing that comes due while the Job's `Run` is still running starts a second invocation.
- `overlap_needs_firing`: that is the only way: a firing always starts one more invocation, and on a run where each
  firing comes due with no invocation in progress (`spaced`), at most one is ever in progress.
-/

namespace Gobox.CronJob

/-- `job.Run(ctx)` is in progress in the tick -/
def Tick.inRun (t : Tick) : Bool :=
  match t.phase with
  | .running => true
  | _ => false

/-- invocations of a Job's `Run` in progress -/
def St.inRun (s : St) : Nat := s.ticks.countP Tick.inRun

/-- past the call's `Stop` -/
def Phase.pastStop : Phase → Bool
  | .draining _ | .closing _ | .returned _ => true
  | _ => false

theorem act_ticks {s : St} {k : Nat} {f : Call → Option Call} {eff : St → St}
    (he : ∀ s', (eff s').ticks = s'.ticks) : (s.act k f eff).ticks = s.ticks := by
  unfold St.act; split <;> simp [he]

/-- a step keeps the ticks, advances one of them, or (a firing, while the scheduler runs) starts one -/
theorem step_ticks (parse : Option GoErr) (s : St) (o : Op) :
    (step parse s o).ticks = s.ticks ∨ (∃ j t, t.inRun = false ∧ (step parse s o).ticks = s.ticks.set j t) ∨
      (s.running = true ∧ (∃ e, o = .fire e) ∧ ∃ k, (step parse s o).ticks = s.ticks ++ [⟨k, .running⟩]) := by
  cases o with
  | begin cl => simp only [step]; split <;> simp
  | addJob => exact .inl (act_ticks fun _ => by cases parse <;> rfl)
  | drain => simp only [step]; split <;> simp [act_ticks]
  | start | select _ | stop | close _ | cancel _ _ | watch _ => exact .inl (act_ticks fun _ => rfl)
  | fire e =>
    simp only [step]
    split
    · exact .inr (.inr ⟨by assumption, ⟨e, rfl⟩, _, rfl⟩)
    · exact .inl rfl
  | tickRet j _ | tickSend j =>
    simp only [step]
    repeat' split
    all_goals first | exact .inl rfl | exact .inr (.inl ⟨j, _, by rfl, rfl⟩)
  | closeSa => simp only [step]; split <;> simp

/-- with the scheduler stopped, no step starts a tick -/
theorem ticks_length_of_stopped (parse : Option GoErr) {s : St} (hr : s.running = false) (o : Op) :
    (step parse s o).ticks.length = s.ticks.length := by
  rcases step_ticks parse s o with h | ⟨j, t, -, h⟩ | ⟨h, -⟩ <;> simp_all

/-- **Drain before close.** In every state reached on an accepted schedule, by any interleaving of firings, tick
outcomes, `Close`, cancellations and successive `Run` calls: once the current call's `Stop` has been processed, no
step starts a tick; while its `RunClose` runs, every tick the scheduler started has returned; and each call invokes
`RunClose` at most once, and exactly once by the time it returns. -/
theorem drain_before_close (ops : List Op) :
    let s := run none init ops
    (∀ c, s.current = some c → c.phase.pastStop → ∀ o, (step none s o).ticks.length = s.ticks.length) ∧
      (∀ c, s.current = some c → c.phase.isClosing → ∀ t ∈ s.ticks, t.live = false) ∧
      ∀ c ∈ s.calls, c.closes ≤ 1 ∧ (c.phase.isReturned → c.closes = 1) := by
  intro s
  have h := run_inv inv_init ops
  refine ⟨fun c hc hp o => ticks_length_of_stopped none (h.stopped hc ?_) o, h.drained, fun c hc => ?_⟩
  · revert hp; cases c.phase <;> simp [Phase.pastStop, Phase.between]
  · rw [(h.calls c hc).closes]
    cases c.phase <;> simp [Phase.closeCount, Phase.isReturned]

/-- two firings of a 1 s schedule, with a Job whose `Run` takes longer than a second: both invocations of the
Job's `Run` are in progress -/
theorem ticks_overlap :
    (run none init [.begin .neither, .addJob, .start, .fire 0, .fire 0]).ticks =
      [⟨0, .running⟩, ⟨0, .running⟩] := by decide

/-- every firing of the run comes due with no invocation of a Job's `Run` in progress -/
def spaced (parse : Option GoErr) : St → List Op → Bool
  | _, [] => true
  | s, o :: ops => (match o with | .fire _ => s.inRun == 0 | _ => true) && spaced parse (step parse s o) ops

theorem inRun_step_le {s : St} {o : Op} (h : (match o with | .fire _ => s.inRun == 0 | _ => true) = true)
    (parse : Option GoErr) (hs : s.inRun ≤ 1) : (step parse s o).inRun ≤ 1 := by
  rcases step_ticks parse s o with he | ⟨j, t, ht, he⟩ | ⟨-, ⟨e, rfl⟩, k, he⟩
  · simpa [St.inRun, he] using hs
  · simp only [St.inRun, he]; exact (countP_set_le Tick.inRun ht s.ticks j).trans hs
  · simp only [beq_iff_eq] at h
    simp only [St.inRun, he, List.countP_append] at h ⊢
    simp [h, Tick.inRun]

theorem spaced_inRun (parse : Option GoErr) :
    ∀ (s : St) (ops : List Op), spaced parse s ops = true → s.inRun ≤ 1 → (run parse s ops).inRun ≤ 1
  | _, [], _, hs => hs
  | s, o :: ops, h, hs => by
    simp only [spaced, Bool.and_eq_true] at h
    exact spaced_inRun parse _ ops h.2 (inRun_step_le h.1 parse hs)

/-- **Overlap needs a firing during a run.** On an accepted schedule, in every reachable state a firing of any
entry while the scheduler runs starts one more invocation, whatever is in progress; and on a run in which every
firing comes due with no invocation in progress, at most one invocation is ever in progress. -/
theorem overlap_needs_firing (ops : List Op) :
    (spaced none init ops = true → (run none init ops).inRun ≤ 1) ∧
      ∀ e < (run none init ops).entries.length, (run none init ops).running = true →
        (step none (run none init ops) (.fire e)).inRun = (run none init ops).inRun + 1 := by
  refine ⟨fun h => spaced_inRun none init ops h (by decide), fun e he hr => ?_⟩
  simp [step, hr, List.getElem?_eq_getElem he, St.inRun, Tick.inRun]

/-- the 1 s schedule with a Job that returns within the second: the second firing finds the first invocation
done, and no two invocations overlap -/
theorem overlap_needs_firing_spaced :
    spaced none init [.begin .neither, .addJob, .start, .fire 0, .tickRet 0 none, .fire 0] = true ∧
      (run none init [.begin .neither, .addJob, .start, .fire 0, .tickRet 0 none, .fire 0]).inRun ≤ 1 :=
  ⟨by decide, (overlap_needs_firing _).1 (by decide)⟩

end Gobox.CronJob
