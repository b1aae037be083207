import Gobox.CronJob.Invariant

/-!
Job errors and `errCh` in the cron job activity, on an accepted schedule.

A tick sends its Job's error with a blocking send, `errCh <- err`, on a channel of capacity 1 that only the
`select` receives from.
- `Stuck`, `stuck_step`, `stuck_run`: once the current call is past its `select`, waiting at `<-ctx2.Done()` with
  `errCh` full, a tick of that call blocked at the send never moves again, so the drain and `Run` never finish,
  whatever else happens.
- `drain_deadlock`: three overlapping firings of a Job whose every `Run` fails reach that state (one error is
  received by the `select`, the next fills `errCh`, the third blocks), and from there `Run` never returns.
- `close_masks_job_error`: `Close` wins the `select` while a tick runs; the tick's error goes into `errCh` during
  the drain and is never read, and `Run` returns nil.
-/

namespace Gobox.CronJob

/-! ## The blocked send -/

/-- the deadlock: the current call `k` waits at `<-ctx2.Done()` with its `errCh` full, and tick `j` of call `k` is
blocked at `errCh <- err` -/
structure Stuck (s : St) (k j : Nat) : Prop where
  cur : k = s.cur
  call : ∃ c err, s.calls[k]? = some c ∧ c.phase = .draining err ∧ c.errCh.length = 1
  tick : ∃ e, s.ticks[j]? = some ⟨k, .sending e⟩

/-- a step that leaves the ticks and replaces a call, the stuck one only by one with the same phase and `errCh`,
keeps the deadlock -/
theorem Stuck.set {s t : St} {k j : Nat} (hs : Stuck s k j) {k' : Nat} {c0 c' : Call}
    (hc0 : s.calls[k']? = some c0) (hk : k' = k → c'.phase = c0.phase ∧ c'.errCh = c0.errCh)
    (hcalls : t.calls = s.calls.set k' c') (hticks : t.ticks = s.ticks) : Stuck t k j where
  cur := by rw [hs.cur]; simp [St.cur, hcalls]
  call := by
    obtain ⟨c, err, hc, hp', hl⟩ := hs.call
    rw [hcalls, getElem?_set_of hc0]
    split
    · subst k'; cases hc0.symm.trans hc; obtain ⟨hp, he⟩ := hk rfl; exact ⟨c', err, rfl, hp.trans hp', he ▸ hl⟩
    · exact ⟨c, err, hc, hp', hl⟩
  tick := hticks ▸ hs.tick

theorem Stuck.of_eq {s t : St} {k j : Nat} (hs : Stuck s k j) (hc : t.calls = s.calls) (ht : t.ticks = s.ticks) :
    Stuck t k j :=
  ⟨by rw [hs.cur]; simp [St.cur, hc], hc ▸ hs.call, ht ▸ hs.tick⟩

/-- a step that replaces another tick and leaves the calls keeps the deadlock -/
theorem Stuck.setTick {s t : St} {k j j' : Nat} (hs : Stuck s k j) (hj : j' ≠ j) {t' : Tick}
    (hcalls : t.calls = s.calls) (hticks : t.ticks = s.ticks.set j' t') : Stuck t k j :=
  have ⟨e, ht⟩ := hs.tick
  ⟨by rw [hs.cur]; simp [St.cur, hcalls], hcalls ▸ hs.call, ⟨e, by rw [hticks, List.getElem?_set_ne hj, ht]⟩⟩

theorem act_none {s : St} {k : Nat} {eff : St → St} {c : Call} (f : Call → Option Call) (hc : s.calls[k]? = some c)
    (hf : f c = none) : s.act k f eff = s := by
  simp [St.act, hc, hf]

/-- no step releases a blocked tick of a call stuck in its drain -/
theorem stuck_step {s : St} {k j : Nat} (h : Inv s) (hs : Stuck s k j) (o : Op) : Stuck (step none s o) k j := by
  obtain ⟨c, err, hc, hp, hl⟩ := hs.call
  obtain ⟨e, ht⟩ := hs.tick
  have hcur : s.calls[s.cur]? = some c := hs.cur ▸ hc
  have hr : s.running = false := h.stopped hcur (by simp [hp, Phase.between])
  have hw : s.jobWaiter ≠ 0 := by
    have : 0 < s.ticks.countP Tick.live := List.countP_pos_iff.2 ⟨_, List.getElem?_mem ht, rfl⟩
    rw [h.waiter]; omega
  have hrun : ∀ {j' k'}, s.ticks[j']? = some ⟨k', .running⟩ → j' ≠ j := fun h' e => by subst e; simp [ht] at h'
  cases o with
  | begin cl =>
    have : ¬ s.calls.all (·.phase.isReturned) := by
      simp only [List.all_eq_true, not_forall]; exact ⟨c, List.getElem?_mem hc, by simp [hp, Phase.isReturned]⟩
    simpa [step, this] using hs
  | addJob => simpa [step, act_none (Call.addJob none) hcur (by simp [Call.addJob, hp])] using hs
  | start => simpa [step, act_none Call.start hcur (by simp [Call.start, hp])] using hs
  | select q => simpa [step, act_none (Call.select s.done q) hcur (by cases q <;> simp [Call.select, hp])] using hs
  | stop => simpa [step, act_none Call.stop hcur (by simp [Call.stop, hp])] using hs
  | drain => simpa [step, hw] using hs
  | close res => simpa [step, act_none (Call.close res) hcur (by simp [Call.close, hp])] using hs
  | fire q => simpa [step, hr] using hs
  | tickRet j' res =>
    simp only [step]
    split
    · exact hs.setTick (hrun ‹_›) rfl rfl
    · exact hs.setTick (hrun ‹_›) rfl rfl
    · exact hs
  | tickSend j' =>
    simp only [step]
    split
    · rename_i k' e' ht'
      split
      · rename_i c' hc'
        split
        · rename_i hlt
          have hk : k' ≠ k := by rintro rfl; cases hc.symm.trans hc'; omega
          have hj : j' ≠ j := by rintro rfl; simp [ht] at ht'; omega
          exact Stuck.set (hs.setTick hj rfl rfl : Stuck { s with ticks := s.ticks.set j' ⟨k', .finished (some e')⟩ } k j)
            hc' (fun h => absurd h hk) rfl rfl
        · exact hs
      · exact hs
    · exact hs
  | cancel k' q =>
    simp only [step]
    exact @act_inv (Stuck · k j) _ _ _ _ hs fun _ _ hc0 hf => hs.set hc0 (by simp [Call.cancel_spec hf]) rfl rfl
  | watch k' =>
    simp only [step]
    exact @act_inv (Stuck · k j) _ _ _ _ hs fun _ _ hc0 hf => hs.set hc0 (by simp [Call.watch_spec hf]) rfl rfl
  | closeSa =>
    simp only [step]
    split <;> exact hs.of_eq rfl rfl

theorem stuck_run {s : St} {k j : Nat} (h : Inv s) (hs : Stuck s k j) (ops : List Op) :
    Stuck (run none s ops) k j := by
  induction ops generalizing s with
  | nil => exact hs
  | cons o ops ih => exact ih (step_inv h o) (stuck_step h hs o)

/-! ## The failing runs -/

/-- `New(newJob, "@every 1s")` with a Job whose `Run` sleeps 2.5 s and returns an error, `Run` with a live `ctx`:
firings at 1 s, 2 s and 3 s; the first invocation fails at 3.5 s and the `select` receives its error; the second
fails at 4.5 s and fills `errCh`; the third fails at 5.5 s and blocks at the send -/
def overlappingFailures : List Op :=
  [.begin .neither, .addJob, .start, .fire 0, .fire 0, .fire 0, .tickRet 0 (some (.new 1)), .tickSend 0,
    .select .recv, .stop, .tickRet 1 (some (.new 1)), .tickSend 1, .tickRet 2 (some (.new 1)), .tickSend 2]

/-- **The drain deadlocks.** After `overlappingFailures`, whatever happens next, the call stays at `<-ctx2.Done()`
with `errCh` full and the third tick blocked at `errCh <- err`: `Run` never returns. -/
theorem drain_deadlock (ops : List Op) :
    ∃ c err e, (run none init (overlappingFailures ++ ops)).calls[0]? = some c ∧ c.phase = .draining err ∧
      c.errCh.length = 1 ∧ (run none init (overlappingFailures ++ ops)).ticks[2]? = some ⟨0, .sending e⟩ := by
  have hs : Stuck (run none init overlappingFailures) 0 2 := ⟨by decide, ⟨_, _, rfl, rfl, rfl⟩, ⟨_, rfl⟩⟩
  obtain ⟨c, err, hc, hp, hl⟩ := (stuck_run (run_inv inv_init _) hs ops).call
  obtain ⟨e, ht⟩ := (stuck_run (run_inv inv_init _) hs ops).tick
  rw [run_append]
  exact ⟨c, err, e, hc, hp, hl, ht⟩

/-- `New(newJob, "@every 1s")` with a Job whose `Run` sleeps 500 ms and returns an error and which has no close
method; `Close` at 1.2 s, while the first invocation runs: the `select` takes `sa.done`, and the invocation's
error goes into `errCh` during the drain -/
def closeDuringTick : List Op :=
  [.begin .neither, .addJob, .start, .fire 0, .closeSa, .select .closed, .stop, .tickRet 0 (some (.new 1)),
    .tickSend 0, .drain, .close none]

/-- **`Close` masks a job error.** After `closeDuringTick`, `Run` has returned nil although the Job's `Run`
returned an error during the call and its close returned nil. -/
theorem close_masks_job_error :
    (run none init closeDuringTick).done = true ∧
      (run none init closeDuringTick).calls.map (fun c => (c.phase, c.closeRes)) = [(.returned none, none)] ∧
      (run none init closeDuringTick).ticks = [⟨0, .finished (some (.new 1))⟩] := by decide

end Gobox.CronJob
