import Gobox.CronJob.Model

/-!
The invariant of the cron job activity on an accepted schedule (`parse = none`).

- `Inv.waiter`: the scheduler's `jobWaiter` counts the ticks that have not finished;
- `Inv.running`: the scheduler runs only while the current call is between its `Start` and its `Stop`;
- `Inv.calls`: every call has invoked `RunClose` once if it is closing or returned and never before, its
  `errCh` holds at most one error, and a call whose Job's close failed has returned an error;
- `Inv.drained`: while the current call's `RunClose` runs, every tick has finished.

`step_inv` and `run_inv` give it for every reachable state. One lemma per kind of step (`inv_cur` for the current
call's statements, `inv_other` for a step of another call, and one for each tick step) carries the bookkeeping, so
each case of `step_inv` states only what its statement does.
-/

namespace Gobox.CronJob

/-- the tick goroutine has not run its `jobWaiter.Done()` -/
def Tick.live (t : Tick) : Bool :=
  match t.phase with
  | .finished _ => false
  | _ => true

/-- between the call's `Start` and its `Stop`: the only phases in which the scheduler may run -/
def Phase.between : Phase → Bool
  | .selecting | .stopping _ => true
  | _ => false

def Phase.isClosing : Phase → Bool
  | .closing _ => true
  | _ => false

/-- the `RunClose` invocations a call in this phase has made, on an accepted schedule -/
def Phase.closeCount : Phase → Nat
  | .closing _ | .returned _ => 1
  | _ => 0

/-- the current call -/
def St.current (s : St) : Option Call := s.calls[s.cur]?

/-- what holds of each call -/
structure Call.Ok (c : Call) : Prop where
  closes : c.closes = c.phase.closeCount
  cap : c.errCh.length ≤ 1
  /-- the Job's close failed only in a call that returned an error -/
  closeErr : c.closeRes.isSome → ∃ e, c.phase = .returned (some e)

/-- a call that has not returned has no close result -/
theorem Call.Ok.closeRes_none {c : Call} (ok : c.Ok) (hp : c.phase.isReturned = false) : c.closeRes = none := by
  cases hc : c.closeRes
  · rfl
  · obtain ⟨e, he⟩ := ok.closeErr (by simp [hc]); simp [he, Phase.isReturned] at hp

/-- a statement before `RunClose` that moves the call to another phase before it and adds no error -/
theorem Call.Ok.advance {c c' : Call} (ok : c.Ok) (hp : c.phase.closeCount = 0) (hp' : c'.phase.closeCount = 0)
    (hcl : c'.closes = c.closes) (hcap : c'.errCh.length ≤ c.errCh.length) (hcr : c'.closeRes = c.closeRes) :
    c'.Ok where
  closes := by rw [hcl, ok.closes, hp, hp']
  cap := hcap.trans ok.cap
  closeErr hs := by
    rw [hcr, ok.closeRes_none (by revert hp; cases c.phase <;> simp [Phase.closeCount, Phase.isReturned])] at hs
    cases hs

structure Inv (s : St) : Prop where
  waiter : s.jobWaiter = s.ticks.countP Tick.live
  running : s.running = true → ∃ c, s.current = some c ∧ c.phase.between
  calls : ∀ c ∈ s.calls, c.Ok
  drained : ∀ c, s.current = some c → c.phase.isClosing → ∀ t ∈ s.ticks, t.live = false

theorem inv_init : Inv init := ⟨rfl, by simp [init], by simp [init], by simp [init, St.current]⟩

/-! ## Lists of calls and ticks -/

/-- the current call after call `k` was replaced -/
theorem current_set {s t : St} {k : Nat} {c c' : Call} (hc : s.calls[k]? = some c)
    (ht : t.calls = s.calls.set k c') : t.current = if k = s.cur then some c' else s.current := by
  simp only [St.current, St.cur, ht, List.length_set]
  rw [List.getElem?_set]
  have hk := (List.getElem?_eq_some_iff.1 hc).1
  by_cases e : k = s.calls.length - 1
  · subst k; simp [St.cur, hk]
  · simp [e, St.cur]

/-- a property of every outcome of a call's transition holds of the step -/
theorem act_inv {P : St → Prop} {s : St} {k : Nat} {f : Call → Option Call} {eff : St → St} (h0 : P s)
    (h1 : ∀ c c', s.calls[k]? = some c → f c = some c' → P (eff { s with calls := s.calls.set k c' })) :
    P (s.act k f eff) := by
  unfold St.act
  cases hc : s.calls[k]? with
  | none => exact h0
  | some c =>
    cases hf : f c with
    | none => simpa [hf] using h0
    | some c' => simpa [hf] using h1 c c' hc hf

/-! ## One lemma per kind of step -/

/-- the scheduler is stopped while the current call is not between its `Start` and its `Stop` -/
theorem Inv.stopped {s : St} (h : Inv s) {c : Call} (hc : s.current = some c) (hb : c.phase.between = false) :
    s.running = false := by
  cases hr : s.running
  · rfl
  · obtain ⟨c', hc', hb'⟩ := h.running hr
    cases hc.symm.trans hc'
    simp [hb] at hb'

/-- a statement of the current call, which may start or stop the scheduler and add an entry -/
theorem inv_cur {s : St} (h : Inv s) {c c' : Call} (hc : s.current = some c) (ok : c.Ok → c'.Ok)
    (hdr : c'.phase.isClosing → ∀ t ∈ s.ticks, t.live = false) (r : Bool) (hr : r = true → c'.phase.between)
    (es : List Nat) : Inv { s with calls := s.calls.set s.cur c', running := r, entries := es } where
  waiter := h.waiter
  running hr' := ⟨c', by rw [current_set hc rfl, if_pos rfl], hr hr'⟩
  calls := forall_mem_set h.calls _ (ok (h.calls c (List.getElem?_mem hc)))
  drained d hd := by
    rw [current_set hc rfl, if_pos rfl] at hd
    cases hd
    exact hdr

/-- a step of any call that keeps its phase and its `RunClose` count -/
theorem inv_other {s : St} (h : Inv s) {k : Nat} {c c' : Call} (hc : s.calls[k]? = some c)
    (hp : c'.phase = c.phase) (hcl : c'.closes = c.closes) (hcr : c'.closeRes = c.closeRes)
    (hcap : c'.errCh.length ≤ 1) (r : Bool)
    (hr : r = true → s.running = true) : Inv { s with calls := s.calls.set k c', running := r } where
  waiter := h.waiter
  running hr' := by
    obtain ⟨d, hd, hb⟩ := h.running (hr hr')
    rw [current_set hc rfl]
    split
    · subst k; cases hc.symm.trans hd; exact ⟨c', rfl, hp ▸ hb⟩
    · exact ⟨d, hd, hb⟩
  calls := by
    have ok := h.calls c (List.getElem?_mem hc)
    exact forall_mem_set h.calls k ⟨by rw [hcl, hp]; exact ok.closes, hcap, by rw [hcr, hp]; exact ok.closeErr⟩
  drained d hd := by
    rw [current_set hc rfl] at hd
    split at hd
    · subst k; cases hd; rw [hp]; exact h.drained c hc
    · exact h.drained d hd

/-- a tick leaves a live phase: the counter drops when it finishes -/
theorem inv_tick {s : St} (h : Inv s) {j : Nat} {t : Tick} (ht : s.ticks[j]? = some t) (hl : t.live = true)
    (t' : Tick) (w : Int) (hw : w = s.jobWaiter - if t'.live then 0 else 1) :
    Inv { s with ticks := s.ticks.set j t', jobWaiter := w } where
  waiter := by
    have := countP_set_of ht t' Tick.live
    rw [hl] at this
    simp only [hw, h.waiter]
    split <;> simp_all; omega
  running := h.running
  calls := h.calls
  drained c hc hcl := by
    have := h.drained c hc hcl t (List.getElem?_mem ht)
    simp [hl] at this

/-! ## What each statement of the current call does -/

namespace Call

variable {c c' : Call}

theorem addJob_spec (h : c.addJob none = some c') :
    c.phase = .adding ∧ c' = { c with phase := .starting, watcher := true } := by
  unfold addJob at h; split at h <;> simp_all

theorem start_spec (h : c.start = some c') : c.phase = .starting ∧ c' = { c with phase := .selecting } := by
  unfold start at h; split at h <;> cases h; exact ⟨‹_›, rfl⟩

theorem select_spec {d : Bool} {k : Case} (h : c.select d k = some c') :
    c.phase = .selecting ∧ (∃ err, c'.phase = .stopping err) ∧ c'.closes = c.closes ∧
      c'.errCh.length ≤ c.errCh.length ∧ c'.closeRes = c.closeRes := by
  unfold select at h
  split at h <;> split at h <;> cases h <;> simp_all

theorem stop_spec (h : c.stop = some c') : ∃ err, c.phase = .stopping err ∧ c' = { c with phase := .draining err } := by
  unfold stop at h; split at h <;> cases h; exact ⟨_, ‹_›, rfl⟩

theorem drain_spec (h : c.drain = some c') :
    ∃ err, c.phase = .draining err ∧ c' = { c with phase := .closing err, closes := c.closes + 1 } := by
  unfold drain at h; split at h <;> cases h; exact ⟨_, ‹_›, rfl⟩

theorem close_spec {res : Option GoErr} (h : c.close res = some c') :
    ∃ err, c.phase = .closing err ∧ c' = { c with phase := .returned (err.or (runClose c.closer res)),
                                                  closeRes := runClose c.closer res } := by
  unfold close at h; split at h <;> cases h; exact ⟨_, ‹_›, rfl⟩

theorem cancel_spec {e : CtxEnd} (h : c.cancel e = some c') : c' = { c with ctx := some e } := by
  unfold cancel at h; split at h <;> cases h; rfl

theorem watch_spec (h : c.watch = some c') : c' = { c with watcher := false } := by
  unfold watch at h; split at h <;> cases h; rfl

end Call

/-! ## The invariant is kept -/

theorem step_inv {s : St} (h : Inv s) (o : Op) : Inv (step none s o) := by
  cases o with
  | begin cl =>
    simp only [step]
    split
    · rename_i hall
      have hr : s.running = false := by
        cases hr : s.running
        · rfl
        · obtain ⟨c, hc, hb⟩ := h.running hr
          have := List.all_eq_true.1 hall c (List.getElem?_mem hc)
          cases hp : c.phase <;> simp_all [Phase.between, Phase.isReturned]
      have hcur : ({ s with calls := s.calls ++ [Call.fresh cl] } : St).current = some (Call.fresh cl) := by
        simp [St.current, St.cur]
      refine ⟨h.waiter, by simp [hr], fun c hc => ?_, fun c hc => ?_⟩
      · rcases List.mem_append.1 hc with hc | hc
        · exact h.calls c hc
        · simp only [List.mem_singleton] at hc; subst hc; exact ⟨rfl, by simp [Call.fresh], by simp [Call.fresh]⟩
      · rw [hcur] at hc; cases hc; simp [Call.fresh, Phase.isClosing]
    · exact h
  | addJob =>
    simp only [step]
    refine act_inv h fun c c' hc hf => ?_
    obtain ⟨hp, rfl⟩ := Call.addJob_spec hf
    refine inv_cur h hc (·.advance (by simp [hp, Phase.closeCount]) (by rfl) (by rfl) (by rfl) (by rfl))
      (by simp [Phase.isClosing]) s.running ?_ _
    simp [h.stopped hc (by simp [hp, Phase.between])]
  | start =>
    simp only [step]
    refine act_inv h fun c c' hc hf => ?_
    obtain ⟨hp, rfl⟩ := Call.start_spec hf
    exact inv_cur h hc (·.advance (by simp [hp, Phase.closeCount]) (by rfl) (by rfl) (by rfl) (by rfl))
      (by simp [Phase.isClosing]) true (fun _ => by rfl) s.entries
  | select k =>
    simp only [step]
    refine act_inv h fun c c' hc hf => ?_
    obtain ⟨hp, ⟨err, hp'⟩, hcl, hcap, hcr⟩ := Call.select_spec hf
    refine inv_cur h hc (·.advance (by simp [hp, Phase.closeCount]) (by simp [hp', Phase.closeCount]) hcl hcap hcr)
      ?_ s.running ?_ s.entries
    · simp [hp', Phase.isClosing]
    · simp [hp', Phase.between]
  | stop =>
    simp only [step]
    refine act_inv h fun c c' hc hf => ?_
    obtain ⟨err, hp, rfl⟩ := Call.stop_spec hf
    exact inv_cur h hc (·.advance (by simp [hp, Phase.closeCount]) (by rfl) (by rfl) (by rfl) (by rfl))
      (by simp [Phase.isClosing]) false (fun h => by cases h) s.entries
  | drain =>
    simp only [step]
    split
    · rename_i hz
      refine act_inv h fun c c' hc hf => ?_
      obtain ⟨err, hp, hc'⟩ := Call.drain_spec hf
      refine inv_cur h hc (fun ok => ⟨?_, ?_, ?_⟩) (fun _ t ht => ?_) s.running ?_ s.entries
      · simp [hc', ok.closes, hp, Phase.closeCount]
      · simpa [hc'] using ok.cap
      · simp [hc', ok.closeRes_none (by simp [hp, Phase.isReturned])]
      · have h0 : s.ticks.countP Tick.live = 0 := by have := h.waiter; omega
        exact Bool.eq_false_iff.2 (List.countP_eq_zero.1 h0 t ht)
      · simp [h.stopped hc (by simp [hp, Phase.between])]
    · exact h
  | close res =>
    simp only [step]
    refine act_inv h fun c c' hc hf => ?_
    obtain ⟨err, hp, hc'⟩ := Call.close_spec hf
    refine inv_cur h hc (fun ok => ⟨?_, ?_, ?_⟩) ?_ s.running ?_ s.entries
    · simp [hc', ok.closes, hp, Phase.closeCount]
    · simpa [hc'] using ok.cap
    · subst hc'
      intro hs
      obtain ⟨e, he⟩ := Option.isSome_iff_exists.1 hs
      dsimp only at he
      cases err <;> simp [he]
    · simp [hc', Phase.isClosing]
    · simp [h.stopped hc (by simp [hp, Phase.between])]
  | fire e =>
    simp only [step]
    split
    · rename_i hr _
      refine ⟨by simp [h.waiter, Tick.live], h.running, h.calls, fun c hc hcl => ?_⟩
      have : c.phase.between = false := by revert hcl; cases c.phase <;> simp [Phase.between, Phase.isClosing]
      simp [h.stopped hc this] at hr
    · exact h
  | tickRet j res =>
    simp only [step]
    split
    · rename_i ht
      exact inv_tick h ht rfl _ (s.jobWaiter - 1) (by simp [Tick.live])
    · rename_i ht
      exact inv_tick h ht rfl _ s.jobWaiter (by simp [Tick.live])
    · exact h
  | tickSend j =>
    simp only [step]
    split
    · rename_i k e ht
      split
      · rename_i c hc
        split
        · rename_i hlen
          refine inv_other (inv_tick h ht rfl ⟨k, .finished (some e)⟩ (s.jobWaiter - 1) (by simp [Tick.live])) hc
            ?_ ?_ ?_ ?_ s.running id <;> simp
          exact List.length_eq_zero.1 (by omega)
        · exact h
      · exact h
    · exact h
  | cancel k e =>
    simp only [step]
    refine act_inv h fun c c' hc hf => ?_
    have hc' := Call.cancel_spec hf
    refine inv_other h hc ?_ ?_ ?_ ?_ s.running id <;> simp [hc', (h.calls c (List.getElem?_mem hc)).cap]
  | watch k =>
    simp only [step]
    refine act_inv h fun c c' hc hf => ?_
    have hc' := Call.watch_spec hf
    refine inv_other h hc ?_ ?_ ?_ ?_ false (fun h => by cases h) <;> simp [hc', (h.calls c (List.getElem?_mem hc)).cap]
  | closeSa =>
    simp only [step]
    split
    · exact ⟨h.waiter, h.running, h.calls, h.drained⟩
    · exact ⟨h.waiter, h.running, h.calls, h.drained⟩

theorem run_inv {s : St} (h : Inv s) (ops : List Op) : Inv (run none s ops) := by
  induction ops generalizing s with
  | nil => exact h
  | cons o ops ih => exact ih (step_inv h o)

end Gobox.CronJob
