import Mathlib.Data.List.Nodup
import Mathlib.Data.List.Sort
import Gobox.Basic

/-!
`MutexWithContext` (`pkg/async/async.go`): `Lock(ctx)` is `sem.Acquire(ctx, 1)` and `Unlock()` is
`sem.Release(1)` on `semaphore.NewWeighted(1)`, modelled from the source of `golang.org/x/sync/semaphore`.

State `St`: the semaphore's `cur` and its queue `waiters` (by Lock call, front first), one `Lock` per `Lock` call,
and (ghost) the `Unlock` calls that returned and that panicked. `Acquire` is three steps, each atomic under `s.mu`
or on a channel:
- `lock`: the part under `s.mu`: the `done` check, the fast path, or joining the queue;
- `wake`: the waiter's `select` takes `<-ready`, closed by `notifyWaiters`; it then checks `done` once more and,
  if it is closed, gives the permit back with `Release(1)` and returns `ctx.Err()`;
- `abort`: the `select` takes `<-done`; under `s.mu` it gives back a permit handed to it meanwhile (`ready`
  closed) or leaves the queue.
A waiter whose `ready` and `done` are both closed may take either case of its `select`: both steps are enabled.
`step` is total and a step its party cannot take changes nothing, so `run init ops` ranges over every interleaving
of any number of `Lock` and `Unlock` calls and context ends.

Results:
- `notifyWaiters_spec`: `notifyWaiters` moves `cur` and the number of holders together and never past 1.
- `step_inv`, `run_inv`: `cur` is the number of Lock calls holding the permit, those that returned nil and those
  handed it that have not returned yet, less the `Unlock` calls made; `cur ≤ 1`; the queue lists the waiting calls.
- `handoff_window`: `Unlock` hands the permit to a waiter before the waiter's `Acquire` returns: the permit is
  held while as many Lock calls have returned nil as `Unlock` calls have, and one more `Unlock` does not panic.
- `held_count_exact`: the count above in every reachable state; an `Unlock` panics exactly when no Lock call
  holds a permit it has not given back; and while each `Unlock` is made by a holder, no `Unlock` panics and at most
  one Lock call that returned nil is not yet unlocked.
- `waiters_served_in_order`: first come, first served: the queue is in call order, it is empty whenever the permit
  is free, and every Lock call that holds the permit or returned nil came before every call still waiting.
-/

namespace Gobox.Mutex

/-! ## Model -/

/-- where a `Lock` call is -/
inductive Phase where
  /-- in `s.waiters`, at the `select` on `done` and `ready` -/
  | waiting
  /-- `notifyWaiters` closed its `ready` and counted its permit in `cur`; `Acquire` has not returned -/
  | granted
  /-- returned nil -/
  | acquired
  /-- returned `ctx.Err()` -/
  | failed (e : GoErr)
  /-- the `Release(1)` on its cancelled path panicked -/
  | panicked
deriving DecidableEq, Repr

/-- a `Lock(ctx)` call: its `ctx`, `none` while live, and its phase -/
structure Lock where
  ctx : Option CtxEnd
  phase : Phase
deriving DecidableEq, Repr

/-- the call holds the permit: `Acquire` returned nil, or `notifyWaiters` handed it over -/
def Lock.holds (l : Lock) : Bool :=
  match l.phase with
  | .granted | .acquired => true
  | _ => false

/-- the call waits in `s.waiters` -/
def Lock.waits (l : Lock) : Bool :=
  match l.phase with
  | .waiting => true
  | _ => false

/-- the call returned nil -/
def Lock.returnedNil (l : Lock) : Bool := l.phase == .acquired

structure St where
  /-- `s.cur`; `s.size` is 1 -/
  cur : Int
  /-- `s.waiters`, front first, by Lock call -/
  waiters : List Nat
  locks : List Lock
  /-- `Unlock` calls that returned, and that panicked -/
  unlocks : Nat
  unlockPanics : Nat
deriving DecidableEq, Repr

/-- `NewMutexWithContext()` -/
def init : St := ⟨0, [], [], 0, 0⟩

/-- Lock calls holding the permit -/
def St.holding (s : St) : Nat := s.locks.countP Lock.holds

/-- Lock calls that returned nil -/
def St.acquired (s : St) : Nat := s.locks.countP Lock.returnedNil

/-- `close(w.ready)`: Lock call `w` is handed the permit -/
def grant (w : Nat) (locks : List Lock) : List Lock :=
  match locks[w]? with
  | some l => locks.set w { l with phase := .granted }
  | none => locks

/-- `notifyWaiters` from `cur` and the queue: while `s.size-s.cur` covers the front waiter's one permit, count
it in `cur` and hand it over; returns `cur`, the Lock calls and the queue left -/
def notifyWaiters (cur : Int) (locks : List Lock) : List Nat → Int × List Lock × List Nat
  | [] => (cur, locks, [])
  | w :: ws => if 1 - cur < 1 then (cur, locks, w :: ws) else notifyWaiters (cur + 1) (grant w locks) ws

/-- `s.notifyWaiters()` -/
def St.notify (s : St) : St :=
  let r := notifyWaiters s.cur s.locks s.waiters
  { s with cur := r.1, locks := r.2.1, waiters := r.2.2 }

@[simp] theorem St.notify_unlocks (s : St) : s.notify.unlocks = s.unlocks := rfl
@[simp] theorem St.notify_unlockPanics (s : St) : s.notify.unlockPanics = s.unlockPanics := rfl

/-- `s.Release(1)`: `cur` drops; below zero it panics (`semaphore: released more than held`), else it calls
`notifyWaiters`; the flag says it panicked -/
def St.release (s : St) : St × Bool :=
  if s.cur - 1 < 0 then ({ s with cur := s.cur - 1 }, true) else ({ s with cur := s.cur - 1 }.notify, false)

inductive Op where
  /-- `m.Lock(ctx)` with `ctx` live (`none`) or already ended -/
  | lock (c : Option CtxEnd)
  /-- the `ctx` of Lock call `i` ends -/
  | cancel (i : Nat) (e : CtxEnd)
  /-- Lock call `i`'s `select` takes `<-ready` -/
  | wake (i : Nat)
  /-- Lock call `i`'s `select` takes `<-done` -/
  | abort (i : Nat)
  /-- `m.Unlock()` -/
  | unlock
deriving DecidableEq, Repr

def step (s : St) : Op → St
  | .lock (some e) => { s with locks := s.locks ++ [⟨some e, .failed e.err⟩] }
  | .lock none =>
    if 1 - s.cur ≥ 1 ∧ s.waiters = [] then { s with cur := s.cur + 1, locks := s.locks ++ [⟨none, .acquired⟩] }
    else { s with waiters := s.waiters ++ [s.locks.length], locks := s.locks ++ [⟨none, .waiting⟩] }
  | .cancel i e =>
    match s.locks[i]? with
    | some ⟨none, p⟩ => { s with locks := s.locks.set i ⟨some e, p⟩ }
    | _ => s
  | .wake i =>
    match s.locks[i]? with
    | some ⟨none, .granted⟩ => { s with locks := s.locks.set i ⟨none, .acquired⟩ }
    | some ⟨some e, .granted⟩ =>
      match { s with locks := s.locks.set i ⟨some e, .failed e.err⟩ }.release with
      | (s', false) => s'
      | (s', true) => { s' with locks := s'.locks.set i ⟨some e, .panicked⟩ }
    | _ => s
  | .abort i =>
    match s.locks[i]? with
    | some ⟨some e, .granted⟩ =>
      { s with cur := s.cur - 1, locks := s.locks.set i ⟨some e, .failed e.err⟩ }.notify
    | some ⟨some e, .waiting⟩ =>
      let s' := { s with waiters := s.waiters.erase i, locks := s.locks.set i ⟨some e, .failed e.err⟩ }
      if s.waiters.head? = some i ∧ 1 > s.cur then s'.notify else s'
    | _ => s
  | .unlock =>
    match s.release with
    | (s', false) => { s' with unlocks := s.unlocks + 1 }
    | (s', true) => { s' with unlockPanics := s.unlockPanics + 1 }

def run (s : St) (ops : List Op) : St := ops.foldl step s

@[simp] theorem run_nil (s : St) : run s [] = s := rfl
@[simp] theorem run_cons (s : St) (o : Op) (ops : List Op) : run s (o :: ops) = run (step s o) ops := rfl

/-! ## The queue -/

/-- `s.waiters` lists the waiting Lock calls, each once -/
structure Queue (ws : List Nat) (locks : List Lock) : Prop where
  mem : ∀ i, i ∈ ws ↔ ∃ l, locks[i]? = some l ∧ l.waits = true
  nodup : ws.Nodup

theorem Queue.set {ws : List Nat} {locks : List Lock} (h : Queue ws locks) {i : Nat} {l l' : Lock}
    (hl : locks[i]? = some l) (hw : l'.waits = l.waits) : Queue ws (locks.set i l') where
  mem j := by
    rw [h.mem, getElem?_set_of hl]
    split
    · subst j; simp [hl, hw]
    · rfl
  nodup := h.nodup

theorem Queue.erase {ws : List Nat} {locks : List Lock} (h : Queue ws locks) {i : Nat} {l l' : Lock}
    (hl : locks[i]? = some l) (hw : l'.waits = false) : Queue (ws.erase i) (locks.set i l') where
  mem j := by
    rw [h.nodup.mem_erase_iff, h.mem, getElem?_set_of hl]
    split
    · subst j; simp [hw]
    · simp [Ne.symm ‹_›]
  nodup := h.nodup.erase i

theorem Queue.append {ws : List Nat} {locks : List Lock} (h : Queue ws locks) {x : Lock} (hx : x.waits = false) :
    Queue ws (locks ++ [x]) where
  mem i := by
    rw [h.mem]
    rcases Nat.lt_or_ge i locks.length with hi | hi
    · rw [List.getElem?_append_left hi]
    · simp [List.getElem?_eq_none hi, List.getElem?_append_right hi, List.getElem?_cons, hx]
  nodup := h.nodup

theorem Queue.push {ws : List Nat} {locks : List Lock} (h : Queue ws locks) {x : Lock} (hx : x.waits = true) :
    Queue (ws ++ [locks.length]) (locks ++ [x]) where
  mem i := by
    rw [List.mem_append, h.mem, List.mem_singleton]
    rcases Nat.lt_trichotomy i locks.length with hi | rfl | hi
    · simp [List.getElem?_append_left hi, hi.ne]
    · simp [hx]
    · simp [List.getElem?_eq_none hi.le, List.getElem?_append_right hi.le, hi.ne', List.getElem?_cons,
        Nat.sub_ne_zero_of_lt hi]
  nodup := h.nodup.append (List.nodup_singleton _) fun i hi hj => by
    obtain ⟨l, hl, -⟩ := (h.mem i).1 hi
    simp [List.mem_singleton.1 hj] at hl

/-! ## `notifyWaiters` -/

theorem grant_getElem? {locks : List Lock} {w : Nat} {l : Lock} (hl : locks[w]? = some l) (i : Nat) :
    (grant w locks)[i]? = if w = i then some { l with phase := .granted } else locks[i]? := by
  simp [grant, hl, getElem?_set_of hl]

theorem Queue.grant {w : Nat} {ws : List Nat} {locks : List Lock} (h : Queue (w :: ws) locks) {l : Lock}
    (hl : locks[w]? = some l) : Queue ws (grant w locks) where
  mem i := by
    rw [grant_getElem? hl]
    split
    · subst i; simp [Lock.waits, (List.nodup_cons.1 h.nodup).1]
    · rw [← h.mem]; simp [Ne.symm ‹_›]
  nodup := (List.nodup_cons.1 h.nodup).2

/-- handing the permit to a waiter adds a holder and no call that returned nil -/
theorem grant_counts {locks : List Lock} {w : Nat} {l : Lock} (hl : locks[w]? = some l) (hw : l.waits = true) :
    (grant w locks).countP Lock.holds = locks.countP Lock.holds + 1 ∧
      (grant w locks).countP Lock.returnedNil = locks.countP Lock.returnedNil := by
  obtain ⟨c, p⟩ := l
  cases p <;> simp only [Lock.waits, Bool.false_eq_true] at hw
  have h1 := countP_set_of hl { phase := .granted, ctx := c } Lock.holds
  have h2 := countP_set_of hl { phase := .granted, ctx := c } Lock.returnedNil
  simp only [grant, hl]
  simp [Lock.holds, Lock.returnedNil] at h1 h2
  exact ⟨h1, h2⟩

/-- **`notifyWaiters` hands over permits one for one.** From a well-formed queue it leaves a well-formed queue,
moves `cur` and the number of holders by the same amount, never raises `cur` past 1, and turns no call into one
that returned nil. -/
theorem notifyWaiters_spec : ∀ (cur : Int) (locks : List Lock) (ws : List Nat), Queue ws locks →
    Queue (notifyWaiters cur locks ws).2.2 (notifyWaiters cur locks ws).2.1 ∧
      (notifyWaiters cur locks ws).1 - (notifyWaiters cur locks ws).2.1.countP Lock.holds =
        cur - locks.countP Lock.holds ∧
      (cur ≤ 1 → (notifyWaiters cur locks ws).1 ≤ 1) ∧
      (notifyWaiters cur locks ws).2.1.countP Lock.returnedNil = locks.countP Lock.returnedNil
  | cur, locks, [], h => ⟨h, rfl, id, rfl⟩
  | cur, locks, w :: ws, h => by
    simp only [notifyWaiters]
    split
    · exact ⟨h, rfl, id, rfl⟩
    · obtain ⟨l, hl, hw⟩ := (h.mem w).1 (List.mem_cons_self _ _)
      obtain ⟨q, e, le, a⟩ := notifyWaiters_spec (cur + 1) (grant w locks) ws (h.grant hl)
      obtain ⟨g1, g2⟩ := grant_counts hl hw
      exact ⟨q, by rw [e, g1]; push_cast; omega, fun _ => le (by omega), a.trans g2⟩

/-! ## Invariant -/

structure Inv (s : St) : Prop where
  /-- `cur` counts the holders less the `Unlock` calls made -/
  held : s.cur + s.unlocks + s.unlockPanics = s.holding
  le : s.cur ≤ 1
  queue : Queue s.waiters s.locks

theorem inv_init : Inv init := ⟨rfl, by decide, ⟨by simp [init], List.nodup_nil⟩⟩

theorem Inv.notify {s : St} (h : Inv s) : Inv s.notify := by
  obtain ⟨q, e, le, -⟩ := notifyWaiters_spec s.cur s.locks s.waiters h.queue
  exact ⟨by have := h.held; simp only [St.notify, St.holding] at *; omega, le h.le, q⟩

/-- the permit of Lock call `i`, a holder, is given back: `cur` and the holders drop together -/
theorem Inv.giveBack {s : St} (h : Inv s) {i : Nat} {l : Lock} (hl : s.locks[i]? = some l) (l' : Lock)
    (hh : l.holds = true) (hh' : l'.holds = false) (hw : l'.waits = l.waits) :
    Inv { s with cur := s.cur - 1, locks := s.locks.set i l' } where
  held := by
    have := countP_set_of hl l' Lock.holds
    have := h.held
    simp only [St.holding, hh, hh', ite_true, Bool.false_eq_true, ite_false] at *
    omega
  le := by have := h.le; dsimp only; omega
  queue := h.queue.set hl hw

/-- Lock call `i` moves to a phase that holds the permit and waits exactly when its old one did -/
theorem Inv.keep {s : St} (h : Inv s) {i : Nat} {l l' : Lock} (hl : s.locks[i]? = some l)
    (hh : l'.holds = l.holds) (hw : l'.waits = l.waits) : Inv { s with locks := s.locks.set i l' } :=
  ⟨by simp only [St.holding, countP_set_eq hl hh]; exact h.held, h.le, h.queue.set hl hw⟩

theorem step_inv {s : St} (h : Inv s) (o : Op) : Inv (step s o) := by
  cases o with
  | lock c =>
    have := h.held
    rcases c with _ | e
    · simp only [step]
      split
      · refine ⟨?_, by dsimp only; omega, h.queue.append rfl⟩
        simp [St.holding, Lock.holds] at *; omega
      · refine ⟨?_, h.le, h.queue.push rfl⟩
        simp [St.holding, Lock.holds] at *; omega
    · refine ⟨?_, h.le, h.queue.append rfl⟩
      simp [step, St.holding, Lock.holds] at *; omega
  | cancel i e =>
    simp only [step]
    split
    · rename_i p hl; exact h.keep hl rfl rfl
    · exact h
  | wake i =>
    simp only [step]
    split
    · rename_i hl; exact h.keep hl rfl rfl
    · rename_i e hl
      by_cases hc : s.cur - 1 < 0
      · simp only [St.release, hc, ite_true, List.set_set]
        exact h.giveBack hl ⟨some e, .panicked⟩ rfl rfl rfl
      · simp only [St.release, hc, ite_false]
        exact (h.giveBack hl ⟨some e, .failed e.err⟩ rfl rfl rfl).notify
    · exact h
  | abort i =>
    simp only [step]
    split
    · rename_i e hl
      exact (h.giveBack hl ⟨some e, .failed e.err⟩ rfl rfl rfl).notify
    · rename_i e hl
      have hs : Inv { s with waiters := s.waiters.erase i, locks := s.locks.set i ⟨some e, .failed e.err⟩ } :=
        ⟨by simp only [St.holding, countP_set_eq hl (show Lock.holds ⟨some e, .failed e.err⟩ = _ from rfl)]
            exact h.held, h.le, h.queue.erase hl rfl⟩
      split
      · exact hs.notify
      · exact hs
    · exact h
  | unlock =>
    have := h.held
    by_cases hc : s.cur - 1 < 0
    · simp only [step, St.release, hc, ite_true]
      exact ⟨by simp only [St.holding] at *; push_cast; omega, by dsimp only; omega, h.queue⟩
    · simp only [step, St.release, hc, ite_false]
      have hs : Inv { s with cur := s.cur - 1, unlocks := s.unlocks + 1 } :=
        ⟨by simp only [St.holding] at *; push_cast; omega, by have := h.le; dsimp only; omega, h.queue⟩
      exact hs.notify

theorem run_inv {s : St} (h : Inv s) (ops : List Op) : Inv (run s ops) := by
  induction ops generalizing s with
  | nil => exact h
  | cons o ops ih => exact ih (step_inv h o)

/-! ## Lock calls that returned nil -/

theorem acquired_le_holding (s : St) : s.acquired ≤ s.holding :=
  List.countP_mono_left fun ⟨c, p⟩ _ h => by cases p <;> simp_all [Lock.returnedNil, Lock.holds]

theorem le_acquired_notify {s : St} {n : Nat} (h : Queue s.waiters s.locks) (hn : n ≤ s.acquired) :
    n ≤ s.notify.acquired := by
  have := (notifyWaiters_spec s.cur s.locks s.waiters h).2.2.2
  simp only [St.acquired, St.notify] at *
  omega

theorem acquired_le_set {locks : List Lock} {i : Nat} {l : Lock} (hl : locks[i]? = some l) (l' : Lock)
    (h : l.returnedNil = true → l'.returnedNil = true) :
    locks.countP Lock.returnedNil ≤ (locks.set i l').countP Lock.returnedNil := by
  have := countP_set_of hl l' Lock.returnedNil
  cases h0 : l.returnedNil <;> cases h1 : l'.returnedNil <;> simp_all

/-- no step takes a nil return back -/
theorem acquired_step {s : St} (h : Inv s) (o : Op) : s.acquired ≤ (step s o).acquired := by
  cases o with
  | lock c =>
    rcases c with _ | e
    · simp only [step]; split <;> simp [St.acquired]
    · simp [step, St.acquired]
  | cancel i e =>
    simp only [step]
    split
    · rename_i hl; exact acquired_le_set hl _ id
    · exact le_rfl
  | wake i =>
    simp only [step]
    split
    · rename_i hl; exact acquired_le_set hl _ fun _ => rfl
    · rename_i e hl
      by_cases hc : s.cur - 1 < 0
      · simp only [St.release, hc, ite_true, List.set_set]
        exact acquired_le_set hl _ (by simp [Lock.returnedNil])
      · simp only [St.release, hc, ite_false]
        exact le_acquired_notify (h.queue.set hl rfl) (acquired_le_set hl _ (by simp [Lock.returnedNil]))
    · exact le_rfl
  | abort i =>
    simp only [step]
    split
    · rename_i e hl
      exact le_acquired_notify (h.queue.set hl rfl) (acquired_le_set hl _ (by simp [Lock.returnedNil]))
    · rename_i e hl
      have := acquired_le_set hl ⟨some e, .failed e.err⟩ (by simp [Lock.returnedNil])
      split
      · exact le_acquired_notify (h.queue.erase hl rfl) this
      · exact this
    · exact le_rfl
  | unlock =>
    by_cases hc : s.cur - 1 < 0
    · simp only [step, St.release, hc, ite_true]; exact le_rfl
    · simp only [step, St.release, hc, ite_false]; exact le_acquired_notify h.queue le_rfl

/-- only `Unlock` counts `Unlock` calls -/
theorem step_unlocks {s : St} {o : Op} (ho : o ≠ .unlock) :
    (step s o).unlocks = s.unlocks ∧ (step s o).unlockPanics = s.unlockPanics := by
  cases o with
  | unlock => exact absurd rfl ho
  | lock c => rcases c with _ | e <;> simp only [step] <;> (try split) <;> simp
  | cancel i e => simp only [step]; split <;> simp
  | wake i =>
    simp only [step]
    split
    · simp
    · by_cases hc : s.cur - 1 < 0 <;> simp [St.release, hc]
    · simp
  | abort i => simp only [step]; split <;> (try split) <;> simp

/-! ## The held count -/

/-- one Lock call holds the mutex and a second waits; `Unlock` hands the permit to the waiter, whose `Acquire` has
not returned yet: the permit is held although one Lock call has returned nil and one `Unlock` has been made, and
one more `Unlock` does not panic -/
theorem handoff_window :
    (run init [.lock none, .lock none, .unlock]).cur = 1 ∧
      (run init [.lock none, .lock none, .unlock]).acquired = 1 ∧
      (run init [.lock none, .lock none, .unlock]).unlocks = 1 ∧
      (run init [.lock none, .lock none, .unlock, .unlock]).unlockPanics = 0 := by decide

/-- the contract of a mutex: each `Unlock` is made by a holder, while more Lock calls have returned nil than
`Unlock` calls have been made -/
def paired : St → List Op → Bool
  | _, [] => true
  | s, o :: ops => (o != .unlock || decide (s.unlocks + s.unlockPanics < s.acquired)) && paired (step s o) ops

theorem paired_run : ∀ (s : St) (ops : List Op), Inv s → s.unlockPanics = 0 → s.unlocks ≤ s.acquired →
    paired s ops = true → (run s ops).unlockPanics = 0 ∧ (run s ops).unlocks ≤ (run s ops).acquired
  | _, [], _, h0, h1, _ => ⟨h0, h1⟩
  | s, o :: ops, h, h0, h1, hp => by
    simp only [paired, Bool.and_eq_true, Bool.or_eq_true, bne_iff_ne, ne_eq, decide_eq_true_eq] at hp
    refine paired_run _ ops (step_inv h o) ?_ ?_ hp.2
    all_goals by_cases ho : o = .unlock
    · subst ho
      have hc : ¬ s.cur - 1 < 0 := by
        have := hp.1.resolve_left (not_not.2 rfl); have := h.held; have := acquired_le_holding s; omega
      simpa [step, St.release, hc] using h0
    · simpa [(step_unlocks ho).2] using h0
    · subst ho
      have hu := hp.1.resolve_left (not_not.2 rfl)
      have hc : ¬ s.cur - 1 < 0 := by have := h.held; have := acquired_le_holding s; omega
      simp only [step, St.release, hc, ite_false]
      exact le_acquired_notify h.queue (show s.unlocks + 1 ≤ s.acquired by omega)
    · rw [(step_unlocks ho).1]; exact h1.trans (acquired_step h o)

/-- **The held count.** In every state reached by any interleaving of `Lock` calls, each `ctx` ending at any point
(also while its permit is being handed over), and `Unlock` calls: `cur` is the number of Lock calls holding the
permit, those that returned nil and those handed it whose `Acquire` has not returned, less the `Unlock` calls made,
so a Lock call that returned an error holds nothing; `cur ≤ 1`; the next `Unlock` panics exactly when the holders
are no more than the `Unlock` calls made; and while each `Unlock` is made by a holder, no `Unlock` panics, `cur` is
0 or 1, and at most one Lock call that returned nil is not yet unlocked. -/
theorem held_count_exact (ops : List Op) :
    let s := run init ops
    s.cur + s.unlocks + s.unlockPanics = s.holding ∧ s.cur ≤ 1 ∧
      ((step s .unlock).unlockPanics = s.unlockPanics + 1 ↔ s.holding ≤ s.unlocks + s.unlockPanics) ∧
      (paired init ops = true →
        s.unlockPanics = 0 ∧ 0 ≤ s.cur ∧ s.unlocks ≤ s.acquired ∧ s.acquired ≤ s.unlocks + 1) := by
  intro s
  have h : Inv s := run_inv inv_init ops
  have hpaired : paired init ops = true → s.unlockPanics = 0 ∧ s.unlocks ≤ s.acquired :=
    paired_run init ops inv_init rfl le_rfl
  clear_value s
  have := h.held
  refine ⟨h.held, h.le, ?_, fun hp => ?_⟩
  · by_cases hc : s.cur - 1 < 0
    · simp only [step, St.release, hc, ite_true, true_iff]; omega
    · simp only [step, St.release, hc, ite_false, St.notify_unlockPanics]; omega
  · have := hpaired hp
    have := acquired_le_holding s
    have := h.le
    omega

/-- one Lock call returns nil and is unlocked, then a second: each `Unlock` is made by a holder -/
theorem held_count_exact_paired :
    paired init [.lock none, .unlock, .lock none, .unlock] = true ∧
      (run init [.lock none, .unlock, .lock none, .unlock]).unlockPanics = 0 :=
  ⟨by decide, ((held_count_exact _).2.2.2 (by decide)).1⟩

/-! ## First come, first served -/

/-- the queue is in call order, and every Lock call that holds the permit or returned nil came before every call
still waiting -/
structure Fifo (ws : List Nat) (locks : List Lock) : Prop where
  sorted : ws.Sorted (· < ·)
  before : ∀ i l, locks[i]? = some l → l.holds = true → ∀ j ∈ ws, i < j

theorem Fifo.nil (locks : List Lock) : Fifo [] locks :=
  ⟨List.sorted_nil, fun _ _ _ _ _ hj => absurd hj (List.not_mem_nil _)⟩

/-- Lock call `i` moves to a phase that holds the permit only if its old one did -/
theorem Fifo.set {ws : List Nat} {locks : List Lock} (h : Fifo ws locks) {i : Nat} {l l' : Lock}
    (hl : locks[i]? = some l) (hh : l'.holds = true → l.holds = true) : Fifo ws (locks.set i l') where
  sorted := h.sorted
  before j m hj hm k hk := by
    rw [getElem?_set_of hl] at hj
    split at hj
    · subst j; cases hj; exact h.before _ l hl (hh hm) k hk
    · exact h.before j m hj hm k hk

/-- Lock call `i` leaves the queue without the permit -/
theorem Fifo.erase {ws : List Nat} {locks : List Lock} (h : Fifo ws locks) {i : Nat} {l l' : Lock}
    (hl : locks[i]? = some l) (hh : l'.holds = false) : Fifo (ws.erase i) (locks.set i l') where
  sorted := h.sorted.sublist (List.erase_sublist _ _)
  before j m hj hm k hk := (h.set hl (by simp [hh])).before j m hj hm k (List.mem_of_mem_erase hk)

/-- a new Lock call that does not hold the permit -/
theorem Fifo.append {ws : List Nat} {locks : List Lock} (h : Fifo ws locks) {x : Lock} (hx : x.holds = false) :
    Fifo ws (locks ++ [x]) where
  sorted := h.sorted
  before i l hi hl := by
    rcases getElem?_append_singleton hi with hi | ⟨-, rfl⟩
    · exact h.before i l hi hl
    · simp [hx] at hl

/-- a new Lock call joins the back of the queue -/
theorem Fifo.push {ws : List Nat} {locks : List Lock} (hq : Queue ws locks) (h : Fifo ws locks) {x : Lock}
    (hx : x.holds = false) : Fifo (ws ++ [locks.length]) (locks ++ [x]) where
  sorted := List.pairwise_append.2 ⟨h.sorted, List.pairwise_singleton _ _, fun j hj k hk => by
    obtain ⟨l, hl, -⟩ := (hq.mem j).1 hj
    rw [List.mem_singleton.1 hk]
    exact (List.getElem?_eq_some_iff.1 hl).1⟩
  before i l hi hl k hk := by
    rcases getElem?_append_singleton hi with hi | ⟨-, rfl⟩
    · rcases List.mem_append.1 hk with hk | hk
      · exact h.before i l hi hl k hk
      · rw [List.mem_singleton.1 hk]; exact (List.getElem?_eq_some_iff.1 hi).1
    · simp [hx] at hl

/-- `notifyWaiters` hands the permit to the front of the queue, in order, and stops with the queue empty or the
permit taken -/
theorem notifyWaiters_fifo : ∀ (cur : Int) (locks : List Lock) (ws : List Nat), Queue ws locks → Fifo ws locks →
    Fifo (notifyWaiters cur locks ws).2.2 (notifyWaiters cur locks ws).2.1 ∧
      ((notifyWaiters cur locks ws).2.2 = [] ∨ 1 ≤ (notifyWaiters cur locks ws).1)
  | _, _, [], _, h => ⟨h, .inl rfl⟩
  | cur, locks, w :: ws, hq, h => by
    simp only [notifyWaiters]
    split
    · exact ⟨h, .inr (by omega)⟩
    · obtain ⟨l, hl, -⟩ := (hq.mem w).1 (List.mem_cons_self _ _)
      refine notifyWaiters_fifo _ _ ws (hq.grant hl) ⟨(List.sorted_cons.1 h.sorted).2, fun i l' hi hh j hj => ?_⟩
      rw [grant_getElem? hl] at hi
      split at hi
      · subst i; exact List.rel_of_sorted_cons h.sorted j hj
      · exact h.before i l' hi hh j (List.mem_cons_of_mem w hj)

/-- the semaphore serves its queue in call order and never leaves it waiting while the permit is free -/
structure Fair (s : St) : Prop where
  fifo : Fifo s.waiters s.locks
  busy : s.waiters = [] ∨ 1 ≤ s.cur

theorem fair_init : Fair init := ⟨Fifo.nil [], .inl rfl⟩

theorem Fair.notify {s : St} (hq : Queue s.waiters s.locks) (h : Fifo s.waiters s.locks) : Fair s.notify :=
  ⟨(notifyWaiters_fifo s.cur s.locks s.waiters hq h).1, (notifyWaiters_fifo s.cur s.locks s.waiters hq h).2⟩

/-- while the permit is free, no Lock call waits -/
theorem Fair.idle {s : St} (hf : Fair s) (hc : s.cur < 1) : s.waiters = [] := by
  rcases hf.busy with hw | hw
  · exact hw
  · omega

theorem step_fair {s : St} (h : Inv s) (hf : Fair s) (o : Op) : Fair (step s o) := by
  cases o with
  | lock c =>
    rcases c with _ | e
    · simp only [step]
      split
      · rename_i hc
        exact ⟨hc.2 ▸ Fifo.nil _, .inl hc.2⟩
      · rename_i hc
        refine ⟨hf.fifo.push h.queue rfl, .inr (show 1 ≤ s.cur from ?_)⟩
        rcases hf.busy with hw | hw
        · by_contra hlt; exact hc ⟨by omega, hw⟩
        · exact hw
    · exact ⟨hf.fifo.append rfl, hf.busy⟩
  | cancel i e =>
    simp only [step]
    split
    · rename_i p hl; exact ⟨hf.fifo.set hl id, hf.busy⟩
    · exact hf
  | wake i =>
    simp only [step]
    split
    · rename_i hl; exact ⟨hf.fifo.set hl fun _ => rfl, hf.busy⟩
    · rename_i e hl
      by_cases hc : s.cur - 1 < 0
      · simp only [St.release, hc, ite_true, List.set_set]
        exact ⟨hf.fifo.set hl (fun h => by cases h), .inl (hf.idle (by omega))⟩
      · simp only [St.release, hc, ite_false]
        exact Fair.notify (h.queue.set hl rfl) (hf.fifo.set hl fun h => by cases h)
    · exact hf
  | abort i =>
    simp only [step]
    split
    · rename_i e hl
      exact Fair.notify (h.queue.set hl rfl) (hf.fifo.set hl fun h => by cases h)
    · rename_i e hl
      split
      · exact Fair.notify (h.queue.erase hl rfl) (hf.fifo.erase hl rfl)
      · rename_i hc
        refine ⟨hf.fifo.erase hl rfl, ?_⟩
        rcases hf.busy with hw | hw
        · exact .inl (by simp [hw])
        · exact .inr hw
    · exact hf
  | unlock =>
    by_cases hc : s.cur - 1 < 0
    · simp only [step, St.release, hc, ite_true]
      exact ⟨hf.fifo, .inl (hf.idle (by omega))⟩
    · simp only [step, St.release, hc, ite_false]
      have := Fair.notify (s := { s with cur := s.cur - 1 }) h.queue hf.fifo
      exact ⟨this.fifo, this.busy⟩

theorem run_fair {s : St} (h : Inv s) (hf : Fair s) (ops : List Op) : Fair (run s ops) := by
  induction ops generalizing s with
  | nil => exact hf
  | cons o ops ih => exact ih (step_inv h o) (step_fair h hf o)

/-- **The mutex serves Lock calls first come, first served.** In every reachable state the queue is in call
order, it is empty whenever the permit is free, and every Lock call that holds the permit or returned nil came
before every Lock call still waiting: no later call overtakes a waiting one, on the fast path or by a hand-over. -/
theorem waiters_served_in_order (ops : List Op) :
    let s := run init ops
    s.waiters.Sorted (· < ·) ∧ (s.waiters ≠ [] → s.cur = 1) ∧
      ∀ (i j : Nat) (li lj : Lock), s.locks[i]? = some li → s.locks[j]? = some lj → li.holds = true →
        lj.waits = true → i < j := by
  intro s
  have h : Inv s := run_inv inv_init ops
  have hf : Fair s := run_fair inv_init fair_init ops
  refine ⟨hf.fifo.sorted, fun hw => ?_, fun i j li lj hi hj hh hw => ?_⟩
  · have := h.le; have := hf.busy.resolve_left hw; omega
  · exact hf.fifo.before i li hi hh j ((h.queue.mem j).2 ⟨lj, hj, hw⟩)

end Gobox.Mutex
