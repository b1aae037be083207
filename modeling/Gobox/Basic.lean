import Mathlib.Data.List.Basic

/-!
Shared vocabulary of the model of `pkg/async` and `pkg/serviceactivities/cronjob`.

- `GoErr`: Go `error` values as the engine tells them apart: the two context errors, errors made by
  `errors.New` (told apart by a number) and errors wrapped with `%w`. `errorsIs` is `errors.Is`.
- `CtxEnd`: why a `context.Context` ended; `CtxEnd.err` is what `ctx.Err()` returns after that.
- `Closer`, `runClose`: `async.RunClose`, the type switch over the close method a runner offers.
- `countP_set`: counting after one entry of a list is replaced. Every model below keeps one entry per goroutine
  in a list, and every counting invariant (a `WaitGroup` counter, a held permit) goes through this lemma.
-/

namespace Gobox

/-! ## Errors and contexts -/

/-- a Go `error`: `context.Canceled`, `context.DeadlineExceeded`, one made by `errors.New` (told apart by a
number), or one wrapped with `%w` -/
inductive GoErr where
  | canceled
  | deadlineExceeded
  | new (id : Nat)
  | wrap (id : Nat) (inner : GoErr)
deriving DecidableEq, Repr

/-- `errors.Is(err, target)`: `err` or an error in its wrap chain is `target` -/
def errorsIs : GoErr → GoErr → Bool
  | .wrap id inner, target => GoErr.wrap id inner == target || errorsIs inner target
  | e, target => e == target

/-- why a `context.Context` ended -/
inductive CtxEnd where
  | cancel
  | deadline
deriving DecidableEq, Repr

/-- `ctx.Err()` once `ctx.Done()` is closed -/
def CtxEnd.err : CtxEnd → GoErr
  | .cancel => .canceled
  | .deadline => .deadlineExceeded

/-! ## Runners and `RunClose` -/

/-- the close method `RunClose`'s type switch finds on a runner: `async.Closer` (`Close(ctx)`), `io.Closer`
(`Close()`), or neither -/
inductive Closer where
  | closer
  | ioCloser
  | neither
deriving DecidableEq, Repr

/-- `async.RunClose(ctx, r)`: `res` is what the close method it finds returns; nil when there is none -/
def runClose : Closer → Option GoErr → Option GoErr
  | .neither, _ => none
  | _, res => res

/-! ## Lists of goroutines -/

/-- replacing entry `i` moves a count by the difference of the old and the new entry -/
theorem countP_set {α : Type} (p : α → Bool) :
    ∀ (l : List α) (i : Nat) (a : α) (h : i < l.length),
      (l.set i a).countP p + (if p l[i] then 1 else 0) = l.countP p + (if p a then 1 else 0)
  | [], _, _, h => absurd h (Nat.not_lt_zero _)
  | b :: l, 0, a, _ => by simp only [List.set_cons_zero, List.countP_cons, List.getElem_cons_zero]; omega
  | b :: l, i + 1, a, h => by
    have ih := countP_set p l i a (by simpa using h)
    simp only [List.set_cons_succ, List.countP_cons, List.getElem_cons_succ]
    omega

theorem countP_set_of {α : Type} {l : List α} {i : Nat} {a : α} (h : l[i]? = some a) (b : α) (p : α → Bool) :
    (l.set i b).countP p + (if p a then 1 else 0) = l.countP p + if p b then 1 else 0 := by
  obtain ⟨hi, rfl⟩ := List.getElem?_eq_some_iff.1 h
  exact countP_set p l i b hi

/-- replacing an entry by one the predicate treats alike keeps the count -/
theorem countP_set_eq {α : Type} {l : List α} {i : Nat} {a b : α} (h : l[i]? = some a) {p : α → Bool}
    (hp : p b = p a) : (l.set i b).countP p = l.countP p := by
  have := countP_set_of h b p
  rw [hp] at this
  omega

theorem getElem?_set_of {α : Type} {l : List α} {i j : Nat} {a b : α} (h : l[i]? = some a) :
    (l.set i b)[j]? = if i = j then some b else l[j]? := by
  have hi : i < l.length := (List.getElem?_eq_some_iff.1 h).1
  rw [List.getElem?_set]; split <;> simp_all

theorem getElem?_set_self {α : Type} {l : List α} {i : Nat} {a b : α} (h : l[i]? = some a) :
    (l.set i b)[i]? = some b := by
  simp [getElem?_set_of h]

/-- an entry of a list with one element appended is an old entry or the new one -/
theorem getElem?_append_singleton {α : Type} {l : List α} {a b : α} {j : Nat} (h : (l ++ [a])[j]? = some b) :
    l[j]? = some b ∨ j = l.length ∧ b = a := by
  rcases Nat.lt_or_ge j l.length with hlt | hge
  · exact .inl (by rwa [List.getElem?_append_left hlt] at h)
  · rw [List.getElem?_append_right hge] at h
    cases hk : j - l.length with
    | zero => simp only [hk, List.getElem?_cons_zero, Option.some.injEq] at h; exact .inr ⟨by omega, h.symm⟩
    | succ n => simp [hk] at h

/-- a property of every entry survives replacing one entry by one that has it -/
theorem forall_mem_set {α : Type} {P : α → Prop} {l : List α} (h : ∀ x ∈ l, P x) (i : Nat) {b : α} (hb : P b) :
    ∀ x ∈ l.set i b, P x :=
  fun x hx => (List.mem_or_eq_of_mem_set hx).elim (h x) fun e => e ▸ hb

/-- after entry `i`, which `Q` rejects, is replaced, `Q` holds of an entry exactly when it held of one before or
holds of the new entry -/
theorem exists_mem_set {α : Type} {l : List α} {i : Nat} {a : α} (h : l[i]? = some a) (b : α) (Q : α → Prop)
    (hQ : ¬ Q a) : (∃ x ∈ l.set i b, Q x) ↔ (∃ x ∈ l, Q x) ∨ Q b := by
  constructor
  · rintro ⟨x, hx, hq⟩
    rcases List.mem_or_eq_of_mem_set hx with hx | rfl
    · exact .inl ⟨x, hx, hq⟩
    · exact .inr hq
  · rintro (⟨x, hx, hq⟩ | hq)
    · obtain ⟨j, hj⟩ := List.mem_iff_getElem?.1 hx
      have hij : i ≠ j := by rintro rfl; exact hQ (Option.some.inj (h.symm.trans hj) ▸ hq)
      exact ⟨x, List.mem_iff_getElem?.2 ⟨j, by rw [getElem?_set_of h, if_neg hij]; exact hj⟩, hq⟩
    · exact ⟨b, List.mem_iff_getElem?.2 ⟨i, getElem?_set_self h⟩, hq⟩

/-- replacing an entry by one the predicate rejects does not raise the count -/
theorem countP_set_le {α : Type} (p : α → Bool) {a : α} (ha : p a = false) :
    ∀ (l : List α) (i : Nat), (l.set i a).countP p ≤ l.countP p
  | [], _ => by simp
  | b :: l, 0 => by simp [List.countP_cons, ha]
  | b :: l, i + 1 => by have := countP_set_le p ha l i; simp only [List.set_cons_succ, List.countP_cons]; omega


/-- a lookup in a Go map held as a list of entries keyed by strings -/
@[simp] theorem lookup_cons_string {β : Type} (key k : String) (b : β) (m : List (String × β)) :
    ((k, b) :: m).lookup key = if key = k then some b else m.lookup key := by
  simp only [List.lookup_cons]
  cases hb : key == k
  · simp [beq_eq_false_iff_ne.1 hb]
  · simp [beq_iff_eq.1 hb]

end Gobox
