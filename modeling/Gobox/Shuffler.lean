import Gobox.Basic

/-!
`shuffler.Run` (`pkg/shuffler`): the `Test*` methods of the suites, put in a random order by `shuffleTests`
with `math/rand`'s `Shuffle`, modelled from its source, and run one after another by `runTests`.

`r.Shuffle(n, swap)` is the Fisher-Yates shuffle: for `i` from `n-1` down to 1 it draws `j := r.int31n(i+1)`, in
`[0, i]`, and calls `swap(i, j)`. Each `i` draws once, so the draws of one seed are a function `draw` of `i`.
The model takes `draw` as a parameter: which functions the `int64` seeds of `rand.NewSource` give is not modelled,
so every result below holds for every `draw`, and thus for the draws of every seed, and none says which orders a
seed can produce. A test is its name and whether its `F` fails when `t.Run` runs it; a failing subtest marks its
parent `t` failed for good.

Results:
- `shuffleTests_perm`: whatever the draws, `shuffleTests` returns a permutation of the tests.
- `run_runs_each_test_once`: `Run` runs the `Test*` methods of the suites, each once, in the shuffled order.
- `runTests_flush_iff`: after each test, `runTests` flushes the debug logs exactly when `t` has failed by then,
  this test or an earlier one, and purges them exactly when it has not.
-/

namespace Gobox.Shuffler

/-! ## Model -/

/-- `tests[i], tests[j] = tests[j], tests[i]` -/
def swap {α : Type} (tests : List α) (i j : Nat) : List α :=
  match tests[i]?, tests[j]? with
  | some a, some b => (tests.set i b).set j a
  | _, _ => tests

/-- the loop of `r.Shuffle(len(tests), swap)`, from `i` down to 1 -/
def shuffleLoop {α : Type} (draw : Nat → Nat) : Nat → List α → List α
  | 0, tests => tests
  | i + 1, tests => shuffleLoop draw i (swap tests (i + 1) (draw (i + 1)))

/-- `shuffleTests(tests, t)`, with the draws of its seed, given as any function of `i` -/
def shuffleTests {α : Type} (draw : Nat → Nat) (tests : List α) : List α :=
  shuffleLoop draw (tests.length - 1) tests

/-- a `testing.InternalTest`: its `Name`, and whether its `F` fails when run -/
structure Test where
  name : String
  fails : Bool
deriving DecidableEq, Repr

/-- `resolveTests(suite)`: the suite's methods whose name matches `^Test`, in the order `reflect` lists them -/
def resolveTests (suite : List Test) : List Test :=
  suite.filter fun m => m.name.startsWith "Test"

/-- what `runTests` does, in order -/
inductive Out where
  /-- `t.Log("No tests for this suite")` -/
  | noTests
  /-- `t.Run(test.Name, test.F)` -/
  | run (name : String)
  /-- `log.Flush(context.TODO())` -/
  | flush
  /-- `log.Purge(context.TODO())` -/
  | purge
deriving DecidableEq, Repr

/-- the `for` loop of `runTests`; `failed` is `t.Failed()` -/
def runLoop : Bool → List Test → List Out
  | _, [] => []
  | failed, test :: rest =>
    .run test.name :: (if failed || test.fails then .flush else .purge) :: runLoop (failed || test.fails) rest

/-- `runTests(t, tests)`, `t.Failed()` being `failed` at the start -/
def runTests (failed : Bool) (tests : List Test) : List Out :=
  if tests.length = 0 then [.noTests] else runLoop failed tests

/-- `Run(t, suites...)`, with the draws of the seed -/
def run (draw : Nat → Nat) (failed : Bool) (suites : List (List Test)) : List Out :=
  runTests failed (shuffleTests draw (suites.flatMap resolveTests))

/-- the test an `Out` runs -/
def Out.test? : Out → Option String
  | .run name => some name
  | _ => none

/-! ## A shuffle is a permutation -/

@[simp] theorem swap_length {α : Type} (tests : List α) (i j : Nat) : (swap tests i j).length = tests.length := by
  unfold swap; split <;> simp

theorem swap_perm {α : Type} (tests : List α) (i j : Nat) : (swap tests i j).Perm tests := by
  classical
  unfold swap
  split
  · rename_i a b ha hb
    obtain ⟨hi, rfl⟩ := List.getElem?_eq_some_iff.1 ha
    obtain ⟨hj, rfl⟩ := List.getElem?_eq_some_iff.1 hb
    have hj' : (tests.set i tests[j]).get ⟨j, by simpa using hj⟩ = tests[j] := by
      simp only [List.get_eq_getElem, List.getElem_set]; split <;> simp_all
    refine List.perm_iff_count.2 fun x => ?_
    have hx := List.count_set tests[i] x (tests.set i tests[j]) j (by simpa using hj)
    have hy := List.count_set tests[j] x tests i hi
    have hc : (if tests[i] == x then 1 else 0) ≤ tests.count x := by
      split
      · rename_i h; exact List.count_pos_iff.2 (beq_iff_eq.1 h ▸ List.getElem_mem hi)
      · exact Nat.zero_le _
    simp only [List.get_eq_getElem] at hj'
    rw [hj'] at hx
    omega
  · rfl

theorem shuffleLoop_perm {α : Type} (draw : Nat → Nat) : ∀ (i : Nat) (tests : List α),
    (shuffleLoop draw i tests).Perm tests
  | 0, _ => List.Perm.refl _
  | i + 1, _ => (shuffleLoop_perm draw i _).trans (swap_perm _ _ _)

/-- **Shuffling keeps every test.** Whatever the seed draws, `shuffleTests` returns a permutation of its input. -/
theorem shuffleTests_perm {α : Type} (draw : Nat → Nat) (tests : List α) : (shuffleTests draw tests).Perm tests :=
  shuffleLoop_perm draw _ tests

/-! ## Running the tests -/

theorem runLoop_tests (failed : Bool) : ∀ tests : List Test,
    (runLoop failed tests).filterMap Out.test? = tests.map Test.name
  | [] => rfl
  | ⟨name, fails⟩ :: rest => by
    cases failed <;> cases fails <;> simp [runLoop, Out.test?, runLoop_tests]

/-- **`Run` runs each `Test*` method once.** Whatever the seed draws and the tests' outcomes, the tests `Run`
runs are, in some order, exactly the `Test*` methods of the suites, each once. -/
theorem run_runs_each_test_once (draw : Nat → Nat) (failed : Bool) (suites : List (List Test)) :
    ((run draw failed suites).filterMap Out.test?).Perm ((suites.flatMap resolveTests).map Test.name) := by
  unfold run runTests
  split
  · rename_i h
    have : (suites.flatMap resolveTests).length = 0 := (shuffleTests_perm draw _).length_eq.symm.trans h
    rw [List.length_eq_zero.1 this]
    rfl
  · rw [runLoop_tests]
    exact (shuffleTests_perm draw _).map _

/-- the `Out` after the `k`-th test of the loop -/
theorem runLoop_getElem? : ∀ (failed : Bool) (tests : List Test) (k : Nat), k < tests.length →
    (runLoop failed tests)[2 * k + 1]? =
      some (if failed || (tests.take (k + 1)).any Test.fails then .flush else .purge)
  | _, [], _, h => absurd h (Nat.not_lt_zero _)
  | failed, test :: rest, 0, _ => by simp [runLoop]
  | failed, test :: rest, k + 1, h => by
    have := runLoop_getElem? (failed || test.fails) rest k (by simpa using h)
    rw [show 2 * (k + 1) + 1 = 2 * k + 1 + 2 by omega]
    simp only [runLoop, List.getElem?_cons_succ, this, List.take_succ_cons, List.any_cons, Bool.or_assoc]

/-- **A failure flushes the logs of every later test.** After the `k`-th test `runTests` flushes the debug logs
exactly when `t` had failed before it started or one of the tests up to the `k`-th failed, and purges them exactly
when neither holds: once a test fails, every later test's logs are flushed, though it passes. -/
theorem runTests_flush_iff (failed : Bool) (tests : List Test) (k : Nat) (hk : k < tests.length) :
    ((runTests failed tests)[2 * k + 1]? = some .flush ↔
      failed = true ∨ ∃ j ≤ k, ∃ test, tests[j]? = some test ∧ test.fails = true) ∧
    ((runTests failed tests)[2 * k + 1]? = some .purge ↔
      ¬(failed = true ∨ ∃ j ≤ k, ∃ test, tests[j]? = some test ∧ test.fails = true)) := by
  have hne : tests.length ≠ 0 := by omega
  rw [runTests, if_neg hne, runLoop_getElem? failed tests k hk]
  have hany : (failed || (tests.take (k + 1)).any Test.fails) = true ↔
      failed = true ∨ ∃ j ≤ k, ∃ test, tests[j]? = some test ∧ test.fails = true := by
    rw [Bool.or_eq_true_iff, List.any_eq_true]
    refine or_congr Iff.rfl ⟨fun ⟨t, ht, htf⟩ => ?_, fun ⟨j, hj, t, ht, htf⟩ => ?_⟩
    · obtain ⟨j, hj, rfl⟩ := List.getElem_of_mem ht
      have hj' : j < k + 1 ∧ j < tests.length := by rw [List.length_take] at hj; omega
      refine ⟨j, by omega, _, ?_, htf⟩
      rw [List.getElem_take]
      exact List.getElem?_eq_getElem hj'.2
    · exact ⟨t, List.getElem?_mem (by rw [List.getElem?_take_of_lt (show j < k + 1 by omega)]; exact ht), htf⟩
  rw [← hany]
  split <;> simp_all

theorem runTests_flush_after_failure :
    1 < ([⟨"TestA", true⟩, ⟨"TestB", false⟩] : List Test).length ∧
      (runTests false [⟨"TestA", true⟩, ⟨"TestB", false⟩])[2 * 1 + 1]? = some .flush :=
  ⟨by decide, (runTests_flush_iff false [⟨"TestA", true⟩, ⟨"TestB", false⟩] 1 (by decide)).1.2
    (.inr ⟨0, by decide, _, rfl, rfl⟩)⟩

end Gobox.Shuffler
