import Gobox.Basic

/-!
The configuration readers of `pkg/env` (`readers.go`, built with the `gobox_dev`, `gobox_test` or `gobox_e2e`
tags): the `overrides` store that `FakeTestConfigWithError` fills and the cleanup func it returns empties, read by
`testReader` before its fallback; and `devReader`'s search of its five lookup paths.

State `St`: `overrides.data`, a map from file names to the faked values, as a list of pairs; (ghost) the cleanup
funcs `FakeTestConfigWithError` returned, each with its name, its value and how often it was called, and the errors
it returned. `addWithError`, `load` and `delete` hold `to.mu` for their whole bodies, so each is one atomic step and
every list of `Op` is an interleaving of parallel tests. A value is of any type `V`: only `testReader` reads it,
through `yaml.Marshal`.

Results:
- `step_inv`, `run_inv`: while no cleanup func has been called twice, the store holds exactly the fakes whose
  cleanup func has not been called, under distinct names.
- `testReader_reads_own_fake`: in every interleaving in which no cleanup func is called twice, `testReader`
  returns a test's faked value for as long as its cleanup func has not been called, and the fallback's result for
  a name with no such fake; faking a name another test holds fails with `repeated test override of '<name>'` and
  leaves the store.
- `devReader_first_readable`: `devReader` returns the contents of the first of its five lookup paths that
  `os.ReadFile` reads, calls its fallback only when all five fail, and returns an error of `user.Current` or
  `os.Getwd` without calling it.
-/

namespace Gobox.Env

/-! ## The override store -/

section Store

variable {V : Type}

/-- `to.load(k)` -/
def load (data : List (String × V)) (k : String) : Option V := data.lookup k

/-- `to.addWithError(k, v)`: the store after it, or its error -/
def addWithError (data : List (String × V)) (k : String) (v : V) : Except String (List (String × V)) :=
  match load data k with
  | some _ => .error s!"repeated test override of \x27{k}\x27"
  | none => .ok (data ++ [(k, v)])

/-- `to.delete(k)` -/
def delete (data : List (String × V)) (k : String) : List (String × V) := data.filter fun p => p.1 != k

/-- a cleanup func `FakeTestConfigWithError(fName, ptr)` returned: `fName`, `ptr`, and its calls so far -/
structure Cleanup (V : Type) where
  name : String
  value : V
  calls : Nat
deriving DecidableEq, Repr

structure St (V : Type) where
  /-- `overrides.data` -/
  data : List (String × V)
  /-- ghost: the cleanup funcs returned, in order -/
  cleanups : List (Cleanup V)
  /-- ghost: the errors `FakeTestConfigWithError` returned -/
  errors : List String

def init : St V := ⟨[], [], []⟩

inductive Op (V : Type) where
  /-- `FakeTestConfigWithError(fName, ptr)` -/
  | fake (fName : String) (ptr : V)
  /-- cleanup func `i` is called: `overrides.delete(fName)` -/
  | cleanup (i : Nat)

def step (s : St V) : Op V → St V
  | .fake fName ptr =>
    match addWithError s.data fName ptr with
    | .ok data => { s with data := data, cleanups := s.cleanups ++ [⟨fName, ptr, 0⟩] }
    | .error err => { s with errors := s.errors ++ [err] }
  | .cleanup i =>
    match s.cleanups[i]? with
    | some c => { s with data := delete s.data c.name, cleanups := s.cleanups.set i { c with calls := c.calls + 1 } }
    | none => s

def run (s : St V) (ops : List (Op V)) : St V := ops.foldl step s

@[simp] theorem run_nil (s : St V) : run s [] = s := rfl
@[simp] theorem run_cons (s : St V) (o : Op V) (ops : List (Op V)) : run s (o :: ops) = run (step s o) ops := rfl

/-- `testReader(fallback, &overrides)(fileName)`, `marshal` being `yaml.Marshal` -/
def testReader {R : Type} (fallback : String → R) (marshal : V → R) (data : List (String × V))
    (fileName : String) : R :=
  match load data fileName with
  | some override => marshal override
  | none => fallback fileName

@[simp] theorem load_nil (k : String) : load ([] : List (String × V)) k = none := rfl

@[simp] theorem load_cons (a : String) (b : V) (data : List (String × V)) (k : String) :
    load ((a, b) :: data) k = if k = a then some b else load data k :=
  lookup_cons_string k a b data

theorem load_append {data : List (String × V)} {k' : String} (hk : load data k' = none) (v' : V) (k : String) :
    load (data ++ [(k', v')]) k = if k = k' then some v' else load data k := by
  induction data with
  | nil => simp
  | cons p data ih =>
    obtain ⟨a, b⟩ := p
    simp only [List.cons_append, load_cons] at hk ⊢
    split at hk
    · cases hk
    · rw [ih hk]
      by_cases ha : k = a <;> by_cases hk' : k = k' <;> simp_all

theorem load_delete (data : List (String × V)) (k' k : String) :
    load (delete data k') k = if k = k' then none else load data k := by
  induction data with
  | nil => simp [delete]
  | cons p data ih =>
    obtain ⟨a, b⟩ := p
    simp only [delete, List.filter_cons, bne_iff_ne, ne_eq, decide_not] at ih ⊢
    by_cases ha : a = k' <;> by_cases hk : k = a <;> simp_all [delete]

/-- while no cleanup func has been called twice, the store holds exactly the fakes whose cleanup func has not
been called, under distinct names -/
structure Inv (s : St V) : Prop where
  data : ∀ k v, load s.data k = some v ↔ ∃ c ∈ s.cleanups, c.calls = 0 ∧ c.name = k ∧ c.value = v
  unique : ∀ (i j : Nat) (c c' : Cleanup V), s.cleanups[i]? = some c → s.cleanups[j]? = some c' → c.calls = 0 →
    c'.calls = 0 → c.name = c'.name → i = j

theorem inv_init : Inv (init : St V) := ⟨by simp [init], by simp [init]⟩

/-- no live cleanup func holds a name the store lacks -/
theorem Inv.absent {s : St V} (h : Inv s) {k : String} (hk : load s.data k = none) :
    ∀ c ∈ s.cleanups, c.calls = 0 → c.name ≠ k := by
  rintro c hc h0 rfl
  have := (h.data c.name c.value).2 ⟨c, hc, h0, rfl, rfl⟩
  simp [hk] at this

theorem inv_fake {s : St V} (h : Inv s) {k : String} (hk : load s.data k = none) (v : V) :
    Inv { s with data := s.data ++ [(k, v)], cleanups := s.cleanups ++ [⟨k, v, 0⟩] } where
  data k' v' := by
    rw [load_append hk]
    by_cases e : k' = k
    · subst e
      rw [if_pos rfl]
      simp only [Option.some.injEq, List.mem_append, List.mem_singleton]
      constructor
      · rintro rfl; exact ⟨_, .inr rfl, rfl, rfl, rfl⟩
      · rintro ⟨c, hc | rfl, h0, hn, rfl⟩
        · exact absurd hn (h.absent hk c hc h0)
        · rfl
    · simp only [if_neg e, h.data, List.mem_append, List.mem_singleton]
      constructor
      · rintro ⟨c, hc, hc'⟩; exact ⟨c, .inl hc, hc'⟩
      · rintro ⟨c, hc | rfl, h0, hn, hv⟩
        · exact ⟨c, hc, h0, hn, hv⟩
        · exact absurd hn.symm e
  unique i j c c' hi hj h0 h0' hn := by
    rcases getElem?_append_singleton hi with hi | ⟨rfl, rfl⟩ <;>
      rcases getElem?_append_singleton hj with hj | ⟨rfl, rfl⟩
    · exact h.unique i j c c' hi hj h0 h0' hn
    · exact absurd hn (h.absent hk c (List.getElem?_mem hi) h0)
    · exact absurd hn.symm (h.absent hk c' (List.getElem?_mem hj) h0')
    · rfl

theorem inv_cleanup {s : St V} (h : Inv s) {i : Nat} {c : Cleanup V} (hc : s.cleanups[i]? = some c)
    (h0 : c.calls = 0) :
    Inv { s with data := delete s.data c.name, cleanups := s.cleanups.set i { c with calls := c.calls + 1 } } where
  data k v := by
    rw [load_delete]
    constructor
    · intro hl
      split at hl
      · cases hl
      · rename_i hk
        obtain ⟨c', hc', h0', hn, hv⟩ := (h.data k v).1 hl
        obtain ⟨j, hj⟩ := List.mem_iff_getElem?.1 hc'
        have hj' : (s.cleanups.set i { c with calls := c.calls + 1 })[j]? = some c' := by
          rw [getElem?_set_of hc, if_neg]
          · exact hj
          · rintro rfl; cases hc.symm.trans hj; exact hk hn.symm
        exact ⟨c', List.getElem?_mem hj', h0', hn, hv⟩
    · rintro ⟨c', hc', h0', rfl, rfl⟩
      obtain ⟨j, hj⟩ := List.mem_iff_getElem?.1 hc'
      rw [getElem?_set_of hc] at hj
      split at hj
      · cases hj; simp at h0'
      · rw [if_neg fun e => ‹¬i = j› (h.unique i j c c' hc hj h0 h0' e.symm)]
        exact (h.data _ _).2 ⟨c', List.getElem?_mem hj, h0', rfl, rfl⟩
  unique a b d d' ha hb h0a h0b hn := by
    rw [getElem?_set_of hc] at ha hb
    split at ha
    · cases ha; simp at h0a
    · split at hb
      · cases hb; simp at h0b
      · exact h.unique a b d d' ha hb h0a h0b hn

/-- a step never lowers the calls of a cleanup func -/
theorem step_calls (s : St V) (o : Op V) {i : Nat} {c : Cleanup V} (hc : s.cleanups[i]? = some c) :
    ∃ c', (step s o).cleanups[i]? = some c' ∧ c.calls ≤ c'.calls := by
  cases o with
  | fake k v =>
    simp only [step]
    split
    · exact ⟨c, by rw [List.getElem?_append_left (List.getElem?_eq_some_iff.1 hc).1]; exact hc, le_rfl⟩
    · exact ⟨c, hc, le_rfl⟩
  | cleanup j =>
    simp only [step]
    split
    · rename_i d hd
      rw [getElem?_set_of hd]
      split
      · subst j; cases hd.symm.trans hc; exact ⟨_, rfl, Nat.le_succ _⟩
      · exact ⟨c, hc, le_rfl⟩
    · exact ⟨c, hc, le_rfl⟩

theorem step_inv {s : St V} (o : Op V) (h : (∀ c ∈ s.cleanups, c.calls ≤ 1) → Inv s)
    (h1 : ∀ c ∈ (step s o).cleanups, c.calls ≤ 1) : Inv (step s o) := by
  have hs : Inv s := h fun c hc => by
    obtain ⟨i, hi⟩ := List.mem_iff_getElem?.1 hc
    obtain ⟨c', hc', hle⟩ := step_calls s o hi
    exact hle.trans (h1 c' (List.getElem?_mem hc'))
  cases o with
  | fake k v =>
    cases hk : load s.data k with
    | none => simp only [step, addWithError, hk]; exact inv_fake hs hk v
    | some _ => simp only [step, addWithError, hk]; exact ⟨hs.data, hs.unique⟩
  | cleanup i =>
    cases hc : s.cleanups[i]? with
    | none => simp only [step, hc]; exact hs
    | some c =>
      simp only [step, hc] at h1 ⊢
      have := h1 _ (List.getElem?_mem (getElem?_set_self hc))
      exact inv_cleanup hs hc (by simp at this; omega)

theorem run_inv {s : St V} (h : (∀ c ∈ s.cleanups, c.calls ≤ 1) → Inv s) (ops : List (Op V)) :
    (∀ c ∈ (run s ops).cleanups, c.calls ≤ 1) → Inv (run s ops) := by
  induction ops generalizing s with
  | nil => exact h
  | cons o ops ih => exact ih (step_inv o h)

/-- **A test reads its own fake until it cleans it up.** In every interleaving of parallel tests in which no cleanup
func is called twice: while a test's fake of a name is live (its cleanup func not yet called), `testReader` returns
that fake's value, whatever other tests fake or clean up; for a name no live fake holds, it returns the fallback's
result; and faking a name some live fake holds fails with `repeated test override of '<name>'`, the store
unchanged. -/
theorem testReader_reads_own_fake {R : Type} (fallback : String → R) (marshal : V → R) (ops : List (Op V))
    (h : ∀ c ∈ (run init ops).cleanups, c.calls ≤ 1) (k : String) :
    let s := run init ops
    (∀ c ∈ s.cleanups, c.calls = 0 → c.name = k → testReader fallback marshal s.data k = marshal c.value) ∧
      ((∀ c ∈ s.cleanups, c.calls = 0 → c.name ≠ k) → testReader fallback marshal s.data k = fallback k) ∧
      ∀ v, (∃ c ∈ s.cleanups, c.calls = 0 ∧ c.name = k) →
        (step s (.fake k v)).data = s.data ∧
          (step s (.fake k v)).errors = s.errors ++ [s!"repeated test override of \x27{k}\x27"] := by
  intro s
  have hs : Inv s := run_inv (fun _ => inv_init) ops h
  refine ⟨fun c hc h0 hn => ?_, fun hno => ?_, fun v ⟨c, hc, h0, hn⟩ => ?_⟩
  · obtain ⟨v, hv⟩ : ∃ v, load s.data k = some v := ⟨c.value, (hs.data k c.value).2 ⟨c, hc, h0, hn, rfl⟩⟩
    obtain ⟨c', hc', h0', hn', rfl⟩ := (hs.data k v).1 hv
    obtain ⟨i, hi⟩ := List.mem_iff_getElem?.1 hc
    obtain ⟨j, hj⟩ := List.mem_iff_getElem?.1 hc'
    obtain rfl := hs.unique i j c c' hi hj h0 h0' (hn.trans hn'.symm)
    cases hi.symm.trans hj
    simp [testReader, hv]
  · have : load s.data k = none := by
      cases hl : load s.data k with
      | none => rfl
      | some v =>
        obtain ⟨c, hc, h0, hn, -⟩ := (hs.data k v).1 hl
        exact absurd hn (hno c hc h0)
    simp [testReader, this]
  · obtain ⟨v', hv'⟩ : ∃ v', load s.data k = some v' := ⟨c.value, (hs.data k c.value).2 ⟨c, hc, h0, hn, rfl⟩⟩
    simp [step, addWithError, hv']

theorem testReader_reads_own_fake_two_tests :
    (∀ c ∈ (run init [.fake "app.yaml" 1, .fake "app.yaml" 2, .cleanup 0, .fake "app.yaml" 3]).cleanups,
      c.calls ≤ 1) ∧
    testReader (fun _ => none) some
        (run init [.fake "app.yaml" 1, .fake "app.yaml" 2, .cleanup 0, .fake "app.yaml" 3]).data "app.yaml" =
      some 3 := by
  refine ⟨by decide, (testReader_reads_own_fake (fun _ => none) some
    [.fake "app.yaml" 1, .fake "app.yaml" 2, .cleanup 0, .fake "app.yaml" 3] (by decide) "app.yaml").1
    ⟨"app.yaml", 3, 0⟩ (by decide) rfl rfl⟩

/-- a cleanup func called twice deletes the fake another test made of the same name in between -/
example : testReader (fun _ => none) some
    (run init [.fake "app.yaml" 1, .cleanup 0, .fake "app.yaml" 2, .cleanup 0]).data "app.yaml" = none := by
  decide

end Store

/-! ## `devReader` -/

section Dev

variable {B : Type}

/-- the `lookupPaths` of `devReader`, `join` being `filepath.Join` -/
def lookupPaths (home workingDir appName : String) (join : List String → String) (fileName : String) :
    List String :=
  [join [home, ".gobox", appName, fileName], join [home, ".gobox", fileName], join [workingDir, appName, fileName],
    join [workingDir, fileName], join [workingDir, "config", fileName]]

/-- the `for _, p := range lookupPaths` loop from `b` and `errors`: `b` and `errors` after it (`none` is a nil
slice) -/
def lookupLoop (readFile : String → Except GoErr B) : List String → Option B → List GoErr → Option B × List GoErr
  | [], b, errors => (b, errors)
  | p :: ps, _, errors =>
    match readFile p with
    | .error err => lookupLoop readFile ps none (errors ++ [err])
    | .ok b => (some b, [])

/-- `devReader(fallback)(fileName)`: `user.Current()` gives the home directory or an error, `os.Getwd()` the
working directory or an error, `app.Info().Name` is `appName`, and `readFile` is `os.ReadFile` -/
def devReader (userCurrent getwd : Except GoErr String) (appName : String) (join : List String → String)
    (readFile : String → Except GoErr B) (fallback : String → Except GoErr (Option B)) (fileName : String) :
    Except GoErr (Option B) :=
  match userCurrent with
  | .error err => .error err
  | .ok home =>
    match getwd with
    | .error err => .error err
    | .ok workingDir =>
      let r := lookupLoop readFile (lookupPaths home workingDir appName join fileName) none []
      if r.2.length ≠ 0 then fallback fileName else .ok r.1

theorem lookupLoop_found (readFile : String → Except GoErr B) : ∀ (paths : List String) (b : Option B)
    (errors : List GoErr) (b' : B), paths.findSome? (fun p => (readFile p).toOption) = some b' →
      lookupLoop readFile paths b errors = (some b', [])
  | [], _, _, _, h => by simp at h
  | p :: ps, b, errors, b', h => by
    rw [List.findSome?_cons] at h
    cases hp : readFile p with
    | error err => rw [hp] at h; simp only [lookupLoop, hp]; exact lookupLoop_found readFile ps none _ b' h
    | ok c => rw [hp] at h; cases h; simp only [lookupLoop, hp]

theorem lookupLoop_missing (readFile : String → Except GoErr B) : ∀ (paths : List String) (b : Option B)
    (errors : List GoErr), paths.findSome? (fun p => (readFile p).toOption) = none →
      (lookupLoop readFile paths b errors).2.length = errors.length + paths.length
  | [], _, _, _ => rfl
  | p :: ps, b, errors, h => by
    rw [List.findSome?_cons] at h
    cases hp : readFile p with
    | error err =>
      rw [hp] at h
      simp only [lookupLoop, hp, lookupLoop_missing readFile ps none _ h, List.length_append, List.length_cons,
        List.length_nil]
      omega
    | ok c => rw [hp] at h; cases h

/-- **`devReader` takes the first readable path.** It returns the contents of the first of its five lookup paths
(`~/.gobox/<app>/<file>`, `~/.gobox/<file>`, `<wd>/<app>/<file>`, `<wd>/<file>`, `<wd>/config/<file>`) that
`os.ReadFile` reads, calls its fallback only when all five fail, and returns an error of `user.Current` or
`os.Getwd` without calling the fallback. -/
theorem devReader_first_readable (userCurrent getwd : Except GoErr String) (appName : String)
    (join : List String → String) (readFile : String → Except GoErr B) (fallback : String → Except GoErr (Option B))
    (fileName : String) :
    devReader userCurrent getwd appName join readFile fallback fileName =
      match userCurrent, getwd with
      | .error err, _ => .error err
      | .ok _, .error err => .error err
      | .ok home, .ok workingDir =>
        match (lookupPaths home workingDir appName join fileName).findSome? fun p => (readFile p).toOption with
        | some b => .ok (some b)
        | none => fallback fileName := by
  rcases userCurrent with err | home
  · rfl
  rcases getwd with err | workingDir
  · rfl
  simp only [devReader]
  cases hf : (lookupPaths home workingDir appName join fileName).findSome? fun p => (readFile p).toOption with
  | some b => simp [lookupLoop_found readFile _ none [] b hf]
  | none =>
    have := lookupLoop_missing readFile _ none [] hf
    simp only [List.length_nil, lookupPaths, List.length_cons] at this
    simp [lookupPaths, this]

end Dev

end Gobox.Env
