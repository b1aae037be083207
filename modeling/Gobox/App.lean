import Mathlib.Data.List.Basic

/-!
The static app info of `pkg/app` (`app.go`): `info()` builds `Data` from the linked `Version`, the app name, the
build info and the environment, and `MarshalLog` and `LogValue` give the fields a log entry carries.

`os.Getenv` is a function `getenv` from names to values, `""` for an unset variable; `debug.ReadBuildInfo()` is the
main module's path and version, or `none` when the binary has no build info. `strings.Split` is modelled from its
source over `List Char`, for the nonempty separators `info` passes it.

Results:
- `info_region_empty_iff`: of the fields `info` defaults to `unknown`, only `Region` can come out empty, and it does
  exactly when `MY_REGION` is unset and the only dot of `MY_CLUSTER` ends it.
- `logValue_eq_marshalLog`: `LogValue` gives the fields `MarshalLog` gives, with the same values, in the same order,
  each key without its `app.` prefix.
-/

namespace Gobox.App

/-! ## `strings.Split` -/

/-- the loop of `strings.Split(s, sep)` (`genSplit` with `n = -1`) for a nonempty `sep`: `piece` is what has been
read since the last cut, and each leftmost occurrence of `sep` in what is left cuts a piece; `fuel` bounds the
characters read -/
def splitAux (sep : List Char) : Nat → List Char → List Char → List (List Char)
  | _, [], piece => [piece]
  | 0, s, piece => [piece ++ s]
  | fuel + 1, c :: cs, piece =>
    if sep.isPrefixOf (c :: cs) then piece :: splitAux sep fuel ((c :: cs).drop sep.length) []
    else splitAux sep fuel cs (piece ++ [c])

/-- `strings.Split(s, sep)` for a nonempty `sep` -/
def split (s sep : String) : List String := (splitAux sep.toList s.length s.toList []).map String.mk

theorem splitAux_ne_nil (sep : List Char) : ∀ (fuel : Nat) (s piece : List Char), splitAux sep fuel s piece ≠ []
  | _, [], _ => by simp [splitAux]
  | 0, _ :: _, _ => by simp [splitAux]
  | fuel + 1, c :: cs, piece => by
    simp only [splitAux]
    split
    · simp
    · exact splitAux_ne_nil sep fuel cs _

theorem splitAux_dot_none : ∀ (fuel : Nat) (s piece : List Char), '.' ∉ s →
    splitAux ['.'] fuel s piece = [piece ++ s]
  | _, [], piece, _ => by simp [splitAux]
  | 0, _ :: _, _, _ => rfl
  | fuel + 1, c :: cs, piece, h => by
    have hc : c ≠ '.' := fun e => h (e ▸ List.mem_cons_self _ _)
    simp only [splitAux, List.isPrefixOf, Bool.and_true, beq_iff_eq, Ne.symm hc, if_false]
    rw [splitAux_dot_none fuel cs _ (fun hm => h (List.mem_cons_of_mem _ hm))]
    simp

theorem splitAux_dot_some : ∀ (fuel : Nat) (xs ys piece : List Char), '.' ∉ xs → xs.length < fuel →
    splitAux ['.'] fuel (xs ++ '.' :: ys) piece = (piece ++ xs) :: splitAux ['.'] (fuel - xs.length - 1) ys []
  | 0, _, _, _, _, h => absurd h (Nat.not_lt_zero _)
  | fuel + 1, [], ys, piece, _, _ => by simp [splitAux, List.isPrefixOf]
  | fuel + 1, c :: xs, ys, piece, h, hl => by
    have hc : c ≠ '.' := fun e => h (e ▸ List.mem_cons_self _ _)
    simp only [List.cons_append, splitAux, List.isPrefixOf, Bool.and_true, beq_iff_eq, Ne.symm hc, if_false,
      List.append_eq]
    rw [splitAux_dot_some fuel xs ys _ (fun hm => h (List.mem_cons_of_mem _ hm)) (by simp at hl; omega)]
    simp only [List.append_assoc, List.singleton_append, List.length_cons]
    congr 2
    omega

/-- the first dot of a list that has one -/
theorem dot_first : ∀ l : List Char, '.' ∈ l → ∃ xs ys, l = xs ++ '.' :: ys ∧ '.' ∉ xs
  | c :: cs, h => by
    by_cases hc : c = '.'
    · exact ⟨[], cs, by simp [hc], List.not_mem_nil _⟩
    · obtain ⟨xs, ys, rfl, hx⟩ := dot_first cs ((List.mem_cons.1 h).resolve_left (Ne.symm hc))
      exact ⟨c :: xs, ys, rfl, by simp [hx, Ne.symm hc]⟩

theorem dot_first_unique : ∀ {xs a ys zs : List Char}, '.' ∉ xs → '.' ∉ a →
    xs ++ '.' :: ys = a ++ '.' :: zs → xs = a ∧ ys = zs
  | [], [], _, _, _, _, h => ⟨rfl, by simpa using h⟩
  | [], c :: a, _, _, _, ha, h => by
    simp only [List.nil_append, List.cons_append, List.cons.injEq] at h
    exact absurd (h.1 ▸ List.mem_cons_self _ _) ha
  | c :: xs, [], _, _, hx, _, h => by
    simp only [List.nil_append, List.cons_append, List.cons.injEq] at h
    exact absurd (h.1 ▸ List.mem_cons_self _ _) hx
  | c :: xs, d :: a, _, _, hx, ha, h => by
    simp only [List.cons_append, List.cons.injEq] at h
    obtain ⟨e1, e2⟩ := dot_first_unique (fun m => hx (List.mem_cons_of_mem _ m))
      (fun m => ha (List.mem_cons_of_mem _ m)) h.2
    exact ⟨by rw [h.1, e1], e2⟩

/-- `strings.Split(s, ".")` has two pieces, the second empty, exactly when the only dot of `s` ends it -/
theorem splitAux_dot_last (l : List Char) :
    (∃ p, splitAux ['.'] l.length l [] = [p, []]) ↔ ∃ a, l = a ++ ['.'] ∧ '.' ∉ a := by
  by_cases hl : '.' ∈ l
  · obtain ⟨xs, ys, rfl, hxs⟩ := dot_first l hl
    rw [splitAux_dot_some _ xs ys [] hxs (by simp)]
    by_cases hy : '.' ∈ ys
    · obtain ⟨ys1, ys2, rfl, hys1⟩ := dot_first ys hy
      rw [splitAux_dot_some _ ys1 ys2 [] hys1 (by simp)]
      constructor
      · rintro ⟨p, hp⟩
        simp only [List.cons.injEq] at hp
        exact absurd hp.2.2 (splitAux_ne_nil _ _ _ _)
      · rintro ⟨a, ha, hna⟩
        obtain ⟨-, h⟩ := dot_first_unique hxs hna ha
        simp at h
    · rw [splitAux_dot_none _ ys [] hy]
      constructor
      · rintro ⟨p, hp⟩
        simp only [List.nil_append, List.cons.injEq, and_true] at hp
        exact ⟨xs, by rw [hp.2], hxs⟩
      · rintro ⟨a, ha, hna⟩
        obtain ⟨rfl, rfl⟩ := dot_first_unique hxs hna ha
        exact ⟨xs, rfl⟩
  · rw [splitAux_dot_none _ l [] hl]
    constructor
    · rintro ⟨p, hp⟩
      simp at hp
    · rintro ⟨a, rfl, -⟩
      simp at hl

/-! ## `info()` -/

/-- `defaultVersion` -/
def defaultVersion : String := "Please see http://github.com/grevych/gobox/blob/main/docs/version.md"

/-- `Data`, without its mutex -/
structure Data where
  name : String
  version : String
  mainModule : String
  environment : String
  «namespace» : String
  serviceAccount : String
  clusterName : String
  region : String
  podID : String
  nodeID : String
  deployment : String
  serviceID : String
  bento : String
deriving DecidableEq, Repr

/-- `info()`, with `Version` linked as `version`, the app name `appName`, the build info and the environment -/
def info (version appName : String) (buildInfo : Option (String × String)) (getenv : String → String) : Data :=
  let unknown := "unknown"
  let (mainModule, ver) : String × String :=
    match buildInfo with
    | some (path, mainVersion) => (path, if version = defaultVersion then mainVersion else version)
    | none => ("", version)
  let ns := if getenv "MY_NAMESPACE" ≠ "" then getenv "MY_NAMESPACE" else ""
  let serviceAccount := if getenv "MY_POD_SERVICE_ACCOUNT" ≠ "" then getenv "MY_POD_SERVICE_ACCOUNT" else ""
  let serviceID := appName ++ "@gobox.cloud"
  let bento := match split ns "--" with
    | [_, b] => b
    | _ => ""
  let environment := if getenv "MY_ENVIRONMENT" ≠ "" then getenv "MY_ENVIRONMENT" else unknown
  let clusterName := if getenv "MY_CLUSTER" ≠ "" then getenv "MY_CLUSTER" else unknown
  let region := if getenv "MY_REGION" ≠ "" then getenv "MY_REGION" else
    match split clusterName "." with
    | [_, r] => r
    | _ => unknown
  let podID := if getenv "MY_POD_NAME" ≠ "" then getenv "MY_POD_NAME" else unknown
  let nodeID := if getenv "MY_NODE_NAME" ≠ "" then getenv "MY_NODE_NAME" else unknown
  let deployment := if getenv "MY_DEPLOYMENT" ≠ "" then getenv "MY_DEPLOYMENT" else unknown
  ⟨appName, ver, mainModule, environment, ns, serviceAccount, clusterName, region, podID, nodeID, deployment,
    serviceID, bento⟩

/-- an environment variable, or `unknown` when it is unset -/
theorem orUnknown_ne_empty (v : String) : (if v ≠ "" then v else "unknown") ≠ "" := by
  split
  · assumption
  · decide

/-- **Only `Region` can come out empty.** Whatever the environment, `info()` never leaves `Environment`,
`ClusterName`, `PodID`, `NodeID` or `Deployment` empty, and it leaves `Region` empty exactly when `MY_REGION` is
unset and the only dot of `MY_CLUSTER` is its last character (`strings.Split` then gives an empty second part). -/
theorem info_region_empty_iff (version appName : String) (buildInfo : Option (String × String))
    (getenv : String → String) :
    ((info version appName buildInfo getenv).environment ≠ "" ∧
        (info version appName buildInfo getenv).clusterName ≠ "" ∧
        (info version appName buildInfo getenv).podID ≠ "" ∧ (info version appName buildInfo getenv).nodeID ≠ "" ∧
        (info version appName buildInfo getenv).deployment ≠ "") ∧
      ((info version appName buildInfo getenv).region = "" ↔
        getenv "MY_REGION" = "" ∧ ∃ a, (getenv "MY_CLUSTER").toList = a ++ ['.'] ∧ '.' ∉ a) := by
  refine ⟨⟨orUnknown_ne_empty _, orUnknown_ne_empty _, orUnknown_ne_empty _, orUnknown_ne_empty _,
    orUnknown_ne_empty _⟩, ?_⟩
  show (if getenv "MY_REGION" ≠ "" then _ else _) = "" ↔ _
  by_cases hr : getenv "MY_REGION" = ""
  · simp only [hr, ne_eq, not_true_eq_false, if_false, true_and]
    have key : ∀ s : String, (match split s "." with | [_, r] => r | _ => "unknown") = "" ↔
        ∃ p, splitAux ['.'] s.length s.toList [] = [p, []] := fun s => by
      show (match (splitAux ['.'] s.length s.toList []).map String.mk with | [_, r] => r | _ => "unknown") = "" ↔ _
      generalize splitAux ['.'] s.length s.toList [] = L
      rcases L with _ | ⟨p, _ | ⟨q, _ | ⟨r, rest⟩⟩⟩ <;> simp [String.ext_iff]
    rw [key, show ∀ s : String, s.length = s.toList.length from fun _ => rfl, splitAux_dot_last]
    by_cases hc : getenv "MY_CLUSTER" = ""
    · simp only [hc, ne_eq, not_true_eq_false, if_false]
      constructor
      · rintro ⟨a, ha, -⟩
        exact absurd (show '.' ∈ "unknown".toList by rw [ha]; simp) (by decide)
      · rintro ⟨a, ha, -⟩
        have : '.' ∈ "".toList := by rw [ha]; simp
        simp at this
    · simp only [hc, ne_eq, not_false_eq_true, if_true]
  · simp only [hr, ne_eq, not_false_eq_true, if_true, false_and, iff_false]

/-! ## The log fields -/

/-- `d.MarshalLog(addField)`: the `addField` calls, in order -/
def Data.marshalLog (d : Data) : List (String × String) :=
  (if d.name ≠ "unknown" then [("app.name", d.name), ("service_name", d.name)] else []) ++
    (if d.version ≠ "" then [("app.version", d.version)] else []) ++
    (if d.«namespace» ≠ "" then [("deployment.namespace", d.«namespace»)] else [])

/-- `d.LogValue()`: the attributes of its group -/
def Data.logValue (d : Data) : List (String × String) :=
  (if d.name ≠ "unknown" then [("name", d.name), ("service_name", d.name)] else []) ++
    (if d.version ≠ "" then [("version", d.version)] else []) ++
    (if d.«namespace» ≠ "" then [("deployment.namespace", d.«namespace»)] else [])

/-- a log key without its `app.` prefix -/
def dropAppPrefix (k : String) : String :=
  if "app.".toList.isPrefixOf k.toList then ⟨k.toList.drop 4⟩ else k

/-- **`LogValue` agrees with `MarshalLog`.** For every `Data`, `LogValue` gives the fields `MarshalLog` gives, with
the same values and in the same order, each key without its `app.` prefix, as the `AppInfo` hook nests them under
`app` already. -/
theorem logValue_eq_marshalLog (d : Data) :
    d.logValue = d.marshalLog.map fun p => (dropAppPrefix p.1, p.2) := by
  have h1 : dropAppPrefix "app.name" = "name" := by decide
  have h2 : dropAppPrefix "service_name" = "service_name" := by decide
  have h3 : dropAppPrefix "app.version" = "version" := by decide
  have h4 : dropAppPrefix "deployment.namespace" = "deployment.namespace" := by decide
  simp only [Data.logValue, Data.marshalLog, List.map_append]
  split_ifs <;> simp [h1, h2, h3, h4]

end Gobox.App
