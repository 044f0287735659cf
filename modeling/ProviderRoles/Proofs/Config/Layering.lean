import ProviderRoles.Config.Load
import ProviderRoles.Proofs.Config.Path
import ProviderRoles.Proofs.Number.Numeral

/-! The layers of the configuration. Each timing is that of the environment, or else of the file, or
else the standard one, whatever is said of the other timing and of anything else. The check comes last
and sees the timings of all layers together. -/
namespace ProviderRoles

inductive TimingField where
  | shortWait
  | timeout
  deriving DecidableEq

namespace TimingField

/-- The name in the section of a file. -/
def key : TimingField → String
  | .shortWait => "short_wait_secs"
  | .timeout => "timeout_secs"

def variableName : TimingField → String
  | .shortWait => "ROLESYNC__RECONCILER__SHORT_WAIT_SECS"
  | .timeout => "ROLESYNC__RECONCILER__TIMEOUT_SECS"

def standard : TimingField → Nat
  | .shortWait => 30
  | .timeout => 60

def path (t : TimingField) : List String := ["reconciler", t.key]

def of : TimingField → Timing → UInt64
  | .shortWait, timing => timing.shortWait
  | .timeout, timing => timing.timeout

theorem key_inj {t t' : TimingField} : t.key = t'.key ↔ t = t' := by
  cases t <;> cases t' <;> decide

theorem variableName_inj {t t' : TimingField} : t.variableName = t'.variableName ↔ t = t' := by
  cases t <;> cases t' <;> decide

end TimingField

/-- A number that a signed 64-bit integer can hold. -/
abbrev Seconds := Fin (2 ^ 63)

/-- What a layer says of each timing. -/
abbrev Layer := TimingField → Option Seconds

/-- The section of the timings in the root table of a file, without entries if it is missing. -/
def timingSection (root : SortedMap Json) : SortedMap Json :=
  match root.get? "reconciler" with
  | some (.obj ms) => .ofList ms
  | _ => .empty

/-- The root table has no section of the timings or one that holds these and anything else. Its other
keys lead elsewhere. -/
structure RootHolds (root : SortedMap Json) (layer : Layer) : Prop where
  table : ∀ x, root.get? "reconciler" = some x → ∃ ms, x = .obj ms
  value : ∀ t, (timingSection root).get? t.key = (layer t).map fun n => .int n.val
  unrelated : ∀ k ∈ root.keys, k ≠ "reconciler" →
    ∀ t : TimingField, Setting.Apart (PathStep.steps k) t.path

/-- There is no file at the path, or a well-formed one that holds these timings. -/
inductive FileHolds (files : SortedMap String) (path : String) (layer : Layer) : Prop where
  | missing (nowhere : Config.locate files path = .missing) (silent : ∀ t, layer t = none)
  | present {name text : String} {root : SortedMap Json}
      (found : Config.locate files path = .file name text)
      (read : Config.table? name text = some root) (holds : RootHolds root layer)

/-- The two variables, where they are set, have numerals as texts. Other variables are none of the
configuration, or they lead elsewhere. -/
structure EnvironmentHolds (environment : SortedMap String) (layer : Layer) : Prop where
  value : ∀ t : TimingField, Option.Rel (fun (n : Seconds) text => IsNumeral n text) (layer t)
    (environment.get? t.variableName)
  unrelated : ∀ name text path, environment.get? name = some text →
    (∀ t : TimingField, name ≠ t.variableName) → Environment.path? name = some path →
    ∀ t : TimingField, Setting.Apart (PathStep.steps path) t.path

theorem EnvironmentHolds.numeral {environment : SortedMap String} {layer : Layer}
    (h : EnvironmentHolds environment layer) {t : TimingField} {text : String}
    (here : environment.get? t.variableName = some text) :
    ∃ n, layer t = some n ∧ IsNumeral n text := by
  have value := h.value t
  rw [here] at value
  generalize layer t = given at value
  cases value with
  | some numeral => exact ⟨_, rfl, numeral⟩

theorem EnvironmentHolds.silent {environment : SortedMap String} {layer : Layer}
    (h : EnvironmentHolds environment layer) {t : TimingField}
    (absent : environment.get? t.variableName = none) : layer t = none := by
  have value := h.value t
  rw [absent] at value
  generalize layer t = given at value
  cases value
  rfl

open Setting

/-- Merged values that hold these timings. -/
structure Setting.Holds (s : Setting) (layer : Layer) : Prop where
  table : KeepsTable "reconciler" s
  value : ∀ t : TimingField, ∃ origin,
    at? t.path s = (layer t).map fun n => .scalar origin (.int n.val)

namespace Layer

/-- The upper layer counts where it says something. -/
def above (upper lower : Layer) : Layer := fun t => (upper t).or (lower t)

def only (t : TimingField) (n : Seconds) : Layer := fun t' => if t' = t then some n else none

/-- The part of a layer that stands in entries with such names. -/
def among (layer : Layer) (names : TimingField → Bool) : Layer :=
  fun t => if names t then layer t else none

def seconds (layer : Layer) (t : TimingField) : Nat := (layer t).elim t.standard Fin.val

def timing (layer : Layer) : Timing :=
  ⟨UInt64.ofNat (layer.seconds .shortWait), UInt64.ofNat (layer.seconds .timeout)⟩

variable {layer upper lower : Layer} {t : TimingField}

theorem seconds_lt : layer.seconds t < 2 ^ 63 := by
  rw [seconds]
  cases layer t with
  | some n => exact n.isLt
  | none => cases t <;> decide

theorem toNat_of_timing : (t.of layer.timing).toNat = layer.seconds t := by
  have small : layer.seconds t < 2 ^ 64 := Nat.lt_trans seconds_lt (by decide)
  cases t <;> exact UInt64.toNat_ofNat_of_lt' small

theorem above_among_above (names names' : TimingField → Bool) :
    above (upper.among names) (above (upper.among names') lower) =
      above (upper.among fun t => names t || names' t) lower := by
  funext t
  simp only [above, among]
  by_cases first : names t = true
  · cases upper t <;> simp [first]
  · simp [first]

theorem above_nothing : above upper (fun _ => none) = upper := by
  funext t
  exact Option.or_none

theorem above_among_of_none {names : TimingField → Bool} (absent : ∀ t, names t = false) :
    above (upper.among names) lower = lower := by
  funext t
  simp [above, among, absent t]

theorem among_eq_self {names : TimingField → Bool} (silent : ∀ t, names t = false → layer t = none) :
    layer.among names = layer := by
  funext t
  rw [among]
  cases present : names t with
  | true => rfl
  | false => exact (silent t present).symm

theorem among_eq_only {name : TimingField → String} (distinct : Function.Injective name)
    {n : Seconds} (given : layer t = some n) :
    layer.among (fun t' => name t' == name t) = only t n := by
  funext t'
  by_cases same : t' = t
  · subst same
    simp [among, only, given]
  · have differ : name t' ≠ name t := mt (@distinct t' t) same
    simp [among, only, same, differ]

end Layer

namespace Setting.Holds

variable {s : Setting} {layer upper lower : Layer}

theorem empty : Holds (.table none []) fun _ => none :=
  ⟨fun _ here => (nomatch here), fun _ => ⟨none, rfl⟩⟩

/-! One entry: of a variable, of a section, or of anything else. -/

theorem layVariable (h : Holds s layer) (t : TimingField) (n : Seconds)
    (origin : Option SettingOrigin) :
    Holds (s.layAt ("reconciler." ++ t.key) (.scalar origin (.int n.val)))
      (Layer.above (.only t n) layer) := by
  have steps : PathStep.steps ("reconciler." ++ t.key) = t.path.map .child := by
    cases t <;> decide
  rw [layAt, steps]
  refine ⟨keepsTable_change_below _ _ _ _ _, fun t' => ?_⟩
  by_cases same : t' = t
  · subst same
    rw [at?_change]
    exact ⟨origin, by simp [Layer.above, Layer.only, merge]⟩
  · have apart : Apart (t.path.map .child) t'.path :=
      .further (.parted fun keys => same (TimingField.key_inj.1 keys).symm)
    rw [at?_change_of_apart _ apart]
    obtain ⟨origin', value⟩ := h.value t'
    exact ⟨origin', by rw [value, Layer.above, Layer.only, if_neg same, Option.none_or]⟩

theorem laySection (h : Holds s lower) {ms : List (String × Json)} (origin : SettingOrigin)
    (value : ∀ t : TimingField,
      (SortedMap.ofList ms).get? t.key = (upper t).map fun n => .int n.val) :
    Holds (s.layAt "reconciler" (.ofJson origin (.obj ms))) (upper.above lower) := by
  have steps : PathStep.steps "reconciler" = [.child "reconciler"] := by decide
  rw [layAt, steps]
  refine ⟨fun x here => ?_, fun t => ?_⟩
  · rw [lookup_change, if_pos rfl] at here
    cases here
    exact ⟨_, _, rfl⟩
  · -- A number replaces what was there, while two tables would be merged.
    have plain : ∀ x, (SortedMap.ofList ms).get? t.key = some x →
        ∀ s, merge (ofJson origin x) s = ofJson origin x := by
      intro x here s
      rw [value t] at here
      obtain ⟨n, _, rfl⟩ := Option.map_eq_some_iff.1 here
      rfl
    obtain ⟨origin', below⟩ := h.value t
    rw [TimingField.path, ← at?_next_of_ne_nil (List.cons_ne_nil _ _), at?_singleton] at below
    have merged := lookup_mergeEntries origin ms
      ((s.entries.lookup "reconciler").getD missing).entries plain
    rw [value t, below] at merged
    rw [TimingField.path, at?, lookup_change, if_pos rfl, Option.bind_some, at?_singleton, Layer.above]
    cases here : upper t with
    | none =>
      rw [here] at merged
      exact ⟨origin', merged⟩
    | some n =>
      rw [here] at merged
      exact ⟨some origin, merged⟩

theorem elsewhere (h : Holds s layer) {steps : List PathStep}
    (apart : ∀ t : TimingField, Apart steps t.path) (f : Setting → Setting) :
    Holds (change f steps s) layer := by
  refine ⟨keepsTable_change_of_apart f (apart .shortWait) h.table, fun t => ?_⟩
  rw [at?_change_of_apart f (apart t)]
  exact h.value t

/-! All entries of a layer, one after the other. -/

theorem foldl {α : Type} {lay : Setting → String × α → Setting} {name : TimingField → String}
    {entries : List (String × α)}
    (each : ∀ e ∈ entries, ∀ s lower, Holds s lower →
      Holds (lay s e) (Layer.above (upper.among fun t => name t == e.1) lower))
    (h : Holds s lower) :
    Holds (entries.foldl lay s)
      (Layer.above (upper.among fun t => (entries.lookup (name t)).isSome) lower) := by
  induction entries generalizing s lower with
  | nil => exact h
  | cons e entries ih =>
    obtain ⟨first, others⟩ := List.forall_mem_cons.1 each
    have rest := ih others (first s lower h)
    -- The later entries are the upper ones.
    rw [Layer.above_among_above] at rest
    have names : (fun t => ((e :: entries).lookup (name t)).isSome) =
        fun t => (entries.lookup (name t)).isSome || name t == e.1 := by
      funext t
      rw [List.lookup_cons]
      cases name t == e.1 <;> simp
    rw [names]
    exact rest

theorem layFile {root : SortedMap Json} (h : RootHolds root layer) (name : String) :
    Holds (Config.layFile name root (.table none [])) layer := by
  have each : ∀ e ∈ root.toList, ∀ s lower, Holds s lower →
      Holds (s.layAt e.1 (.ofJson (.file name) e.2))
        (Layer.above (layer.among fun _ => "reconciler" == e.1) lower) := by
    rintro ⟨k, x⟩ mem s lower holds
    have here := SortedMap.mem_toList_iff.1 mem
    by_cases same : k = "reconciler"
    · subst same
      obtain ⟨ms, rfl⟩ := h.table x here
      have value := h.value
      rw [timingSection, here] at value
      exact holds.laySection (.file name) value
    · rw [Layer.above_among_of_none fun _ => beq_false_of_ne (Ne.symm same)]
      exact holds.elsewhere (h.unrelated k (List.mem_map_of_mem mem) same) _
  -- Without the section the layer is empty, so that nothing is missing from the fold.
  have silent : ∀ t, (root.toList.lookup "reconciler").isSome = false → layer t = none := by
    intro t absent
    have missing : root.get? "reconciler" = none :=
      Option.not_isSome_iff_eq_none.1 (Bool.eq_false_iff.1 absent)
    have value := h.value t
    rw [timingSection, missing] at value
    exact Option.map_eq_none_iff.1 value.symm
  have all := foldl each empty
  rw [Layer.among_eq_self silent, Layer.above_nothing] at all
  exact all

theorem layEnvironment {environment : SortedMap String} (h : EnvironmentHolds environment upper)
    (holds : Holds s lower) : Holds (Environment.lay environment s) (Layer.above upper lower) := by
  have path : ∀ t : TimingField,
      Environment.path? t.variableName = some ("reconciler." ++ t.key) := by
    intro t
    cases t <;> decide
  have silent : ∀ t : TimingField, (environment.toList.lookup t.variableName).isSome = false →
      upper t = none := by
    intro t absent
    exact h.silent (Option.not_isSome_iff_eq_none.1 (Bool.eq_false_iff.1 absent))
  rw [← Layer.among_eq_self silent]
  refine foldl ?_ holds
  rintro ⟨name, text⟩ mem s lower holds
  have here := SortedMap.mem_toList_iff.1 mem
  by_cases own : ∃ t : TimingField, name = t.variableName
  · obtain ⟨t, rfl⟩ := own
    obtain ⟨n, given, numeral⟩ := h.numeral here
    simp only [path, scalar_of_isNumeral numeral n.isLt]
    rw [Layer.among_eq_only (fun _ _ => TimingField.variableName_inj.1) given]
    exact holds.layVariable t n _
  · rw [Layer.above_among_of_none fun t => beq_false_of_ne fun same => own ⟨t, same.symm⟩]
    cases leads : Environment.path? name with
    | none =>
      simp only [leads]
      exact holds
    | some path =>
      simp only [leads]
      exact holds.elsewhere (h.unrelated name text path here (fun t same => own ⟨t, same⟩) leads) _

/-! Out of the merged values. -/

theorem number?_eq {x : Option Setting} {origin : Option SettingOrigin} {n : Option Seconds}
    (value : x = n.map fun n => .scalar origin (.int n.val)) (path : String) :
    number? path x = .ok (n.map fun n => UInt64.ofNat n.val) := by
  subst value
  cases n with
  | none => rfl
  | some n =>
    have positive : ¬ (n.val : Int) < 0 := Int.not_lt.2 (Int.natCast_nonneg _)
    simp [number?, number, scalarNumber, positive, Except.map, Except.mapError]

theorem settings_eq (h : Holds s layer) : s.settings = .ok ⟨layer.timing⟩ := by
  have standard : ∀ t : TimingField, ((layer t).map fun n => UInt64.ofNat n.val).getD
      (UInt64.ofNat t.standard) = UInt64.ofNat (layer.seconds t) := by
    intro t
    rw [Layer.seconds]
    cases layer t <;> rfl
  cases here : s.entries.lookup "reconciler" with
  | none =>
    have nothing : ∀ t, layer t = none := by
      intro t
      obtain ⟨origin, value⟩ := h.value t
      rw [TimingField.path, at?, here] at value
      exact Option.map_eq_none_iff.1 value.symm
    rw [settings, here]
    simp [Layer.timing, Layer.seconds, nothing, TimingField.standard]
  | some x =>
    obtain ⟨origin, es, rfl⟩ := h.table x here
    have value : ∀ (t : TimingField) path, number? path (es.lookup t.key) =
        .ok ((layer t).map fun n => UInt64.ofNat n.val) := by
      intro t path
      obtain ⟨origin', value⟩ := h.value t
      rw [TimingField.path, at?, here, Option.bind_some, at?_singleton] at value
      exact number?_eq value path
    have short : number? "reconciler.short_wait_secs" (es.lookup "short_wait_secs") = _ :=
      value .shortWait _
    have timeout : number? "reconciler.timeout_secs" (es.lookup "timeout_secs") = _ :=
      value .timeout _
    rw [settings, here]
    show (timing (.table origin es)).map Settings.mk = _
    rw [timing, short, timeout]
    exact congrArg (fun t => Except.ok (Settings.mk t))
      (congr (congrArg Timing.mk (standard .shortWait)) (standard .timeout))

end Setting.Holds

theorem steps_eq_cons (text : String) : ∃ name steps,
    PathStep.steps text = .child name :: steps ∧ name.toList <+: text.toList := by
  unfold PathStep.steps
  dsimp only
  split
  · split
    · exact ⟨_, _, rfl, List.prefix_rfl⟩
    · refine ⟨_, _, rfl, ?_⟩
      rw [String.toList_ofList]
      exact List.takeWhile_prefix _
  · exact ⟨_, _, rfl, List.prefix_rfl⟩

/-- A key that does not begin with the name leads elsewhere. -/
theorem apart_of_not_prefix {key name : String} (foreign : ¬ name.toList <+: key.toList)
    (path : List String) : Apart (PathStep.steps key) (name :: path) := by
  obtain ⟨first, steps, leads, begins⟩ := steps_eq_cons key
  rw [leads]
  exact .parted fun same => foreign (same ▸ begins)

/-- Each timing is that of the environment, or else of the file, or else the standard one, whatever
holds for the other. Loading gives these timings if the short wait is positive and below the timeout,
and otherwise says what is wrong with them. -/
theorem load_layered {path : Option String} {files environment : SortedMap String}
    {inFile inEnvironment : Layer} (file : FileHolds files (path.getD Config.defaultPath) inFile)
    (environmentHolds : EnvironmentHolds environment inEnvironment) :
    ∃ timing : Timing,
      (∀ t : TimingField, (t.of timing).toNat =
        match inEnvironment t, inFile t with
        | some n, _ => n.val
        | none, some n => n.val
        | none, none => t.standard) ∧
      (0 < timing.shortWait ∧ timing.shortWait < timing.timeout →
        Config.load path files environment = .ok ⟨timing⟩) ∧
      (¬ (0 < timing.shortWait ∧ timing.shortWait < timing.timeout) →
        ∃ flaw, timing.flaw? = some flaw ∧
          Config.load path files environment = .error (.validation flaw)) := by
  obtain ⟨s, merged, holds⟩ : ∃ s,
      Config.merge (path.getD Config.defaultPath) files environment = some s ∧
        Holds s (inEnvironment.above inFile) := by
    cases file with
    | missing nowhere silent =>
      have nothing : inFile = fun _ => none := funext silent
      rw [nothing, Config.merge, nowhere]
      exact ⟨_, rfl, Holds.empty.layEnvironment environmentHolds⟩
    | @present name _ _ found read root =>
      rw [Config.merge, found]
      simp only [read]
      exact ⟨_, rfl, (Holds.layFile root name).layEnvironment environmentHolds⟩
  have loaded : Config.load path files environment =
      Config.validate ⟨(inEnvironment.above inFile).timing⟩ := by
    rw [Config.load, merged]
    simp only [holds.settings_eq, Except.mapError]
    rfl
  refine ⟨(inEnvironment.above inFile).timing, fun t => ?_, fun valid => ?_, fun invalid => ?_⟩
  · rw [Layer.toNat_of_timing, Layer.seconds, Layer.above]
    cases inEnvironment t <;> cases inFile t <;> rfl
  · rw [loaded, Config.validate, Settings.flaw?, Timing.flaw?_eq_none_iff.2 valid]
  · rw [← Timing.flaw?_eq_none_iff] at invalid
    obtain ⟨flaw, found⟩ := Option.ne_none_iff_exists'.1 invalid
    refine ⟨flaw, found, ?_⟩
    rw [loaded, Config.validate, Settings.flaw?, found]

/-- A file with keys of others, beside the section of the timings and in it. -/
def plantText : String :=
  "plant = 1\n[reconciler]\nnote = \"x\"\nshort_wait_secs = 10\n[press]\ntimeout_secs = 3\n"

def plantRoot : SortedMap Json :=
  .ofList [("plant", .int 1), ("press", .obj [("timeout_secs", .int 3)]),
    ("reconciler", .obj [("note", .str "x"), ("short_wait_secs", .int 10)])]

theorem rootHolds_plant : RootHolds plantRoot (.only .shortWait 10) := by
  refine ⟨?_, ?_, ?_⟩
  · intro x here
    cases here
    exact ⟨_, rfl⟩
  · intro t
    cases t <;> decide
  · have foreign : ∀ k ∈ plantRoot.keys, k ≠ "reconciler" →
        ¬ "reconciler".toList <+: k.toList := by decide
    exact fun k mem other t => apart_of_not_prefix (foreign k mem other) _

def plantVariables : SortedMap String :=
  .ofList [("HOME", "/root"), ("ROLESYNC__RECONCILER__TIMEOUT_SECS", "45")]

theorem environmentHolds_plant : EnvironmentHolds plantVariables (.only .timeout 45) := by
  constructor
  · intro t
    cases t with
    | shortWait => exact .none
    | timeout => exact .some (isNumeral_toString 45)
  · intro name text path here other leads
    have mem : name ∈ plantVariables.keys :=
      List.mem_map_of_mem (SortedMap.mem_toList_iff.2 here)
    have foreign : ∀ name ∈ plantVariables.keys, name ≠ TimingField.timeout.variableName →
        Environment.path? name = none := by decide
    rw [foreign name mem (other .timeout)] at leads
    contradiction

/-- The file gives the one timing and the environment the other. -/
theorem plant_layered :
    let files : SortedMap String := .ofList [(Config.defaultPath, plantText)]
    FileHolds files Config.defaultPath (.only .shortWait 10) ∧
    EnvironmentHolds plantVariables (.only .timeout 45) ∧
    Config.load none files plantVariables = .ok ⟨⟨10, 45⟩⟩ := by
  intro files
  have found : Config.locate files Config.defaultPath = .file "rolesync.toml" plantText := by
    decide +kernel
  have read : Config.table? "rolesync.toml" plantText = some plantRoot := by decide +kernel
  have file : FileHolds files ((none : Option String).getD Config.defaultPath)
      (.only .shortWait 10) := .present found read rootHolds_plant
  refine ⟨file, environmentHolds_plant, ?_⟩
  obtain ⟨timing, seconds, valid, _⟩ := load_layered file environmentHolds_plant
  have short : timing.shortWait = 10 := UInt64.toNat_inj.1 (seconds .shortWait)
  have timeout : timing.timeout = 45 := UInt64.toNat_inj.1 (seconds .timeout)
  have same : timing = ⟨10, 45⟩ := by
    cases timing
    cases short
    cases timeout
    rfl
  subst same
  exact valid (by decide)

end ProviderRoles
