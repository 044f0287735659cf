import Mathlib.Data.List.Induction
import ProviderRoles.Config.Path

/-! What a change at a path does to a configuration. Where the path leads, the new value is found.
Nothing moves at a path that parts ways with it, and tables stay tables. A table that is merged in
adds the entries it has and leaves the others. -/
namespace ProviderRoles.Setting

/-- What lies at the end of a path of names. -/
def at? : List String → Setting → Option Setting
  | [], s => some s
  | name :: path, s => (s.entries.lookup name).bind (at? path)

/-- The steps part ways with the path: after a common stretch they go to a child of another name. -/
inductive Apart : List PathStep → List String → Prop where
  | parted {a b : String} {steps : List PathStep} {path : List String} (differ : a ≠ b) :
      Apart (.child a :: steps) (b :: path)
  | further {a : String} {steps : List PathStep} {path : List String} (h : Apart steps path) :
      Apart (.child a :: steps) (a :: path)

/-- Whatever has the name is a table. -/
def KeepsTable (name : String) (s : Setting) : Prop :=
  ∀ x, s.entries.lookup name = some x → ∃ origin es, x = .table origin es

variable {name : String} {path : List String} {steps : List PathStep} {s : Setting}

theorem at?_missing (longer : path ≠ []) : at? path missing = none := by
  cases path with
  | nil => contradiction
  | cons name path => rfl

theorem at?_singleton (name : String) (s : Setting) : at? [name] s = s.entries.lookup name := by
  rw [at?]
  cases s.entries.lookup name <;> rfl

/-- The next value on the way, or the empty one that takes its place, shows what lies behind. -/
theorem at?_next (name : String) (path : List String) (s : Setting) :
    (at? path ((s.entries.lookup name).getD missing)).getD missing =
      (at? (name :: path) s).getD missing := by
  rw [at?]
  cases s.entries.lookup name with
  | some inner => rfl
  | none => cases path <;> rfl

theorem at?_next_of_ne_nil (longer : path ≠ []) :
    at? path ((s.entries.lookup name).getD missing) = at? (name :: path) s := by
  rw [at?]
  cases s.entries.lookup name with
  | some inner => rfl
  | none => exact at?_missing longer

theorem lookup_change (f : Setting → Setting) (a : String) (steps : List PathStep) (s : Setting)
    (name : String) : (change f (.child a :: steps) s).entries.lookup name =
      if name = a then some (change f steps ((s.entries.lookup a).getD missing))
      else s.entries.lookup name :=
  lookup_insertEntry ..

theorem at?_change (f : Setting → Setting) (path : List String) (s : Setting) :
    at? path (change f (path.map .child) s) = some (f ((at? path s).getD missing)) := by
  induction path generalizing s with
  | nil => rfl
  | cons name path ih =>
    rw [at?, List.map_cons, lookup_change, if_pos rfl, Option.bind_some, ih, at?_next]

theorem Apart.ne_nil (h : Apart steps path) : path ≠ [] := by
  cases h <;> exact List.cons_ne_nil _ _

theorem at?_change_of_apart (f : Setting → Setting) (h : Apart steps path) :
    at? path (change f steps s) = at? path s := by
  induction h generalizing s with
  | parted differ => rw [at?, lookup_change, if_neg (Ne.symm differ), at?]
  | further h ih =>
    rw [at?, lookup_change, if_pos rfl, Option.bind_some, ih, at?_next_of_ne_nil h.ne_nil]

theorem keepsTable_change_below (f : Setting → Setting) (name a : String) (steps : List PathStep)
    (s : Setting) : KeepsTable name (change f (.child name :: .child a :: steps) s) := by
  intro x here
  rw [lookup_change, if_pos rfl] at here
  cases here
  exact ⟨_, _, rfl⟩

theorem keepsTable_change_of_apart (f : Setting → Setting) {below : String}
    (h : Apart steps (name :: below :: path)) (table : KeepsTable name s) :
    KeepsTable name (change f steps s) := by
  cases h with
  | parted differ =>
    intro x here
    rw [lookup_change, if_neg (Ne.symm differ)] at here
    exact table x here
  | further h =>
    cases h with
    | parted _ => exact keepsTable_change_below f name _ _ s
    | further _ => exact keepsTable_change_below f name _ _ s

/-! Merging. -/

theorem ofMembers_append (origin : SettingOrigin) (ms ms' : List (String × Json)) :
    ofMembers origin (ms ++ ms') = ofMembers origin ms ++ ofMembers origin ms' := by
  induction ms with
  | nil => rfl
  | cons e ms ih => rw [List.cons_append, ofMembers, ih, ofMembers, List.cons_append]

theorem mergeEntries_append (es es' old : List (String × Setting)) :
    mergeEntries (es ++ es') old = mergeEntries es' (mergeEntries es old) := by
  induction es generalizing old with
  | nil => rw [List.nil_append, mergeEntries]
  | cons e es ih =>
    obtain ⟨k, new⟩ := e
    rw [List.cons_append, mergeEntries, ih, mergeEntries]

/-- Among entries of one name the last one counts, like everywhere. It replaces what was there unless
it is a table. -/
theorem lookup_mergeEntries (origin : SettingOrigin) (ms : List (String × Json))
    (old : List (String × Setting))
    (plain : ∀ x, (SortedMap.ofList ms).get? name = some x →
      ∀ s, merge (ofJson origin x) s = ofJson origin x) :
    (mergeEntries (ofMembers origin ms) old).lookup name =
      (((SortedMap.ofList ms).get? name).map (ofJson origin)).or (old.lookup name) := by
  induction ms using List.reverseRecOn with
  | nil => rfl
  | append_singleton ms e ih =>
    obtain ⟨k, x⟩ := e
    have last : SortedMap.ofList (ms ++ [(k, x)]) = (SortedMap.ofList ms).insert k x := by
      rw [SortedMap.ofList, List.foldl_append]
      rfl
    rw [last] at plain ⊢
    rw [ofMembers_append, mergeEntries_append, ofMembers, ofMembers, mergeEntries, mergeEntries,
      lookup_insertEntry]
    rw [SortedMap.get?_insert] at plain ⊢
    by_cases here : name = k
    · rw [if_pos here] at plain ⊢
      rw [if_pos here, plain x rfl]
      rfl
    · rw [if_neg here] at plain ⊢
      rw [if_neg here, ih plain]

end ProviderRoles.Setting
