import Sandbox.Proofs.Spec.Gains

/-!
The environment of a process, as steps build it.

Steps append entries and do nothing else to it (`environment_of_run`). Of several
entries for one name the last counts (`lastNamed?`), so who appends last decides.
-/

namespace Sandbox.Spec

open Section

variable {s s' : Spec}

/-- The entries of the environment. -/
def environment (s : Spec) : List Json :=
  (items? (s.value? ["process", "env"])).getD []

/-- The entries that a step appends. -/
def Step.entries : Step → List String
  | pushEnv key value => [key ++ "=" ++ value]
  | pushEnvEntry entry => [entry]
  | _ => []

theorem Step.gives_env (step : Step) : step.gives ["process", "env"] = step.entries.map .str := by
  cases step <;> simp [gives, additions, entries]

/-- Steps append their entries to the environment, in their order, and do nothing else to
it. -/
theorem gains_env_of_run {steps : List Step} (ok : s.run steps = (.ok (), s')) :
    Gains ((steps.flatMap Step.entries).map .str) (s.value? ["process", "env"]) (s'.value? ["process", "env"]) := by
  have gained := gains_of_run ok .env
  rwa [funext Step.gives_env, ← List.map_flatMap] at gained

theorem environment_of_run {steps : List Step} (ok : s.run steps = (.ok (), s')) :
    s'.environment = s.environment ++ (steps.flatMap Step.entries).map .str :=
  (gains_env_of_run ok).getD_items?

/-- Once there are entries, they stand in a list. -/
theorem value?_env_of_run {steps : List Step} (ok : s.run steps = (.ok (), s'))
    (some : steps.flatMap Step.entries ≠ []) :
    s'.value? ["process", "env"] = Option.some (.arr s'.environment) := by
  obtain ⟨l, -, list⟩ := (gains_env_of_run ok).appends (by simpa using some)
  rw [environment, list]
  rfl

/-! ### What an entry is for -/

/-- What an entry is for: the text before the first `=`. -/
def entryName (entry : String) : String :=
  .ofList (entry.toList.takeWhile (· ≠ '='))

/-- The last of the entries for a name. -/
def lastNamed? (name : String) (items : List Json) : Option Json :=
  (items.filter fun j => j.str?.map entryName = some name).getLast?

/-- The value that an entry gives: the text behind the first `=`. -/
def entryValue (entry : String) : String :=
  .ofList ((entry.toList.dropWhile (· ≠ '=')).drop 1)

/-- The value of a variable, as the last entry for it gives it. -/
def variableValue? (s : Spec) (name : String) : Option String :=
  ((lastNamed? name s.environment).bind Json.str?).map entryValue

theorem entryValue_of_not_mem {key : String} (value : String) (plain : '=' ∉ key.toList) :
    entryValue (key ++ "=" ++ value) = value := by
  unfold entryValue
  have stop : ("=" : String).toList = ['='] := rfl
  rw [String.toList_append, String.toList_append, stop, List.append_assoc, List.dropWhile_append_of_pos]
  · simp
  · intro c mem
    simpa using fun e : c = '=' => plain (e ▸ mem)

theorem entryName_of_not_mem {key : String} (value : String) (plain : '=' ∉ key.toList) :
    entryName (key ++ "=" ++ value) = key := by
  unfold entryName
  have stop : ("=" : String).toList = ['='] := rfl
  rw [String.toList_append, String.toList_append, stop, List.append_assoc, List.takeWhile_append_of_pos]
  · simp
  · intro c mem
    simpa using fun e : c = '=' => plain (e ▸ mem)

/-- Who appends entries last decides about the names in them. -/
theorem lastNamed?_append {name : String} {items : List Json} {entries : List String} {entry : String}
    (last : (entries.filter (entryName · = name)).getLast? = some entry) :
    lastNamed? name (items ++ entries.map .str) = some (.str entry) := by
  have mine : (entries.map Json.str).filter (fun j => j.str?.map entryName = some name) =
      (entries.filter (entryName · = name)).map .str := by
    rw [List.filter_map]
    congr 2
    funext e
    simp [Json.str?]
  rw [lastNamed?, List.filter_append, mine, List.getLast?_append, List.getLast?_map, last]
  rfl

end Sandbox.Spec
