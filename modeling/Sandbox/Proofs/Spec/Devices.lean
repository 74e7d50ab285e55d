import Sandbox.Proofs.Spec.Gains
import Sandbox.Proofs.Spec.Outcome

/-!
Devices and the rules on their use.

A device is added to two lists that stand under different parents: its node to one, and the
rule that allows its use to the other. Either list may be missing or broken, other steps
may make or change the parents, and steps may fail. Still the two lists gain the same
number of items, one for each device that was added, and those at one position are about
the same device (`Spec.devices_and_rules_paired`).
-/

namespace Sandbox

/-- A node and a rule are about a device, and the rule allows every use of it. -/
structure Device.Described (d : Device) (node rule : Json) : Prop where
  type : ∀ j ∈ [node, rule], j.member? "type" = some (.str d.kind.code)
  major : ∀ j ∈ [node, rule], j.member? "major" = some (.nat d.major.toNat)
  minor : ∀ j ∈ [node, rule], j.member? "minor" = some (.nat d.minor.toNat)
  allow : rule.member? "allow" = some (.bool true)
  access : rule.member? "access" = some (.str "rwm")

theorem Device.described (d : Device) :
    d.Described (DeviceEntry.ofDevice d).toJson (DeviceRule.ofDevice d).toJson := by
  constructor <;>
    simp [DeviceEntry.toJson, DeviceRule.toJson, DeviceEntry.ofDevice, DeviceRule.ofDevice, Json.ofList,
      Json.member?, Json.obj?, Members.get?_ofList, Members.get?]

namespace Spec

open Section

variable {s t : Spec} {path : List String}

/-- The device that a step adds. -/
def Step.device? : Step → Option Device
  | addDevice d => some d
  | _ => none

/-- The devices that steps with the given outcomes have added, in the order of the steps. -/
def addedDevices (steps : List Step) (outcomes : List (Except ConfigError Unit)) : List Device :=
  ((steps.zip outcomes).filter (·.2.isOk)).filterMap (·.1.device?)

/-- Each step of a run comes to what it would at its beginning. -/
theorem runEach_fst (s : Spec) (steps : List Step) :
    (s.runEach steps).1 = steps.map fun step => (step.apply s).1 := by
  induction steps generalizing s with
  | nil => rfl
  | cons step steps ih =>
      have later := ih (step.apply s).2
      simp only [(grows_apply s step).outcome] at later
      exact congrArg ((step.apply s).1 :: ·) later

/-- The devices that were added are those of the steps that succeed. -/
theorem addedDevices_map (outcome : Step → Except ConfigError Unit) (steps : List Step) :
    addedDevices steps (steps.map outcome) =
      (steps.filter fun step => (outcome step).isOk).filterMap Step.device? := by
  rw [addedDevices, ← List.map_prod_left_eq_zip, List.filter_map, List.filterMap_map]
  rfl

/-- A list to which only devices are added gains an item for each of them. -/
theorem flatMap_gives_devices {item : Device → Json}
    (each : ∀ step : Step, step.gives path = (step.device?.map item).toList) (steps : List Step) :
    steps.flatMap (Step.gives path) = (steps.filterMap Step.device?).map item := by
  rw [funext each, List.map_filterMap, List.filterMap_eq_flatMap_toList]

/-- The nodes and the rules of devices stay in step. After any steps, failed ones among
them, the two lists have one more item for each device that was added, in the order of the
steps and behind what the template has there, and the items at one position are about the
same device. -/
theorem devices_and_rules_paired (s : Spec) (steps : List Step) :
    let t := (s.runEach steps).2
    let added := addedDevices steps (s.runEach steps).1
    ∃ nodes rules : List Json,
      Gains nodes (s.value? ["linux", "devices"]) (t.value? ["linux", "devices"]) ∧
      Gains rules (s.value? ["linux", "resources", "devices"]) (t.value? ["linux", "resources", "devices"]) ∧
      nodes.length = added.length ∧ rules.length = added.length ∧
      ∀ (i : Nat) (d : Device), added[i]? = some d →
        ∃ node rule, nodes[i]? = some node ∧ rules[i]? = some rule ∧ d.Described node rule := by
  intro t added
  have succeeded : added = (steps.filter fun step => (step.apply s).1.isOk).filterMap Step.device? := by
    rw [← addedDevices_map, ← runEach_fst]
  have run := run_of_runEach s steps
  have nodes := gains_of_run run .devices
  rw [flatMap_gives_devices (by rintro ⟨⟩ <;> rfl), ← succeeded] at nodes
  have rules := gains_of_run run .rules
  rw [flatMap_gives_devices (by rintro ⟨⟩ <;> rfl), ← succeeded] at rules
  refine ⟨_, _, nodes, rules, List.length_map _, List.length_map _, fun i d here => ?_⟩
  refine ⟨_, _, ?_, ?_, d.described⟩
  · rw [List.getElem?_map, here]
    rfl
  · rw [List.getElem?_map, here]
    rfl

end Spec

end Sandbox
