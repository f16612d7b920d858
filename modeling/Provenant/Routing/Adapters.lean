import Mathlib.Data.List.Basic
import Provenant.Data.Json

/-!
# Adapters

The adapters are a closed table of facts, among them what a launch may ask of each. This file has
the names, the table, and the check of a launch against it.

## Main definitions

* `Routing.identifier` — the names that adapters, roles and graphs may have.
* `Routing.AdapterSpec`, `Routing.adapterSpecs`, `Routing.AdapterSpec.get` — the table.
* `Routing.AdapterSpec.checkLaunch` — the first field of a launch that an adapter refuses.
-/

namespace Provenant.Routing

open Json

/-! ### Texts -/

/-- `u8::is_ascii_alphanumeric`. -/
def isAsciiAlphanumeric (byte : UInt8) : Bool :=
  decide (48 ≤ byte ∧ byte ≤ 57) || decide (65 ≤ byte ∧ byte ≤ 90) ||
    decide (97 ≤ byte ∧ byte ≤ 122)

/-- `identifier`: at most 64 ASCII letters, digits, `-`, `_` and `.`. -/
def identifier (name : Text) : Bool :=
  !name.isEmpty && decide (name.length ≤ 64) &&
    name.all fun byte => isAsciiAlphanumeric byte || byte == 45 || byte == 95 || byte == 46

/-! ### Adapters -/

/-- `NetworkAccess`. -/
inductive NetworkAccess
  | provider
  | localhost
  | unrestricted
  deriving DecidableEq

/-- `LaunchCapabilities`, as far as a route is checked against them. -/
structure LaunchCapabilities where
  model : Bool
  effort : Bool
  resume : Bool
  network : List NetworkAccess
  imageInput : Bool
  write : Bool

/-- `AdapterSpec`, as far as selection and admission read it. -/
structure AdapterSpec where
  name : Text
  /-- The adapter has a location for skills. -/
  skills : Bool
  allowancePrefix : Option Text
  allowanceWindows : List Text
  groupedQuotaPools : Bool
  quotaModelPrefix : Option Text
  freeAccount : Option (Text × Text)
  freePool : Option Text
  launch : LaunchCapabilities

/-- `ALL_NETWORK`. -/
def allNetwork : List NetworkAccess := [.provider, .localhost, .unrestricted]

/-- An adapter with no allowance, no quota prefix, no free account and no grouped pools. -/
def plainAdapter (name : Text) (skills : Bool) (launch : LaunchCapabilities) : AdapterSpec where
  name := name
  skills := skills
  allowancePrefix := none
  allowanceWindows := []
  groupedQuotaPools := false
  quotaModelPrefix := none
  freeAccount := none
  freePool := none
  launch := launch

/-- `ADAPTER_SPECS`. -/
def adapterSpecs : List AdapterSpec :=
  [plainAdapter (text "claude") true ⟨true, true, true, allNetwork, true, true⟩,
    plainAdapter (text "codex") true ⟨true, true, true, allNetwork, true, true⟩,
    plainAdapter (text "cursor") true ⟨true, false, true, allNetwork, false, true⟩,
    { plainAdapter (text "agy") true ⟨true, true, true, allNetwork, false, true⟩ with
      groupedQuotaPools := true },
    { plainAdapter (text "opencode") true ⟨true, true, true, allNetwork, false, true⟩ with
      allowancePrefix := some (text "opencode-go/")
      allowanceWindows := [text "five_hour", text "seven_day", text "thirty_day"]
      quotaModelPrefix := some (text "opencode-go/")
      freeAccount := some (text "zen", text "opencode/")
      freePool := some (text "opencode-free") },
    plainAdapter (text "command") false ⟨false, false, false, allNetwork, false, false⟩,
    plainAdapter (text "host-native") false ⟨false, false, false, allNetwork, false, true⟩]

/-- `AdapterSpec::get`. -/
def AdapterSpec.get (name : Text) : Option AdapterSpec :=
  adapterSpecs.find? fun spec => spec.name == name

/-- `LaunchRequest`. -/
structure LaunchRequest where
  model : Option Text
  effort : Option Text
  resume : Bool
  network : Option NetworkAccess
  write : Bool
  skillLocation : Bool

/-- `LaunchField`. -/
inductive LaunchField
  | model
  | effort
  | resume
  | network
  | write
  | skillLocation
  deriving DecidableEq

/-- `AdapterSpec::check_launch`: the first field the adapter refuses. -/
def AdapterSpec.checkLaunch (spec : AdapterSpec) (request : LaunchRequest) : Option LaunchField :=
  let caps := spec.launch
  if request.model.isSome && !caps.model then some .model
  else if request.effort.isSome && !caps.effort then some .effort
  else if request.resume && !caps.resume then some .resume
  else if request.network.any fun mode => !caps.network.contains mode then some .network
  else if request.write && !caps.write then some .write
  else if request.skillLocation && !spec.skills then some .skillLocation
  else none

end Provenant.Routing
