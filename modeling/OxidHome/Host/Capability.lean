import OxidHome.Wit

/-!
# Capability names

The names of `runtime/state.rs` under which capabilities are declared, addressed and projected.
-/

namespace OxidHome.Host
open Wit

def capabilityName : CapabilitySpec → String
  | .switch => "switch"
  | .dimmer => "dimmer"
  | .colorLight _ => "color-light"
  | .sensor _ => "sensor"
  | .button => "button"
  | .videoStream => "video-stream"
  | .audioStream => "audio-stream"
  | .extension name => "extension(" ++ name ++ ")"

def capabilityStateName : CapabilityState → String
  | .switch _ => "switch"
  | .dimmer _ => "dimmer"
  | .colorLight _ => "color-light"
  | .sensor _ => "sensor"

def seedFields : CapabilityState → List KeyValue
  | .switch s => [⟨"state", .boolVal s.state⟩]
  | .dimmer d => [⟨"level", .floatVal d.level⟩]
  | .colorLight c =>
      [⟨"hue", .floatVal c.hue⟩, ⟨"saturation", .floatVal c.saturation⟩,
        ⟨"value", .floatVal c.value⟩] ++
      match c.colorTempKelvin with
      | some kelvin => [⟨"color_temp_kelvin", .intVal (Int64.ofNat kelvin.toNat)⟩]
      | none => []
  | .sensor m => [⟨"value", .floatVal m.value⟩, ⟨"unit", .stringVal m.unit⟩]

def seedStateFromInitial (info : DeviceInfo) : List (String × List KeyValue) :=
  info.initialState.map fun state => (capabilityStateName state, seedFields state)

end OxidHome.Host
