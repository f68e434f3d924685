import Mathlib

/-!
# The WIT data model

The records and variants of `wit/oxidhome.wit` that cross the plugin boundary. An `f64` is held as
its bit pattern: the host copies and compares these values only as data.
-/

namespace OxidHome.Wit

structure F64 where
  bits : UInt64
deriving DecidableEq, Repr

def I64_MAX : Nat := 2 ^ 63 - 1

abbrev DeviceId := String
abbrev ServiceId := String

inductive Value where
  | boolVal (b : Bool)
  | intVal (i : Int64)
  | floatVal (f : F64)
  | stringVal (s : String)
  | bytesVal (b : List UInt8)
  | jsonVal (s : String)
deriving DecidableEq, Repr

structure KeyValue where
  key : String
  value : Value
deriving DecidableEq, Repr

inductive Error where
  | notFound (message : String)
  | invalidArgument (message : String)
  | permissionDenied (message : String)
  | unavailable (message : String)
  | internal (message : String)
deriving DecidableEq, Repr

structure ColorLightSpec where
  supportsHsv : Bool
  supportsColorTemp : Bool
  colorTempMinKelvin : Option UInt32
  colorTempMaxKelvin : Option UInt32
deriving DecidableEq, Repr

structure SensorSpec where
  unit : String
  min : Option F64
  max : Option F64
deriving DecidableEq, Repr

inductive CapabilitySpec where
  | switch
  | dimmer
  | colorLight (spec : ColorLightSpec)
  | sensor (spec : SensorSpec)
  | button
  | videoStream
  | audioStream
  | extension (name : String)
deriving DecidableEq, Repr

structure Switchable where
  state : Bool
deriving DecidableEq, Repr

structure Dimmable where
  level : F64
deriving DecidableEq, Repr

structure Color where
  hue : F64
  saturation : F64
  value : F64
  colorTempKelvin : Option UInt32
deriving DecidableEq, Repr

structure Measurement where
  value : F64
  unit : String
deriving DecidableEq, Repr

inductive CapabilityState where
  | switch (s : Switchable)
  | dimmer (d : Dimmable)
  | colorLight (c : Color)
  | sensor (m : Measurement)
deriving DecidableEq, Repr

structure DeviceInfo where
  localId : String
  name : String
  manufacturer : Option String
  model : Option String
  firmware : Option String
  capabilities : List CapabilitySpec
  initialState : List CapabilityState
  metadata : List KeyValue
deriving DecidableEq, Repr

inductive CommandResult where
  | ok
  | okWithState (fields : List KeyValue)
  | err (error : Error)
deriving DecidableEq, Repr

structure CommandSpec where
  name : String
  description : Option String
  argHints : List String
deriving DecidableEq, Repr

structure ServiceInfo where
  localId : String
  name : String
  metadata : List KeyValue
  commands : List CommandSpec
deriving DecidableEq, Repr

inductive ButtonEvent where
  | pressed
  | released
  | singlePress
  | doublePress
  | longPress
  | rotated (delta : F64)
deriving DecidableEq, Repr

structure StateChange where
  capability : String
  fields : List KeyValue
deriving DecidableEq, Repr

structure InferenceResult where
  model : String
  payload : String
  frameTimestamp : Option UInt64
deriving DecidableEq, Repr

structure CustomEvent where
  topic : String
  payload : String
deriving DecidableEq, Repr

inductive EventPayload where
  | stateChanged (change : StateChange)
  | button (event : ButtonEvent)
  | inference (result : InferenceResult)
  | custom (event : CustomEvent)
deriving DecidableEq, Repr

structure Event where
  device : Option DeviceId
  timestamp : UInt64
  originPluginId : String
  originInstanceId : String
  rowId : Option Nat
  payload : EventPayload
deriving DecidableEq, Repr

structure EventFilter where
  device : Option DeviceId
  topic : Option String
deriving DecidableEq, Repr

end OxidHome.Wit
