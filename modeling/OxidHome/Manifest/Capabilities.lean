import OxidHome.Dispatch.Dispatcher

/-!
# Capabilities

`[capabilities]` of a manifest and the grant of an installation.
-/

namespace OxidHome.Manifest
open Dispatch

inductive Proto where
  | tcp | udp | https | any
deriving DecidableEq

inductive IpNet where
  | v4 (addr : BitVec 32) (prefixLen : Nat)
  | v6 (addr : BitVec 128) (prefixLen : Nat)
deriving DecidableEq

inductive HostMatch where
  | exact (host : String)
  | suffixWildcard (suffix : String)
  | cidr (net : IpNet)
deriving DecidableEq

inductive PortMatch where
  | exact (port : UInt16)
  | range (first last : UInt16)
  | any
deriving DecidableEq

structure NetworkRule where
  proto : Proto
  host : HostMatch
  port : PortMatch
deriving DecidableEq

structure CapabilitiesSection where
  network : List NetworkRule
  storageQuotaKb : Nat
  blobQuotaMb : Nat
  declaresDevices : List String
  declaresServices : List String
  consumesServices : List ServiceGrant
  subscribesEvents : Bool

def MAX_CONSUMES_SERVICES_GRANTS : Nat := 128
def MAX_COMMANDS_PER_GRANT : Nat := 64

/-- `check_capability_limits_owned` -/
def checkCapabilityLimits (caps : CapabilitiesSection) : Bool :=
  caps.consumesServices.length ≤ MAX_CONSUMES_SERVICES_GRANTS &&
    caps.consumesServices.all fun grant => grant.commands.length ≤ MAX_COMMANDS_PER_GRANT

def intersectByEq {α : Type} [DecidableEq α] (a b : List α) : List α := a.filter (· ∈ b)

def effectiveCapabilities (requested granted : CapabilitiesSection) : CapabilitiesSection where
  network := intersectByEq requested.network granted.network
  storageQuotaKb := min requested.storageQuotaKb granted.storageQuotaKb
  blobQuotaMb := min requested.blobQuotaMb granted.blobQuotaMb
  declaresDevices := intersectByEq requested.declaresDevices granted.declaresDevices
  declaresServices := intersectByEq requested.declaresServices granted.declaresServices
  consumesServices := granted.consumesServices
  subscribesEvents := requested.subscribesEvents && granted.subscribesEvents

namespace CapabilitiesSection

/-- What `caps` allows, `bound` allows. -/
structure BoundedBy (caps bound : CapabilitiesSection) : Prop where
  network : caps.network ⊆ bound.network
  storageQuotaKb : caps.storageQuotaKb ≤ bound.storageQuotaKb
  blobQuotaMb : caps.blobQuotaMb ≤ bound.blobQuotaMb
  declaresDevices : caps.declaresDevices ⊆ bound.declaresDevices
  declaresServices : caps.declaresServices ⊆ bound.declaresServices
  consumesServices : caps.consumesServices ⊆ bound.consumesServices
  subscribesEvents : caps.subscribesEvents = true → bound.subscribesEvents = true

end CapabilitiesSection

theorem intersectByEq_subset {α : Type} [DecidableEq α] (a b : List α) : intersectByEq a b ⊆ b := by
  intro x mem
  simpa using List.of_mem_filter mem

theorem effectiveCapabilities_bounded (requested granted : CapabilitiesSection) :
    (effectiveCapabilities requested granted).BoundedBy granted where
  network := intersectByEq_subset _ _
  storageQuotaKb := Nat.min_le_right _ _
  blobQuotaMb := Nat.min_le_right _ _
  declaresDevices := intersectByEq_subset _ _
  declaresServices := intersectByEq_subset _ _
  consumesServices := fun _ => id
  subscribesEvents := by
    intro both
    exact (Bool.and_eq_true_iff.mp both).2

end OxidHome.Manifest
