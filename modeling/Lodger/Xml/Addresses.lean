import Lodger.Validate.Subnets
import Lodger.Xml.Network

namespace Lodger.Xml

open Validate

-- An address that a host of the subnet can have.
def HostAddress (net : Ipv4Net) (addr : Nat) : Prop :=
  net.containsAddr addr = true ∧ addr ≠ net.network ∧ addr ≠ net.broadcast

-- What another program reads in the `<ip>` of a network.
def gatewayOf (ip : Element) : Option Nat := (attr ip "address").bind parseAddr

def dhcpRange (ip : Element) : Option (Nat × Nat) := do
  let range ← (ip.getChild "dhcp").bind (·.getChild "range")
  let start ← (attr range "start").bind parseAddr
  let stop ← (attr range "end").bind parseAddr
  some (start, stop)

section Plan

variable {net : Ipv4Net}

-- A prefix of at most 30 leaves two addresses between the first and the last one.
theorem room (h : net.prefixLen ≤ SUBNET_MAX_PREFIX) : net.network + 3 ≤ net.broadcast := by
  have hsize := net.four_le_size h
  rw [Ipv4Net.broadcast]
  omega

theorem gatewayOf_ip (h : net.network + 1 < 2 ^ 32) : gatewayOf (ip net) = some (net.network + 1) := by
  simp only [gatewayOf, ip, attr_push, attr_elementWith]
  exact parseAddr_addrText h

theorem dhcpRange_ip (hstart : net.network + 2 < 2 ^ 32) (hend : net.broadcast - 1 < 2 ^ 32) :
    dhcpRange (ip net) = some (net.network + 2, net.broadcast - 1) := by
  have hs := parseAddr_addrText hstart
  have he := parseAddr_addrText hend
  simp [dhcpRange, ip, hs, he, List.lookup]

-- The arithmetic of `ip` stays inside 32 bits, and its gateway and its DHCP range share the
-- host addresses of the subnet out.
theorem address_plan_sound [Ipnet] (field value : String) (net : Ipv4Net)
    (h : parseSubnet field value = .ok net) :
    (net.network + 1 < 2 ^ 32 ∧ net.network + 2 < 2 ^ 32 ∧ 1 ≤ net.broadcast ∧
      net.broadcast < 2 ^ 32) ∧
    ∃ gateway start stop, gatewayOf (ip net) = some gateway ∧
      dhcpRange (ip net) = some (start, stop) ∧
      HostAddress net gateway ∧ HostAddress net start ∧ HostAddress net stop ∧ start ≤ stop ∧
      ¬(start ≤ gateway ∧ gateway ≤ stop) ∧
      ∀ addr, HostAddress net addr ↔ addr = gateway ∨ start ≤ addr ∧ addr ≤ stop := by
  obtain ⟨-, hsubnet⟩ := parseSubnet_spec h
  have hroom := room hsubnet.prefixLen_le
  have hlt := net.broadcast_lt
  refine ⟨by omega, net.network + 1, net.network + 2, net.broadcast - 1, gatewayOf_ip (by omega),
    dhcpRange_ip (by omega) (by omega), ?_⟩
  simp only [HostAddress, Ipv4Net.containsAddr, Bool.and_eq_true, decide_eq_true_eq]
  refine ⟨by omega, by omega, by omega, by omega, by omega, ?_⟩
  intro addr
  omega

local instance smallestIpnet : Ipnet where
  parse text :=
    if text = "10.255.255.252/30" then
      some ⟨10 * 2 ^ 24 + 0xfffffc, 30, by decide, by decide⟩
    else none

-- The last /30 of 10.0.0.0/8: the DHCP range has one address.
theorem address_plan_sound_smallest : ∃ net, parseSubnet "Subnet" "10.255.255.252/30" = .ok net ∧
    ∃ gateway start, gatewayOf (ip net) = some gateway ∧ dhcpRange (ip net) = some (start, start) ∧
      ∀ addr, HostAddress net addr ↔ addr = gateway ∨ addr = start := by
  have hnet : parseSubnet "Subnet" "10.255.255.252/30" =
      .ok ⟨10 * 2 ^ 24 + 0xfffffc, 30, by decide, by decide⟩ := by decide +kernel
  obtain ⟨-, gateway, start, stop, hgateway, hrange, -, -, -, -, -, hall⟩ :=
    address_plan_sound _ _ _ hnet
  have hone : dhcpRange (ip ⟨10 * 2 ^ 24 + 0xfffffc, 30, by decide, by decide⟩) =
      some (10 * 2 ^ 24 + 0xfffffe, 10 * 2 ^ 24 + 0xfffffe) := by decide +kernel
  rw [hone, Option.some.injEq, Prod.mk.injEq] at hrange
  obtain ⟨rfl, rfl⟩ := hrange
  refine ⟨_, hnet, gateway, _, hgateway, hone, ?_⟩
  intro addr
  rw [hall addr]
  omega

end Plan

end Lodger.Xml
