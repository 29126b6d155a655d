import NetKit.Datagram
import NetKit.Proofs.Address.Classes

/-!
# Replies go back to where a datagram came from

A reply swaps the ends of a datagram, but the address of a group of hosts never becomes a sender.
The reply to a reply has the ends of the first datagram exactly if neither of them is a group.
-/

namespace NetKit

namespace Address

variable {a b : Address} {ip : Ipv4}

/-! ## Groups of hosts -/

def groupsV4 : List Subnet := [.v4 255 255 255 255 32, .v4 224 0 0 0 4]

def groupsV6 : List Subnet := [.v6 0xFF00 8]

/-- Broadcast or multicast: as an IPv4 address, mapped into IPv6 or not, or as an IPv6 address. -/
def IsGroup (a : Address) : Prop :=
  (∃ ip ∈ a.toIpv4?, isIn (ofIpv4 ip) groupsV4 = true) ∨ a.isIn groupsV6 = true

theorem isNonUnicast_iff : a.isNonUnicast = true ↔ a.isBroadcast = true ∨ a.isMulticast = true :=
  Bool.or_eq_true_iff

theorem isNonUnicast_of_class?_eq (h : a.class? = b.class?) : a.isNonUnicast = b.isNonUnicast := by
  simp only [isNonUnicast, isBroadcast, isMulticast, h]

theorem isNonUnicast_ofIpv4 (ip : Ipv4) :
    isNonUnicast (ofIpv4 ip) = true ↔ isIn (ofIpv4 ip) groupsV4 = true := by
  have hbroadcast : ip = .ofOctets 255 255 255 255 ↔
      isIn (ofIpv4 ip) [.v4 255 255 255 255 32] = true := by
    rw [ofIpv4, isIn_v4 (by decide), isIn_nil, or_false, ← BitVec.toNat_inj]
    simp [Ipv4.ofOctets]
  rw [isNonUnicast_iff, ofIpv4, isBroadcast_v4, isMulticast_v4, hbroadcast, ofIpv4, groupsV4]
  simp only [isIn_cons, isIn_nil, or_false]

theorem class?_of_toIpv4? (h : a.toIpv4? = some ip) : a.class? = (ofIpv4 ip).class? := by
  obtain ⟨host, scope⟩ := a
  cases host with
  | null => cases h
  | any =>
    cases h
    rfl
  | v4 v4 =>
    cases h
    rfl
  | v6 v6 =>
    have hmapped : v6.toIpv4? = some ip := h
    rw [Ipv6.toIpv4?_eq_some_iff.mp hmapped]
    exact class?_mapped ip scope ""

theorem isIn_groupsV6_iff :
    a.isIn groupsV6 = true ↔ ∃ ip : Ipv6, a.host = .v6 ip ∧ ip.toNat / 2 ^ 120 = 0xFF := by
  obtain ⟨host, scope⟩ := a
  cases host with
  | v6 ip =>
    rw [groupsV6, isIn_v6 (by decide) (by decide), isIn_nil, or_false]
    simp
  | null | any | v4 ip =>
    refine iff_of_false (fun h => ?_) nofun
    -- the base is of another family, or the address of none
    rw [groupsV6, isIn_cons, isIn_nil, or_false, Subnet.contains_iff] at h
    obtain ⟨w, hw, hbase, -⟩ := h
    cases hbase
    cases hw

theorem not_isBroadcast_v6 {v6 : Ipv6} (h : ∀ ip, v6 ≠ .ofIpv4 ip) (scope : String) :
    ¬ isBroadcast ⟨.v6 v6, scope⟩ = true := by
  rw [isBroadcast, class?_v6, Ipv6.addressClass_eq h]
  split_ifs <;> simp

theorem isNonUnicast_iff_isGroup : a.isNonUnicast = true ↔ a.IsGroup := by
  cases h : a.toIpv4? with
  | some ip =>
    have hv6 : ¬ a.isIn groupsV6 = true := by
      rw [isIn_groupsV6_iff]
      rintro ⟨v6, hhost, hv6⟩
      have hmapped : v6.toIpv4? = some ip := by rwa [toIpv4?, hhost] at h
      have hlt := ip.isLt
      rw [Ipv6.toIpv4?_eq_some_iff.mp hmapped, Ipv6.ofIpv4, BitVec.toNat_ofNat] at hv6
      omega
    rw [isNonUnicast_of_class?_eq (class?_of_toIpv4? h), isNonUnicast_ofIpv4, IsGroup, h,
      or_iff_left hv6]
    simp
  | none =>
    have hv4 : ¬ ∃ ip ∈ a.toIpv4?, isIn (ofIpv4 ip) groupsV4 = true := by
      rw [h]
      rintro ⟨ip, hip, -⟩
      cases hip
    rw [IsGroup, or_iff_right hv4]
    obtain ⟨host, scope⟩ := a
    cases host with
    | null =>
      have hunicast : isNonUnicast ⟨.null, scope⟩ = false := rfl
      rw [hunicast, isIn_groupsV6_iff]
      refine iff_of_false Bool.false_ne_true ?_
      rintro ⟨v6, hhost, -⟩
      cases hhost
    | v6 v6 =>
      have hmapped : ∀ ip, v6 ≠ .ofIpv4 ip := by
        rintro ip rfl
        cases h.symm.trans (Ipv6.toIpv4?_eq_some_iff.mpr rfl)
      rw [isNonUnicast_iff, or_iff_right (not_isBroadcast_v6 hmapped scope), isMulticast_v6 hmapped]
      rfl
    | v4 ip | any => cases h

theorem not_isGroup_null : ¬ null.IsGroup := by
  rw [← isNonUnicast_iff_isGroup]
  decide

end Address

/-! ## Replies -/

namespace Datagram

variable {d : Datagram} {x : Bytes}

theorem reply_sender_of_isGroup (h : d.destination.IsGroup) : (d.reply x).sender = .null :=
  if_pos (Address.isNonUnicast_iff_isGroup.mpr h)

theorem reply_sender_of_not_isGroup (h : ¬ d.destination.IsGroup) :
    (d.reply x).sender = d.destination :=
  if_neg (mt Address.isNonUnicast_iff_isGroup.mp h)

theorem not_isGroup_reply_sender (d : Datagram) (x : Bytes) : ¬ (d.reply x).sender.IsGroup := by
  by_cases h : d.destination.IsGroup
  · rw [reply_sender_of_isGroup h]
    exact Address.not_isGroup_null
  · rwa [reply_sender_of_not_isGroup h]

theorem reply_reply (d : Datagram) (x y : Bytes) : (d.reply x).reply y =
    { d with
      data := y
      hopLimit := none
      sender := ((d.reply x).reply y).sender
      destination := (d.reply x).sender } := rfl

/-- An end that is a group is lost on the way back. -/
theorem reply_reply_eq_iff (d : Datagram) (x y : Bytes) :
    (d.reply x).reply y = { d with data := y, hopLimit := none } ↔
      ¬ d.sender.IsGroup ∧ ¬ d.destination.IsGroup := by
  constructor
  · intro h
    have hsender : ((d.reply x).reply y).sender = d.sender := by rw [h]
    have hdestination : (d.reply x).sender = d.destination :=
      show ((d.reply x).reply y).destination = d.destination by rw [h]
    exact ⟨hsender ▸ not_isGroup_reply_sender (d.reply x) y,
      hdestination ▸ not_isGroup_reply_sender d x⟩
  · rintro ⟨hsender, hdestination⟩
    have hback : ((d.reply x).reply y).sender = d.sender := reply_sender_of_not_isGroup hsender
    rw [reply_reply, hback, reply_sender_of_not_isGroup hdestination]

/-- Addresses go back with their scopes, ports also when they are unset. -/
theorem reply_goes_to_sender (d : Datagram) (x y : Bytes) :
    let r := d.reply x
    (r.destination = d.sender ∧ r.destinationPort = d.senderPort ∧
      r.senderPort = d.destinationPort ∧ r.interface = d.interface ∧ r.hopLimit = none ∧
      r.data = x) ∧
    (d.destination.IsGroup ∧ r.sender = .null ∨
      ¬ d.destination.IsGroup ∧ r.sender = d.destination) ∧
    ¬ r.sender.IsGroup ∧
    (r.reply y = { d with data := y, hopLimit := none } ↔
      ¬ d.sender.IsGroup ∧ ¬ d.destination.IsGroup) := by
  refine ⟨⟨rfl, rfl, rfl, rfl, rfl, rfl⟩, ?_, not_isGroup_reply_sender d x,
    reply_reply_eq_iff d x y⟩
  by_cases h : d.destination.IsGroup
  · exact .inl ⟨h, reply_sender_of_isGroup h⟩
  · exact .inr ⟨h, reply_sender_of_not_isGroup h⟩

/-- An IPv4-mapped group is left out like the group itself. -/
example : (reply { destination := .ofIpv6 (.ofIpv4 (.ofOctets 239 1 2 3)) } []).sender = .null := by
  decide

end Datagram
end NetKit
