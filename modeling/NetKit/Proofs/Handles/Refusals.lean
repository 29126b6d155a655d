import NetKit.Bytes
import NetKit.Cookie
import NetKit.Proofs.Address.Identity
import NetKit.Proofs.Headers.Changes

/-!
# Changes that leave the value as it is

A header list is opened before the field and the index of a change are looked at, all but the index of
a field to be removed. So a handle that shared a list has one of its own after a refusal. Addresses
and cookies are looked at first, and a change that they do not take leaves everything as it was.
-/

namespace NetKit

theorem Headers.refused_of_not_allowed {h : Headers} {e : Headers.Edit} (hnot : ¬ e.IsAllowed h) :
    Editable.change? e h = none ∧ Editable.result e h = h := by
  have hnone : Editable.change? e h = none := by
    rw [← Option.not_isSome_iff_eq_none]
    exact mt Headers.isSome_change?_iff.mp hnot
  exact ⟨hnone, Handles.result_of_refused hnone⟩

/-- Only the index of a field to be removed is looked at beforehand. -/
theorem Headers.closed_iff_of_not_allowed {h : Headers} {e : Headers.Edit}
    (hnot : ¬ e.IsAllowed h) : Editable.opens e h = false ↔ ∃ i, e = .removeAt i := by
  cases e with
  | removeAt i => exact ⟨fun _ => ⟨i, rfl⟩, fun _ => decide_eq_false hnot⟩
  | _ =>
      constructor
      · intro hclosed
        cases hclosed
      · rintro ⟨_, he⟩
        cases he

theorem Address.closed_of_not_v6 {a : Address} (hnot : ∀ ip, a.host ≠ .v6 ip) (scope : String) :
    Editable.opens (Address.Edit.setScope scope) a = false := by
  refine Bool.eq_false_iff.mpr fun hopens => ?_
  obtain ⟨ip, hip⟩ := Address.takesScope_iff.mp hopens
  exact hnot ip hip

theorem Cookie.change?_of_no_url {url : String} {fault : Url.Fault} (c : Cookie)
    (hurl : Url.parse url = .error fault) : Cookie.change? (.normalize url) c = none := by
  rw [Cookie.change?, hurl]

namespace Handles

variable {α ε : Type} {s : Handles α} {n : Nat} {a : α} {e : ε}

/-- A change that leaves the value as it is leaves what every handle reads as it was. The counts stay
too exactly if the value is not opened for it or not shared. That is so for header fields that are
refused on a list that one handle alone holds; on a shared list it is so for the removal of a field
that is not there and for no other refusal, after which the handle is alone with a list of its own.
An address that is not of IPv6 is not opened to be given a scope, and no cookie is opened for a text
that is no URL. -/
theorem refused_unseen_iff [Editable α ε] [DecidableEq α] (hs : s.IsReached)
    {fields : Handles Headers} (hfields : fields.IsReached) (hosts : Handles Address)
    (cookies : Handles Cookie) (n : Nat) :
    (∀ (a : α) (e : ε), s.get? n = some a → Editable.result e a = a →
      ∃ made t, s.edit? n e = some (made, t) ∧ (∀ m, t.get? m = s.get? m) ∧
        (Unseen s t ↔ s.refs n = 1 ∨ Editable.opens e a = false)) ∧
    (∀ (h : Headers) (e : Headers.Edit), fields.get? n = some h → ¬ e.IsAllowed h →
      ∃ t, fields.edit? n e = some (false, t) ∧ (∀ m, t.get? m = fields.get? m) ∧
        (Unseen fields t ↔ fields.refs n = 1 ∨ ∃ i, e = .removeAt i) ∧
        (¬ Unseen fields t → t.refs n = 1 ∧ t.live = fields.live + 1)) ∧
    (∀ (a : Address) (scope : String), hosts.get? n = some a → (∀ ip, a.host ≠ .v6 ip) →
      ∃ made, hosts.edit? n (.setScope scope) = some (made, hosts)) ∧
    (∀ (c : Cookie) (url : String) (fault : Url.Fault), cookies.get? n = some c →
      Url.parse url = .error fault → cookies.edit? n (.normalize url) = some (false, cookies)) := by
  refine ⟨?kept, ?headers, ?address, ?cookie⟩
  case kept =>
    intro a e hn hkept
    obtain ⟨base, hcounted⟩ := hs.counted
    obtain ⟨t, ht, hreads, hunseen, -⟩ := hcounted.edit?_kept hn hkept
    exact ⟨_, t, ht, hreads, hunseen⟩
  case headers =>
    intro h e hn hnot
    obtain ⟨base, hcounted⟩ := hfields.counted
    obtain ⟨hnone, hkept⟩ := Headers.refused_of_not_allowed hnot
    obtain ⟨t, ht, hreads, hunseen, hseen⟩ := hcounted.edit?_kept hn hkept
    rw [hnone] at ht
    rw [Headers.closed_iff_of_not_allowed hnot] at hunseen
    exact ⟨t, ht, hreads, hunseen, hseen⟩
  case address =>
    intro a scope hn hnot
    exact ⟨_, edit?_closed hn (Address.closed_of_not_v6 hnot scope)⟩
  case cookie =>
    intro c url fault hn hurl
    have hrefused : (Cookie.change? (.normalize url) c).isSome = false := by
      rw [Cookie.change?_of_no_url c hurl, Option.isSome_none]
    have hedit : cookies.edit? n (.normalize url) =
        some ((Cookie.change? (.normalize url) c).isSome, cookies) := edit?_closed hn hrefused
    rwa [hrefused] at hedit

/-- Two handles share a value of each kind. Nothing is seen of what one of them is refused: a field to
be removed that is not there, a scope, and a text that is no URL. Of octets to which none are added
the counts are seen to change. -/
theorem refused_unseen_iff_of_two :
    let octets : Handles Bytes := (Op.run Handles.step {} [.construct 0 [], .clone 0 1]).2
    let fields : Handles Headers := (Op.run Handles.step {} [.construct 0 {}, .clone 0 1]).2
    let hosts : Handles Address :=
      (Op.run Handles.step {} [.construct 0 (Address.ofIpv4 Ipv4.localhost), .clone 0 1]).2
    let cookies : Handles Cookie := (Op.run Handles.step {} [.construct 0 {}, .clone 0 1]).2
    (octets.refs 1 = 2 ∧ ∃ made t, octets.edit? 1 (.append []) = some (made, t) ∧ ¬ Unseen octets t) ∧
      (fields.refs 1 = 2 ∧ ∃ t, fields.edit? 1 (.removeAt 0) = some (false, t) ∧ Unseen fields t) ∧
      (hosts.refs 1 = 2 ∧ ∃ made, hosts.edit? 1 (.setScope "eth0") = some (made, hosts)) ∧
      (cookies.refs 1 = 2 ∧ cookies.edit? 1 (.normalize "") = some (false, cookies)) := by
  intro octets fields hosts cookies
  have hoctets : octets.IsReached := ⟨0, [.construct 0 [], .clone 0 1], rfl⟩
  have hfields : fields.IsReached := ⟨0, _, rfl⟩
  obtain ⟨hkept, hheaders, haddress, hcookie⟩ :=
    refused_unseen_iff hoctets hfields hosts cookies 1
  refine ⟨⟨rfl, ?_⟩, ⟨rfl, ?_⟩, ⟨rfl, ?_⟩, rfl, ?_⟩
  · obtain ⟨made, t, ht, -, hunseen⟩ := hkept [] (.append []) rfl rfl
    refine ⟨made, t, ht, fun h => ?_⟩
    rcases hunseen.mp h with hrefs | hclosed
    · exact absurd hrefs (by decide)
    · cases hclosed
  · have hnot : ¬ (Headers.Edit.removeAt 0).IsAllowed {} := Nat.not_lt_zero 0
    obtain ⟨t, ht, -, hunseen, -⟩ := hheaders {} (.removeAt 0) rfl hnot
    exact ⟨t, ht, hunseen.mpr (.inr ⟨0, rfl⟩)⟩
  · exact haddress (Address.ofIpv4 Ipv4.localhost) "eth0" rfl fun ip hip => nomatch hip
  · exact hcookie {} "" .noScheme rfl rfl

/-- Two handles share a list. A field without a name is refused through one of them, which then has a
list of its own. -/
theorem refused_field_ends_sharing :
    let s : Handles Headers := (Op.run Handles.step {} [.construct 0 {}, .clone 0 1]).2
    s.refs 0 = 2 ∧ s.refs 1 = 2 ∧ s.live = 1 ∧
      ∃ t, s.edit? 1 (.append ⟨[], []⟩) = some (false, t) ∧
        t.refs 0 = 1 ∧ t.refs 1 = 1 ∧ t.live = 2 ∧ ¬ Unseen s t := by
  intro s
  refine ⟨rfl, rfl, rfl, _, rfl, rfl, rfl, rfl, fun hunseen => ?_⟩
  exact absurd hunseen.live (by decide)

end Handles
end NetKit
