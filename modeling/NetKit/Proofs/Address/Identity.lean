import NetKit.Address.Subnet
import NetKit.Proofs.Address.RoundTrip
import NetKit.Proofs.Handles.Invariants

/-!
# Addresses told apart by their texts

However an address is made and changed, only an IPv6 address has a scope, and two addresses are
equal exactly if their texts are, except that the address of every interface is written like the
IPv6 address of none.
-/

namespace NetKit.Address

open Handles Text

variable {a b : Address}

/-! ## Scopes -/

/-- A scope is kept with IPv6 addresses only. -/
def WellScoped (a : Address) : Prop := a.scope = "" ∨ a.takesScope = true

theorem takesScope_iff : a.takesScope = true ↔ ∃ ip, a.host = .v6 ip := by
  obtain ⟨host, scope⟩ := a
  cases host <;> simp [takesScope]

theorem wellScoped_of_names {p : Parts} (h : p.Names a) : a.WellScoped := by
  cases h with
  | v4 _ _ => exact .inl rfl
  | v6 _ => exact .inr rfl

theorem wellScoped_parse (t : String) : (parse t).WellScoped := by
  rw [parse]
  cases h : parse? t with
  | none => exact .inl rfl
  | some a =>
    obtain ⟨p, _, hnames⟩ := read?_eq_some_iff.mp h
    exact wellScoped_of_names hnames

theorem wellScoped_ofSpecial (s : SpecialAddress) : (ofSpecial s).WellScoped := by
  cases s <;> exact .inl rfl

theorem wellScoped_base {t : String} {s : Subnet} (h : Subnet.parse? t = some s) :
    s.base.WellScoped := by
  -- The text of the base is hidden, or the cases below would try to parse it.
  unfold Subnet.parse? at h
  generalize Subnet.split t = q at h
  dsimp only at h
  generalize (Address.parse (String.ofList q.1)).host = host at h
  split at h
  · cases h
    exact .inl rfl
  · cases h
    exact .inl rfl
  · obtain ⟨n, _, rfl⟩ := Option.map_eq_some_iff.mp h
    exact .inl rfl
  · obtain ⟨n, _, rfl⟩ := Option.map_eq_some_iff.mp h
    exact .inl rfl
  · cases h

/-- A new address: of a text, of an IP, a special one, or the base of a subnet. -/
inductive Made : Address → Prop
  | null : Made null
  | parse (t : String) : Made (parse t)
  | ofIp (ip : Ip) : Made (ofIp ip)
  | ofIpv4 (ip : Ipv4) : Made (ofIpv4 ip)
  | ofIpv6 (ip : Ipv6) : Made (ofIpv6 ip)
  | ofSpecial (s : SpecialAddress) : Made (ofSpecial s)
  | base {t : String} {s : Subnet} (h : Subnet.parse? t = some s) : Made s.base

theorem Made.wellScoped (h : Made a) : a.WellScoped := by
  cases h with
  | null => exact .inl rfl
  | parse t => exact wellScoped_parse t
  | ofIp ip => cases ip <;> exact .inl rfl
  | ofIpv4 ip => exact .inl rfl
  | ofIpv6 ip => exact .inl rfl
  | ofSpecial s => exact wellScoped_ofSpecial s
  | base h => exact wellScoped_base h

theorem WellScoped.change? {e : Edit} (h : a.WellScoped) (hb : Editable.change? e a = some b) :
    b.WellScoped := by
  cases e with
  | set t =>
    obtain rfl : parse t = b := Option.some.inj hb
    exact wellScoped_parse t
  | setScope scope =>
    obtain rfl : a.setScope scope = b := Option.some.inj hb
    rw [setScope]
    split
    · rename_i htakes
      exact .inr htakes
    · exact h
  | clear =>
    obtain rfl : null = b := Option.some.inj hb
    exact .inl rfl

/-! ## Texts -/

theorem WellScoped.read?_text (h : a.WellScoped) (hany : a.host ≠ .any) :
    (read? a.text.toList).getD null = a := by
  obtain ⟨host, scope⟩ := a
  cases host with
  | null =>
    obtain rfl : scope = "" := by simpa [WellScoped, takesScope] using h
    rfl
  | v4 ip =>
    obtain rfl : scope = "" := by simpa [WellScoped, takesScope] using h
    exact congrArg (Option.getD · null) (read?_text_v4 ip)
  | v6 ip => rw [read?_text_v6, Option.getD_some]
  | any => exact absurd rfl hany

theorem WellScoped.eq_iff_text_eq (ha : a.WellScoped) (hb : b.WellScoped) (hany : a.host ≠ .any)
    (hany' : b.host ≠ .any) : a = b ↔ a.text = b.text := by
  refine ⟨fun h => congrArg text h, fun h => ?_⟩
  calc a = (read? a.text.toList).getD null := (ha.read?_text hany).symm
    _ = (read? b.text.toList).getD null := by rw [h]
    _ = b := hb.read?_text hany'

/-- Of the addresses that handles read after any operations, only those of IPv6 have a scope, and
two of them compare equal exactly if they have one text, unless one is that of every interface. -/
theorem same_iff_same_text {os : List (Op Address Edit)}
    (hos : ∀ h a, .construct h a ∈ os → Made a) {h k : Nat}
    (ha : (Op.run Handles.step {} os).2.get? h = some a)
    (hb : (Op.run Handles.step {} os).2.get? k = some b) :
    (a.scope ≠ "" → ∃ ip, a.host = .v6 ip) ∧
    (a.host ≠ .any → b.host ≠ .any →
      ((Op.run Handles.step {} os).2.same h k = true ↔ a.text = b.text)) := by
  have hscoped (k : Nat) (a : Address) (hget : (Op.run Handles.step {} os).2.get? k = some a) :
      a.WellScoped :=
    of_get?_run (fun h a hi => (hos h a hi).wellScoped) (fun _ _ _ h hb => h.change? hb) hget
  refine ⟨fun hscope => ?_, fun hany hany' => ?_⟩
  · exact takesScope_iff.mp ((hscoped h a ha).resolve_left hscope)
  · rw [same_eq_decide ha hb, decide_eq_true_eq]
    exact (hscoped h a ha).eq_iff_text_eq (hscoped k b hb) hany hany'

/-- An address with the scope set by a changed copy, and one with the scope of its text. -/
theorem same_text_of_set_and_read_scope :
    let os : List (Op Address Edit) :=
      [.construct 0 (parse "fe80::1"), .clone 0 1, .edit 1 (.setScope "eth0"),
        .construct 2 (parse "[fe80::1]%eth0")]
    let link : Address := ⟨.v6 0xfe800000000000000000000000000001, "eth0"⟩
    (Op.run Handles.step {} os).2.get? 1 = some link ∧
      (Op.run Handles.step {} os).2.get? 2 = some link ∧
      (∃ ip, link.host = .v6 ip) ∧ (Op.run Handles.step {} os).2.same 1 2 = true := by
  intro os link
  have hmade : ∀ h a, .construct h a ∈ os → Made a := by
    intro h a hmem
    simp only [os, List.mem_cons, List.not_mem_nil, or_false] at hmem
    rcases hmem with he | he | he | he
    · rw [(Op.construct.inj he).2]
      exact .parse _
    · cases he
    · cases he
    · rw [(Op.construct.inj he).2]
      exact .parse _
  have hset : (Op.run Handles.step {} os).2.get? 1 = some link := by decide
  have hread : (Op.run Handles.step {} os).2.get? 2 = some link := by decide
  obtain ⟨hscope, hsame⟩ := same_iff_same_text hmade hset hread
  exact ⟨hset, hread, hscope (by decide), (hsame (by decide) (by decide)).mpr rfl⟩

end NetKit.Address
