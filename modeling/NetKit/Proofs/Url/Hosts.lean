import NetKit.Proofs.Address.Literals
import NetKit.Proofs.Answers
import NetKit.Url

/-!
# The hosts of URLs

A host is never empty: it is an IPv6 address in brackets, or holds no bracket and no colon. So one
that can be read as an address is the text of that address.
-/

namespace NetKit.Url

variable {host : List Char}

theorem toList_ipv6HostText (ip : Ipv6) :
    (ipv6HostText ip).toList = '[' :: (ip.hexText.toList ++ [']']) := by
  have htext : ipv6HostText ip = "[" ++ ip.hexText ++ "]" := rfl
  rw [htext, String.toList_append, String.toList_append]
  rfl

/-! ## Names -/

/-- Stands in no host but an IPv6 address. -/
def isAddressMark (a : Char) : Bool := a == ':' || a == '[' || a == ']'

def IsName (cs : List Char) : Prop := ∀ a ∈ cs, isAddressMark a = false

theorem IsName.not_mem {cs : List Char} {a : Char} (h : IsName cs) (ha : isAddressMark a = true) :
    a ∉ cs := fun hmem => by
  cases ha.symm.trans (h a hmem)

theorem isName_of_refused {cs : List Char} {p : Char → Bool} (h : cs.any p = false)
    (hp : ∀ a, isAddressMark a = true → p a = true) : IsName cs := by
  intro a ha
  rw [← Bool.not_eq_true]
  exact fun hmark => Bool.false_ne_true (h.symm.trans (List.any_eq_true.mpr ⟨a, ha, hp a hmark⟩))

theorem isAddressMark_iff {a : Char} : isAddressMark a = true ↔ a = ':' ∨ a = '[' ∨ a = ']' := by
  simp [isAddressMark, or_assoc]

theorem isName_percentOctet (b : UInt8) : IsName (percentOctet b) := by
  have hdigits : ∀ n < 16, isAddressMark (Nat.digitChar n).toUpper = false := by decide
  have hb := b.toNat_lt
  rw [percentOctet, IsName, List.forall_mem_cons, List.forall_mem_cons, List.forall_mem_singleton]
  exact ⟨by decide, hdigits _ (by omega), hdigits _ (by omega)⟩

theorem isName_percentEncode {cs : List Char} (h : IsName cs) (keep : Char → Bool) :
    IsName (percentEncode keep cs) := by
  intro a ha
  obtain ⟨c, hc, ha⟩ := List.mem_flatMap.mp ha
  split at ha
  · rw [List.mem_singleton.mp ha]
    exact h c hc
  · obtain ⟨b, -, ha⟩ := List.mem_flatMap.mp ha
    exact isName_percentOctet b a ha

theorem isName_toAscii? {name ascii : List Char} (h : Domain.toAscii? name = some ascii) :
    IsName ascii := by
  simp only [Domain.toAscii?, Option.bind_eq_bind, Option.bind_eq_some_iff,
    Option.ite_none_left_eq_some, Option.some.injEq, Bool.not_eq_true] at h
  obtain ⟨labels, -, hallowed, rfl⟩ := h
  refine isName_of_refused hallowed fun a ha => ?_
  rcases isAddressMark_iff.mp ha with rfl | rfl | rfl <;> decide

theorem isName_decimal (n : Nat) : IsName (Text.decimal n) := by
  intro a ha
  have hdigit := Text.isDigit_of_mem_decimal ha
  rw [← Bool.not_eq_true]
  intro hmark
  rcases isAddressMark_iff.mp hmark with rfl | rfl | rfl <;> cases hdigit

theorem isName_text_ipv4 (ip : Ipv4) : IsName ip.text.toList := by
  have hdot : isAddressMark '.' = false := by decide
  simp only [IsName, ip.toList_text, List.forall_mem_append, List.forall_mem_cons]
  exact ⟨isName_decimal _, hdot, isName_decimal _, hdot, isName_decimal _, hdot, isName_decimal _⟩

/-! ## Hosts -/

/-- An IPv6 address in brackets, or a name. -/
def IsHost (host : String) : Prop :=
  (∃ ip, host = ipv6HostText ip) ∨ host ≠ "" ∧ IsName host.toList

theorem IsHost.ne_empty {host : String} (h : IsHost host) : host ≠ "" := by
  rcases h with ⟨ip, hhost⟩ | ⟨hne, -⟩
  · rw [Ne, ← String.toList_eq_nil_iff, hhost, toList_ipv6HostText]
    exact List.cons_ne_nil _ _
  · exact hne

theorem exists_ip_of_bracketed? {r : Except Fault String} {name : String}
    (h : bracketed? host = some r) (hr : r = .ok name) : ∃ ip, name = ipv6HostText ip := by
  subst hr
  unfold bracketed? at h
  split at h
  · split at h
    · split at h
      · rename_i ip _
        cases h
        exact ⟨ip, rfl⟩
      · cases h
    · cases h
  · cases h

theorem isHost_domainHost {name : String} (h : domainHost host = .ok name) : IsHost name := by
  rw [domainHost] at h
  split at h
  · rename_i hbracketed
    exact .inl (exists_ip_of_bracketed? hbracketed h)
  · split at h
    · cases h
    · rename_i ascii hascii
      split at h
      · cases h
      · rename_i hne
        split at h
        · split at h
          · rename_i ip _
            cases h
            refine .inr ⟨fun hempty => ?_, isName_text_ipv4 ip⟩
            exact (Literal.isLiteral_of_ipv4? (Literal.ipv4?_text ip)).ne_nil
              (String.toList_eq_nil_iff.mpr hempty)
          · cases h
        · cases h
          rw [IsHost, String.toList_ofList]
          refine .inr ⟨fun hempty => hne ?_, isName_toAscii? hascii⟩
          rw [List.isEmpty_iff, ← String.ofList_eq_empty_iff, hempty]

theorem isHost_opaqueHost {name : String} (h : opaqueHost host = .ok name) (hne : name ≠ "") :
    IsHost name := by
  rw [opaqueHost] at h
  split at h
  · rename_i hbracketed
    exact .inl (exists_ip_of_bracketed? hbracketed h)
  · split at h
    · cases h
    · rename_i hallowed
      cases h
      have hname : IsName host := by
        refine isName_of_refused (Bool.not_eq_true _ ▸ hallowed) fun a ha => ?_
        rcases isAddressMark_iff.mp ha with rfl | rfl | rfl <;> decide
      refine .inr ⟨hne, ?_⟩
      rw [String.toList_ofList]
      exact isName_percentEncode hname isVisible

/-! ## URLs -/

section Authority

variable {scheme cs rest : List Char} {k : Kind} {name : String} {u : Url}

/-- What is read after a host. -/
def afterHost (scheme : List Char) (k : Kind) (rest : List Char) (hasUser : Bool) (host : String) :
    Except Fault Url := do
  if host.isEmpty ∧ (rest.head? == some ':' ∨ hasUser) then throw .emptyHost
  let rest ← match rest with
    | ':' :: port => dropPort 0 port
    | _ => pure rest
  return ⟨String.ofList scheme, if host.isEmpty then none else some host, pathAfterHost k rest⟩

theorem host_of_afterHost {hasUser : Bool} (h : afterHost scheme k rest hasUser name = .ok u) :
    u.host = if name.isEmpty then none else some name := by
  unfold afterHost at h
  by_cases hempty : name.isEmpty ∧ (rest.head? == some ':' ∨ hasUser)
  · rw [if_pos hempty] at h
    cases h
  · rw [if_neg hempty] at h
    dsimp only at h
    split at h
    · obtain ⟨rest, -, h⟩ := Answer.bind_eq_ok.mp h
      cases h
      rfl
    · cases h
      rfl

theorem withAuthority_eq (scheme : List Char) (k : Kind) (cs : List Char) :
    withAuthority scheme k cs = (do
      let (cs, hasUser) ← dropUserInfo k cs
      let host := cs.take (hostLength k false cs)
      if k = .web ∧ host.isEmpty then throw .emptyHost
      (if k.isSpecial then domainHost host else opaqueHost host) >>=
        afterHost scheme k (cs.drop (hostLength k false cs)) hasUser) := by
  rw [withAuthority]
  cases dropUserInfo k cs with
  | error fault => rfl
  | ok r => cases k.isSpecial <;> rfl

theorem isHost_of_withAuthority (h : withAuthority scheme k cs = .ok u) (hname : name ∈ u.host) :
    IsHost name := by
  rw [withAuthority_eq] at h
  obtain ⟨⟨cs, hasUser⟩, -, h⟩ := Answer.bind_eq_ok.mp h
  dsimp only at h
  by_cases hweb : k = .web ∧ (cs.take (hostLength k false cs)).isEmpty
  · rw [if_pos hweb] at h
    cases h
  · rw [if_neg hweb] at h
    obtain ⟨host, hhost, h⟩ := Answer.bind_eq_ok.mp h
    rw [host_of_afterHost h, Option.mem_def, Option.ite_none_left_eq_some] at hname
    obtain ⟨hne, hname⟩ := hname
    cases hname
    split at hhost
    · exact isHost_domainHost hhost
    · exact isHost_opaqueHost hhost (mt String.isEmpty_iff.mpr hne)

theorem isHost_of_ofFile (h : ofFile scheme cs = .ok u) (hname : name ∈ u.host) : IsHost name := by
  unfold ofFile at h
  dsimp only at h
  split at h
  · split at h
    · split at h
      · cases h
        cases hname
      · split at h
        · cases h
          cases hname
        · obtain ⟨host, hhost, h⟩ := Answer.bind_eq_ok.mp h
          cases h
          obtain ⟨-, hname⟩ := Option.ite_none_left_eq_some.mp hname
          cases hname
          exact isHost_domainHost hhost
    · cases h
      cases hname
  · cases h
    cases hname

theorem isHost_of_parse {text : String} (h : parse text = .ok u) (hname : name ∈ u.host) :
    IsHost name := by
  unfold parse at h
  split at h
  · cases h
  · split at h
    · exact isHost_of_ofFile h hname
    · exact isHost_of_withAuthority h hname
    · split at h
      · exact isHost_of_withAuthority h hname
      · cases h
        cases hname
      · cases h
        cases hname

end Authority

end NetKit.Url
