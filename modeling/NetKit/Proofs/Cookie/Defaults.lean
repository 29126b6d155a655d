import NetKit.Cookie
import NetKit.Proofs.Text.Trim
import NetKit.Proofs.Url.Hosts

/-!
# Defaults of cookies

A cookie without a domain takes the host of the URL as it is, and a domain that is no address gets a
dot. So the defaults are taken over once, and the host they gave is widened the next time.
-/

namespace NetKit.Cookie

open Text

variable {c : Cookie} {u : Url} {host : String}

/-! ## Addresses as domains -/

theorem isIpDomain_of_not_mem (hopen : '[' ∉ host.toList) (hclose : ']' ∉ host.toList) :
    isIpDomain host = (Literal.ip? host.toList).isSome := by
  have hbracket : ∀ a ∈ host.toList, isBracket a = false := by
    intro a ha
    rw [isBracket, Bool.or_eq_false_iff]
    exact ⟨beq_false_of_ne fun h => hopen (h ▸ ha), beq_false_of_ne fun h => hclose (h ▸ ha)⟩
  rw [isIpDomain, trimBy_eq_self (fun a ha => hbracket a (List.mem_of_mem_head? ha))
    fun a ha => hbracket a (List.mem_of_getLast? ha)]

theorem isIpDomain_of_isName (h : Url.IsName host.toList) :
    isIpDomain host = true ↔ ∃ ip : Ipv4, host = ip.text := by
  have hv6 : Literal.ipv6? host.toList = none := by
    rw [Literal.ipv6?, Literal.readIpv6_of_not_mem (h.not_mem rfl)]
    rfl
  rw [isIpDomain_of_not_mem (h.not_mem rfl) (h.not_mem rfl), Literal.ip?, hv6]
  constructor
  · intro hsome
    split at hsome
    · rename_i ip hip
      exact ⟨ip, String.toList_inj.mp (Literal.ipv4?_eq_some_iff.mp hip)⟩
    · cases hsome
  · rintro ⟨ip, rfl⟩
    rw [Literal.ipv4?_text]
    rfl

theorem isIpDomain_ipv6HostText (ip : Ipv6) : isIpDomain (Url.ipv6HostText ip) = true := by
  have hliteral := (Literal.isLiteral_of_ipv6? (Literal.ipv6?_hexText ip)).isLiteralChar
  have hbracket : ∀ a ∈ ip.hexText.toList, isBracket a = false := by
    intro a ha
    rw [← Bool.not_eq_true, isBracket, Bool.or_eq_true, beq_iff_eq, beq_iff_eq]
    rintro (rfl | rfl) <;> exact absurd (hliteral _ ha) (by decide)
  have hends : ∀ a ∈ ['['] ++ [']'], isBracket a = true := by simp [isBracket]
  have htrim : trimBy isBracket (Url.ipv6HostText ip).toList = ip.hexText.toList := by
    rw [Url.toList_ipv6HostText, ← List.singleton_append, ← List.append_assoc]
    exact trimBy_of_split hends (fun a ha => hbracket a (List.mem_of_mem_head? ha))
      fun a ha => hbracket a (List.mem_of_getLast? ha)
  have hv6 := Literal.ipv6?_hexText ip
  rw [isIpDomain, htrim, Literal.ip?, Literal.ipv4?_of_ipv6? hv6, hv6]
  rfl

/-- An address, as a host tells it. -/
def IsAddress (host : String) : Prop :=
  (∃ ip : Ipv4, host = ip.text) ∨ ∃ ip : Ipv6, host = Url.ipv6HostText ip

theorem isIpDomain_iff (h : Url.IsHost host) : isIpDomain host = true ↔ IsAddress host := by
  rcases h with ⟨ip, hhost⟩ | ⟨-, hname⟩
  · rw [hhost]
    exact iff_of_true (isIpDomain_ipv6HostText ip) (.inr ⟨ip, rfl⟩)
  · rw [isIpDomain_of_isName hname]
    refine ⟨.inl, fun h => h.resolve_right ?_⟩
    rintro ⟨ip, hhost⟩
    rw [hhost, Url.toList_ipv6HostText] at hname
    exact absurd List.mem_cons_self (hname.not_mem (a := '[') rfl)

/-! ## Domains -/

theorem normalDomain_eq_self_iff {domain : String} :
    normalDomain domain = domain ↔
      isIpDomain domain = true ∨ domain.toList.head? = some '.' := by
  rw [normalDomain]
  split
  · rename_i h
    exact iff_of_true rfl (by simpa using h)
  · rename_i h
    refine iff_of_false (fun heq => ?_) (by simpa using h)
    have hlength := congrArg String.length heq
    rw [String.length_append] at hlength
    exact absurd hlength (Nat.ne_of_gt (Nat.lt_add_of_pos_left (by decide)))

theorem normalDomain_of_ne {domain : String} (h : normalDomain domain ≠ domain) :
    normalDomain domain = "." ++ domain := by
  rw [normalDomain] at h ⊢
  split
  · rename_i hkept
    exact absurd (if_pos hkept) h
  · rfl

theorem normalDomain_normalDomain (domain : String) :
    normalDomain (normalDomain domain) = normalDomain domain := by
  by_cases h : normalDomain domain = domain
  · rw [h, h]
  · rw [normalDomain_of_ne h, normalDomain_eq_self_iff, String.toList_append]
    exact .inr rfl

theorem normalDomain_ne_empty {domain : String} (h : domain ≠ "") : normalDomain domain ≠ "" := by
  by_cases hsame : normalDomain domain = domain
  · rwa [hsame]
  · rw [normalDomain_of_ne hsame, Ne, String.append_eq_empty_iff]
    exact fun hempty => h hempty.2

theorem folder_ne_empty (path : String) : folder path ≠ "" := by
  rw [folder]
  split
  · decide
  · rename_i h
    rwa [Ne, String.ofList_eq_empty_iff, ← List.isEmpty_iff]

/-! ## Defaults taken again -/

def defaultDomain (u : Url) (domain : String) : String :=
  if domain.isEmpty then u.host.getD "" else normalDomain domain

theorem defaultDomain_of_ne {domain : String} (h : domain ≠ "") (u : Url) :
    defaultDomain u domain = normalDomain domain :=
  if_neg (mt String.isEmpty_iff.mp h)

theorem defaultDomain_of_host (h : u.host = some host) : defaultDomain u "" = host := by
  rw [defaultDomain, h]
  rfl

theorem defaultDomain_of_no_host (h : u.host = none) : defaultDomain u "" = "" := by
  rw [defaultDomain, h]
  rfl

/-- A domain that is not the host's is taken over once. -/
theorem defaultDomain_defaultDomain {domain : String} (h : domain ≠ "") (u : Url) :
    defaultDomain u (defaultDomain u domain) = defaultDomain u domain := by
  rw [defaultDomain_of_ne h, defaultDomain_of_ne (normalDomain_ne_empty h),
    normalDomain_normalDomain]

theorem normalize_eq (c : Cookie) (u : Url) : c.normalize u =
    { c with path := (c.normalize u).path, domain := defaultDomain u c.domain } := rfl

theorem path_normalize_ne (c : Cookie) (u : Url) : (c.normalize u).path ≠ "" := by
  have hpath : (c.normalize u).path = if c.path.isEmpty then folder u.path else c.path := rfl
  rw [hpath]
  split
  · exact folder_ne_empty u.path
  · rename_i h
    exact mt String.isEmpty_iff.mpr h

theorem normalize_of_path (h : c.path ≠ "") (u : Url) :
    c.normalize u = { c with domain := defaultDomain u c.domain } := by
  rw [normalize, if_neg (mt String.isEmpty_iff.mp h), defaultDomain]

theorem normalDomain_host_iff (h : Url.IsHost host) :
    normalDomain host = host ↔ IsAddress host ∨ host.toList.head? = some '.' := by
  rw [normalDomain_eq_self_iff, isIpDomain_iff h]

/-- The host of a URL is widened the next time if it is a name without a dot before it. -/
theorem defaultDomain_twice (hhost : ∀ host ∈ u.host, Url.IsHost host) (domain : String) :
    ∃ first second, defaultDomain u domain = first ∧ defaultDomain u first = second ∧
      defaultDomain u second = second ∧
      (second = first ↔ domain ≠ "" ∨
        ∀ host ∈ u.host, IsAddress host ∨ host.toList.head? = some '.') ∧
      (second ≠ first → ∃ host, u.host = some host ∧ first = host ∧ second = "." ++ host) := by
  by_cases hdomain : domain = ""
  · subst hdomain
    cases hu : u.host with
    | none =>
      have hempty := defaultDomain_of_no_host hu
      refine ⟨"", "", hempty, hempty, hempty, iff_of_true rfl (.inr ?_), fun h => absurd rfl h⟩
      rintro host ⟨⟩
    | some host =>
      have hhost := hhost host hu
      have hne := hhost.ne_empty
      have hsecond := defaultDomain_of_ne hne u
      refine ⟨host, _, defaultDomain_of_host hu, hsecond, ?_, ?_, fun h => ?_⟩
      · rw [← hsecond, defaultDomain_defaultDomain hne]
      · simp [normalDomain_host_iff hhost]
      · exact ⟨host, rfl, rfl, normalDomain_of_ne h⟩
  · have hfirst := defaultDomain_of_ne hdomain u
    have hsecond : defaultDomain u (normalDomain domain) = normalDomain domain := by
      rw [← hfirst, defaultDomain_defaultDomain hdomain]
    exact ⟨_, _, hfirst, hsecond, hsecond, iff_of_true rfl (.inl hdomain), fun h => absurd rfl h⟩

/-- The defaults of a URL fill in the path and the domain alone. Taken again they are the same,
unless the domain was the host's and the host is a name without a dot before it: the host is then
widened to a domain with a dot, which stays. -/
theorem normalize_twice_iff {text : String} (hu : Url.parse text = .ok u) (c : Cookie) :
    ∃ d e, change? (.normalize text) c = some d ∧ change? (.normalize text) d = some e ∧
      change? (.normalize text) e = some e ∧
      d = { c with path := d.path, domain := d.domain } ∧
      (e = d ↔ c.domain ≠ "" ∨
        ∀ host ∈ u.host, IsAddress host ∨ host.toList.head? = some '.') ∧
      (e ≠ d → ∃ host, u.host = some host ∧ d.domain = host ∧
        e = { d with domain := "." ++ host }) := by
  obtain ⟨first, second, hfirst, hsecond, hstays, hiff, hwidened⟩ :=
    defaultDomain_twice (fun _ => Url.isHost_of_parse hu) c.domain
  have hchange (c : Cookie) : change? (.normalize text) c = some (c.normalize u) := by
    rw [change?, hu]
  let d : Cookie := { c with path := (c.normalize u).path, domain := first }
  have hc : c.normalize u = d := by
    rw [normalize_eq, hfirst]
  have hagain (domain : String) : ({ d with domain } : Cookie).normalize u =
      { d with domain := defaultDomain u domain } :=
    normalize_of_path (c := { d with domain }) (path_normalize_ne c u) u
  have hd : d.normalize u = { d with domain := second } := (hagain first).trans (by rw [hsecond])
  have he : ({ d with domain := second } : Cookie).normalize u = { d with domain := second } := by
    rw [hagain, hstays]
  have hsame : { d with domain := second } = d ↔ second = first :=
    ⟨congrArg domain, fun h => h ▸ rfl⟩
  refine ⟨d, { d with domain := second }, (hchange c).trans (congrArg some hc),
    (hchange d).trans (congrArg some hd), (hchange _).trans (congrArg some he), rfl,
    hsame.trans hiff, fun hne => ?_⟩
  obtain ⟨host, hhost, hdomain, hdotted⟩ := hwidened (mt hsame.mpr hne)
  exact ⟨host, hhost, hdomain, hdotted ▸ rfl⟩

theorem normalize_twice_at_name_and_address :
    (∃ d, change? (.normalize "https://www.x.test/a/b") {} = some d ∧ d.domain = "www.x.test" ∧
      change? (.normalize "https://www.x.test/a/b") d = some { d with domain := ".www.x.test" }) ∧
    ∃ d, change? (.normalize "https://[::1]/") {} = some d ∧ d.domain = "[::1]" ∧
      change? (.normalize "https://[::1]/") d = some d := by
  have hname : Url.parse "https://www.x.test/a/b" =
      .ok ⟨"https", some "www.x.test", "/a/b"⟩ := by decide +kernel
  have haddress : Url.parse "https://[::1]/" = .ok ⟨"https", some "[::1]", "/"⟩ := by
    decide +kernel
  constructor
  · obtain ⟨d, e, hd, he, -, -, hiff, hwidened⟩ := normalize_twice_iff hname {}
    have hne : e ≠ d := by
      rw [Ne, hiff]
      rintro (hdomain | hkept)
      · exact hdomain rfl
      · have hip : isIpDomain "www.x.test" = false := by decide +kernel
        rcases hkept _ rfl with hip' | hdot
        · rw [← isIpDomain_iff (Url.isHost_of_parse hname rfl), hip] at hip'
          cases hip'
        · exact absurd hdot (by decide)
    obtain ⟨host, hhost, hdomain, rfl⟩ := hwidened hne
    cases hhost
    exact ⟨d, hd, hdomain, he⟩
  · obtain ⟨d, e, hd, he, -, -, hiff, -⟩ := normalize_twice_iff haddress {}
    have htext : "[::1]" = Url.ipv6HostText 1 := by decide +kernel
    have hsame : e = d := hiff.mpr (.inr fun host hhost => by
      cases hhost
      exact .inl (.inr ⟨1, htext⟩))
    subst hsame
    rw [change?, haddress] at hd
    cases hd
    exact ⟨_, by rw [change?, haddress], rfl, he⟩

theorem filled_in_host_is_widened :
    ¬ ∀ (text : String) (u : Url) (c d : Cookie), Url.parse text = .ok u →
      change? (.normalize text) c = some d → change? (.normalize text) d = some d := by
  intro h
  have hparse : Url.parse "https://www.x.test/" = .ok ⟨"https", some "www.x.test", "/"⟩ := by
    decide +kernel
  have hchange (c : Cookie) : change? (.normalize "https://www.x.test/") c =
      some (c.normalize ⟨"https", some "www.x.test", "/"⟩) := by
    rw [change?, hparse]
  have hsame := h _ _ {} _ hparse (hchange {})
  rw [hchange] at hsame
  have hwidened : (normalize (normalize {} ⟨"https", some "www.x.test", "/"⟩)
      ⟨"https", some "www.x.test", "/"⟩).domain = ".www.x.test" := by decide +kernel
  have hdomain := congrArg Cookie.domain (Option.some.inj hsame)
  rw [hwidened] at hdomain
  exact absurd hdomain (by decide +kernel)

end NetKit.Cookie
