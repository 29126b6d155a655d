import NetKit.Proofs.Address.Grammar
import NetKit.Proofs.Text.Trim

/-!
# Addresses are read back from their texts

Every address that a text denotes, and every address of an IP, is denoted by its own text.
-/

namespace NetKit.Address

open Text Literal

variable {a : Address} {t : String}

/-! ## Texts -/

/-- The literal and the scope of an address, without brackets. -/
def partsOf (literal : List Char) (scope : String) : Parts :=
  ⟨0, literal, 0, if scope.isEmpty then none else some scope.toList⟩

theorem toList_full (ip scope : String) :
    (if scope.isEmpty then ip else ip ++ "%" ++ scope).toList = (partsOf ip.toList scope).text := by
  have hpercent : "%".toList = ['%'] := rfl
  cases h : scope.isEmpty <;> simp [partsOf, Parts.text, Parts.front, h, hpercent]

theorem toList_text_v4 (ip : Ipv4) (scope : String) :
    (Address.text ⟨.v4 ip, scope⟩).toList = (partsOf ip.text.toList scope).text :=
  toList_full ip.text scope

theorem toList_text_v6 (ip : Ipv6) (scope : String) :
    (Address.text ⟨.v6 ip, scope⟩).toList = (partsOf ip.text.toList scope).text :=
  toList_full ip.text scope

theorem getD_scope_partsOf (literal : List Char) (scope : String) :
    (partsOf literal scope).scope.getD [] = scope.toList := by
  cases h : scope.isEmpty with
  | true => simp [partsOf, String.isEmpty_iff.mp h]
  | false => simp [partsOf, h]

theorem names_v4 {literal : List Char} {ip : Ipv4} (h : ipv4? literal = some ip) :
    (partsOf literal "").Names (ofIpv4 ip) :=
  .v4 h (getD_scope_partsOf literal "")

theorem names_v6 {literal : List Char} {ip : Ipv6} (h : ipv6? literal = some ip) (scope : String) :
    (partsOf literal scope).Names ⟨.v6 ip, scope⟩ := by
  have hnames : (partsOf literal scope).Names
      ⟨.v6 ip, String.ofList ((partsOf literal scope).scope.getD [])⟩ := .v6 h
  rwa [getD_scope_partsOf, String.ofList_toList] at hnames

theorem read?_text_v4 (ip : Ipv4) : read? (ofIpv4 ip).text.toList = some (ofIpv4 ip) :=
  read?_eq_some_iff.mpr ⟨_, toList_text_v4 ip "", names_v4 (ipv4?_text ip)⟩

theorem read?_text_v6 (ip : Ipv6) (scope : String) :
    read? (Address.text ⟨.v6 ip, scope⟩).toList = some ⟨.v6 ip, scope⟩ :=
  read?_eq_some_iff.mpr ⟨_, toList_text_v6 ip scope, names_v6 (ipv6?_text ip) scope⟩

/-! ## Blanks -/

theorem Parts.getLast?_text {p : Parts} {c : Char} (h : (p.scope.getD []).getLast? = some c) :
    p.text.getLast? = some c := by
  cases hscope : p.scope with
  | none =>
    rw [hscope] at h
    cases h
  | some scope =>
    rw [hscope, Option.getD_some] at h
    rw [text_of_some hscope, List.getLast?_append, List.getLast?_cons, h]
    rfl

theorem trim_text_partsOf {literal : List Char} {scope : String} (h : IsLiteral literal)
    (hlast : ∀ c, scope.toList.getLast? = some c → isBlank c = false) :
    trim (partsOf literal scope).text = (partsOf literal scope).text := by
  have htext : (partsOf literal scope).text =
      literal ++ (partsOf literal scope).scope.elim [] ('%' :: ·) := by
    simp [Parts.text, Parts.front, partsOf]
  refine trimBy_eq_self (fun c hc => ?_) fun c hc => ?_
  · rw [htext, List.head?_append_of_ne_nil _ h.ne_nil] at hc
    exact (h.isLiteralChar c (List.mem_of_head? hc)).isBlank
  · cases hscope : scope.toList.getLast? with
    | none =>
      have hempty : scope.isEmpty = true := by
        simpa [String.isEmpty_iff] using List.getLast?_eq_none_iff.mp hscope
      rw [htext, partsOf, hempty, if_pos rfl, Option.elim_none, List.append_nil] at hc
      exact (h.isLiteralChar c (List.mem_of_getLast? hc)).isBlank
    | some d =>
      rw [← getD_scope_partsOf literal scope] at hscope
      obtain rfl : d = c := Option.some.inj ((Parts.getLast?_text hscope).symm.trans hc)
      rw [getD_scope_partsOf] at hscope
      exact hlast d hscope

/-! ## Parsing -/

theorem parse_text_of_trim (hread : read? a.text.toList = some a)
    (htrim : trim a.text.toList = a.text.toList) : parse a.text = a := by
  rw [parse, parse?, htrim, hread, Option.getD_some]

theorem parse_text_v4 (ip : Ipv4) : parse (ofIpv4 ip).text = ofIpv4 ip := by
  have htrim : trim (partsOf ip.text.toList "").text = (partsOf ip.text.toList "").text :=
    trim_text_partsOf (isLiteral_of_ipv4? (ipv4?_text ip)) (by simp)
  rw [← toList_text_v4] at htrim
  exact parse_text_of_trim (read?_text_v4 ip) htrim

theorem parse_text_v6 (ip : Ipv6) {scope : String}
    (h : ∀ c, scope.toList.getLast? = some c → isBlank c = false) :
    parse (Address.text ⟨.v6 ip, scope⟩) = ⟨.v6 ip, scope⟩ := by
  have htrim := trim_text_partsOf (isLiteral_of_ipv6? (ipv6?_text ip)) h
  rw [← toList_text_v6] at htrim
  exact parse_text_of_trim (read?_text_v6 ip scope) htrim

/-- What is denoted by a text is denoted by its own text, the null address by the empty one. The
scope is kept as it is, with percent signs, brackets and blanks inside it. So is every address of
an IP. -/
theorem parse_text_parse :
    (∀ t, parse (parse t).text = parse t) ∧
    (∀ ip, parse (ofIpv4 ip).text = ofIpv4 ip) ∧ (∀ ip, parse (ofIpv6 ip).text = ofIpv6 ip) ∧
    ∀ ip, parse (ofIp ip).text = ofIp ip := by
  have hv6 (ip : Ipv6) : parse (ofIpv6 ip).text = ofIpv6 ip := parse_text_v6 ip (by simp)
  refine ⟨fun t => ?_, parse_text_v4, hv6, fun ip => ?_⟩
  · cases ht : parse? t with
    | none =>
      have hnull : parse t = null := by rw [parse, ht, Option.getD_none]
      rw [hnull]
      decide
    | some a =>
      have ha : parse t = a := by rw [parse, ht, Option.getD_some]
      obtain ⟨p, htrim, hnames⟩ := read?_eq_some_iff.mp ht
      rw [ha]
      cases hnames with
      | v4 _ _ => exact parse_text_v4 _
      | v6 _ =>
        -- A scope ends where its text did, which was trimmed.
        refine parse_text_v6 _ fun c hc => ?_
        rw [String.toList_ofList] at hc
        have hlast := Parts.getLast?_text hc
        rw [← htrim] at hlast
        exact not_of_getLast?_trimBy hlast
  · cases ip with
    | v4 ip => exact parse_text_v4 ip
    | v6 ip => exact hv6 ip

/-- A scope that looks like a part of the written form is kept. -/
example : parse (parse " fe80::1%[a] %b]").text =
    ⟨.v6 0xfe800000000000000000000000000001, "[a] %b]"⟩ := by
  decide

end NetKit.Address
