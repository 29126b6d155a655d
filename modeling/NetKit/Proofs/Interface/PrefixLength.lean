import Mathlib.Data.List.Induction
import NetKit.Interface.AddressEntry
import NetKit.Proofs.Handles.Copies

/-!
# Prefix lengths that fit their addresses

Whatever sets the length looks at the address first, but a new address takes over the length of the
one before.
-/

namespace NetKit.AddressEntry

open Handles

/-- Whether an address is wide enough for a length; every address is for an unknown one. -/
def hasRoom (ip : Address) : Option Nat → Bool
  | none => true
  | some n => (width? ip).any (n ≤ ·)

def fits (e : AddressEntry) : Bool := hasRoom e.ip e.length

/-! ## One change -/

theorem hasRoom_of_le {ip : Address} {length : Option Nat} {w : Nat} (hw : width? ip = some w)
    (h : ∀ n, length = some n → n ≤ w) : hasRoom ip length = true := by
  cases length with
  | none => rfl
  | some n => simp [hasRoom, hw, h n rfl]

theorem maskLength?_le {mask : Address} {w n : Nat} (hw : width? mask = some w)
    (h : maskLength? mask = some n) : n ≤ w := by
  obtain ⟨host, scope⟩ := mask
  cases host with
  | v4 m =>
      cases hw
      exact of_decide_eq_true (Option.filter_eq_some_iff.mp h).2
  | v6 m =>
      cases hw
      exact of_decide_eq_true (Option.filter_eq_some_iff.mp h).2
  | null | any => cases hw

theorem fits_setNetmask (e : AddressEntry) (mask : Address) : (e.setNetmask mask).fits = true := by
  simp only [fits, setNetmask]
  split
  · rename_i own other hown hother
    split
    · rename_i hsame
      exact hasRoom_of_le (hown.trans (congrArg some hsame)) fun _ => maskLength?_le hother
    · rfl
  · rfl

theorem fits_setLength (e : AddressEntry) (n : Int) : (e.setLength n).fits = true := by
  simp only [fits, setLength]
  cases hw : width? e.ip with
  | none => rfl
  | some w =>
      refine hasRoom_of_le hw fun k hk => ?_
      rw [Option.bind_some] at hk
      split at hk
      · cases hk
        omega
      · cases hk

theorem width?_le {ip : Address} {w : Nat} (h : width? ip = some w) : w ≤ 128 := by
  simp only [width?] at h
  split at h <;> cases h <;> decide

theorem le_of_fits {e : AddressEntry} {n : Nat} (h : e.fits = true) (hn : e.length = some n) :
    n ≤ 128 := by
  rw [fits, hn] at h
  cases hw : width? e.ip with
  | none => simp [hasRoom, hw] at h
  | some w =>
      have hle : n ≤ w := by simpa [hasRoom, hw] using h
      exact hle.trans (width?_le hw)

/-! ## Sequences of changes -/

/-- A new entry after these changes. -/
def edited (es : List Edit) : AddressEntry := es.foldl (fun e c => Editable.result c e) {}

theorem edited_concat (es : List Edit) (c : Edit) :
    edited (es ++ [c]) = Editable.result c (edited es) := List.foldl_concat ..

def Edit.isBroadcast : Edit → Bool
  | .setBroadcast _ => true
  | _ => false

/-- The address was set last, after the changes `before`; only the broadcast address was set since
then. -/
def IpSetLast (es before : List Edit) (ip : Address) : Prop :=
  ∃ after, es = before ++ .setIp ip :: after ∧ ∀ c ∈ after, Edit.isBroadcast c = true

theorem IpSetLast.concat {es before : List Edit} {ip : Address} (h : IpSetLast es before ip)
    (b : Address) : IpSetLast (es ++ [.setBroadcast b]) before ip := by
  obtain ⟨after, rfl, hafter⟩ := h
  refine ⟨after ++ [.setBroadcast b], by simp, fun c hc => ?_⟩
  rcases List.mem_append.mp hc with hc | hc
  · exact hafter c hc
  · cases List.mem_singleton.mp hc
    rfl

theorem IpSetLast.edited {es before : List Edit} {ip : Address} (h : IpSetLast es before ip) :
    (edited es).ip = ip ∧ (edited es).length = (AddressEntry.edited before).length := by
  obtain ⟨after, rfl, hafter⟩ := h
  induction after using List.reverseRecOn with
  | nil =>
      rw [edited_concat]
      exact ⟨rfl, rfl⟩
  | append_singleton after c ih =>
      have hc := hafter c (by simp)
      rw [← List.cons_append, ← List.append_assoc, edited_concat]
      cases c with
      | setBroadcast b => exact ih fun c hc => hafter c (List.mem_append_left _ hc)
      | setIp _ | setNetmask _ | setLength _ => cases hc

/-- Only a new address can keep a length from fitting. -/
theorem exists_ipSetLast {es : List Edit} (h : (edited es).fits = false) :
    ∃ before ip, IpSetLast es before ip := by
  induction es using List.reverseRecOn with
  | nil => cases h
  | append_singleton es c ih =>
      rw [edited_concat] at h
      cases c with
      | setIp ip => exact ⟨es, ip, [], rfl, by simp⟩
      | setNetmask mask => cases h.symm.trans (fits_setNetmask _ mask)
      | setLength n => cases h.symm.trans (fits_setLength _ n)
      | setBroadcast b =>
          obtain ⟨before, ip, hlast⟩ := ih h
          exact ⟨before, ip, hlast.concat b⟩

/-- Whatever is set, the length was right for some address. -/
theorem length_edited_le {es : List Edit} {n : Nat} (hn : (edited es).length = some n) :
    n ≤ 128 := by
  induction es using List.reverseRecOn with
  | nil => cases hn
  | append_singleton es c ih =>
      rw [edited_concat] at hn
      cases c with
      | setIp ip => exact ih hn
      | setBroadcast b => exact ih hn
      | setNetmask mask => exact le_of_fits (fits_setNetmask _ mask) hn
      | setLength k => exact le_of_fits (fits_setLength _ k) hn

theorem fits_edited_iff (es : List Edit) :
    (edited es).fits = false ↔
      ∃ before ip, IpSetLast es before ip ∧ hasRoom ip (edited before).length = false := by
  constructor
  · intro h
    obtain ⟨before, ip, hlast⟩ := exists_ipSetLast h
    obtain ⟨hip, hlength⟩ := hlast.edited
    rw [fits, hip, hlength] at h
    exact ⟨before, ip, hlast, h⟩
  · rintro ⟨before, ip, hlast, h⟩
    obtain ⟨hip, hlength⟩ := hlast.edited
    rwa [fits, hip, hlength]

/-! ## The netmask -/

theorem netmask?_isSome {e : AddressEntry} (h : e.fits = true) : e.netmask?.isSome = true := by
  obtain ⟨⟨host, scope⟩, broadcast, length⟩ := e
  cases length with
  | none => cases host <;> rfl
  | some n =>
      cases host with
      | null | any => rfl
      | v4 _ | v6 _ =>
          have hn : n ≤ _ := of_decide_eq_true h
          simp [netmask?, hn]

theorem netmask?_eq_none_iff (es : List Edit) :
    (edited es).netmask? = none ↔
      ∃ before ip v n, IpSetLast es before ip ∧ ip.host = .v4 v ∧
        (edited before).length = some n ∧ 32 < n := by
  constructor
  · intro h
    have hfits : (edited es).fits = false := by
      by_contra hf
      have := netmask?_isSome (Bool.eq_true_of_not_eq_false hf)
      rw [h] at this
      cases this
    obtain ⟨before, ip, hlast⟩ := exists_ipSetLast hfits
    obtain ⟨hip, hlength⟩ := hlast.edited
    simp only [netmask?, hip, hlength] at h
    split at h
    · rename_i n v hn hv
      split at h
      · cases h
      · exact ⟨before, ip, v, n, hlast, hv, hn, by omega⟩
    · rename_i n v hn hv
      have hle : n ≤ 128 := length_edited_le hn
      rw [if_pos hle] at h
      cases h
    · cases h
  · rintro ⟨before, ip, v, n, hlast, hv, hn, hlt⟩
    obtain ⟨hip, hlength⟩ := hlast.edited
    simp only [netmask?, hip, hlength, hv, hn]
    rw [if_neg (by omega)]

/-! ## Entries read through handles -/

/-- The changes that the entry of each handle underwent since it was new. A copied handle takes over
those of its source. -/
def Changes.step (m : Nat → Option (List Edit)) : Op AddressEntry Edit → Nat → Option (List Edit)
  | .construct h _ => Function.update m h (some [])
  | .clone source h =>
    match m source with
    | some es => Function.update m h (some es)
    | none => m
  | .drop h => Function.update m h none
  | .edit h c =>
    match m h with
    | some es => Function.update m h (some (es ++ [c]))
    | none => m
  | .read _ | .compare _ _ => m

def changes (os : List (Op AddressEntry Edit)) : Nat → Option (List Edit) :=
  os.foldl Changes.step fun _ => none

theorem map_edited_update {c : Nat → Option (List Edit)} {m : Copies AddressEntry}
    {o : Option (List Edit)} (hm : ∀ k, m k = (c k).map edited) (h k : Nat) :
    Function.update m h (o.map edited) k = (Function.update c h o k).map edited := by
  rw [Function.update_apply, Function.update_apply]
  split
  · rfl
  · exact hm k

theorem Changes.step_agrees {c : Nat → Option (List Edit)} {m : Copies AddressEntry}
    {o : Op AddressEntry Edit} (hm : ∀ k, m k = (c k).map edited)
    (ho : ∀ h e, o = .construct h e → e = {}) (k : Nat) :
    (Copies.step m o).2 k = (Changes.step c o k).map edited := by
  cases o with
  | construct h e =>
      obtain rfl := ho h e rfl
      exact map_edited_update (o := some []) hm h k
  | clone source h =>
      simp only [Copies.step, Changes.step, hm source]
      cases hc : c source with
      | none => exact hm k
      | some es => exact map_edited_update (o := some es) hm h k
  | drop h => exact map_edited_update (o := none) hm h k
  | edit h e =>
      simp only [Copies.step, Changes.step, hm h]
      cases hc : c h with
      | none => exact hm k
      | some es =>
          have hu := map_edited_update (o := some (es ++ [e])) hm h k
          rwa [Option.map_some, edited_concat] at hu
  | read h =>
      simp only [Copies.step, Changes.step]
      split <;> exact hm k
  | compare h j =>
      simp only [Copies.step, Changes.step]
      split <;> exact hm k

theorem Changes.run_agrees {os : List (Op AddressEntry Edit)} {c : Nat → Option (List Edit)}
    {m : Copies AddressEntry} (hm : ∀ k, m k = (c k).map edited)
    (hos : ∀ h e, .construct h e ∈ os → e = {}) (k : Nat) :
    (Op.run Copies.step m os).2 k = (os.foldl Changes.step c k).map edited := by
  induction os generalizing c m with
  | nil => exact hm k
  | cons o os ih =>
      refine ih (Changes.step_agrees hm fun h e he => ?_) fun h e he => ?_
      · exact hos h e (he ▸ List.mem_cons_self)
      · exact hos h e (List.mem_cons_of_mem o he)

/-- Every entry read through a handle is a new one with the changes of its handle. Its length does
not fit exactly when its address was set last, and the address has no room for the length that was
there before; and there is no netmask exactly when an IPv4 address was set last over a length of
more than 32 bits. -/
theorem length_fits_unless_ip_set_last (os : List (Op AddressEntry Edit))
    (hos : ∀ h e, .construct h e ∈ os → e = {}) (h : Nat) :
    (Op.run Handles.step {} os).2.get? h = (changes os h).map edited ∧
    ∀ es, changes os h = some es →
      (∀ n, (edited es).length = some n → n ≤ 128) ∧
      ((edited es).fits = false ↔
        ∃ before ip, IpSetLast es before ip ∧ hasRoom ip (edited before).length = false) ∧
      ((edited es).netmask? = none ↔
        ∃ before ip v n, IpSetLast es before ip ∧ ip.host = .v4 v ∧
          (edited before).length = some n ∧ 32 < n) := by
  have hreads := ((Agrees.start 0).run os).2.reads h
  have hchanges := Changes.run_agrees (m := fun _ => none) (c := fun _ => none) (fun _ => rfl) hos h
  exact ⟨hreads.trans hchanges, fun es _ =>
    ⟨fun n hn => length_edited_le hn, fits_edited_iff es, netmask?_eq_none_iff es⟩⟩

/-- A prefix of an IPv6 address that is longer than an IPv4 address is kept when the copy of the
entry gets one. -/
theorem length_fits_unless_ip_set_last_of_shorter :
    ∃ e : AddressEntry,
      (Op.run Handles.step {} [.construct 0 {}, .edit 0 (.setIp (.ofIpv6 1)), .edit 0 (.setLength 64),
        .clone 0 1, .edit 1 (.setIp (.ofIpv4 1))]).2.get? 1 = some e ∧
      e.fits = false ∧ e.netmask? = none := by
  obtain ⟨hget, hall⟩ := length_fits_unless_ip_set_last
    [.construct 0 {}, .edit 0 (.setIp (.ofIpv6 1)), .edit 0 (.setLength 64), .clone 0 1,
      .edit 1 (.setIp (.ofIpv4 1))] (by simp) 1
  have hlast : IpSetLast [.setIp (.ofIpv6 1), .setLength 64, .setIp (.ofIpv4 1)]
      [.setIp (.ofIpv6 1), .setLength 64] (.ofIpv4 1) := ⟨[], rfl, by simp⟩
  obtain ⟨_, hfits, hmask⟩ := hall _ rfl
  exact ⟨_, hget, hfits.mpr ⟨_, _, hlast, rfl⟩, hmask.mpr ⟨_, _, _, 64, hlast, rfl, rfl, by decide⟩⟩

/-- The length of a new entry that is given an address, a length and then the null address stays. -/
theorem length_kept_by_null_ip :
    ¬ ∀ es : List Edit, (edited es).fits = true := by
  intro h
  have hfits := h [.setIp (.ofIpv4 0x0A010203), .setLength 8, .setIp .null]
  cases hfits

end NetKit.AddressEntry
