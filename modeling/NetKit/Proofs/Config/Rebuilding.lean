import Mathlib.Logic.Basic
import NetKit.Config
import NetKit.Disk
import NetKit.Proofs.Answers

/-!
# Configurations rebuilt from their settings

Settings tell a waiting time in whole milliseconds modulo 2^64. A configuration that was accepted
comes back from its settings exactly when this loses neither all of the time nor its upper part.
-/

namespace NetKit

namespace Span

variable {d : Span} {n : Nat}

theorem isZero_iff : d.isZero = true ↔ d.secs = 0 ∧ d.nanos = 0 := by
  simp [isZero]

theorem ofMillis_eq_zero_iff : (ofMillis n).secs = 0 ∧ (ofMillis n).nanos = 0 ↔ n = 0 := by
  simp only [ofMillis]
  omega

theorem millis_ofMillis : (ofMillis n).millis = n := by
  simp only [ofMillis, millis]
  omega

end Span

namespace Config

open Answer

variable {σ : Type} [Storage σ] {s s' : σ} {c c' : Config} {steps : List Step}

/-! ## What is accepted -/

def Waits (c : Config) : Prop := ∀ d ∈ c.eventLoopTimeout, ¬ (d.secs = 0 ∧ d.nanos = 0)

structure IsValid (c : Config) (s : σ) : Prop where
  waits : c.Waits
  named : c.trustedCertificates ≠ some ""
  bundle : ∀ path ∈ c.trustedCertificates, Storage.isFile path s = true

theorem isZero_timeout_iff : (c.eventLoopTimeout.map Span.isZero).getD false = true ↔ ¬ c.Waits := by
  cases htimeout : c.eventLoopTimeout <;> simp [Waits, htimeout, Span.isZero_iff]

theorem validate_of_not_waits (h : ¬ c.Waits) : c.validate s = .error .noWaitingTime := by
  rw [validate, if_pos (isZero_timeout_iff.mpr h)]
  rfl

theorem validate_of_waits (h : c.Waits) :
    c.validate s = .ok () ↔ c.trustedCertificates ≠ some "" ∧
      ∀ path ∈ c.trustedCertificates, Storage.isFile path s = true := by
  rw [validate, if_neg (mt isZero_timeout_iff.mp (not_not_intro h))]
  cases c.trustedCertificates with
  | none => simp [pure, Except.pure]
  | some path =>
    by_cases hempty : path.isEmpty = true
    · simp [bind, Except.bind, String.isEmpty_iff.mp hempty]
    · simp [hempty, pure, Except.pure, mt String.isEmpty_iff.mpr hempty]

theorem validate_eq_ok_iff : c.validate s = .ok () ↔ c.IsValid s := by
  by_cases hwaits : c.Waits
  · rw [validate_of_waits hwaits]
    exact ⟨fun ⟨hnamed, hbundle⟩ => ⟨hwaits, hnamed, hbundle⟩, fun h => ⟨h.named, h.bundle⟩⟩
  · rw [validate_of_not_waits hwaits]
    constructor
    · intro h
      cases h
    · intro h
      exact absurd h.waits hwaits

theorem build_eq_ok_iff : build steps s = .ok c ↔ steps.foldl apply {} = c ∧ c.IsValid s := by
  rw [build, bind_eq_ok]
  constructor
  · rintro ⟨⟨⟩, hvalid, h⟩
    cases h
    exact ⟨rfl, validate_eq_ok_iff.mp hvalid⟩
  · rintro ⟨rfl, hvalid⟩
    exact ⟨(), validate_eq_ok_iff.mpr hvalid, rfl⟩

/-! ## What settings keep -/

def rebuilt (c : Config) : Config := ({} : Config).overlay c.settings

theorem rebuilt_timeout : c.rebuilt.eventLoopTimeout =
    c.eventLoopTimeout.map fun d => .ofMillis (d.millis % UInt64.size) := by
  cases htimeout : c.eventLoopTimeout <;> simp [rebuilt, overlay, settings, htimeout]

theorem rebuilt_trusted : c.rebuilt.trustedCertificates = c.trustedCertificates := by
  simp [rebuilt, overlay, settings]

theorem rebuilt_filter : c.rebuilt.logging.filter = c.logging.filter := by
  simp [rebuilt, overlay, settings]

theorem settings_rebuilt (c : Config) : c.rebuilt.settings = c.settings := by
  have htimeout : c.rebuilt.eventLoopTimeout.map (fun d => d.millis % UInt64.size) =
      c.eventLoopTimeout.map fun d => d.millis % UInt64.size := by
    rw [rebuilt_timeout, Option.map_map]
    refine Option.map_congr fun d _ => ?_
    rw [Function.comp_apply, Span.millis_ofMillis, Nat.mod_mod]
  rw [settings, htimeout, rebuilt_trusted, rebuilt_filter]
  rfl

theorem waits_rebuilt_iff :
    c.rebuilt.Waits ↔ ∀ d ∈ c.eventLoopTimeout, d.millis % UInt64.size ≠ 0 := by
  rw [Waits, rebuilt_timeout]
  cases c.eventLoopTimeout with
  | none => simp
  | some d => simp only [Option.map_some, Option.mem_some_iff, forall_eq',
      Span.ofMillis_eq_zero_iff, ne_eq]

theorem IsValid.rebuilt_iff (h : c.IsValid s)
    (hstill : ∀ path ∈ c.trustedCertificates, Storage.isFile path s' = true) :
    c.rebuilt.IsValid s' ↔ c.rebuilt.Waits := by
  refine ⟨IsValid.waits, fun hwaits => ⟨hwaits, ?_, ?_⟩⟩
  · rw [rebuilt_trusted]
    exact h.named
  · rw [rebuilt_trusted]
    exact hstill

/-! ## Coming back -/

/-- Built from its settings alone, a configuration with the same settings and waiting time. -/
def ComesBack (c : Config) (s : σ) : Prop :=
  ∃ c', build [.settings c.settings] s = .ok c' ∧ c'.settings = c.settings ∧
    c'.eventLoopTimeout.map Span.millis = c.eventLoopTimeout.map Span.millis

theorem map_millis_rebuilt_iff :
    c.rebuilt.eventLoopTimeout.map Span.millis = c.eventLoopTimeout.map Span.millis ↔
      ∀ d ∈ c.eventLoopTimeout, d.millis < UInt64.size := by
  rw [rebuilt_timeout]
  cases c.eventLoopTimeout with
  | none => simp
  | some d => simp [Span.millis_ofMillis]

theorem build_settings_eq_ok_iff :
    build [.settings c.settings] s = .ok c' ↔ c.rebuilt = c' ∧ c.rebuilt.IsValid s := by
  rw [build_eq_ok_iff, List.foldl_cons, List.foldl_nil]
  exact and_congr_right fun h => by rw [rebuilt]; exact h ▸ Iff.rfl

theorem build_settings_of_not_waits (h : ¬ c.rebuilt.Waits) :
    build [.settings c.settings] s = .error .noWaitingTime := by
  have hvalidate : c.rebuilt.validate s = .error .noWaitingTime := validate_of_not_waits h
  change (c.rebuilt.validate s >>= fun _ => pure c.rebuilt) = _
  rw [hvalidate]
  rfl

theorem comesBack_iff : c.ComesBack s ↔ c.rebuilt.IsValid s ∧
    c.rebuilt.eventLoopTimeout.map Span.millis = c.eventLoopTimeout.map Span.millis := by
  constructor
  · rintro ⟨c', hbuild, -, hmillis⟩
    obtain ⟨rfl, hvalid⟩ := build_settings_eq_ok_iff.mp hbuild
    exact ⟨hvalid, hmillis⟩
  · rintro ⟨hvalid, hmillis⟩
    exact ⟨_, build_settings_eq_ok_iff.mpr ⟨rfl, hvalid⟩, settings_rebuilt c, hmillis⟩

/-- A configuration that was accepted comes back from its settings if and only if its waiting time,
if it has one, is a millisecond at least and is told in 64 bits. Whatever is built from the settings
has the same settings; nothing is built when the settings tell of no time. -/
theorem comesBack_iff_millis_fit (h : build steps s = .ok c)
    (hstill : ∀ path ∈ c.trustedCertificates, Storage.isFile path s' = true) :
    (c.ComesBack s' ↔ ∀ d ∈ c.eventLoopTimeout, 0 < d.millis ∧ d.millis < UInt64.size) ∧
    (∀ c', build [.settings c.settings] s' = .ok c' → c'.settings = c.settings ∧
      c'.eventLoopTimeout = c.eventLoopTimeout.map fun d => .ofMillis (d.millis % UInt64.size)) ∧
    (build [.settings c.settings] s' = .error .noWaitingTime ↔
      ∃ d ∈ c.eventLoopTimeout, d.millis % UInt64.size = 0) := by
  have hvalid : c.rebuilt.IsValid s' ↔ c.rebuilt.Waits := (build_eq_ok_iff.mp h).2.rebuilt_iff hstill
  refine ⟨?_, ?_, ?_⟩
  · rw [comesBack_iff, hvalid, waits_rebuilt_iff, map_millis_rebuilt_iff, ← forall₂_and]
    refine forall₂_congr fun d _ => and_congr_left fun hlt => ?_
    rw [Nat.mod_eq_of_lt hlt, Nat.pos_iff_ne_zero]
  · intro c' hbuild
    obtain ⟨rfl, -⟩ := build_settings_eq_ok_iff.mp hbuild
    exact ⟨settings_rebuilt c, rebuilt_timeout⟩
  · have hzero : ¬ c.rebuilt.Waits ↔ ∃ d ∈ c.eventLoopTimeout, d.millis % UInt64.size = 0 := by
      simp [waits_rebuilt_iff]
    rw [← hzero]
    refine ⟨fun herror hwaits => ?_, build_settings_of_not_waits⟩
    have hbuild := build_settings_eq_ok_iff.mpr ⟨rfl, hvalid.mpr hwaits⟩
    rw [herror] at hbuild
    cases hbuild

/-- A disk with a bundle in its working directory. -/
def bundled (contents : Bytes) : Disk where
  files := [(["tmp", "work", "ca.pem"], 0)]
  data := [(0, contents)]
  fresh := 1

/-- Two seconds and a half millisecond come back as two seconds. -/
theorem comesBack_with_bundle :
    let c : Config :=
      { logging := { level := .debug, filter := some "core_io=trace" }
        eventLoopTimeout := some ⟨2, 500000⟩
        trustedCertificates := some "ca.pem" }
    build [.logging c.logging, .timeout ⟨2, 500000⟩, .trusted "ca.pem"] (bundled []) = .ok c ∧
      (∀ path ∈ c.trustedCertificates, Storage.isFile path (bundled []) = true) ∧
      c.ComesBack (bundled []) := by
  intro c
  have hbuild : build [.logging c.logging, .timeout ⟨2, 500000⟩, .trusted "ca.pem"] (bundled []) =
      .ok c := rfl
  have hstill : ∀ path ∈ c.trustedCertificates, Storage.isFile path (bundled []) = true := by
    simp only [c, Option.mem_some_iff, forall_eq']
    decide
  have hfits : ∀ d ∈ c.eventLoopTimeout, 0 < d.millis ∧ d.millis < UInt64.size := by
    simp only [c, Option.mem_some_iff, forall_eq']
    decide
  exact ⟨hbuild, hstill, (comesBack_iff_millis_fit hbuild hstill).1.mpr hfits⟩

/-- Half a millisecond is accepted and told as no time, which is refused. Of 18446744073709552
seconds no more than 384 milliseconds are told. -/
theorem short_and_long_times_are_lost :
    let short : Config := { eventLoopTimeout := some ⟨0, 500000⟩ }
    let long : Config := { eventLoopTimeout := some ⟨18446744073709552, 0⟩ }
    (build [.timeout ⟨0, 500000⟩] (bundled []) = .ok short ∧ ¬ short.ComesBack (bundled []) ∧
      build [.settings short.settings] (bundled []) = .error .noWaitingTime) ∧
    build [.timeout ⟨18446744073709552, 0⟩] (bundled []) = .ok long ∧ ¬ long.ComesBack (bundled []) ∧
      build [.settings long.settings] (bundled []) = .ok { eventLoopTimeout := some ⟨0, 384000000⟩ } := by
  intro short long
  have hshort : ¬ short.ComesBack (bundled []) := by
    rw [comesBack_iff]
    rintro ⟨hvalid, -⟩
    exact hvalid.waits ⟨0, 0⟩ rfl ⟨rfl, rfl⟩
  have hlong : ¬ long.ComesBack (bundled []) := by
    rw [comesBack_iff, map_millis_rebuilt_iff]
    rintro ⟨-, hfits⟩
    exact absurd (hfits ⟨18446744073709552, 0⟩ rfl) (by decide)
  exact ⟨⟨rfl, hshort, rfl⟩, rfl, hlong, rfl⟩

end Config
end NetKit
