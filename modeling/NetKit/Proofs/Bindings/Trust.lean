import NetKit.Proofs.Certificate.Reloading
import NetKit.Proofs.Config.Rebuilding

/-!
# Trusted certificates are known by their encodings

Everything kept of a certificate has been read from its encoding, so one that has been loaded is in
a bundle exactly when its encoding is.
-/

namespace NetKit

namespace Certificate

variable {c t : Certificate}

/-- Two certificates with one encoding, wherever they have been loaded from, are one. -/
theorem Reloads.eq_of_encoding (hc : Reloads c) (ht : Reloads t) (h : t.encoding = c.encoding) :
    t = c := by
  obtain ⟨remarks, hagain⟩ := hc.again
  obtain ⟨remarks', hagain'⟩ := ht.again
  have hone : readOne c.encoding = .ok (.loaded c remarks, []) := by
    simpa using hagain []
  have hother : readOne c.encoding = .ok (.loaded t remarks', []) := by
    simpa [h] using hagain' []
  rw [hone] at hother
  cases hother
  rfl

end Certificate

namespace Bindings

open Answer
open Certificate (Loaded)

variable {σ : Type} [Storage σ] {s : σ} {config : Config} {b : Bindings} {c : Certificate}

/-! ## Setting up -/

/-- The certificates of the bundle, if there is one. -/
def bundle (config : Config) (s : σ) : List Certificate :=
  config.trustedCertificates.toList.flatMap fun path => certificatesAt path .pem s

theorem mem_bundle_iff : c ∈ bundle config s ↔
    ∃ path ∈ config.trustedCertificates, c ∈ certificatesAt path .pem s := by
  simp [bundle]

theorem loadTrusted_eq_ok_iff {cs : List Certificate} : loadTrusted config s = .ok cs ↔
    (∀ path ∈ config.trustedCertificates, certificatesAt path .pem s ≠ []) ∧
      bundle config s = cs := by
  rw [loadTrusted, bundle]
  cases config.trustedCertificates with
  | none => simp
  | some path => cases hcertificates : certificatesAt path .pem s <;> simp [hcertificates]

theorem new_eq_ok_iff : Bindings.new config s = .ok b ↔
    (config.IsValid s ∧ ∀ path ∈ config.trustedCertificates, certificatesAt path .pem s ≠ []) ∧
      b = ⟨config, bundle config s⟩ := by
  rw [Bindings.new, bind_eq_ok]
  constructor
  · rintro ⟨⟨⟩, hvalid, h⟩
    obtain ⟨cs, hload, h⟩ := bind_eq_ok.mp h
    obtain ⟨hsome, rfl⟩ := loadTrusted_eq_ok_iff.mp hload
    cases h
    exact ⟨⟨Config.validate_eq_ok_iff.mp hvalid, hsome⟩, rfl⟩
  · rintro ⟨⟨hvalid, hsome⟩, rfl⟩
    exact ⟨(), Config.validate_eq_ok_iff.mpr hvalid,
      bind_eq_ok.mpr ⟨_, loadTrusted_eq_ok_iff.mpr ⟨hsome, rfl⟩, rfl⟩⟩

theorem exists_new_eq_error_iff : (∃ e, Bindings.new config s = .error e) ↔
    ¬ config.IsValid s ∨
      ∃ path ∈ config.trustedCertificates, certificatesAt path .pem s = [] := by
  rw [exists_error_iff]
  simp only [new_eq_ok_iff, exists_and_left, exists_eq, and_true, not_and_or]
  simp

/-! ## Trust -/

theorem isTrusted_iff : b.isTrusted c = true ↔ c.isNull = false ∧ c ∈ b.trusted := by
  simp [isTrusted]

theorem mem_bundle_iff_encoding (hc : Loaded c) : c ∈ bundle config s ↔
    ∃ path ∈ config.trustedCertificates, ∃ t ∈ certificatesAt path .pem s,
      t.encode .der = c.encode .der := by
  rw [mem_bundle_iff]
  refine exists_congr fun path => and_congr_right fun _ => ?_
  constructor
  · intro hmem
    exact ⟨c, hmem, rfl⟩
  · rintro ⟨t, ht, hencoding⟩
    have hloaded : Loaded t := .ofFile path .pem s ht
    exact hc.reloads.eq_of_encoding hloaded.reloads hencoding ▸ ht

/-- A certificate that has been loaded is trusted if and only if some certificate of the bundle has
the same encoding; the null certificate is not, and a certificate is null once it is cleared. Setting
up fails if and only if the configuration cannot be used or its bundle holds no certificate. -/
theorem trusted_iff_encoding_in_bundle (config : Config) (s : σ) :
    (∀ b, Bindings.new config s = .ok b →
      (∀ c, Loaded c → (b.isTrusted c = true ↔ c.isNull = false ∧
        ∃ path ∈ config.trustedCertificates, ∃ t ∈ certificatesAt path .pem s,
          t.encode .der = c.encode .der)) ∧
      b.isTrusted {} = false ∧
      ∀ c cleared, Editable.change? Certificate.Edit.clear c = some cleared →
        b.isTrusted cleared = false) ∧
    ((∃ e, Bindings.new config s = .error e) ↔
      ¬ config.IsValid s ∨
        ∃ path ∈ config.trustedCertificates, certificatesAt path .pem s = []) := by
  refine ⟨fun b hnew => ?_, exists_new_eq_error_iff⟩
  obtain ⟨-, rfl⟩ := new_eq_ok_iff.mp hnew
  refine ⟨fun c hc => ?_, rfl, fun c cleared hcleared => ?_⟩
  · rw [isTrusted_iff, mem_bundle_iff_encoding hc]
  · cases hcleared
    rfl

/-- The certificate of a bundle is trusted when it is read from its octets alone. -/
theorem trusted_when_read_from_octets :
    let config : Config := { trustedCertificates := some "ca.pem" }
    let disk := Config.bundled (Certificate.smallestCertificate.encode .pem)
    ∃ b, Bindings.new config disk = .ok b ∧ Loaded Certificate.smallestCertificate ∧
      b.isTrusted Certificate.smallestCertificate = true ∧ b.isTrusted {} = false := by
  intro config disk
  have hc : Loaded Certificate.smallestCertificate :=
    .ofData Certificate.smallest .der (by decide +kernel)
  have hcontents (bs : Bytes) : Storage.contents "ca.pem" (Config.bundled bs) = .ok bs := rfl
  have hbundle : certificatesAt "ca.pem" .pem disk = [Certificate.smallestCertificate] := by
    have hread := Certificate.ofData_flatMap_pem (List.forall_mem_singleton.mpr hc.reloads)
    rw [List.flatMap_singleton] at hread
    rw [certificatesAt, hcontents]
    exact hread
  have hvalid : config.IsValid disk := by
    refine ⟨by simp [Config.Waits, config], by decide, ?_⟩
    simp only [config, Option.mem_some_iff, forall_eq']
    rfl
  have hsome : ∀ path ∈ config.trustedCertificates, certificatesAt path .pem disk ≠ [] := by
    simp [config, hbundle]
  have hnew := new_eq_ok_iff.mpr ⟨⟨hvalid, hsome⟩, rfl⟩
  obtain ⟨htrusted, hnull, -⟩ := (trusted_iff_encoding_in_bundle config disk).1 _ hnew
  refine ⟨_, hnew, hc, (htrusted _ hc).mpr ⟨rfl, "ca.pem", rfl, _, ?_, rfl⟩, hnull⟩
  rw [hbundle]
  exact List.mem_singleton_self _

end Bindings
end NetKit
