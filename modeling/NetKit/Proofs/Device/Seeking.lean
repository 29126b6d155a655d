import NetKit.Device.Buffer
import NetKit.Proofs.Answers
import NetKit.Proofs.Device.Offsets

/-!
# Where a seek lands

A position is brought into the signed 64-bit range before the device is asked for it. One before the
start stays there and is refused; one beyond the range becomes the last position of the range, and
some devices have that. What a position is counted from has wrapped round before, where it is beyond
the range itself.
-/

namespace NetKit
open Device
open Saturating (maxInt64)

namespace Device

variable {σ β γ : Type} [Backing σ β] {d : Device β} {t : Target} {s : σ}

/-! ## One seek -/

/-- The position that is asked for. -/
def asked (d : Device β) (t : Target) (s : σ) : Int :=
  match t with
  | .start offset => offset
  | .current delta => d.pos + delta
  | .fromEnd delta => d.size s + delta

/-- Where a position is counted from. -/
def origin (d : Device β) (t : Target) (s : σ) : Nat :=
  match t with
  | .start _ => 0
  | .current _ => d.pos
  | .fromEnd _ => d.size s

/-- The position that is counted from where the origin wraps round to. -/
def counted (d : Device β) (t : Target) (s : σ) : Int :=
  match t with
  | .start offset => offset
  | .current delta => signed d.pos + delta
  | .fromEnd delta => signed (d.size s) + delta

theorem resolve_eq_clamp (d : Device β) (t : Target) (s : σ) :
    d.resolve t s = Saturating.clamp (d.counted t s) := by
  cases t <;> rfl

theorem signed_le (n : Nat) : signed n ≤ n := by
  simp only [signed, Int64.toInt_ofNat', Int.bmod_def, Int64.size]
  split <;> omega

theorem signed_eq_iff {n : Nat} : signed n = n ↔ n ≤ maxInt64 := by
  constructor
  · intro h
    have hlt := Int64.toInt_lt (Int64.ofNat n)
    rw [← signed, h] at hlt
    unfold maxInt64
    omega
  · intro h
    refine Int64.toInt_ofNat_of_lt ?_
    unfold maxInt64 at h
    omega

theorem counted_le_asked (d : Device β) (t : Target) (s : σ) : d.counted t s ≤ d.asked t s := by
  cases t with
  | start offset => exact Int.le_refl _
  | current delta => exact Int.add_le_add_right (signed_le _) delta
  | fromEnd delta => exact Int.add_le_add_right (signed_le _) delta

theorem counted_eq_asked_iff : d.counted t s = d.asked t s ↔ d.origin t s ≤ maxInt64 := by
  cases t with
  | start offset => exact iff_of_true rfl (show (0 : Int) ≤ maxInt64 by decide)
  | current delta => exact (Int.add_left_inj delta).trans signed_eq_iff
  | fromEnd delta => exact (Int.add_left_inj delta).trans signed_eq_iff

/-- What is asked of the device is what is asked for, where both ends of the way are in range. -/
theorem min_counted_eq_asked_iff :
    min (d.counted t s) maxInt64 = d.asked t s ↔
      d.origin t s ≤ maxInt64 ∧ d.asked t s ≤ maxInt64 := by
  rw [← counted_eq_asked_iff]
  have hle := d.counted_le_asked t s
  omega

theorem clamp_neg_iff {i : Int} : Saturating.clamp i < 0 ↔ i < 0 := by
  unfold Saturating.clamp Saturating.minInt64 Saturating.maxInt64
  omega

theorem clamp_of_nonneg {i : Int} (h : 0 ≤ i) : Saturating.clamp i = min i maxInt64 := by
  unfold Saturating.clamp Saturating.minInt64 Saturating.maxInt64
  omega

/-- What a seek can come to. The device is asked for the nearest position in range. -/
inductive Sought (d : Device β) (t : Target) (s : σ) : Result σ β Nat → Prop
  | before (h : d.counted t s < 0) : Sought d t s ⟨.error .beforeStart, d, s⟩
  | closed (h : 0 ≤ d.counted t s) (hopen : d.isOpen = false) : Sought d t s (d.fail .notOpen s)
  | refused {n : Nat} {e : Error} {b : β} {s' : σ} (h : 0 ≤ d.counted t s)
      (hn : n = min (d.counted t s) maxInt64) (hopen : d.isOpen = true)
      (hseek : Backing.seek? d.mode n d.backing s = ⟨.error e, b, s'⟩) :
      Sought d t s ({ d with backing := b }.fail e s')
  | reached {n : Nat} {b : β} {s' : σ} (h : 0 ≤ d.counted t s)
      (hn : n = min (d.counted t s) maxInt64) (hopen : d.isOpen = true)
      (hseek : Backing.seek? d.mode n d.backing s = ⟨.ok (), b, s'⟩) :
      Sought d t s ⟨.ok n, { d with backing := b, pos := n }, s'⟩

theorem sought_seek (d : Device β) (t : Target) (s : σ) : Sought d t s (d.seek t s) := by
  rw [seek, resolve_eq_clamp]
  split
  · rename_i hneg
    exact .before (clamp_neg_iff.mp hneg)
  · rename_i hneg
    have hcounted : 0 ≤ d.counted t s := Int.not_lt.mp (mt clamp_neg_iff.mpr hneg)
    have hn : ((Saturating.clamp (d.counted t s)).toNat : Int) = min (d.counted t s) maxInt64 := by
      rw [Int.toNat_of_nonneg (Int.not_lt.mp hneg), clamp_of_nonneg hcounted]
    split
    · rename_i hclosed
      exact .closed hcounted (by simpa using hclosed)
    · rename_i hclosed
      have hopen : d.isOpen = true := by simpa using hclosed
      cases hseek : Backing.seek? d.mode (Saturating.clamp (d.counted t s)).toNat d.backing s with
      | mk answer b s' =>
        cases answer with
        | error e => exact .refused hcounted hn hopen hseek
        | ok u => exact .reached hcounted hn hopen hseek

/-! ## Landing -/

/-- A seek to a position ends there, or fails and leaves the device where it was; a position before
the start is not reached. The mode and the contents stay. -/
structure Result.Lands (contents : β → σ → γ) (d : Device β) (s : σ) (position : Int)
    (r : Result σ β Nat) : Prop where
  reached : ∀ n, r.answer = .ok n → n = position ∧ r.device.pos = n
  failed : ∀ e, r.answer = .error e → r.device.pos = d.pos
  before : position < 0 → ∃ e, r.answer = .error e
  mode : r.device.mode = d.mode
  contents : contents r.device.backing r.system = contents d.backing s

/-- Asking the backing for a position leaves the contents as they are. -/
def KeptBySeeking (contents : β → σ → γ) : Prop :=
  ∀ (mode : OpenMode) (n : Nat) (b : β) (s : σ),
    contents (Backing.seek? mode n b s).backing (Backing.seek? mode n b s).system = contents b s

variable {r : Result σ β Nat}

theorem Sought.succeeds_iff (h : Sought d t s r) :
    (∃ n, r.answer = .ok n) ↔ d.isOpen = true ∧ ∃ n : Nat, n = min (d.counted t s) maxInt64 ∧
      (Backing.seek? d.mode n d.backing s).answer = .ok () := by
  cases h with
  | before hcounted =>
    refine iff_of_false nofun ?_
    rintro ⟨-, n, hn, -⟩
    omega
  | closed hcounted hopen =>
    refine iff_of_false nofun ?_
    rintro ⟨hopen', -⟩
    rw [hopen] at hopen'
    cases hopen'
  | refused hcounted hn hopen hseek =>
    refine iff_of_false nofun ?_
    rintro ⟨-, m, hm, hanswer⟩
    obtain rfl := Int.ofNat_inj.mp (hm.trans hn.symm)
    rw [hseek] at hanswer
    cases hanswer
  | @reached n b s' hcounted hn hopen hseek =>
    exact iff_of_true ⟨n, rfl⟩ ⟨hopen, n, hn, by rw [hseek]⟩

/-- Only where the device is asked for another position can a seek that succeeds miss. -/
theorem Sought.lands_iff {contents : β → σ → γ} (hkept : KeptBySeeking contents)
    (h : Sought d t s r) :
    r.Lands contents d s (d.asked t s) ↔
      min (d.counted t s) maxInt64 = d.asked t s ∨ ¬ ∃ n, r.answer = .ok n := by
  cases h with
  | before hcounted =>
    exact iff_of_true ⟨nofun, fun _ _ => rfl, fun _ => ⟨_, rfl⟩, rfl, rfl⟩ (.inr nofun)
  | closed hcounted hopen =>
    exact iff_of_true ⟨nofun, fun _ _ => rfl, fun _ => ⟨_, rfl⟩, rfl, rfl⟩ (.inr nofun)
  | @refused n e b s' hcounted hn hopen hseek =>
    have hcontents := hkept d.mode n d.backing s
    rw [hseek] at hcontents
    exact iff_of_true ⟨nofun, fun _ _ => rfl, fun _ => ⟨_, rfl⟩, rfl, hcontents⟩ (.inr nofun)
  | @reached n b s' hcounted hn hopen hseek =>
    have hcontents := hkept d.mode n d.backing s
    rw [hseek] at hcontents
    constructor
    · intro hlands
      exact .inl (hn.symm.trans (hlands.reached n rfl).1)
    · rintro (hsame | hfails)
      · refine ⟨fun m hm => ?_, nofun, fun hneg => ?_, rfl, hcontents⟩
        · cases hm
          exact ⟨hn.trans hsame, rfl⟩
        · omega
      · exact absurd ⟨n, rfl⟩ hfails

theorem lands_iff_not_accepted {contents : β → σ → γ} (hkept : KeptBySeeking contents)
    {accepts : Int → Prop}
    (haccepts : (∃ n, (d.seek t s).answer = .ok n) ↔ accepts (min (d.counted t s) maxInt64)) :
    (d.seek t s).Lands contents d s (d.asked t s) ↔
      (d.origin t s ≤ maxInt64 ∧ d.asked t s ≤ maxInt64) ∨
        ¬ accepts (min (d.counted t s) maxInt64) := by
  rw [(sought_seek d t s).lands_iff hkept, haccepts, min_counted_eq_asked_iff]

theorem seek_before_start (h : d.asked t s < 0) : d.seek t s = ⟨.error .beforeStart, d, s⟩ := by
  have hbefore : d.resolve t s < 0 := by
    rw [resolve_eq_clamp, clamp_neg_iff]
    exact Int.lt_of_le_of_lt (d.counted_le_asked t s) h
  rw [seek, if_pos hbefore]

end Device

/-! ## Buffers -/

namespace Buffer

variable {σ : Type} [Allocator σ]

/-- The positions that a buffer takes. One past its end is for writing. -/
def Accepts (b : Buffer) (n : Int) : Prop :=
  b.isOpen = true ∧ 0 ≤ n ∧ (b.mode.writes = true ∨ n ≤ b.data.length)

theorem seek?_eq_ok (mode : OpenMode) (n : Nat) (m : Memory) (s : σ) :
    (Backing.seek? mode n m s).answer = .ok () ↔ mode.writes = true ∨ n ≤ m.data.length := by
  simp only [Backing.seek?]
  cases hwrites : mode.writes with
  | true => simp
  | false => by_cases hpast : m.data.length < n <;> simp [hpast, Nat.not_lt.mp]

theorem seek_succeeds_iff (b : Buffer) (t : Target) (s : σ) :
    (∃ n, (b.seek t s).answer = .ok n) ↔ b.Accepts (min (b.counted t s) maxInt64) := by
  simp only [(sought_seek b t s).succeeds_iff, seek?_eq_ok, Accepts, data]
  refine and_congr_right fun _ => ⟨?_, ?_⟩
  · rintro ⟨n, hn, htaken⟩
    exact ⟨by omega, htaken.imp_right fun h => by omega⟩
  · rintro ⟨hnonneg, htaken⟩
    exact ⟨_, Int.toNat_of_nonneg hnonneg, htaken.imp_right fun h => by omega⟩

end Buffer

/-! ## Files -/

namespace FileDevice

/-- The positions that an open file takes: all up to the largest one of the disk. -/
def Accepts (f : FileDevice) (d : Disk) (n : Int) : Prop :=
  f.isOpen = true ∧ 0 ≤ n ∧ (∃ g, openFile? ⟨f, d⟩ = some g) ∧ n ≤ d.maxOffset

theorem seek?_eq_ok (mode : OpenMode) (n : Nat) (f : StoredFile) (d : Disk) :
    (Backing.seek? mode n f d).answer = .ok () ↔
      (∃ g, f.descriptor.bind d.openFile? = some g) ∧ n ≤ d.maxOffset := by
  simp only [Backing.seek?]
  cases hfd : f.descriptor with
  | none => simp [StoredFile.withDescriptor, hfd]
  | some fd =>
    rw [StoredFile.withDescriptor_eq hfd, Option.bind_some, ← Disk.seekTo_eq_ok]
    exact Answer.mapError_eq_ok

theorem seek_succeeds_iff (f : FileDevice) (t : Target) (d : Disk) :
    (∃ n, (f.seek t d).answer = .ok n) ↔ f.Accepts d (min (f.counted t d) maxInt64) := by
  simp only [(sought_seek f t d).succeeds_iff, seek?_eq_ok, Accepts, openFile?]
  refine and_congr_right fun _ => ⟨?_, ?_⟩
  · rintro ⟨n, hn, hfile, hmax⟩
    exact ⟨by omega, hfile, by omega⟩
  · rintro ⟨hnonneg, hfile, hmax⟩
    exact ⟨_, Int.toNat_of_nonneg hnonneg, hfile, by omega⟩

theorem keptBySeeking : KeptBySeeking fun (f : StoredFile) (d : Disk) => d.contents f.path := by
  intro mode n f d
  obtain ⟨hbacking, opened, hsystem⟩ :=
    withDescriptor_keeps f d (fun fd => Disk.seekTo fd n) (Disk.seekTo_keeps · n d)
  simp only [Backing.seek?, Storage.seekTo, hbacking, hsystem]
  rfl

end FileDevice

/-! ## Both -/

namespace Device

/-- A seek succeeds exactly if the device takes the position in range that is nearest to the one that
is counted. It lands where it was asked to or nowhere, unless the position asked for or the one that
it is counted from is beyond the range, and the device takes the other one. A position before the
start is never reached. -/
theorem seek_lands_unless_out_of_range (t : Target) :
    (∀ {σ : Type} [Allocator σ] (b : Buffer) (s : σ),
      ((∃ n, (b.seek t s).answer = .ok n) ↔ b.Accepts (min (b.counted t s) maxInt64)) ∧
      ((b.seek t s).Lands (fun m _ => m.data) b s (b.asked t s) ↔
        (b.origin t s ≤ maxInt64 ∧ b.asked t s ≤ maxInt64) ∨
          ¬ b.Accepts (min (b.counted t s) maxInt64)) ∧
      (b.asked t s < 0 → b.seek t s = ⟨.error .beforeStart, b, s⟩)) ∧
    ∀ (f : FileDevice) (d : Disk),
      ((∃ n, (f.seek t d).answer = .ok n) ↔ f.Accepts d (min (f.counted t d) maxInt64)) ∧
      ((f.seek t d).Lands (fun f d => d.contents f.path) f d (f.asked t d) ↔
        (f.origin t d ≤ maxInt64 ∧ f.asked t d ≤ maxInt64) ∨
          ¬ f.Accepts d (min (f.counted t d) maxInt64)) ∧
      (f.asked t d < 0 → f.seek t d = ⟨.error .beforeStart, f, d⟩) := by
  refine ⟨fun b s => ⟨b.seek_succeeds_iff t s, ?_, seek_before_start⟩,
    fun f d => ⟨f.seek_succeeds_iff t d, ?_, seek_before_start⟩⟩
  · exact lands_iff_not_accepted (fun _ _ _ _ => rfl) (b.seek_succeeds_iff t s)
  · exact lands_iff_not_accepted FileDevice.keptBySeeking (f.seek_succeeds_iff t d)

/-- A file is written from the last but one position of the range on. After two octets, where it
stands counts as before the start. -/
example :
    let start := (FileDevice.ofPath "f").open (OpenMode.readWrite.union OpenMode.append)
      { FileDevice.oneFile [] with maxOffset := 9223372036854775807 }
    let far := start.device.seek (.start 9223372036854775806) start.system
    let first := far.device.write [120] far.system
    let second := first.device.write [120] first.system
    second.device.pos = 9223372036854775808 ∧
      (second.device.seek (.current 0) second.system).answer = .error .beforeStart := by
  decide

/-- The last position that a 64-bit number can name is not reached, but the seek succeeds. -/
theorem far_seek_lands_short :
    ¬ ∀ (b : Buffer) (t : Target) (s : Disk),
      (b.seek t s).Lands (fun m _ => m.data) b s (b.asked t s) := by
  intro h
  have hlands := h ((Buffer.ofData [97, 98]).open OpenMode.writeOnly ({} : Disk)).device
    (.start 18446744073709551615) {}
  have hreached := (hlands.reached 9223372036854775807 (by decide)).1
  exact absurd hreached (by decide)

end Device
end NetKit
