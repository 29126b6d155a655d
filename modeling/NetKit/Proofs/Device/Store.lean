import NetKit.Device.Buffer
import NetKit.Proofs.Bytes.Overwrite
import NetKit.Proofs.Device.Calls

/-!
# Buffers as stores of octets

A store is nothing but its octets, a position and a mode. The rules say which calls it refuses, with
nothing changed, and what the others do to it; a buffer keeps to them whatever memory is granted.
-/

namespace NetKit

namespace Buffer

open Device (Answer Fault Target)

/-- What a buffer can be asked; `data` hands out its octets. -/
inductive Call where
  | open (mode : OpenMode)
  | close
  | device (c : Device.Call)
  | setData (data : Bytes)
  | data
deriving DecidableEq, Repr

/-! ## The rules -/

structure Store where
  contents : Bytes
  pos : Nat := 0
  mode : OpenMode := .closed
  /-- The octets that were handed out, in order. -/
  given : List Bytes := []
deriving DecidableEq, Repr

namespace Store

/-- The position meant, kept in the signed 64-bit range. -/
def target (s : Store) : Target → Int
  | .start offset => Saturating.clamp offset
  | .current delta => Saturating.clamp (Device.signed s.pos + delta)
  | .fromEnd delta => Saturating.clamp (Device.signed s.contents.length + delta)

/-- Why a call is refused, where `grant` says what sizes there is memory for. -/
def fault? (grant : Nat → Except Device.Error Unit) (s : Store) : Call → Option Fault
  | .open mode =>
    if s.mode ≠ .closed then some (.failed .alreadyOpen)
    else if mode.completed.grantsAccess then none
    else some (.failed .noAccess)
  | .setData _ => if s.mode ≠ .closed then some (.failed .openBuffer) else none
  | .device (.seek t) =>
    if s.target t < 0 then some .beforeStart
    else if s.mode = .closed then some (.failed .notOpen)
    else if s.contents.length < s.target t ∧ ¬ s.mode.writes then some (.failed .invalidPosition)
    else none
  | .device (.read _) =>
    if s.mode = .closed then some (.failed .notOpen)
    else if s.mode.reads then none
    else some (.failed .writeOnly)
  | .device (.write bs) =>
    if s.mode = .closed then some (.failed .notOpen)
    else if ¬ s.mode.writes then some (.failed .readOnly)
    else if s.pos + bs.length ≤ s.contents.length then none
    else match grant (s.pos + bs.length) with
      | .ok () => none
      | .error e => some (.failed e)
  | .close | .data | .device .pos | .device .size | .device .atEnd => none

/-- What a call answers and does. -/
inductive Step (grant : Nat → Except Device.Error Unit) (s : Store) :
    Call → Except Fault Answer → Store → Prop
  | refused {c : Call} {e : Fault} (h : s.fault? grant c = some e) : Step grant s c (.error e) s
  | open {mode : OpenMode} (h : s.fault? grant (.open mode) = none) {kept : Bytes}
      (hkept : kept = if mode.completed.truncates then [] else s.contents) :
      Step grant s (.open mode) (.ok .done)
        { s with
          contents := kept
          mode := mode.completed
          pos := if mode.completed.appends then kept.length else 0 }
  | close : Step grant s .close (.ok .done) { s with mode := .closed, pos := 0 }
  | seek {t : Target} (h : s.fault? grant (.device (.seek t)) = none) :
      Step grant s (.device (.seek t)) (.ok (.number (s.target t).toNat))
        { s with pos := (s.target t).toNat }
  | read {n first last : Nat} (h : s.fault? grant (.device (.read n)) = none)
      (hfirst : first = min s.pos s.contents.length)
      (hlast : last = min (s.pos + n) s.contents.length) :
      Step grant s (.device (.read n)) (.ok (.octets (s.contents.extract first last)))
        { s with pos := s.pos + (last - first) }
  | write {bs new : Bytes} (h : s.fault? grant (.device (.write bs)) = none)
      (hnew : s.contents.Overwrites s.pos bs new) :
      Step grant s (.device (.write bs)) (.ok (.number bs.length))
        { s with contents := new, pos := s.pos + bs.length }
  | setData {bs : Bytes} (h : s.fault? grant (.setData bs) = none) :
      Step grant s (.setData bs) (.ok .done) { s with contents := bs }
  | data :
      Step grant s .data (.ok (.octets s.contents)) { s with given := s.given ++ [s.contents] }
  | pos : Step grant s (.device .pos) (.ok (.number s.pos)) s
  | size : Step grant s (.device .size) (.ok (.number s.contents.length)) s
  | atEnd :
      Step grant s (.device .atEnd)
        (.ok (.verdict (s.mode = .closed ∨ s.contents.length ≤ s.pos))) s

variable {grant : Nat → Except Device.Error Unit} {s t : Store} {c : Call}
  {a : Except Fault Answer}

/-- What was handed out stays as it was. -/
theorem Step.given_grows (h : Step grant s c a t) : s.given <+: t.given := by
  cases h with
  | data => exact List.prefix_append _ _
  | _ => exact List.prefix_rfl

end Store

/-! ## Buffers -/

variable {σ : Type}

/-- A buffer in its system, with the snapshots that were taken of it. -/
structure Held (σ : Type) extends Device.Placed σ Memory where
  given : List Memory.Snapshot := []

namespace Held

def start (data : Bytes) (s : σ) : Held σ := { device := ofData data, system := s }

def store (b : Held σ) : Store where
  contents := b.device.backing.data
  pos := b.device.pos
  mode := b.device.mode
  given := b.given.map (·.data)

/-- Goes on with what a call answered. -/
def next (b : Held σ) (r : Except Fault Answer × Device.Placed σ Memory) :
    Except Fault Answer × Held σ :=
  (r.1, { b with toPlaced := r.2 })

@[simp] theorem store_mode (b : Held σ) : b.store.mode = b.device.mode := rfl

@[simp] theorem store_pos (b : Held σ) : b.store.pos = b.device.pos := rfl

@[simp] theorem store_contents (b : Held σ) : b.store.contents = b.device.backing.data := rfl

variable [Allocator σ]

def call (b : Held σ) : Call → Except Fault Answer × Held σ
  | .open mode => b.next ((b.device.open mode b.system).told fun _ => .done)
  | .close => b.next (.ok .done, ⟨(b.device.close b.system).1, (b.device.close b.system).2⟩)
  | .device c => b.next (b.toPlaced.call c)
  | .setData data => b.next ((setData b.device data b.system).told fun _ => .done)
  | .data =>
    (.ok (.octets b.device.backing.data), { b with given := b.given ++ [b.device.backing.snapshot] })

/-- The sizes that there is memory for now. -/
def grant (b : Held σ) (size : Nat) : Except Device.Error Unit :=
  (Allocator.allocate size b.system).1

theorem isOpen_iff {β : Type} {d : Device β} : d.isOpen = true ↔ d.mode ≠ .closed := by
  simp [Device.isOpen]

theorem resolve_eq_target (b : Held σ) (t : Target) :
    b.device.resolve t b.system = b.store.target t := by
  cases t <;> rfl

/-! ## One call -/

theorem step_open (b : Held σ) (mode : OpenMode) :
    b.store.Step b.grant (.open mode) (b.call (.open mode)).1 (b.call (.open mode)).2.store := by
  simp only [call, Device.open, isOpen_iff]
  split
  · rename_i hopen
    exact .refused (by simp [Store.fault?, hopen])
  · rename_i hclosed
    split
    · rename_i haccess
      exact .refused (by simp_all [Store.fault?])
    · rename_i haccess
      refine Store.Step.open (by simp_all [Store.fault?]) ?_
      simp only [Device.Backing.open?]
      split <;> rfl

theorem step_seek (b : Held σ) (t : Target) :
    b.store.Step b.grant (.device (.seek t)) (b.call (.device (.seek t))).1
      (b.call (.device (.seek t))).2.store := by
  simp only [call, Device.Placed.call, Device.seek, resolve_eq_target]
  split
  · rename_i hbefore
    exact .refused (if_pos hbefore)
  · rename_i hbefore
    split
    · rename_i hclosed
      have hmode : b.store.mode = .closed := by simpa [Device.isOpen] using hclosed
      exact .refused ((if_neg hbefore).trans (if_pos hmode))
    · rename_i hopen
      have hmode : b.store.mode ≠ .closed := by simpa [Device.isOpen] using hopen
      have hpast : (b.store.contents.length < (b.store.target t).toNat ∧
          (!b.device.mode.writes) = true) ↔
          b.store.contents.length < b.store.target t ∧ ¬ b.store.mode.writes = true := by
        rw [Bool.not_eq_true', ← Bool.not_eq_true, store_mode]
        refine and_congr_left fun _ => ?_
        omega
      simp only [Device.Backing.seek?]
      split
      · rename_i hfault
        split at hfault
        · rename_i h
          cases hfault
          exact .refused ((if_neg hbefore).trans ((if_neg hmode).trans (if_pos (hpast.mp h))))
        · cases hfault
      · rename_i hok
        split at hok
        · cases hok
        · rename_i h
          exact .seek ((if_neg hbefore).trans ((if_neg hmode).trans (if_neg (mt hpast.mpr h))))

theorem step_read (b : Held σ) (n : Nat) :
    b.store.Step b.grant (.device (.read n)) (b.call (.device (.read n))).1
      (b.call (.device (.read n))).2.store := by
  simp only [call, Device.Placed.call, Device.read]
  split
  · rename_i hclosed
    exact .refused (by simp_all [Store.fault?, Device.isOpen])
  · rename_i hopen
    split
    · rename_i hreads
      exact .refused (by simp_all [Store.fault?, Device.isOpen])
    · rename_i hreads
      have hnone : b.store.fault? b.grant (.device (.read n)) = none := by
        simp_all [Store.fault?, Device.isOpen]
      have hstep := Store.Step.read hnone rfl rfl
      have hlength : min (b.device.pos + n) b.device.backing.data.length -
          min b.device.pos b.device.backing.data.length =
            ((b.device.backing.data.drop b.device.pos).take n).length := by
        rw [List.length_take, List.length_drop]
        omega
      rwa [store_contents, store_pos, Bytes.extract_min, hlength] at hstep

theorem step_write (b : Held σ) (bs : Bytes) :
    b.store.Step b.grant (.device (.write bs)) (b.call (.device (.write bs))).1
      (b.call (.device (.write bs))).2.store := by
  simp only [call, Device.Placed.call, Device.write]
  split
  · rename_i hclosed
    have hmode : b.store.mode = .closed := by simpa [Device.isOpen] using hclosed
    exact .refused (if_pos hmode)
  · rename_i hopen
    have hmode : b.store.mode ≠ .closed := by simpa [Device.isOpen] using hopen
    split
    · rename_i hwrites
      have hwrites : ¬ b.store.mode.writes = true := by simpa using hwrites
      exact .refused ((if_neg hmode).trans (if_pos hwrites))
    · rename_i hwrites
      have hwrites : ¬ ¬ b.store.mode.writes = true := by simpa using hwrites
      have hnew := Bytes.overwrites_overwrite b.device.backing.data b.device.pos bs
      simp only [Device.Backing.write?, Memory.grow?]
      -- Memory is asked for only when the contents have to grow.
      by_cases hfits : b.store.pos + bs.length ≤ b.store.contents.length
      · rw [store_pos, store_contents] at hfits
        rw [if_pos hfits]
        exact .write ((if_neg hmode).trans ((if_neg hwrites).trans (if_pos hfits))) hnew
      · have hfault : b.store.fault? b.grant (.device (.write bs)) = _ :=
          (if_neg hmode).trans ((if_neg hwrites).trans (if_neg hfits))
        rw [store_pos, store_contents] at hfits
        rw [if_neg hfits]
        cases hgrant : Allocator.allocate (b.device.pos + bs.length) b.system with
        | mk answer s =>
            rw [grant, store_pos, hgrant] at hfault
            cases answer with
            | ok u => exact .write hfault hnew
            | error e => exact .refused hfault

/-- Every call to a buffer keeps to the rules. -/
theorem step (b : Held σ) (c : Call) : b.store.Step b.grant c (b.call c).1 (b.call c).2.store := by
  cases c with
  | «open» mode => exact step_open b mode
  | close => exact .close
  | setData data =>
      simp only [call, setData, isOpen_iff]
      split
      · rename_i hopen
        exact .refused (by simp [Store.fault?, hopen])
      · rename_i hclosed
        exact .setData (by simp_all [Store.fault?])
  | data =>
      have hgiven : (b.call .data).2.store =
          { b.store with given := b.store.given ++ [b.store.contents] } := by
        simp [call, store, Memory.snapshot]
      rw [hgiven]
      exact .data
  | device c =>
      cases c with
      | seek t => exact step_seek b t
      | read n => exact step_read b n
      | write bs => exact step_write b bs
      | pos => exact .pos
      | size => exact Store.Step.size (s := b.store)
      | atEnd =>
          have hend : b.device.atEnd b.system =
              decide (b.store.mode = .closed ∨ b.store.contents.length ≤ b.store.pos) := by
            rw [Bool.decide_or, Device.atEnd, Device.isOpen, bne, Bool.not_not]
            rfl
          simp only [call, Device.Placed.call, hend]
          exact .atEnd

/-! ## Sequences of calls -/

def after (b : Held σ) (cs : List Call) : Held σ := cs.foldl (fun b c => (b.call c).2) b

/-- What was handed out stays as it was, whatever is called then. -/
theorem given_grows_after (b : Held σ) (cs : List Call) :
    b.store.given <+: (b.after cs).store.given := by
  induction cs generalizing b with
  | nil => exact List.prefix_rfl
  | cons c cs ih => exact (b.step c).given_grows.trans (ih (b.call c).2)

end Held
end Buffer
end NetKit
