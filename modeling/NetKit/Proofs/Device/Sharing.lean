import NetKit.Proofs.Device.Store
import NetKit.Proofs.Handles.Values

/-!
# Buffers that share their octets

The octets of a buffer are a shared value: what it hands out are further handles on them, and it
changes them only after it has them to itself. Such a buffer answers like one with octets of its
own, and what it handed out stays as it was.
-/

namespace NetKit

/-- Arrays that may be shared, with the system that gives memory for them. -/
structure SharedArrays (σ : Type) where
  arrays : Handles Bytes
  memory : σ

/-- The octets that a buffer holds by a handle. -/
structure HeldArray where
  handle : Nat := 0
deriving DecidableEq, Repr

namespace SharedArrays

variable {σ : Type}

def octets (s : SharedArrays σ) (a : HeldArray) : Bytes := (s.arrays.get? a.handle).getD []

/-- Opens the octets for writing and leaves these instead; a shared array is left to the others. -/
def write (s : SharedArrays σ) (a : HeldArray) (bs : Bytes) : SharedArrays σ :=
  { s with arrays := s.arrays.set a.handle bs }

/-- Octets are opened for writing before it is known whether there is room for more. -/
instance [Allocator σ] : Device.Backing (SharedArrays σ) HeldArray where
  open? mode a s :=
    let s := if mode.truncates then s.write a [] else s
    ⟨.ok (s.octets a).length, a, s⟩
  close a s := (a, s)
  size a s := (s.octets a).length
  seek? mode pos a s :=
    ⟨if (s.octets a).length < pos ∧ !mode.writes then .error .invalidPosition else .ok (), a, s⟩
  read? pos count a s := ⟨.ok (((s.octets a).drop pos).take count), a, s⟩
  write? pos bs a s :=
    let old := s.octets a
    let s := s.write a old
    let needed := pos + bs.length
    let (room, memory) :=
      if needed ≤ old.length then (.ok (), s.memory) else Allocator.allocate needed s.memory
    match room with
    | .error e => ⟨.error e, a, { s with memory }⟩
    | .ok () => ⟨.ok (), a, { s with memory }.write a (old.overwrite pos bs)⟩

end SharedArrays

namespace Buffer

open Device (Answer Fault)

variable {σ : Type}

/-- A buffer by the handle 0; the arrays that it handed out have the handles from 1 on. -/
structure Sharing (σ : Type) extends Device.Placed (SharedArrays σ) HeldArray where
  given : Nat := 0

namespace Sharing

def start (data : Bytes) (s : σ) : Sharing σ where
  device := { backing := {} }
  system := ⟨Handles.insert {} 0 data, s⟩

def store (b : Sharing σ) : Store where
  contents := b.system.octets b.device.backing
  pos := b.device.pos
  mode := b.device.mode
  given := (List.range b.given).map fun i => b.system.octets ⟨i + 1⟩

def next (b : Sharing σ) (r : Except Fault Answer × Device.Placed (SharedArrays σ) HeldArray) :
    Except Fault Answer × Sharing σ :=
  (r.1, { b with toPlaced := r.2 })

/-- New octets take the place of the old ones, which others may go on to hold. -/
def setData (b : Sharing σ) (data : Bytes) : Device.Result (SharedArrays σ) HeldArray Unit :=
  if b.device.isOpen then b.device.fail .openBuffer b.system
  else ⟨.ok (), b.device,
    { b.system with arrays := b.system.arrays.insert b.device.backing.handle data }⟩

/-- Hands out a further handle on the octets. -/
def share (b : Sharing σ) : Sharing σ :=
  { b with
    system := { b.system with
      arrays := (b.system.arrays.copy? b.device.backing.handle (b.given + 1)).getD
        b.system.arrays }
    given := b.given + 1 }

/-! ## Arrays -/

/-- The octets of a buffer and of the snapshots that were taken of it. -/
structure Reads (data : Bytes) (given : List Memory.Snapshot) (arrays : Handles Bytes) : Prop where
  counted : Handles.Counted 0 [] arrays
  own : arrays.get? 0 = some data
  given : ∀ i (h : i < given.length), arrays.get? (i + 1) = some given[i].data

variable {data : Bytes} {given : List Memory.Snapshot} {arrays : Handles Bytes}

theorem Reads.octets (h : Reads data given arrays) (s : σ) :
    SharedArrays.octets ⟨arrays, s⟩ {} = data := by
  rw [SharedArrays.octets, h.own, Option.getD_some]

theorem Reads.start (data : Bytes) : Reads data [] (Handles.insert {} 0 data) where
  counted := (Handles.Counted.start 0).insert 0 data
  own := by rw [(Handles.Counted.start 0).get?_insert, if_pos rfl]
  given i h := nomatch h

theorem Reads.set (h : Reads data given arrays) (bs : Bytes) :
    Reads bs given (arrays.set 0 bs) where
  counted := h.counted.set 0 bs
  own := by rw [h.counted.get?_set, if_pos rfl, h.own, Option.map_some]
  given i hi := by rw [h.counted.get?_set, if_neg (by omega), h.given i hi]

theorem Reads.insert (h : Reads data given arrays) (bs : Bytes) :
    Reads bs given (arrays.insert 0 bs) where
  counted := h.counted.insert 0 bs
  own := by rw [h.counted.get?_insert, if_pos rfl]
  given i hi := by rw [h.counted.get?_insert, if_neg (by omega), h.given i hi]

theorem Reads.copy (h : Reads data given arrays) (revision : Nat) :
    ∃ copied, arrays.copy? 0 (given.length + 1) = some copied ∧
      Reads data (given ++ [⟨data, revision⟩]) copied := by
  have hown := h.own
  cases hc : arrays.cell? 0 with
  | none => simp [Handles.get?, Handles.content?, hc] at hown
  | some c =>
      have hget := h.counted.get?_copy hc (given.length + 1)
      refine ⟨_, by rw [Handles.copy?, hc, Option.map_some], h.counted.copy hc _, ?_, ?_⟩
      · rw [hget, if_neg (by omega), hown]
      · intro i hi
        rw [hget]
        by_cases hlast : i = given.length
        · subst hlast
          simp [hown]
        · have hi : i < given.length := by simp at hi; omega
          rw [if_neg (by omega), h.given i hi, List.getElem_append_left hi]

/-- Shared octets that read like those of a memory, with the same system beside them. -/
structure Same (given : List Memory.Snapshot) (pos : Nat) (a : HeldArray) (s : SharedArrays σ)
    (m : Memory) (s' : σ) : Prop where
  handle : a = {}
  reads : Reads m.data given s.arrays
  memory : s.memory = s'

variable {pos : Nat} {a : HeldArray} {s : SharedArrays σ} {m : Memory} {s' : σ}

theorem Same.octets (h : Same given pos a s m s') : s.octets a = m.data := by
  rw [h.handle]
  exact h.reads.octets s.memory

theorem Same.write (h : Same given pos a s m s') (bs : Bytes) (memory : σ) (after revision : Nat) :
    Same given after a (SharedArrays.write ⟨s.arrays, memory⟩ a bs) ⟨bs, revision⟩ memory where
  handle := h.handle
  reads := by rw [h.handle]; exact h.reads.set bs
  memory := rfl

/-- A buffer that shares its octets, and one with octets of its own. -/
structure Mirrors (b : Sharing σ) (t : Held σ) : Prop where
  given : b.given = t.given.length
  placed : b.toPlaced.Alike (Same t.given) t.toPlaced

variable {b : Sharing σ} {t : Held σ}

theorem Mirrors.start (data : Bytes) (s : σ) : Mirrors (start data s) (Held.start data s) where
  given := rfl
  placed := ⟨rfl, rfl, rfl, rfl, .start data, rfl⟩

theorem Mirrors.store (h : Mirrors b t) : b.store = t.store := by
  have hgiven : (List.range b.given).map (fun i => b.system.octets ⟨i + 1⟩) =
      t.given.map (·.data) := by
    refine List.ext_getElem (by simp [h.given]) fun i hi hi' => ?_
    rw [List.length_map] at hi'
    simp [SharedArrays.octets, h.placed.backing.reads.given i hi']
  rw [Sharing.store, hgiven, h.placed.backing.octets, h.placed.pos, h.placed.mode]
  rfl

theorem Mirrors.next {α : Type} (h : Mirrors b t) {r : Device.Result (SharedArrays σ) HeldArray α}
    {r' : Device.Result σ Memory α} (hr : r.Alike (Same t.given) r') (say : α → Answer) :
    (b.next (r.told say)).1 = (t.next (r'.told say)).1 ∧
      Mirrors (b.next (r.told say)).2 (t.next (r'.told say)).2 :=
  ⟨(hr.told say).1, h.given, (hr.told say).2⟩

theorem Mirrors.setData (h : Mirrors b t) (data : Bytes) :
    (b.setData data).Alike (Same t.given) (Buffer.setData t.device data t.system) := by
  have hbacking := h.placed.backing
  simp only [Sharing.setData, Buffer.setData, h.placed.isOpen]
  split
  · exact h.placed.fail _
  · refine ⟨rfl, h.placed.mode, h.placed.pos, h.placed.error, hbacking.handle, ?_, hbacking.memory⟩
    rw [hbacking.handle]
    exact hbacking.reads.insert data

/-- What is handed out is read through a handle of its own. -/
theorem Mirrors.share (h : Mirrors b t) :
    b.share.system.octets ⟨b.share.given⟩ = t.device.backing.data ∧
      Mirrors b.share { t with given := t.given ++ [t.device.backing.snapshot] } := by
  have hbacking := h.placed.backing
  obtain ⟨copied, hcopied, hreads⟩ := hbacking.reads.copy t.device.backing.revision
  have harrays : b.share.system.arrays = copied := by
    simp only [Sharing.share, hbacking.handle, h.given, hcopied, Option.getD_some]
  have hlast := hreads.given t.given.length (by simp)
  constructor
  · rw [SharedArrays.octets, harrays]
    simp only [Sharing.share, h.given, hlast]
    simp
  · refine ⟨by simp [Sharing.share, h.given], h.placed.mode, h.placed.pos, h.placed.error,
      hbacking.handle, ?_, hbacking.memory⟩
    rw [harrays]
    exact hreads

/-! ## Calls -/

variable [Allocator σ]

def call (b : Sharing σ) : Call → Except Fault Answer × Sharing σ
  | .open mode => b.next ((b.device.open mode b.system).told fun _ => .done)
  | .close => b.next (.ok .done, ⟨(b.device.close b.system).1, (b.device.close b.system).2⟩)
  | .device c => b.next (b.toPlaced.call c)
  | .setData data => b.next ((b.setData data).told fun _ => .done)
  | .data => (.ok (.octets (b.share.system.octets ⟨b.share.given⟩)), b.share)

theorem Same.size (h : Same given pos a s m s') :
    Device.Backing.size a s = Device.Backing.size m s' :=
  congrArg List.length h.octets

theorem Same.open? (h : Same given pos a s m s') (mode : OpenMode) (after : Nat → Nat) :
    Device.Reply.Alike (Same given) pos after (Device.Backing.open? mode a s)
      (Device.Backing.open? mode m s') := by
  have hmemory := h.memory
  subst hmemory
  simp only [Device.Backing.open?]
  split
  · have hempty := fun n => h.write [] s.memory n (m.revision + 1)
    rw [(hempty pos).octets]
    exact .ok (hempty _)
  · rw [h.octets]
    exact .ok ⟨h.handle, h.reads, rfl⟩

theorem Same.seek? (h : Same given pos a s m s') (mode : OpenMode) (n : Nat) :
    Device.Reply.Alike (Same given) pos (fun _ => n) (Device.Backing.seek? mode n a s)
      (Device.Backing.seek? mode n m s') := by
  simp only [Device.Backing.seek?, h.octets]
  split
  · exact .error h
  · exact .ok ⟨h.handle, h.reads, h.memory⟩

theorem Same.read? (h : Same given pos a s m s') (p n : Nat) (after : Bytes → Nat) :
    Device.Reply.Alike (Same given) pos after (Device.Backing.read? p n a s)
      (Device.Backing.read? p n m s') := by
  simp only [Device.Backing.read?, h.octets]
  exact .ok ⟨h.handle, h.reads, h.memory⟩

theorem Same.write? (h : Same given pos a s m s') (p : Nat) (bs : Bytes) (after : Unit → Nat) :
    Device.Reply.Alike (Same given) pos after (Device.Backing.write? p bs a s)
      (Device.Backing.write? p bs m s') := by
  have hopened := h.write m.data s.memory pos (m.revision + 1)
  have hmemory : (s.write a m.data).memory = s' := h.memory
  simp only [Device.Backing.write?, Memory.grow?, h.octets, hmemory]
  -- The array is opened before the outcome is known, which leaves the same octets to read.
  by_cases hfits : p + bs.length ≤ m.data.length
  · simp only [if_pos hfits]
    exact .ok (hopened.write _ _ _ _)
  · simp only [if_neg hfits]
    cases Allocator.allocate (p + bs.length) s' with
    | mk room memory =>
        cases room with
        | ok u => exact .ok (hopened.write _ _ _ _)
        | error e => exact .error ⟨h.handle, hopened.reads, rfl⟩

theorem Mirrors.call (h : Mirrors b t) (c : Call) :
    (b.call c).1 = (t.call c).1 ∧ Mirrors (b.call c).2 (t.call c).2 := by
  have hbacking := h.placed.backing
  have hpos := h.placed.pos
  have hmode := h.placed.mode
  cases c with
  | «open» mode => exact h.next (h.placed.open mode (hbacking.open? _ _)) _
  | close => exact ⟨rfl, h.given, rfl, rfl, h.placed.error, hbacking.handle, hbacking.reads,
      hbacking.memory⟩
  | setData data => exact h.next (h.setData data) _
  | data => exact ⟨congrArg (fun bs => Except.ok (Answer.octets bs)) h.share.1, h.share.2⟩
  | device c =>
      have hmatches : b.toPlaced.Matches (Same t.given) t.toPlaced c := by
        cases c with
        | seek target => exact fun n _ => hmode ▸ hbacking.seek? _ n
        | read n =>
            simp only [Device.Placed.Matches, ← hpos]
            exact hbacking.read? _ n _
        | write bs =>
            simp only [Device.Placed.Matches, ← hpos]
            exact hbacking.write? _ bs _
        | pos | size | atEnd => trivial
      obtain ⟨hanswer, hplaced⟩ := h.placed.call hbacking.size hmatches
      exact ⟨hanswer, h.given, hplaced⟩

def after (b : Sharing σ) (cs : List Call) : Sharing σ := cs.foldl (fun b c => (b.call c).2) b

theorem Mirrors.after (h : Mirrors b t) (cs : List Call) : Mirrors (b.after cs) (t.after cs) := by
  induction cs generalizing b t with
  | nil => exact h
  | cons c cs ih => exact ih (h.call c).2

/-- After any calls, the next one keeps to the rules of a store, a buffer that shares its octets
answers it like one with octets of its own, and what it handed out reads as it did from then on. -/
theorem run_follows_store (data : Bytes) (s : σ) (cs : List Call) (c : Call) :
    let b := (Held.start data s).after cs
    let shared := (start data s).after cs
    b.store.Step b.grant c (b.call c).1 (b.call c).2.store ∧
      (shared.call c).1 = (b.call c).1 ∧
      shared.store = b.store ∧
      ∀ ds, shared.store.given <+: (shared.after ds).store.given := by
  have hmirrors := (Mirrors.start data s).after cs
  refine ⟨Held.step _ c, (hmirrors.call c).1, hmirrors.store, fun ds => ?_⟩
  rw [hmirrors.store, (hmirrors.after ds).store]
  exact Held.given_grows_after _ ds

end Sharing
end Buffer
end NetKit
