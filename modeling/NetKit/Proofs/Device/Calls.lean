import NetKit.Device

/-!
# Calls to an open device

What a device can be asked while it is open, as data, so that devices over different backings can be
asked the same. A device passes on what its backing answers, so devices answer alike where their
backings do.
-/

namespace NetKit.Device

inductive Call where
  | seek (target : Target)
  | read (count : Nat)
  | write (bs : Bytes)
  | pos
  | size
  | atEnd
deriving DecidableEq, Repr

inductive Answer where
  | done
  | number (n : Nat)
  | octets (bs : Bytes)
  | verdict (yes : Bool)
deriving DecidableEq, Repr

/-- A device and the system that it is part of. -/
structure Placed (σ β : Type) where
  device : Device β
  system : σ

variable {σ β σ' β' α : Type}

def Result.told (r : Result σ β α) (say : α → Answer) : Except Fault Answer × Placed σ β :=
  (r.answer.map say, ⟨r.device, r.system⟩)

/-! ## Devices over different backings -/

/-- The same answer, from backings that are related at the position that it leads to. -/
inductive Reply.Alike (R : Nat → β → σ → β' → σ' → Prop) (pos : Nat) (after : α → Nat) :
    Reply σ β α → Reply σ' β' α → Prop
  | ok {a : α} {b : β} {s : σ} {b' : β'} {s' : σ'} (h : R (after a) b s b' s') :
      Alike R pos after ⟨.ok a, b, s⟩ ⟨.ok a, b', s'⟩
  | error {e : Error} {b : β} {s : σ} {b' : β'} {s' : σ'} (h : R pos b s b' s') :
      Alike R pos after ⟨.error e, b, s⟩ ⟨.error e, b', s'⟩

/-- Devices that differ in their backings only, which are related at the position. -/
structure Placed.Alike (R : Nat → β → σ → β' → σ' → Prop) (p : Placed σ β) (q : Placed σ' β') :
    Prop where
  mode : p.device.mode = q.device.mode
  pos : p.device.pos = q.device.pos
  error : p.device.error = q.device.error
  backing : R p.device.pos p.device.backing p.system q.device.backing q.system

def Result.Alike (R : Nat → β → σ → β' → σ' → Prop) (r : Result σ β α) (r' : Result σ' β' α) :
    Prop :=
  r.answer = r'.answer ∧ Placed.Alike R ⟨r.device, r.system⟩ ⟨r'.device, r'.system⟩

variable {R : Nat → β → σ → β' → σ' → Prop}

theorem Result.Alike.told {r : Result σ β α} {r' : Result σ' β' α} (h : r.Alike R r')
    (say : α → Answer) : (r.told say).1 = (r'.told say).1 ∧ (r.told say).2.Alike R (r'.told say).2 :=
  ⟨congrArg (Except.map say) h.1, h.2⟩

namespace Placed.Alike

variable {p : Placed σ β} {q : Placed σ' β'}

theorem isOpen (h : p.Alike R q) : p.device.isOpen = q.device.isOpen := by
  rw [Device.isOpen, Device.isOpen, h.mode]

theorem fail (h : p.Alike R q) (e : Error) :
    (p.device.fail e p.system : Result σ β α).Alike R (q.device.fail e q.system) :=
  ⟨rfl, h.mode, h.pos, rfl, h.backing⟩

variable [Backing σ β] [Backing σ' β']

theorem «open» (h : p.Alike R q) (mode : OpenMode)
    (hopen : Reply.Alike R p.device.pos (fun size => if mode.completed.appends then size else 0)
      (Backing.open? mode.completed p.device.backing p.system)
      (Backing.open? mode.completed q.device.backing q.system)) :
    (p.device.open mode p.system).Alike R (q.device.open mode q.system) := by
  simp only [Device.open, ← h.isOpen]
  split
  · exact h.fail _
  · split
    · exact h.fail _
    · generalize Backing.open? _ p.device.backing p.system = r at hopen ⊢
      generalize Backing.open? _ q.device.backing q.system = r' at hopen ⊢
      cases hopen with
      | ok hR => exact ⟨rfl, rfl, rfl, h.error, hR⟩
      | error hR => exact ⟨rfl, h.mode, h.pos, rfl, hR⟩

theorem resolve (h : p.Alike R q) (t : Target)
    (hsize : p.device.size p.system = q.device.size q.system) :
    p.device.resolve t p.system = q.device.resolve t q.system := by
  simp only [Device.resolve, h.pos, hsize]

theorem seek (h : p.Alike R q) (t : Target)
    (hsize : p.device.size p.system = q.device.size q.system)
    (hseek : ∀ n : Nat, p.device.resolve t p.system = n →
      Reply.Alike R p.device.pos (fun _ => n)
        (Backing.seek? p.device.mode n p.device.backing p.system)
        (Backing.seek? q.device.mode n q.device.backing q.system)) :
    (p.device.seek t p.system).Alike R (q.device.seek t q.system) := by
  simp only [Device.seek, ← h.resolve t hsize, ← h.isOpen]
  split
  · exact ⟨rfl, h⟩
  · rename_i hbefore
    split
    · exact h.fail _
    · have hreply := hseek _ (Int.toNat_of_nonneg (Int.not_lt.mp hbefore)).symm
      generalize Backing.seek? _ _ p.device.backing p.system = r at hreply ⊢
      generalize Backing.seek? _ _ q.device.backing q.system = r' at hreply ⊢
      cases hreply with
      | ok hR => exact ⟨rfl, h.mode, rfl, h.error, hR⟩
      | error hR => exact ⟨rfl, h.mode, h.pos, rfl, hR⟩

theorem read (h : p.Alike R q) (count : Nat)
    (hread : Reply.Alike R p.device.pos (fun bs => p.device.pos + bs.length)
      (Backing.read? p.device.pos count p.device.backing p.system)
      (Backing.read? q.device.pos count q.device.backing q.system)) :
    (p.device.read count p.system).Alike R (q.device.read count q.system) := by
  simp only [Device.read, ← h.isOpen, ← h.mode]
  split
  · exact h.fail _
  · split
    · exact h.fail _
    · generalize Backing.read? _ _ p.device.backing p.system = r at hread ⊢
      generalize Backing.read? _ _ q.device.backing q.system = r' at hread ⊢
      cases hread with
      | ok hR => exact ⟨rfl, rfl, congrArg (· + _) h.pos, h.error, hR⟩
      | error hR => exact ⟨rfl, rfl, h.pos, rfl, hR⟩

theorem write (h : p.Alike R q) (bs : Bytes)
    (hwrite : Reply.Alike R p.device.pos (fun _ => p.device.pos + bs.length)
      (Backing.write? p.device.pos bs p.device.backing p.system)
      (Backing.write? q.device.pos bs q.device.backing q.system)) :
    (p.device.write bs p.system).Alike R (q.device.write bs q.system) := by
  simp only [Device.write, ← h.isOpen, ← h.mode]
  split
  · exact h.fail _
  · split
    · exact h.fail _
    · generalize Backing.write? _ _ p.device.backing p.system = r at hwrite ⊢
      generalize Backing.write? _ _ q.device.backing q.system = r' at hwrite ⊢
      cases hwrite with
      | ok hR => exact ⟨rfl, rfl, congrArg (· + _) h.pos, h.error, hR⟩
      | error hR => exact ⟨rfl, rfl, h.pos, rfl, hR⟩

end Placed.Alike

/-! ## Opening -/

variable [Backing σ β] [Backing σ' β']

/-- A device that could be opened has its backing opened in the completed mode. -/
theorem open_eq_ok {d : Device β} {mode : OpenMode} {s : σ} (h : (d.open mode s).answer = .ok ()) :
    ∃ size b s', Backing.open? mode.completed d.backing s = ⟨.ok size, b, s'⟩ ∧
      d.open mode s =
        ⟨.ok (),
          { d with
            backing := b
            mode := mode.completed
            pos := if mode.completed.appends then size else 0 }, s'⟩ := by
  simp only [Device.open] at h ⊢
  split at h
  · cases h
  · rename_i hopen
    split at h
    · cases h
    · rename_i haccess
      simp only [if_neg hopen, if_neg haccess] at h ⊢
      cases hr : Backing.open? mode.completed d.backing s with
      | mk answer b s' =>
        rw [hr] at h
        cases answer with
        | error e => cases h
        | ok size => exact ⟨size, b, s', rfl, rfl⟩

/-! ## Calls -/

def Placed.call (p : Placed σ β) : Call → Except Fault Answer × Placed σ β
  | .seek target => (p.device.seek target p.system).told .number
  | .read count => (p.device.read count p.system).told .octets
  | .write bs => (p.device.write bs p.system).told .number
  | .pos => (.ok (.number p.device.pos), p)
  | .size => (.ok (.number (p.device.size p.system)), p)
  | .atEnd => (.ok (.verdict (p.device.atEnd p.system)), p)

theorem Placed.call_mode (p : Placed σ β) (c : Call) :
    (p.call c).2.device.mode = p.device.mode := by
  cases c with
  | pos | size | atEnd => rfl
  | seek _ | read _ | write _ =>
      simp only [Placed.call, Result.told, Device.seek, Device.read, Device.write]
      split
      · rfl
      · split
        · rfl
        · split <;> rfl

/-- A condition on each call, where the calls before it lead. -/
def Placed.Along (P : Placed σ β → Call → Prop) : Placed σ β → List Call → Prop
  | _, [] => True
  | p, c :: cs => P p c ∧ Along P (p.call c).2 cs

instance Placed.decidableAlong (P : Placed σ β → Call → Prop) [∀ p c, Decidable (P p c)] :
    ∀ p cs, Decidable (Along P p cs)
  | _, [] => inferInstanceAs (Decidable True)
  | p, c :: cs =>
    have := decidableAlong P (p.call c).2 cs
    inferInstanceAs (Decidable (P p c ∧ Along P (p.call c).2 cs))

def Placed.after (p : Placed σ β) (cs : List Call) : Placed σ β :=
  cs.foldl (fun p c => (p.call c).2) p

/-- What holds at first holds all along exactly when no call breaks it. -/
theorem Placed.always_iff_along {P : Placed σ β → Prop} {Q : Placed σ β → Call → Prop}
    (hstep : ∀ p c, P p → (P (p.call c).2 ↔ Q p c)) {p : Placed σ β} (hp : P p) (cs : List Call) :
    (∀ taken, taken <+: cs → P (p.after taken)) ↔ p.Along Q cs := by
  induction cs generalizing p with
  | nil =>
      refine iff_of_true (fun taken htaken => ?_) trivial
      rw [List.prefix_nil.mp htaken]
      exact hp
  | cons c cs ih =>
      constructor
      · intro h
        have hnext : P (p.call c).2 := h [c] (List.prefix_append [c] cs)
        refine ⟨(hstep p c hp).mp hnext, (ih hnext).mp fun taken htaken => ?_⟩
        exact h (c :: taken) ((List.prefix_cons_inj c).mpr htaken)
      · rintro ⟨hc, hcs⟩ taken htaken
        rcases List.prefix_cons_iff.mp htaken with rfl | ⟨rest, rfl, hrest⟩
        · exact hp
        · exact (ih ((hstep p c hp).mpr hc)).mpr hcs rest hrest

/-- The backings answer alike what a call asks of them. -/
def Placed.Matches (R : Nat → β → σ → β' → σ' → Prop) (p : Placed σ β) (q : Placed σ' β') :
    Call → Prop
  | .seek t => ∀ n : Nat, p.device.resolve t p.system = n →
      Reply.Alike R p.device.pos (fun _ => n)
        (Backing.seek? p.device.mode n p.device.backing p.system)
        (Backing.seek? q.device.mode n q.device.backing q.system)
  | .read count => Reply.Alike R p.device.pos (fun bs => p.device.pos + bs.length)
      (Backing.read? p.device.pos count p.device.backing p.system)
      (Backing.read? q.device.pos count q.device.backing q.system)
  | .write bs => Reply.Alike R p.device.pos (fun _ => p.device.pos + bs.length)
      (Backing.write? p.device.pos bs p.device.backing p.system)
      (Backing.write? q.device.pos bs q.device.backing q.system)
  | .pos | .size | .atEnd => True

/-- One call to devices whose backings answer alike. -/
theorem Placed.Alike.call {p : Placed σ β} {q : Placed σ' β'} (h : p.Alike R q)
    (hsize : p.device.size p.system = q.device.size q.system) {c : Call}
    (hc : p.Matches R q c) :
    (p.call c).1 = (q.call c).1 ∧ (p.call c).2.Alike R (q.call c).2 := by
  cases c with
  | seek t => exact (h.seek t hsize hc).told _
  | read count => exact (h.read count hc).told _
  | write bs => exact (h.write bs hc).told _
  | pos => exact ⟨congrArg (fun n => Except.ok (Answer.number n)) h.pos, h⟩
  | size => exact ⟨congrArg (fun n => Except.ok (Answer.number n)) hsize, h⟩
  | atEnd =>
      have hend : p.device.atEnd p.system = q.device.atEnd q.system := by
        rw [Device.atEnd, Device.atEnd, h.isOpen, hsize, h.pos]
      exact ⟨congrArg (fun yes => Except.ok (Answer.verdict yes)) hend, h⟩

end NetKit.Device
