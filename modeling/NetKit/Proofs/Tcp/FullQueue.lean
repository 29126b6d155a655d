import NetKit.Proofs.Tcp.AcceptQueue

/-!
# Waiting on a full queue

A server whose queue is full accepts nobody. A wait is still answered by whoever is pending, so that
it fails only if the limit is zero and nobody is; with room in the queue it finds a client that
waits in the system.
-/

namespace NetKit.TcpServer

variable {σ : Type} [Network σ] {id : SocketId} {t : TcpServer} {e : SystemError}

/-- Whether the queue has no room for another client. -/
def IsFull (t : TcpServer) : Prop := t.limit ≤ t.pending.length

/-! ## No room -/

theorem acceptReady_of_full (hid : t.listener = some id) (hfull : t.IsFull) (s : σ) :
    t.acceptReady s = ⟨true, t, s, [.full t.limit]⟩ := by
  have hroom : t.limit - t.pending.length = 0 := Nat.sub_eq_zero_of_le hfull
  simp only [acceptReady, hid, hroom, acceptUpTo, List.append_nil, List.map_nil, List.nil_append]
  rw [← hid]

theorem wait_of_pending (hid : t.listener = some id) (hfull : t.IsFull) (hpending : t.pending ≠ [])
    (time : TimeLimit) (s : σ) : t.wait time s = ⟨.ready, t, s, [.full t.limit]⟩ := by
  simp only [wait, acceptReady_of_full hid hfull]
  simp [hpending]

theorem wait_of_limit_zero (hid : t.listener = some id) (hfull : t.IsFull)
    (hpending : t.pending = []) (time : TimeLimit) (s : σ) :
    t.wait time s =
      ⟨.failed, { t with error := some .tooManyPending }, s,
        [.full t.limit, .failed .tooManyPending]⟩ := by
  have hlimit : t.limit ≤ t.pending.length := hfull
  simp only [wait, acceptReady_of_full hid hfull, hid, hlimit, if_true]
  simp [hpending, fail, hid]

/-! ## Room -/

/-- A system says that nobody waits only if that is so. -/
class Attentive (σ : Type) [Network σ] [Backlog σ] : Prop where
  nobody {id : SocketId} {s s' : σ} (h : Network.accept id s = (.ok none, s')) :
    (Backlog.line id s).waiting = []

instance : Attentive Visits where
  nobody {id v v'} h := by
    obtain ⟨come, -, hwaiting⟩ := v.serves_arrive
    have haccept : v.accept = (.ok none, v') := h
    rw [Visits.accept] at haccept
    split at haccept
    · rename_i hnobody
      rw [hnobody] at hwaiting
      exact (List.append_eq_nil_iff.mp hwaiting).1
    · cases haccept

/-- Whether the system fails, at some time, to accept a client. -/
def Refuses (σ : Type) [Network σ] (id : SocketId) (e : SystemError) : Prop :=
  ∃ s : σ, (Network.accept id s).1 = .error e

theorem refuses_of_failed {room : Nat} {s : σ} (h : (acceptUpTo id room s).2.1 = .failed e) :
    Refuses σ id e := by
  fun_induction acceptUpTo id room s with
  | case1 => cases h
  | case2 room s e' s' haccept =>
      cases h
      exact ⟨s, by rw [haccept]⟩
  | case3 => cases h
  | case4 room s client s' haccept ids stop s'' hrest ih =>
      rw [hrest] at ih
      exact ih h

theorem acceptUpTo_of_waiting [Backlog σ] [Attentive σ] {room : Nat} {s : σ} (hroom : 0 < room)
    (hwaiting : (Backlog.line id s).waiting ≠ []) :
    (acceptUpTo id room s).1 ≠ [] ∨ ∃ e, (acceptUpTo id room s).2.1 = .failed e := by
  fun_cases acceptUpTo id room s with
  | case1 => exact absurd hroom (Nat.lt_irrefl 0)
  | case2 room s e s' haccept => exact .inr ⟨e, rfl⟩
  | case3 room s s' haccept => exact absurd (Attentive.nobody haccept) hwaiting
  | case4 room s client s' haccept => exact .inl (List.cons_ne_nil _ _)

/-- Accepting goes well, or the system has failed and the server notes it. -/
theorem acceptReady_cases (hid : t.listener = some id) (s : σ) :
    (∃ e, (acceptUpTo id (t.limit - t.pending.length) s).2.1 = .failed e ∧
      (t.acceptReady s).answer = false ∧ (t.acceptReady s).server.error = some (.system e)) ∨
    (∀ e, (acceptUpTo id (t.limit - t.pending.length) s).2.1 ≠ .failed e) ∧
      (t.acceptReady s).answer = true ∧ (t.acceptReady s).server.pending =
        t.pending ++ (acceptUpTo id (t.limit - t.pending.length) s).1 := by
  simp only [acceptReady, hid]
  generalize acceptUpTo id (t.limit - t.pending.length) s = r
  obtain ⟨ids, stop, s'⟩ := r
  cases stop with
  | failed e => exact .inl ⟨e, rfl, rfl, rfl⟩
  | noRoom | noClient => exact .inr ⟨by simp, rfl, rfl⟩

theorem acceptReady_of_room [Backlog σ] [Attentive σ] {s : σ} (hid : t.listener = some id)
    (hroom : ¬ t.IsFull) (hclient : t.pending ≠ [] ∨ (Backlog.line id s).waiting ≠ []) :
    (t.acceptReady s).answer = true ∧ (t.acceptReady s).server.pending ≠ [] ∨
    ∃ e, Refuses σ id e ∧ (t.acceptReady s).answer = false ∧
      (t.acceptReady s).server.error = some (.system e) := by
  rcases acceptReady_cases hid s with ⟨e, hfailed, hnoted⟩ | ⟨hwell, hanswer, hpending⟩
  · exact .inr ⟨e, refuses_of_failed hfailed, hnoted⟩
  · refine .inl ⟨hanswer, fun hnil => ?_⟩
    rw [hpending, List.append_eq_nil_iff] at hnil
    rcases hclient with hclient | hwaiting
    · exact hclient hnil.1
    · have hplaces : 0 < t.limit - t.pending.length := Nat.sub_pos_of_lt (Nat.lt_of_not_le hroom)
      rcases acceptUpTo_of_waiting hplaces hwaiting with hsome | ⟨e, hfailed⟩
      · exact hsome hnil.2
      · exact hwell e hfailed

theorem wait_of_room [Backlog σ] [Attentive σ] {s : σ} (hid : t.listener = some id)
    (hroom : ¬ t.IsFull) (hclient : t.pending ≠ [] ∨ (Backlog.line id s).waiting ≠ [])
    (time : TimeLimit) :
    (t.wait time s).answer = .ready ∨
    ∃ e, Refuses σ id e ∧ (t.wait time s).answer = .failed ∧
      (t.wait time s).server.error = some (.system e) := by
  rcases acceptReady_of_room hid hroom hclient with ⟨hanswer, hpending⟩ | ⟨e, hrefuses, hanswer, he⟩
  · simp [wait, hanswer, hpending]
  · exact .inr ⟨e, hrefuses, by simp [wait, hanswer], by simp [wait, hanswer, he]⟩

/-! ## Waiting -/

/-- A wait on a full queue accepts and drops nobody. It fails for the queue's sake exactly if nobody
is pending, and else it is answered by those who are. With room in the queue, a wait is answered
whenever a client is pending or waits in the system, unless the system fails to accept. -/
theorem full_queue_fails_iff_nobody_pending [Backlog σ] [Attentive σ]
    (hid : t.listener = some id) (time : TimeLimit) (s : σ) :
    (t.IsFull →
      (t.wait time s).system = s ∧ (∃ error, (t.wait time s).server = { t with error }) ∧
      ((t.wait time s).answer = .failed ∧
        (t.wait time s).server.errorText = "Too many pending connections" ↔ t.pending = []) ∧
      ((t.wait time s).answer = .ready ↔ t.pending ≠ [])) ∧
    (¬ t.IsFull → t.pending ≠ [] ∨ (Backlog.line id s).waiting ≠ [] →
      (t.wait time s).answer = .ready ∨
      ∃ e, Refuses σ id e ∧ (t.wait time s).answer = .failed ∧
        (t.wait time s).server.error = some (.system e)) := by
  refine ⟨fun hfull => ?_, fun hroom hclient => wait_of_room hid hroom hclient time⟩
  by_cases hpending : t.pending = []
  · rw [wait_of_limit_zero hid hfull hpending]
    refine ⟨rfl, ⟨some .tooManyPending, rfl⟩, ?_, ?_⟩
    · exact iff_of_true ⟨rfl, rfl⟩ hpending
    · exact iff_of_false nofun (fun hne => hne hpending)
  · rw [wait_of_pending hid hfull hpending]
    refine ⟨rfl, ⟨t.error, rfl⟩, ?_, ?_⟩
    · exact iff_of_false (fun h => nomatch h.1) hpending
    · exact iff_of_true rfl hpending

namespace Session

/-- With a limit of zero a wait fails; with room for one client it finds the second, who waits in
the system after the first was picked up. -/
theorem wait_at_limits_zero_and_one :
    let x := (start (⟨[], {}⟩ : Visits)).run [.setMaxPending 0, .listen .null 80]
    let y := (start (⟨[[7, 8]], {}⟩ : Visits)).run
      [.setMaxPending 1, .listen .null 80, .hasPending, .next]
    (x.server.listener = some 0 ∧ x.server.IsFull ∧
      (x.server.wait none x.system).answer = .failed ∧
      (x.server.wait none x.system).server.errorText = "Too many pending connections") ∧
    y.server.listener = some 0 ∧ ¬ y.server.IsFull ∧ y.system.line.waiting = [8] ∧
      (y.server.wait none y.system).answer = .ready := by
  intro x y
  have hx : x.server.listener = some 0 := rfl
  have hy : y.server.listener = some 0 := rfl
  have hfull : x.server.IsFull := Nat.le_refl 0
  have hroom : ¬ y.server.IsFull := Nat.not_succ_le_zero 0
  have hfails := ((full_queue_fails_iff_nobody_pending hx none x.system).1 hfull).2.2.1.mpr rfl
  refine ⟨⟨hx, hfull, hfails⟩, hy, hroom, rfl, ?_⟩
  rcases (full_queue_fails_iff_nobody_pending hy none y.system).2 hroom
    (.inr (List.cons_ne_nil 8 [])) with hready | ⟨e, -, hfailed, -⟩
  · exact hready
  · exact absurd hfailed (by decide)

/-- A queue that the first wait has filled answers the second. -/
theorem full_queue_is_ready :
    ¬ ∀ (s : Visits) (calls : List Call) (time : TimeLimit),
      let x := (start s).run calls
      x.server.isListening = true → x.server.IsFull →
        (x.server.wait time x.system).answer = .failed := by
  intro h
  have hfails := h ⟨[[7]], {}⟩ [.setMaxPending 1, .listen .null 80, .wait none] none rfl
    (Nat.le_refl 1)
  exact absurd hfails (by decide)

end Session

end NetKit.TcpServer
