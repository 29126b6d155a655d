import Mathlib.Data.List.Infix
import NetKit.Tcp.Server

/-!
# The queue of a server

Clients wait in the system until the server accepts them, and then in the server until they are
picked up. Both queues keep the order in which the clients came, and the second takes nobody for
whom it has no room.
-/

namespace NetKit.TcpServer

/-! ## Clients in the system -/

/-- Who came to a listener since it was opened, and who of them was not accepted yet. -/
structure Line where
  came : List SocketId := []
  waiting : List SocketId := []
deriving DecidableEq, Repr

namespace Line

variable {q q' q'' : Line} {taken taken' : List SocketId}

/-- Clients are taken from the front while others may come to the end. -/
def Serves (q : Line) (taken : List SocketId) (q' : Line) : Prop :=
  ∃ come, q'.came = q.came ++ come ∧ q.waiting ++ come = taken ++ q'.waiting

theorem Serves.refl (q : Line) : q.Serves [] q :=
  ⟨[], (List.append_nil _).symm, List.append_nil _⟩

theorem Serves.trans (h : q.Serves taken q') (h' : q'.Serves taken' q'') :
    q.Serves (taken ++ taken') q'' := by
  obtain ⟨come, hcame, hwaiting⟩ := h
  obtain ⟨come', hcame', hwaiting'⟩ := h'
  refine ⟨come ++ come', by rw [hcame', hcame, List.append_assoc], ?_⟩
  rw [← List.append_assoc, hwaiting, List.append_assoc, hwaiting', List.append_assoc]

end Line

/-- Who is accepted by an answer. -/
def accepted : Except SystemError (Option SocketId) → List SocketId
  | .ok (some client) => [client]
  | _ => []

/-- A system that queues the clients of its listeners: it accepts the one who waited longest, or
nobody, and others may come whenever it is called. -/
class Backlog (σ : Type) [Network σ] where
  line : SocketId → σ → Line
  listen {e : Endpoint} {s s' : σ} {id : SocketId} (h : Network.listen e s = (.ok id, s')) :
    (line id s').waiting = (line id s').came
  accept (id : SocketId) (s : σ) : (line id s).Serves (accepted (Network.accept id s).1)
    (line id (Network.accept id s).2)
  waitReadable (id : SocketId) (time : TimeLimit) (s : σ) :
    (line id s).Serves [] (line id (Network.waitReadable id time s).2)

/-- A system with one listener, and who comes to it before each call. -/
structure Visits where
  plan : List (List SocketId)
  line : Line := {}
deriving DecidableEq, Repr

namespace Visits

def arrive : Visits → Visits
  | ⟨[], q⟩ => ⟨[], q⟩
  | ⟨clients :: plan, q⟩ => ⟨plan, ⟨q.came ++ clients, q.waiting ++ clients⟩⟩

def accept (v : Visits) : Except SystemError (Option SocketId) × Visits :=
  match v.arrive.line.waiting with
  | [] => (.ok none, v.arrive)
  | client :: waiting => (.ok (some client), { v.arrive with line.waiting := waiting })

/-- Only what a server asks for is there. -/
instance : Network Visits where
  resolve _ _ _ := .error .unknownHost
  localEnd _ _ := none
  peerEnd _ _ := none
  waitReadable _ _ v := (.ok !v.arrive.line.waiting.isEmpty, v.arrive)
  release _ v := v
  listen _ v := (.ok 0, { v with line := {} })
  accept _ v := v.accept
  connect _ _ v := (.error .refused, v)
  receive _ _ v := (.error .invalid, v)
  send _ _ v := (.error .invalid, v)
  bind _ v := (.error .invalid, v)
  connectTo _ _ v := (.error .invalid, v)
  sendTo _ _ _ v := (.error .invalid, v)
  pendingSize _ _ := none
  receiveFrom _ _ v := (.error .invalid, v)
  hopLimit _ _ := none
  setHopLimit _ _ v := (.error .invalid, v)
  joinGroup _ _ v := (.error .invalid, v)
  leaveGroup _ _ v := (.error .invalid, v)

theorem serves_arrive (v : Visits) : v.line.Serves [] v.arrive.line := by
  obtain ⟨plan, q⟩ := v
  cases plan with
  | nil => exact .refl q
  | cons clients plan => exact ⟨clients, rfl, rfl⟩

theorem serves_accept (v : Visits) : v.line.Serves (accepted v.accept.1) v.accept.2.line := by
  obtain ⟨come, hcame, hwaiting⟩ := v.serves_arrive
  unfold accept
  split
  · exact ⟨come, hcame, hwaiting⟩
  · rename_i client waiting h
    exact ⟨come, hcame, hwaiting.trans h⟩

instance : Backlog Visits where
  line _ := Visits.line
  listen h := by cases h; rfl
  accept _ := serves_accept
  waitReadable _ _ := serves_arrive

end Visits

/-! ## Calls -/

/-- A server in its system, and who was picked up since it began to listen. -/
structure Session (σ : Type) where
  server : TcpServer
  system : σ
  picked : List SocketId := []

/-- What is done to a server. -/
inductive Call where
  | listen (a : Address) (port : UInt16)
  | hasPending
  | wait (time : TimeLimit)
  | setMaxPending (limit : Int)
  | next
  | close

namespace Session

variable {σ : Type}

/-- A new server. -/
def start (s : σ) : Session σ := { server := {}, system := s }

variable [Network σ]

def call (x : Session σ) : Call → Session σ
  | .listen a port =>
    let r := x.server.listen a port x.system
    ⟨r.server, r.system, if r.answer then [] else x.picked⟩
  | .hasPending =>
    let r := x.server.hasPending x.system
    ⟨r.server, r.system, x.picked⟩
  | .wait time =>
    let r := x.server.wait time x.system
    ⟨r.server, r.system, x.picked⟩
  | .setMaxPending maxPending => { x with server := { x.server with maxPending } }
  | .next =>
    match x.server.next? with
    | none => x
    | some (id, t) => { x with server := t, picked := x.picked ++ [id] }
  | .close =>
    let (t, s) := x.server.close x.system
    { x with server := t, system := s }

def run (x : Session σ) (calls : List Call) : Session σ := calls.foldl call x

end Session

/-! ## Accepting -/

variable {σ : Type} [Network σ] [Backlog σ] {id : SocketId} {t t' t'' : TcpServer} {s s' s'' : σ}
  {ids ids' : List SocketId}

/-- A server that listens takes clients from the system into its queue. It had room for each. -/
structure Takes (id : SocketId) (t : TcpServer) (s : σ) (ids : List SocketId) (t' : TcpServer)
    (s' : σ) : Prop where
  listener : t'.listener = t.listener
  maxPending : t'.maxPending = t.maxPending
  pending : t'.pending = t.pending ++ ids
  room : ids = [] ∨ t.pending.length + ids.length ≤ t.limit
  line : (Backlog.line id s).Serves ids (Backlog.line id s')

theorem Takes.trans (h : Takes id t s ids t' s') (h' : Takes id t' s' ids' t'' s'') :
    Takes id t s (ids ++ ids') t'' s'' where
  listener := h'.listener.trans h.listener
  maxPending := h'.maxPending.trans h.maxPending
  pending := by rw [h'.pending, h.pending, List.append_assoc]
  room := by
    have hroom := h'.room
    rw [h.pending, limit, h.maxPending, ← limit, List.length_append] at hroom
    rcases hroom with rfl | hroom
    · rw [List.append_nil]
      exact h.room
    · rw [List.length_append]
      exact .inr (by omega)
  line := h.line.trans h'.line

/-- A failure is noted beside the queue. -/
theorem Takes.fail {α : Type} (h : Takes id t s ids t' s') (e : Error) (answer : α)
    (remarks : List Remark) : Takes id t s ids (t'.fail e answer s' remarks).server s' :=
  ⟨h.listener, h.maxPending, h.pending, h.room, h.line⟩

omit [Backlog σ] in
theorem length_acceptUpTo_le (id : SocketId) (room : Nat) (s : σ) :
    (acceptUpTo id room s).1.length ≤ room := by
  fun_induction acceptUpTo id room s with
  | case1 => exact Nat.le_refl 0
  | case2 | case3 => exact Nat.zero_le _
  | case4 room s client s' haccept ids stop s'' hrest ih =>
      rw [hrest] at ih
      exact Nat.succ_le_succ ih

theorem serves_acceptUpTo (id : SocketId) (room : Nat) (s : σ) :
    (Backlog.line id s).Serves (acceptUpTo id room s).1
      (Backlog.line id (acceptUpTo id room s).2.2) := by
  fun_induction acceptUpTo id room s with
  | case1 => exact .refl _
  | case2 room s e s' haccept | case3 room s s' haccept =>
      have h := Backlog.accept id s
      rw [haccept] at h
      exact h
  | case4 room s client s' haccept ids stop s'' hrest ih =>
      have h := Backlog.accept id s
      rw [haccept] at h
      rw [hrest] at ih
      exact h.trans ih

theorem takes_acceptReady (h : t.listener = some id) (s : σ) :
    ∃ ids, Takes id t s ids (t.acceptReady s).server (t.acceptReady s).system := by
  have hserves := serves_acceptUpTo id (t.limit - t.pending.length) s
  have hlength := length_acceptUpTo_le id (t.limit - t.pending.length) s
  simp only [acceptReady, h]
  generalize acceptUpTo id (t.limit - t.pending.length) s = r at hserves hlength
  obtain ⟨ids, stop, s'⟩ := r
  have htakes : Takes id t s ids { t with pending := t.pending ++ ids } s' := by
    refine ⟨rfl, rfl, rfl, ?_, hserves⟩
    rcases ids with _ | ⟨client, ids⟩
    · exact .inl rfl
    · simp only [List.length_cons] at hlength ⊢
      exact .inr (by omega)
  refine ⟨ids, ?_⟩
  cases stop with
  | noRoom | noClient => rw [← h]; exact htakes
  | failed e => rw [← h]; exact htakes.fail _ _ _

theorem takes_wait (h : t.listener = some id) (time : TimeLimit) (s : σ) :
    ∃ ids, Takes id t s ids (t.wait time s).server (t.wait time s).system := by
  obtain ⟨ids, hfirst⟩ := takes_acceptReady h s
  have hlistener := hfirst.listener.trans h
  simp only [wait]
  split
  · exact ⟨ids, hfirst⟩
  · split
    · exact ⟨ids, hfirst⟩
    · simp only [hlistener]
      split
      · exact ⟨ids, hfirst.fail _ _ _⟩
      · have hwait := Backlog.waitReadable id time (t.acceptReady s).system
        generalize Network.waitReadable id time (t.acceptReady s).system = r at hwait
        obtain ⟨answer, s'⟩ := r
        have hwaited : Takes id t s ids (t.acceptReady s).server s' := by
          refine ⟨hfirst.listener, hfirst.maxPending, hfirst.pending, hfirst.room, ?_⟩
          simpa using hfirst.line.trans hwait
        match answer with
        | .error e => exact ⟨ids, hwaited.fail _ _ _⟩
        | .ok false => exact ⟨ids, hwaited⟩
        | .ok true =>
            obtain ⟨ids', hagain⟩ := takes_acceptReady hlistener s'
            exact ⟨ids ++ ids', hwaited.trans hagain⟩

omit [Backlog σ] in
theorem acceptReady_of_not_listening (h : t.listener = none) (s : σ) :
    t.acceptReady s = ⟨true, t, s, []⟩ := by
  simp only [acceptReady, h]

omit [Backlog σ] in
theorem wait_of_not_listening (h : t.listener = none) (time : TimeLimit) (s : σ) :
    ∃ error, (t.wait time s).server = { t with error } ∧ (t.wait time s).system = s := by
  obtain ⟨listener, pending, maxPending, error⟩ := t
  obtain rfl : listener = none := h
  cases pending with
  | nil => exact ⟨some .notListening, rfl, rfl⟩
  | cons => exact ⟨error, rfl, rfl⟩

/-! ## What a call does -/

namespace Session

/-- Where a call can lead. Only a server that does not listen is failed by a system that changes. -/
inductive Move (x : Session σ) : Call → Session σ → Prop where
  | takes {c : Call} {id : SocketId} {ids : List SocketId} {t : TcpServer} {s : σ}
      (hid : x.server.listener = some id) (h : Takes id x.server x.system ids t s) :
      Move x c ⟨t, s, x.picked⟩
  | notes {c : Call} {error : Option Error} {s : σ}
      (hs : s = x.system ∨ x.server.listener = none) :
      Move x c ⟨{ x.server with error }, s, x.picked⟩
  | opens {c : Call} {id : SocketId} {s : σ} (hclosed : x.server.listener = none)
      (hline : (Backlog.line id s).waiting = (Backlog.line id s).came) :
      Move x c ⟨{ x.server with listener := some id }, s, []⟩
  | limits {maxPending : Int} :
      Move x (.setMaxPending maxPending) ⟨{ x.server with maxPending }, x.system, x.picked⟩
  | picks {c : Call} {client : SocketId} {rest : List SocketId}
      (h : x.server.pending = client :: rest) :
      Move x c ⟨{ x.server with pending := rest }, x.system, x.picked ++ [client]⟩
  | closes {c : Call} {s : σ} :
      Move x c ⟨{ x.server with listener := none, pending := [] }, s, x.picked⟩

theorem Move.stays {x : Session σ} {c : Call} : Move x c x := .notes (.inl rfl)

theorem move_listen (x : Session σ) (a : Address) (port : UInt16) :
    Move x (.listen a port) (x.call (.listen a port)) := by
  simp only [call, TcpServer.listen]
  split
  · exact .notes (.inl rfl)
  · rename_i hnot
    have hclosed : x.server.listener = none := by simpa [isListening] using hnot
    cases hlisten : Network.listen (Endpoint.ofBinding a port) x.system with
    | mk answer s =>
        cases answer with
        | error e => exact .notes (.inr hclosed)
        | ok id => exact .opens hclosed (Backlog.listen hlisten)

theorem move_call (x : Session σ) (c : Call) : Move x c (x.call c) := by
  cases c with
  | listen a port => exact move_listen x a port
  | hasPending =>
      cases hid : x.server.listener with
      | some id =>
          obtain ⟨ids, h⟩ := takes_acceptReady hid x.system
          exact .takes hid h
      | none =>
          simp only [call, TcpServer.hasPending, acceptReady_of_not_listening hid]
          exact .stays
  | wait time =>
      cases hid : x.server.listener with
      | some id =>
          obtain ⟨ids, h⟩ := takes_wait hid time x.system
          exact .takes hid h
      | none =>
          obtain ⟨error, hserver, hsystem⟩ := wait_of_not_listening hid time x.system
          simp only [call, hserver, hsystem]
          exact .notes (.inl rfl)
  | setMaxPending maxPending => exact .limits
  | next =>
      cases hpending : x.server.pending with
      | nil =>
          simp only [call, next?, hpending]
          exact .stays
      | cons client rest =>
          simp only [call, next?, hpending]
          exact .picks hpending
  | close => exact .closes

/-! ## The order of clients -/

variable {x y : Session σ} {c : Call}

/-- Those who came to a server that listens were picked up, are pending or wait in the system, in
this order. A server that does not listen has no clients. -/
structure InOrder (x : Session σ) : Prop where
  clients : ∀ id, x.server.listener = some id →
    x.picked ++ x.server.pending ++ (Backlog.line id x.system).waiting =
      (Backlog.line id x.system).came
  closed : x.server.listener = none → x.server.pending = []

theorem InOrder.start (s : σ) : (start s).InOrder :=
  ⟨fun _ h => (Option.some_ne_none _ h.symm).elim, fun _ => rfl⟩

theorem InOrder.takes (hx : x.InOrder) (hid : x.server.listener = some id)
    (h : Takes id x.server x.system ids t s) : InOrder ⟨t, s, x.picked⟩ := by
  have hlistener := h.listener.trans hid
  refine ⟨fun id' h' => ?_, fun h' => (Option.some_ne_none _ (hlistener.symm.trans h')).elim⟩
  obtain rfl : id = id' := Option.some.inj (hlistener.symm.trans h')
  obtain ⟨come, hcame, hwaiting⟩ := h.line
  calc x.picked ++ t.pending ++ (Backlog.line id s).waiting
      = x.picked ++ x.server.pending ++ (ids ++ (Backlog.line id s).waiting) := by
        simp only [h.pending, List.append_assoc]
    _ = x.picked ++ x.server.pending ++ (Backlog.line id x.system).waiting ++ come := by
        rw [← hwaiting, List.append_assoc _ _ come]
    _ = (Backlog.line id s).came := by rw [hx.clients id hid, hcame]

theorem InOrder.move (hx : x.InOrder) (h : Move x c y) : y.InOrder := by
  cases h with
  | takes hid h => exact hx.takes hid h
  | notes hs =>
      refine ⟨fun id hid => ?_, hx.closed⟩
      rcases hs with rfl | hclosed
      · exact hx.clients id hid
      · exact (Option.some_ne_none id (hid.symm.trans hclosed)).elim
  | opens hclosed hline =>
      refine ⟨fun id hid => ?_, fun hnone => (Option.some_ne_none _ hnone).elim⟩
      cases hid
      simp [hx.closed hclosed, hline]
  | limits => exact ⟨hx.clients, hx.closed⟩
  | picks hpending =>
      refine ⟨fun id hid => ?_, fun hclosed => ?_⟩
      · simp [← hx.clients id hid, hpending]
      · rw [hx.closed hclosed] at hpending
        cases hpending
  | closes => exact ⟨fun id hid => (Option.some_ne_none id hid.symm).elim, fun _ => rfl⟩

theorem InOrder.run (hx : x.InOrder) (calls : List Call) : (x.run calls).InOrder := by
  induction calls generalizing x with
  | nil => exact hx
  | cons c calls ih => exact ih (hx.move (move_call x c))

/-! ## The limit -/

/-- A call takes clients from the front of the queue, or it adds clients for whom there is room. -/
theorem Move.pending (h : Move x c y) :
    y.server.pending <:+ x.server.pending ∨
      ∃ ids, y.server.pending = x.server.pending ++ ids ∧
        x.server.pending.length + ids.length ≤ x.server.limit := by
  cases h with
  | takes hid h =>
      rcases h.room with rfl | hroom
      · exact .inl (by rw [h.pending, List.append_nil])
      · exact .inr ⟨_, h.pending, hroom⟩
  | notes | opens | limits => exact .inl List.suffix_rfl
  | picks hpending =>
      rw [hpending]
      exact .inl (List.suffix_cons _ _)
  | closes => exact .inl List.nil_suffix

theorem Move.limit (h : Move x c y) (hc : ∀ n, c ≠ .setMaxPending n) :
    y.server.limit = x.server.limit := by
  cases h with
  | takes hid h => rw [TcpServer.limit, TcpServer.limit, h.maxPending]
  | notes | opens | picks | closes => rfl
  | limits => exact (hc _ rfl).elim

/-- While the limit stays as it is the queue does not grow past it. -/
theorem length_pending_run_le {calls : List Call} (x : Session σ)
    (hcalls : ∀ n, Call.setMaxPending n ∉ calls) :
    (x.run calls).server.pending.length ≤ max x.server.pending.length x.server.limit := by
  induction calls generalizing x with
  | nil => exact Nat.le_max_left _ _
  | cons c calls ih =>
      have hc : ∀ n, c ≠ .setMaxPending n := by
        rintro n rfl
        exact hcalls n List.mem_cons_self
      have hrest := ih (x.call c) fun n hn => hcalls n (List.mem_cons_of_mem _ hn)
      rw [(move_call x c).limit hc] at hrest
      have hcall : (x.call c).server.pending.length ≤
          max x.server.pending.length x.server.limit := by
        rcases (move_call x c).pending with hsuffix | ⟨ids, hpending, hroom⟩
        · exact hsuffix.length_le.trans (Nat.le_max_left _ _)
        · rw [hpending, List.length_append]
          exact hroom.trans (Nat.le_max_right _ _)
      exact hrest.trans (max_le hcall (Nat.le_max_right _ _))

/-- Whatever is done to a new server, and whenever clients come: those who were picked up since it
began to listen came first, those pending came next, and the others wait in the system. No call adds
a client to a queue that is full, so a queue is never longer than a limit that is left alone. -/
theorem clients_in_order_within_limit (s : σ) (calls : List Call) :
    let x := (start s).run calls
    (∀ id, x.server.listener = some id →
      x.picked ++ x.server.pending ++ (Backlog.line id x.system).waiting =
        (Backlog.line id x.system).came) ∧
    (x.server.listener = none → x.server.next? = none) ∧
    (∀ c, (x.call c).server.pending <:+ x.server.pending ∨
      ∃ ids, (x.call c).server.pending = x.server.pending ++ ids ∧
        x.server.pending.length + ids.length ≤ x.server.limit) ∧
    ∀ more, (∀ n, Call.setMaxPending n ∉ more) →
      (x.run more).server.pending.length ≤ max x.server.pending.length x.server.limit := by
  intro x
  have hx : x.InOrder := (InOrder.start s).run calls
  refine ⟨hx.clients, fun hclosed => ?_, fun c => (move_call x c).pending, fun more hmore => ?_⟩
  · rw [next?, hx.closed hclosed]
  · exact length_pending_run_le x hmore

/-- With room for one client the second is accepted after the first was picked up, and the third
waits in the system. -/
theorem clients_in_order_one_by_one :
    let x := (start (⟨[[7, 8], [9]], {}⟩ : Visits)).run
      [.setMaxPending 1, .listen .null 80, .hasPending, .next, .wait none]
    x.picked = [7] ∧ x.server.pending = [8] ∧ x.system.line.waiting = [9] ∧
      x.picked ++ x.server.pending ++ x.system.line.waiting = x.system.line.came :=
  ⟨rfl, rfl, rfl, (clients_in_order_within_limit _ _).1 0 rfl⟩

end Session

end NetKit.TcpServer
