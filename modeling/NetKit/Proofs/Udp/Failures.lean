import NetKit.Keyed
import NetKit.Network.Machine
import NetKit.Udp

/-!
# What failures leave behind

A socket that is not bound is bound by the first call that has a target, before the target is tried.
A call that fails leaves where the socket is bound and whom it is connected to as they were, except
that such a binding stays. A socket with a peer is bound.
-/

namespace NetKit

/-! ## One machine -/

namespace Machine

variable {id : SocketId} {target : Endpoint} {bs : Bytes} {e : SystemError} {m : Machine}

theorem socket?_setSocket (m : Machine) (id : SocketId) (x : Socket) :
    (m.setSocket id x).socket? id = (m.socket? id).map fun _ => x := by
  simp only [socket?, setSocket]
  induction m.sockets with
  | nil => rfl
  | cons entry sockets ih =>
      rw [List.map_cons, Keyed.lookup_cons_ite, Keyed.lookup_cons_ite, ih]
      by_cases hentry : entry.1 = id
      · simp [hentry]
      · simp [hentry, Ne.symm hentry]

theorem localEnd_setHopLimit (id : SocketId) (hops : Nat) (m : Machine) :
    Network.localEnd id (m.setHopLimit id hops).2 = Network.localEnd id m := by
  simp only [setHopLimit]
  split
  · rename_i bound far before received hsocket
    split
    · rfl
    · simp only [Network.localEnd, socket?_setSocket, hsocket, Option.map_some]
      rfl
  · rfl

theorem connectTo_of_error :
    (m.connectTo id target).1 = .error e → (m.connectTo id target).2 = m := by
  fun_cases connectTo id target m with
  | case1 | case3 => exact fun _ => rfl
  | case2 => exact nofun

theorem sendTo_of_error :
    (m.sendTo id bs target).1 = .error e → (m.sendTo id bs target).2 = m := by
  fun_cases sendTo id bs target m with
  | case1 | case2 | case3 | case5 => exact fun _ => rfl
  | case4 => exact nofun

end Machine

namespace UdpSocket

/-! ## The system -/

/-- A system in which a socket stays where it is bound when connecting or sending fails, and
whatever hop limit is set. -/
class Anchored (σ : Type) [Network σ] : Prop where
  connectTo {id : SocketId} {target : Endpoint} {e : SystemError} {s : σ}
    (h : (Network.connectTo id target s).1 = .error e) :
    Network.localEnd id (Network.connectTo id target s).2 = Network.localEnd id s
  sendTo {id : SocketId} {bs : Bytes} {target : Endpoint} {e : SystemError} {s : σ}
    (h : (Network.sendTo id bs target s).1 = .error e) :
    Network.localEnd id (Network.sendTo id bs target s).2 = Network.localEnd id s
  setHopLimit (id : SocketId) (hops : Nat) (s : σ) :
    Network.localEnd id (Network.setHopLimit id hops s).2 = Network.localEnd id s

instance : Anchored Machine where
  connectTo h := congrArg _ (Machine.connectTo_of_error h)
  sendTo h := congrArg _ (Machine.sendTo_of_error h)
  setHopLimit := Machine.localEnd_setHopLimit

/-! ## Calls -/

/-- What binds a socket, connects it or sends on it. -/
inductive Attempt where
  | bind (a : Address) (port : UInt16)
  | connect (host : String) (port : UInt16)
  | write (bs : Bytes)
  | writeTo (bs : Bytes) (a : Address) (port : UInt16)
  | send (d : Datagram)

/-- What is done to a socket. -/
inductive Call where
  | attempt (a : Attempt)
  | wait (time : TimeLimit)
  | read (count : Nat)
  | receive (count : Option Nat)
  | join (a : Address)
  | leave (a : Address)
  | close

variable {σ : Type} [Network σ] {u u' : UdpSocket} {a : Attempt} {c : Call} {target : Endpoint}
  {e : Error} {s s' : σ} {id : SocketId}

/-- The result without what it counts. -/
def Result.outcome {α : Type} (r : Result σ α) : Result σ Unit :=
  { r with answer := r.answer.map fun _ => () }

def attempt (u : UdpSocket) (s : σ) : Attempt → Result σ Unit
  | .bind a port => u.bind a port s
  | .connect host port => u.connectToHost host port s
  | .write bs => (u.write bs s).outcome
  | .writeTo bs a port => (u.writeTo bs a port s).outcome
  | .send d => (u.sendDatagram d s).outcome

def call (u : UdpSocket) (s : σ) : Call → UdpSocket
  | .attempt a => (u.attempt s a).socket
  | .wait time => (u.waitReadable time s).socket
  | .read count => (u.read count s).socket
  | .receive count => (u.receive count s).socket
  | .join a => (u.join a s).socket
  | .leave a => (u.leave a s).socket
  | .close => (u.close s).1

/-- A socket that calls on a system in any state can lead to. -/
inductive IsReachable (σ : Type) [Network σ] : UdpSocket → Prop where
  | start : IsReachable σ {}
  | call {u : UdpSocket} (h : IsReachable σ u) (s : σ) (c : Call) : IsReachable σ (u.call s c)

/-- What can be asked about a socket: whether it is bound, where, and who its peer is. -/
def seen (u : UdpSocket) (s : σ) : Bool × Option Endpoint × Option Endpoint :=
  (u.isBound, u.localEnd s, u.peer)

/-! ## Binding first -/

/-- Where a socket is bound that asks for no place of its own. -/
def anyPort (target : Endpoint) : Endpoint := ⟨Ip.unspecified target.ip.isIpv6, 0⟩

/-- What a call with a target does first. -/
inductive Binding (u : UdpSocket) (target : Endpoint) (s : σ) : Result σ SocketId → Prop where
  | stood {id : SocketId} (hid : u.socket = some id) : Binding u target s ⟨.ok id, u, s, []⟩
  | bound {id : SocketId} {s' : σ} {remarks : List Remark} (hclosed : u.socket = none)
      (hbind : Network.bind (anyPort target) s = (.ok id, s')) :
      Binding u target s ⟨.ok id, { u with socket := some id }, s', remarks⟩
  | refused {e : SystemError} {s' : σ} (hclosed : u.socket = none)
      (hbind : Network.bind (anyPort target) s = (.error e, s')) :
      Binding u target s (u.fail (.system e) s')

theorem binding_ensureBound (u : UdpSocket) (target : Endpoint) (s : σ) :
    Binding u target s (u.ensureBound target s) := by
  cases hsocket : u.socket with
  | some id =>
      simp only [ensureBound, hsocket]
      exact .stood hsocket
  | none =>
      simp only [ensureBound, hsocket, bindTo]
      split
      · rename_i e s' hbind
        exact .refused hsocket hbind
      · rename_i id s' hbind
        exact .bound hsocket hbind

/-- How a call with a target fails: the socket stayed where it was, it was bound before the target
was tried, or it could not be bound. -/
inductive Failure (u : UdpSocket) (target : Endpoint) (s : σ) : UdpSocket → σ → Prop where
  | stood {id : SocketId} {error : Option Error} {s' : σ} (hid : u.socket = some id)
      (hend : Network.localEnd id s' = Network.localEnd id s) :
      Failure u target s { u with error } s'
  | bound {id : SocketId} {error : Option Error} {s₁ s' : σ} (hclosed : u.socket = none)
      (hbind : Network.bind (anyPort target) s = (.ok id, s₁))
      (hend : Network.localEnd id s' = Network.localEnd id s₁) :
      Failure u target s { u with socket := some id, error } s'
  | refused {error : Option Error} {e : SystemError} {s' : σ} (hclosed : u.socket = none)
      (hbind : Network.bind (anyPort target) s = (.error e, s')) :
      Failure u target s { u with error } s'

/-- What fails after the binding, and leaves the socket where it is, fails as a whole. -/
theorem Binding.failure {u₁ : UdpSocket} {s₁ : σ} {remarks : List Remark} {error : Option Error}
    (h : Binding u target s ⟨.ok id, u₁, s₁, remarks⟩)
    (hend : Network.localEnd id s' = Network.localEnd id s₁) :
    Failure u target s { u₁ with error } s' := by
  cases h with
  | stood hid => exact .stood hid hend
  | bound hclosed hbind => exact .bound hclosed hbind hend

theorem Binding.failure_of_error {u₁ : UdpSocket} {s₁ : σ} {remarks : List Remark}
    (h : Binding u target s ⟨.error e, u₁, s₁, remarks⟩) : Failure u target s u₁ s₁ := by
  cases h with
  | refused hclosed hbind => exact .refused hclosed hbind

theorem failure_connectToHost [Anchored σ] {host : String} {port : UInt16} {targets : List Endpoint}
    (hresolve : Network.resolve host port s = .ok (target :: targets))
    (h : (u.connectToHost host port s).answer = .error e) :
    Failure u target s (u.connectToHost host port s).socket
      (u.connectToHost host port s).system := by
  have hbinding := binding_ensureBound u target s
  simp only [connectToHost, hresolve] at h ⊢
  generalize u.ensureBound target s = r at h hbinding ⊢
  obtain ⟨answer, u₁, s₁, remarks⟩ := r
  cases answer with
  | error e => exact hbinding.failure_of_error
  | ok id =>
      have hend : ∀ e, (Network.connectTo id (routable id target s₁) s₁).1 = .error e →
          Network.localEnd id (Network.connectTo id (routable id target s₁) s₁).2 =
            Network.localEnd id s₁ := fun _ => Anchored.connectTo
      simp only at h ⊢
      generalize Network.connectTo id (routable id target s₁) s₁ = connected at h hend ⊢
      obtain ⟨answer, s₂⟩ := connected
      cases answer with
      | error e => exact hbinding.failure (hend e rfl)
      | ok => cases h

/-- A hop limit that is set and given back does not move the socket either. -/
theorem localEnd_sendLimited [Anchored σ] {bs : Bytes} {hops : Option Nat} {e : SystemError}
    (h : (sendLimited id bs target hops s).1 = .error e) :
    Network.localEnd id (sendLimited id bs target hops s).2.1 = Network.localEnd id s := by
  simp only [sendLimited] at h ⊢
  split at h
  · exact Anchored.sendTo h
  · rename_i hops _
    rw [← Anchored.setHopLimit id hops s]
    split at h
    · exact Anchored.sendTo h
    · exact (Anchored.setHopLimit ..).trans (Anchored.sendTo h)

theorem failure_send [Anchored σ] {bs : Bytes} {to? : Option Endpoint} {hops : Option Nat}
    (htarget : (to?.orElse fun _ => u.peer) = some target)
    (h : (u.send bs to? hops s).answer = .error e) :
    Failure u target s (u.send bs to? hops s).socket (u.send bs to? hops s).system := by
  have hbinding := binding_ensureBound u target s
  simp only [send, htarget] at h ⊢
  generalize u.ensureBound target s = r at h hbinding ⊢
  obtain ⟨answer, u₁, s₁, remarks⟩ := r
  cases answer with
  | error e => exact hbinding.failure_of_error
  | ok id =>
      have hend : ∀ e, (sendLimited id bs (routable id target s₁) hops s₁).1 = .error e →
          Network.localEnd id (sendLimited id bs (routable id target s₁) hops s₁).2.1 =
            Network.localEnd id s₁ := fun _ => localEnd_sendLimited
      simp only at h ⊢
      generalize sendLimited id bs (routable id target s₁) hops s₁ = sent at h hend ⊢
      obtain ⟨answer, s₂, told⟩ := sent
      cases answer with
      | error e => exact hbinding.failure (hend e rfl)
      | ok => cases h

/-! ## Peers -/

/-- What a call makes of a socket: it is bound then, it is where it was with the peer it had, or it
has no peer. -/
def Follows (u u' : UdpSocket) : Prop :=
  u'.isBound = true ∨ u'.socket = u.socket ∧ u'.peer = u.peer ∨ u'.peer = none

theorem follows_error (u : UdpSocket) (error : Option Error) : Follows u { u with error } :=
  .inr (.inl ⟨rfl, rfl⟩)

theorem Binding.isBound {u₁ : UdpSocket} {s₁ : σ} {remarks : List Remark}
    (h : Binding u target s ⟨.ok id, u₁, s₁, remarks⟩) : u₁.isBound = true := by
  cases h with
  | stood hid => rw [UdpSocket.isBound, hid]; rfl
  | bound hclosed hbind => rfl

theorem Binding.follows {r : Result σ SocketId} (h : Binding u target s r) :
    Follows u r.socket := by
  cases h with
  | stood hid => exact follows_error u u.error
  | bound hclosed hbind => exact .inl rfl
  | refused hclosed hbind => exact follows_error u _

theorem follows_bind (u : UdpSocket) (a : Address) (port : UInt16) (s : σ) :
    Follows u (u.bind a port s).socket := by
  simp only [bind, bindTo]
  split
  · exact follows_error u _
  · split
    · exact follows_error u _
    · exact .inl rfl

theorem follows_connectToHost (u : UdpSocket) (host : String) (port : UInt16) (s : σ) :
    Follows u (u.connectToHost host port s).socket := by
  simp only [connectToHost]
  split
  · exact follows_error u _
  · exact follows_error u _
  · rename_i target targets hresolve
    have hbinding := binding_ensureBound u target s
    generalize u.ensureBound target s = r at hbinding ⊢
    obtain ⟨answer, u₁, s₁, remarks⟩ := r
    cases answer with
    | error e => exact hbinding.follows
    | ok id =>
        simp only
        split
        · exact .inl hbinding.isBound
        · exact .inl hbinding.isBound

theorem follows_send (u : UdpSocket) (bs : Bytes) (to? : Option Endpoint) (hops : Option Nat)
    (s : σ) : Follows u (u.send bs to? hops s).socket := by
  simp only [send]
  split
  · exact follows_error u _
  · rename_i target htarget
    have hbinding := binding_ensureBound u target s
    generalize u.ensureBound target s = r at hbinding ⊢
    obtain ⟨answer, u₁, s₁, remarks⟩ := r
    cases answer with
    | error e => exact hbinding.follows
    | ok id =>
        simp only
        split
        · exact .inl hbinding.isBound
        · exact .inl hbinding.isBound

theorem follows_waitReadable (u : UdpSocket) (time : TimeLimit) (s : σ) :
    Follows u (u.waitReadable time s).socket := by
  simp only [waitReadable]
  split
  · exact follows_error u _
  · split <;> exact follows_error u _

theorem follows_read (u : UdpSocket) (count : Nat) (s : σ) :
    Follows u (u.read count s).socket := by
  simp only [read]
  split
  · exact follows_error u _
  · split <;> exact follows_error u _

omit [Network σ] in
theorem follows_withGroup (u : UdpSocket) (a : Address) (s : σ)
    (change : SocketId → Ip → σ → Except SystemError Unit × σ) :
    Follows u (u.withGroup a s change).socket := by
  simp only [withGroup]
  split
  · exact follows_error u _
  · split
    · exact follows_error u _
    · split <;> exact follows_error u _

theorem follows_call (u : UdpSocket) (s : σ) (c : Call) : Follows u (u.call s c) := by
  cases c with
  | attempt a =>
      cases a with
      | bind a port => exact follows_bind u a port s
      | connect host port => exact follows_connectToHost u host port s
      | write bs => exact follows_send u bs none none s
      | writeTo bs a port =>
          simp only [call, attempt, Result.outcome, writeTo]
          split
          · exact follows_error u _
          · exact follows_send u bs _ none s
      | send d => exact follows_send u d.data _ d.hopLimit s
  | wait time => exact follows_waitReadable u time s
  | read count => exact follows_read u count s
  | receive count => exact follows_read u _ s
  | join a => exact follows_withGroup u a s _
  | leave a => exact follows_withGroup u a s _
  | close => exact .inr (.inr rfl)

theorem IsReachable.bound_of_peer (h : IsReachable σ u) : u.peer ≠ none → u.isBound = true := by
  induction h with
  | start => exact fun hpeer => absurd rfl hpeer
  | call h s c ih =>
      intro hpeer
      rcases follows_call _ s c with hbound | ⟨hsocket, hsame⟩ | hnone
      · exact hbound
      · rw [isBound, hsocket]
        exact ih (hsame ▸ hpeer)
      · exact absurd hnone hpeer

/-! ## What is left behind -/

/-- The target that an attempt has of its own. -/
def Attempt.target? (s : σ) : Attempt → Option Endpoint
  | .connect host port => (Network.resolve host port s).toOption.bind List.head?
  | .writeTo _ a port => Endpoint.ofAddress? a port
  | .send d => d.destinationPort.bind (Endpoint.ofAddress? d.destination)
  | .bind .. | .write _ => none

/-- The binding that is made before a target is tried, for a socket that was not bound. -/
def boundFirst (u : UdpSocket) (target? : Option Endpoint) (s : σ) : Option (SocketId × σ) :=
  match u.socket, target? with
  | none, some target =>
    match Network.bind (anyPort target) s with
    | (.ok id, s') => some (id, s')
    | (.error _, _) => none
  | _, _ => none

theorem boundFirst_of_bound (hid : u.socket = some id) (target? : Option Endpoint) (s : σ) :
    u.boundFirst target? s = none := by
  simp [boundFirst, hid]

theorem boundFirst_none (u : UdpSocket) (s : σ) : u.boundFirst none s = none := by
  simp [boundFirst]

/-- What a failure leaves behind: everything as it was, or the binding that was made first. -/
structure Leaves (u : UdpSocket) (s : σ) (first : Option (SocketId × σ)) (u' : UdpSocket)
    (s' : σ) : Prop where
  kept : first = none → u'.seen s' = u.seen s
  bound : ∀ id s₁, first = some (id, s₁) →
    u.isBound = false ∧ u'.seen s' = (true, Network.localEnd id s₁, u.peer)

theorem Failure.leaves (h : Failure u target s u' s') :
    Leaves u s (u.boundFirst (some target) s) u' s' := by
  cases h with
  | stood hid hend =>
      rw [boundFirst_of_bound hid]
      refine ⟨fun _ => ?_, nofun⟩
      simp [seen, isBound, localEnd, hid, hend]
  | bound hclosed hbind hend =>
      simp only [boundFirst, hclosed, hbind]
      refine ⟨nofun, fun id s₁ hfirst => ?_⟩
      cases hfirst
      simp [seen, isBound, localEnd, hclosed, hend]
  | refused hclosed hbind =>
      simp only [boundFirst, hclosed, hbind]
      refine ⟨fun _ => ?_, nofun⟩
      simp [seen, isBound, localEnd, hclosed]

theorem leaves_error (u : UdpSocket) (s : σ) (error : Option Error) :
    Leaves u s none { u with error } s :=
  ⟨fun _ => rfl, nofun⟩

theorem leaves_bind {port : UInt16} {b : Address} (h : (u.bind b port s).answer = .error e) :
    Leaves u s none (u.bind b port s).socket (u.bind b port s).system := by
  cases hsocket : u.socket with
  | some id =>
      simp only [bind, isBound, hsocket]
      exact leaves_error u s _
  | none =>
      simp only [bind, bindTo, isBound, hsocket] at h ⊢
      cases hbind : Network.bind (Endpoint.ofBinding b port) s with
      | mk answer s' =>
          simp only [hbind] at h ⊢
          cases answer with
          | ok id => cases h
          | error e =>
              refine ⟨fun _ => ?_, nofun⟩
              simp [seen, isBound, localEnd, fail, hsocket]

theorem leaves_connectToHost [Anchored σ] {host : String} {port : UInt16}
    (h : (u.connectToHost host port s).answer = .error e) :
    Leaves u s (u.boundFirst ((Attempt.connect host port).target? s) s)
      (u.connectToHost host port s).socket (u.connectToHost host port s).system := by
  cases hresolve : Network.resolve host port s with
  | error e =>
      simp only [Attempt.target?, connectToHost, hresolve, Except.toOption, Option.bind_none,
        boundFirst_none]
      exact leaves_error u s _
  | ok targets =>
      simp only [Attempt.target?, hresolve, Except.toOption, Option.bind_some]
      cases targets with
      | nil =>
          simp only [connectToHost, hresolve, List.head?_nil, boundFirst_none]
          exact leaves_error u s _
      | cons target targets => exact (failure_connectToHost hresolve h).leaves

/-- Without a target of its own a call goes to the peer, and a socket with a peer is bound. -/
theorem leaves_send [Anchored σ] {bs : Bytes} {to? : Option Endpoint} {hops : Option Nat}
    (hpeer : u.peer ≠ none → u.isBound = true) (h : (u.send bs to? hops s).answer = .error e) :
    Leaves u s (u.boundFirst to? s) (u.send bs to? hops s).socket
      (u.send bs to? hops s).system := by
  cases to? with
  | some target => exact (failure_send rfl h).leaves
  | none =>
      cases hto : u.peer with
      | none =>
          have hnowhere : ((none : Option Endpoint).orElse fun _ => u.peer) = none := hto
          simp only [send, hnowhere, boundFirst_none]
          exact leaves_error u s _
      | some target =>
          have hthere : ((none : Option Endpoint).orElse fun _ => u.peer) = some target := hto
          obtain ⟨id, hid⟩ := Option.isSome_iff_exists.mp (hpeer (by simp [hto]))
          have hleaves := (failure_send hthere h).leaves
          rwa [boundFirst_of_bound hid] at hleaves ⊢

omit [Network σ] in
theorem Result.answer_outcome {α : Type} {r : Result σ α} :
    r.outcome.answer = .error e ↔ r.answer = .error e := by
  rw [outcome]
  cases r.answer with
  | error e' => simp [Except.map]
  | ok x => simp [Except.map]

theorem leaves_attempt [Anchored σ] (hpeer : u.peer ≠ none → u.isBound = true)
    (h : (u.attempt s a).answer = .error e) :
    Leaves u s (u.boundFirst (a.target? s) s) (u.attempt s a).socket (u.attempt s a).system := by
  cases a with
  | bind b port =>
      rw [Attempt.target?, boundFirst_none]
      exact leaves_bind h
  | connect host port => exact leaves_connectToHost h
  | write bs => exact leaves_send hpeer (Result.answer_outcome.mp h)
  | writeTo bs b port =>
      simp only [attempt, writeTo, Attempt.target?] at h ⊢
      cases htarget : Endpoint.ofAddress? b port with
      | none =>
          rw [boundFirst_none]
          exact leaves_error u s _
      | some target =>
          rw [htarget] at h
          exact leaves_send hpeer (Result.answer_outcome.mp h)
  | send d => exact leaves_send hpeer (Result.answer_outcome.mp h)

/-- However it was reached, a socket with a peer is bound. A call that binds, connects or sends and
fails leaves the peer as it was. It leaves whether and where the socket is bound as they were unless
it had bound the socket before it tried its target; such a binding stays. -/
theorem failure_keeps_unless_bound_first [Anchored σ] (hu : IsReachable σ u) :
    (u.peer ≠ none → u.isBound = true) ∧
    ∀ (a : Attempt) (s : σ) (e : Error), (u.attempt s a).answer = .error e →
      let r := u.attempt s a
      let first := u.boundFirst (a.target? s) s
      r.socket.peer = u.peer ∧
      (r.socket.seen r.system = u.seen s ↔ first = none) ∧
      ∀ id s', first = some (id, s') →
        r.socket.seen r.system = (true, Network.localEnd id s', u.peer) := by
  refine ⟨hu.bound_of_peer, fun a s e h => ?_⟩
  have hleaves := leaves_attempt hu.bound_of_peer h
  intro r first
  cases hfirst : first with
  | none =>
      have hkept := hleaves.kept hfirst
      exact ⟨congrArg (·.2.2) hkept, iff_of_true hkept rfl, nofun⟩
  | some bound =>
      obtain ⟨hclosed, hseen⟩ := hleaves.bound bound.1 bound.2 hfirst
      refine ⟨congrArg (·.2.2) hseen, iff_of_false (fun hkept => ?_) nofun, fun id s' hbound => ?_⟩
      · have hopen : u.isBound = true := congrArg (·.1) (hkept.symm.trans hseen)
        rw [hclosed] at hopen
        cases hopen
      · cases hbound
        exact hseen

/-- On a machine that reaches nobody, connecting a new socket fails and leaves it bound. -/
theorem failure_keeps_binding_made_first :
    let m : Machine := {}
    let r := UdpSocket.attempt {} m (.connect "127.0.0.1" 9)
    IsReachable Machine {} ∧ r.answer = .error (.system .unreachable) ∧
      r.socket.peer = none ∧ r.socket.seen r.system = (true, some ⟨.v4 0, 49152⟩, none) := by
  intro m r
  have hnew : IsReachable Machine {} := .start
  have hanswer : r.answer = .error (.system .unreachable) := rfl
  obtain ⟨hpeer, -, hseen⟩ := (failure_keeps_unless_bound_first hnew).2 _ m _ hanswer
  exact ⟨hnew, hanswer, hpeer, hseen 3 (m.bind ⟨.v4 0, 0⟩).2 rfl⟩

theorem failed_connection_binds_socket :
    ¬ ∀ (u : UdpSocket) (a : Attempt) (m : Machine) (e : Error),
      IsReachable Machine u → (u.attempt m a).answer = .error e →
        (u.attempt m a).socket.seen (u.attempt m a).system = u.seen m := by
  intro h
  have hkept := h {} (.connect "127.0.0.1" 9) {} _ .start rfl
  exact absurd hkept (by decide)

end UdpSocket
end NetKit
