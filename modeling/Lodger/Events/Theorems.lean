import Lodger.Events

namespace Lodger.Events

open Lodger.Lib

variable {s t : State} {a : Action} {k c : Nat} {socket : Socket} {conn : Connection}

section Shape

-- A socket that is not closed is its connection's socket, the connection waits
-- for it to close, and after a stop it is closing. Only the newest connection
-- runs.
structure Shape (s : State) : Prop where
  loops : ∀ (k : Nat) (socket : Socket), s.sockets[k]? = some socket → socket.state ≠ .closed →
    ∃ conn, s.connections[socket.connection]? = some conn ∧ conn.socket = some k ∧
      conn.loop = .connected ∧ (conn.stopped = true → socket.state = .closing)
  known : ∀ (k : Nat) (socket : Socket), s.sockets[k]? = some socket →
    socket.connection < s.connections.length
  last : ∀ (c : Nat) (conn : Connection), s.connections[c]? = some conn → conn.stopped = false →
    c + 1 = s.connections.length

-- Two states with the same connections and the same sockets, messages apart.
theorem Shape.congr (h : Shape s) (hconnections : t.connections = s.connections)
    (hsockets : ∀ (k : Nat) (socket : Socket), t.sockets[k]? = some socket →
      ∃ old : Socket, s.sockets[k]? = some old ∧
      old.connection = socket.connection ∧ old.state = socket.state) : Shape t := by
  refine ⟨fun k socket hk hstate => ?_, fun k socket hk => ?_, by rw [hconnections]; exact h.last⟩
  · obtain ⟨old, hold, hconn, hsame⟩ := hsockets k socket hk
    rw [hconnections, ← hconn, ← hsame]
    exact h.loops k old hold (hsame ▸ hstate)
  · obtain ⟨old, hold, hconn, -⟩ := hsockets k socket hk
    rw [hconnections, ← hconn]
    exact h.known k old hold

-- A connection that waits for no socket has only closed ones.
theorem Shape.closed_of_loop (h : Shape s) (hconn : s.connections[c]? = some conn)
    (hloop : conn.loop ≠ .connected) (hk : s.sockets[k]? = some socket)
    (hc : socket.connection = c) : socket.state = .closed := by
  by_contra hopen
  obtain ⟨conn', hconn', -, hloop', -⟩ := h.loops k socket hk hopen
  rw [hc, hconn] at hconn'
  cases hconn'
  exact hloop hloop'

-- A change of a connection that keeps its socket, its loop and its stop.
theorem Shape.setConnection (h : Shape s) (hconn : s.connections[c]? = some conn)
    {conn' : Connection} {sockets : List Socket} (hstopped : conn'.stopped = conn.stopped)
    (hsockets : ∀ (k : Nat) (socket : Socket), sockets[k]? = some socket →
      ∃ old : Socket, s.sockets[k]? = some old ∧
      old.connection = socket.connection ∧ (old.state = socket.state ∨ socket.state = .closed))
    (hkeep : ∀ (k : Nat) (socket : Socket), sockets[k]? = some socket → socket.connection = c →
      socket.state ≠ .closed → conn'.socket = conn.socket ∧ conn'.loop = conn.loop)
    (ht : t.connections = s.connections.set c conn') (ht' : t.sockets = sockets) : Shape t := by
  have hlt : c < s.connections.length := (List.getElem?_eq_some_iff.mp hconn).1
  refine ⟨fun k socket hk hstate => ?_, fun k socket hk => ?_, fun d other hd hrun => ?_⟩
  · rw [ht'] at hk
    obtain ⟨old, hold, hsame, hstates⟩ := hsockets k socket hk
    have heq : old.state = socket.state := by
      rcases hstates with heq | hclosed
      · exact heq
      · exact absurd hclosed hstate
    obtain ⟨conn₀, hconn₀, hsocket, hloop, hstop⟩ := h.loops k old hold (heq ▸ hstate)
    rw [hsame] at hconn₀
    by_cases hc : socket.connection = c
    · rw [hc, hconn] at hconn₀
      cases hconn₀
      obtain ⟨hs', hl'⟩ := hkeep k socket hk hc hstate
      refine ⟨conn', by rw [ht, hc, List.getElem?_set_self hlt], hs'.trans hsocket,
        hl'.trans hloop, ?_⟩
      rw [hstopped, ← heq]
      exact hstop
    · refine ⟨conn₀, by rw [ht, List.getElem?_set_ne (Ne.symm hc)]; exact hconn₀, hsocket, hloop, ?_⟩
      rw [← heq]
      exact hstop
  · rw [ht'] at hk
    obtain ⟨old, hold, hsame, -⟩ := hsockets k socket hk
    rw [ht, List.length_set, ← hsame]
    exact h.known k old hold
  · rw [ht, List.length_set]
    rw [ht] at hd
    by_cases hdc : c = d
    · subst hdc
      rw [List.getElem?_set_self hlt] at hd
      cases hd
      exact h.last c conn hconn (hstopped ▸ hrun)
    · rw [List.getElem?_set_ne hdc] at hd
      exact h.last d other hd hrun

end Shape

section Send

theorem getElem?_sendStats (s : State) (message : Message) (k : Nat) :
    (s.sendStats message).sockets[k]? =
      if s.send = some k then s.sockets[k]?.map (Socket.send message) else s.sockets[k]? := by
  unfold State.sendStats
  cases hsend : s.send with
  | none => simp
  | some j =>
      simp only [List.getElem?_modify, Option.some.injEq]
      by_cases hjk : j = k
      · simp [hjk]
      · simp [hjk]

@[simp] theorem sendStats_connections (s : State) (message : Message) :
    (s.sendStats message).connections = s.connections := by
  unfold State.sendStats
  split <;> rfl

@[simp] theorem sendStats_send (s : State) (message : Message) :
    (s.sendStats message).send = s.send := by
  unfold State.sendStats
  split <;> rfl

@[simp] theorem sendStats_count (s : State) (message : Message) :
    (s.sendStats message).count = s.count := by
  unfold State.sendStats
  split <;> rfl

@[simp] theorem sendStats_released (s : State) (message : Message) :
    (s.sendStats message).released = s.released := by
  unfold State.sendStats
  split <;> rfl

@[simp] theorem sendStats_lastOpen (s : State) (message : Message) :
    (s.sendStats message).lastOpen = s.lastOpen := by
  unfold State.sendStats
  split <;> rfl

@[simp] theorem Socket.send_connection (message : Message) (socket : Socket) :
    (socket.send message).connection = socket.connection := by
  unfold Socket.send
  split <;> rfl

@[simp] theorem Socket.send_state (message : Message) (socket : Socket) :
    (socket.send message).state = socket.state := by
  unfold Socket.send
  split <;> rfl

theorem Shape.sendStats (h : Shape s) (message : Message) : Shape (s.sendStats message) := by
  refine h.congr (sendStats_connections s message) (fun k socket hk => ?_)
  rw [getElem?_sendStats] at hk
  split at hk
  · obtain ⟨old, hold, rfl⟩ := Option.map_eq_some_iff.mp hk
    exact ⟨old, hold, by simp, by simp⟩
  · exact ⟨socket, hk, rfl, rfl⟩

-- The open socket gets the message, and the interest changes with it.
theorem Follows.sendStats (h : Follows s) (message : Message) {count : Int} {released : List Bool}
    (hcount : message = .subscribe ↔ 0 < count) :
    Follows ({ s with count, released }.sendStats message) := by
  intro k socket hlive
  obtain ⟨hk, hstate, hlast, conn, hconn, hrun⟩ := hlive
  rw [getElem?_sendStats] at hk
  simp only [sendStats_connections] at hlast hconn
  by_cases hsend : s.send = some k
  · simp only [hsend, if_true] at hk
    obtain ⟨old, hold, rfl⟩ := Option.map_eq_some_iff.mp hk
    simp only [Socket.send_state, Socket.send_connection] at hstate hlast hconn
    obtain ⟨-, -, hopen⟩ := h k old ⟨hold, hstate, hlast, conn, hconn, hrun⟩
    simp only [sendStats_send, sendStats_count, sendStats_lastOpen]
    refine ⟨hsend, ?_, hopen⟩
    simp [Socket.send, hstate, hcount]
  · simp only [hsend, if_false] at hk
    exact absurd (h k socket ⟨hk, hstate, hlast, conn, hconn, hrun⟩).1 hsend

end Send

section Steps

-- A socket that is not open yet has sent nothing.
def Quiet (s : State) : Prop :=
  ∀ (k : Nat) (socket : Socket), s.sockets[k]? = some socket → socket.state = .connecting →
    socket.sent = []

structure Wf (s : State) : Prop where
  shape : Shape s
  quiet : Quiet s
  count : s.count = s.released.countP fun released => !released
  follows : Follows s

-- Where no new socket is live, nothing has to follow.
theorem Follows.same (h : Follows s) (hlive : ∀ k socket, Live t k socket → Live s k socket)
    (hsend : t.send = s.send) (hcount : t.count = s.count) (hopen : t.lastOpen = s.lastOpen) :
    Follows t := by
  intro k socket hk
  rw [hsend, hcount, hopen]
  exact h k socket (hlive k socket hk)

theorem Follows.of_none (h : ∀ k socket, ¬ Live t k socket) : Follows t :=
  fun k socket hk => absurd hk (h k socket)

-- A change of a connection that keeps its stop makes no socket live.
theorem Live.of_set (hconn : s.connections[c]? = some conn) {conn' : Connection}
    (hstopped : conn'.stopped = conn.stopped) (ht : t.connections = s.connections.set c conn')
    (hk : s.sockets[k]? = some socket) (h : Live t k socket) : Live s k socket := by
  obtain ⟨-, hstate, hlast, other, hother, hrun⟩ := h
  have hlt : c < s.connections.length := (List.getElem?_eq_some_iff.mp hconn).1
  rw [ht, List.length_set] at hlast
  refine ⟨hk, hstate, hlast, ?_⟩
  rw [ht] at hother
  by_cases hc : c = socket.connection
  · subst hc
    rw [List.getElem?_set_self hlt] at hother
    cases hother
    exact ⟨conn, hconn, hstopped ▸ hrun⟩
  · rw [List.getElem?_set_ne hc] at hother
    exact ⟨other, hother, hrun⟩

-- A live socket is the socket of the newest connection.
theorem Shape.live (h : Shape s) (hlive : Live s k socket) (hconn : s.connections[c]? = some conn)
    (hrun : conn.stopped = false) :
    socket.connection = c ∧ conn.socket = some k ∧ conn.loop = .connected := by
  obtain ⟨hk, hstate, hlast, -⟩ := hlive
  have hc := h.last c conn hconn hrun
  have heq : socket.connection = c := by omega
  obtain ⟨conn', hconn', hsocket, hloop, -⟩ := h.loops k socket hk (by simp [hstate])
  rw [heq, hconn] at hconn'
  cases hconn'
  exact ⟨heq, hsocket, hloop⟩

theorem Quiet.sendStats (h : Quiet s) (message : Message) : Quiet (s.sendStats message) := by
  intro k socket hk hstate
  rw [getElem?_sendStats] at hk
  split at hk
  · obtain ⟨old, hold, rfl⟩ := Option.map_eq_some_iff.mp hk
    rw [Socket.send_state] at hstate
    simpa [Socket.send, hstate] using h k old hold hstate
  · exact h k socket hk hstate

-- Setting one socket.
theorem getElem?_set_some {sockets : List Socket} {new : Socket} {j : Nat}
    (h : (sockets.set k new)[j]? = some socket) :
    (j = k ∧ socket = new) ∨ (j ≠ k ∧ sockets[j]? = some socket) := by
  rw [List.getElem?_set] at h
  split at h
  · rename_i heq
    split at h
    · cases h
      exact .inl ⟨heq.symm, rfl⟩
    · cases h
  · rename_i hne
    exact .inr ⟨Ne.symm hne, h⟩

-- The first page or the last one makes the client send a message.
theorem Wf.announce (h : Wf s) (message : Message) {count : Int} {released : List Bool}
    (hcount : count = released.countP fun released => !released)
    (hmessage : message = .subscribe ↔ 0 < count) :
    Wf ({ s with count, released }.sendStats message) := by
  have hshape : Shape { s with count, released } :=
    ⟨h.shape.loops, h.shape.known, h.shape.last⟩
  have hquiet : Quiet { s with count, released } := h.quiet
  exact ⟨hshape.sendStats message, hquiet.sendStats message, by simpa using hcount,
    h.follows.sendStats message hmessage⟩

theorem Wf.wantStats (h : Wf s) : Wf s.wantStats := by
  have hcount : s.count + 1 = (s.released ++ [false]).countP fun released => !released := by
    simp [h.count, List.countP_append]
  have hnonneg : 0 ≤ s.count := by
    rw [h.count]
    exact Int.natCast_nonneg _
  unfold State.wantStats
  by_cases hone : s.count + 1 = 1
  · simp only [hone, if_true]
    exact h.announce .subscribe (hone ▸ hcount) (by simp)
  · simp only [hone, if_false]
    refine ⟨⟨h.shape.loops, h.shape.known, h.shape.last⟩, h.quiet, hcount, fun k socket hlive => ?_⟩
    obtain ⟨hsend, hlast, hopen⟩ := h.follows k socket hlive
    refine ⟨hsend, hlast.trans ?_, hopen⟩
    simp only
    omega

theorem Wf.release (h : Wf s) {handle : Nat} (hheld : s.released[handle]? = some false) :
    Wf (s.release handle) := by
  have hlt : handle < s.released.length := (List.getElem?_eq_some_iff.mp hheld).1
  have hget : s.released[handle] = false := (List.getElem?_eq_some_iff.mp hheld).2
  have hpos : 0 < s.released.countP fun released => !released :=
    List.countP_pos_iff.mpr ⟨false, List.mem_of_getElem? hheld, rfl⟩
  have hset : (s.released.set handle true).countP (fun released => !released) + 1 =
      s.released.countP fun released => !released := by
    rw [List.countP_set hlt, hget]
    simp
    omega
  have hcount : s.count - 1 = (s.released.set handle true).countP fun released => !released := by
    rw [h.count, ← hset]
    simp
  unfold State.release
  by_cases hzero : s.count - 1 = 0
  · simp only [hzero, if_true]
    exact h.announce .unsubscribe (hzero ▸ hcount) (by simp)
  · simp only [hzero, if_false]
    refine ⟨⟨h.shape.loops, h.shape.known, h.shape.last⟩, h.quiet, hcount, fun k socket hlive => ?_⟩
    obtain ⟨hsend, hlast, hopen⟩ := h.follows k socket hlive
    refine ⟨hsend, hlast.trans ?_, hopen⟩
    have hnat : 0 ≤ s.count - 1 := by
      rw [hcount]
      exact Int.natCast_nonneg _
    simp only
    omega

theorem Wf.connectEvents (h : Wf s) (hstopped : s.connections.all (·.stopped) = true) :
    Wf { s with connections := s.connections ++ [{}] } := by
  have hold : ∀ {c : Nat}, c < s.connections.length →
      (s.connections ++ [({} : Connection)])[c]? = s.connections[c]? :=
    fun hc => List.getElem?_append_left hc
  refine ⟨⟨fun k socket hk hstate => ?_, fun k socket hk => ?_, fun c conn hc hrun => ?_⟩, h.quiet,
    h.count, Follows.of_none fun k socket hlive => ?_⟩
  · obtain ⟨conn, hconn, hrest⟩ := h.shape.loops k socket hk hstate
    exact ⟨conn, (hold (h.shape.known k socket hk)).trans hconn, hrest⟩
  · have hlt := h.shape.known k socket hk
    simp only [List.length_append, List.length_singleton]
    omega
  · by_cases hlt : c < s.connections.length
    · simp only [hold hlt] at hc
      have hall := List.all_eq_true.mp hstopped conn (List.mem_of_getElem? hc)
      simp [hrun] at hall
    · have hle : c < (s.connections ++ [({} : Connection)]).length := (List.getElem?_eq_some_iff.mp hc).1
      simp only [List.length_append, List.length_singleton] at hle ⊢
      omega
  · obtain ⟨hk, -, hlast, -⟩ := hlive
    have hlt := h.shape.known k socket hk
    simp only [List.length_append, List.length_singleton] at hlast
    omega

theorem Socket.close_cases (socket : Socket) :
    socket.close = socket ∧ (socket.state = .closing ∨ socket.state = .closed) ∨
      socket.close = { socket with state := .closing } ∧ socket.state ≠ .closed := by
  unfold Socket.close
  cases hstate : socket.state with
  | connecting => exact .inr ⟨rfl, by simp⟩
  | opened => exact .inr ⟨rfl, by simp⟩
  | closing => exact .inl ⟨rfl, .inl rfl⟩
  | closed => exact .inl ⟨rfl, .inr rfl⟩

-- What `stop` leaves of a socket.
theorem getElem?_stop (s : State) (c : Nat) (conn : Connection) (k : Nat) :
    (s.stop c conn).sockets[k]? =
      if conn.socket = some k then s.sockets[k]?.map Socket.close else s.sockets[k]? := by
  unfold State.stop
  cases hsocket : conn.socket with
  | none => simp
  | some j =>
      simp only [List.getElem?_modify, Option.some.injEq]
      by_cases hjk : j = k
      · simp [hjk]
      · simp [hjk]

theorem stop_socket (hk : (s.stop c conn).sockets[k]? = some socket) :
    ∃ old, s.sockets[k]? = some old ∧ old.connection = socket.connection ∧
      old.sent = socket.sent ∧
      (old.state = socket.state ∧ (conn.socket = some k → socket.state = .closing ∨
        socket.state = .closed) ∨ socket.state = .closing ∧ old.state ≠ .closed) := by
  rw [getElem?_stop] at hk
  split at hk
  · obtain ⟨old, hold, rfl⟩ := Option.map_eq_some_iff.mp hk
    refine ⟨old, hold, ?_⟩
    rcases old.close_cases with ⟨heq, hstate⟩ | ⟨heq, hstate⟩
    · rw [heq]
      exact ⟨rfl, rfl, .inl ⟨rfl, fun _ => hstate⟩⟩
    · rw [heq]
      exact ⟨rfl, rfl, .inr ⟨rfl, hstate⟩⟩
  · rename_i hne
    exact ⟨socket, hk, rfl, rfl, .inl ⟨rfl, fun heq => absurd heq hne⟩⟩

theorem Wf.stop (h : Wf s) (hconn : s.connections[c]? = some conn)
    (htimely : conn.stopped = true → ∀ k socket, ¬ Live s k socket) : Wf (s.stop c conn) := by
  have hlt : c < s.connections.length := (List.getElem?_eq_some_iff.mp hconn).1
  have hself : (s.stop c conn).connections[c]? = some { conn with stopped := true } :=
    List.getElem?_set_self hlt
  have hother : ∀ {d : Nat}, c ≠ d → (s.stop c conn).connections[d]? = s.connections[d]? :=
    fun hne => List.getElem?_set_ne hne
  have hlength : (s.stop c conn).connections.length = s.connections.length := List.length_set
  refine ⟨⟨fun k socket hk hstate => ?_, fun k socket hk => ?_, fun d other hd hrun => ?_⟩,
    fun k socket hk hstate => ?_, h.count, Follows.of_none fun k socket hlive => ?_⟩
  · obtain ⟨old, hold, hsame, -, hstates⟩ := stop_socket hk
    have hopen : old.state ≠ .closed := by
      rcases hstates with ⟨heq, -⟩ | ⟨-, hne⟩
      · exact heq ▸ hstate
      · exact hne
    obtain ⟨conn₀, hconn₀, hsocket, hloop, hstop⟩ := h.shape.loops k old hold hopen
    rw [hsame] at hconn₀
    by_cases hc : c = socket.connection
    · subst hc
      rw [hconn] at hconn₀
      cases hconn₀
      refine ⟨_, hself, hsocket, hloop, fun _ => ?_⟩
      rcases hstates with ⟨-, hclosing⟩ | ⟨hclosing, -⟩
      · exact (hclosing hsocket).resolve_right hstate
      · exact hclosing
    · refine ⟨conn₀, (hother hc).trans hconn₀, hsocket, hloop, fun hstopped => ?_⟩
      rcases hstates with ⟨heq, -⟩ | ⟨hclosing, -⟩
      · exact heq ▸ hstop hstopped
      · exact hclosing
  · obtain ⟨old, hold, hsame, -⟩ := stop_socket hk
    rw [hlength, ← hsame]
    exact h.shape.known k old hold
  · rw [hlength]
    by_cases hc : c = d
    · subst hc
      rw [hself] at hd
      cases hd
      simp at hrun
    · rw [hother hc] at hd
      exact h.shape.last d other hd hrun
  · obtain ⟨old, hold, -, hsent, hstates⟩ := stop_socket hk
    rw [← hsent]
    rcases hstates with ⟨heq, -⟩ | ⟨hclosing, -⟩
    · exact h.quiet k old hold (heq.trans hstate)
    · rw [hstate] at hclosing
      cases hclosing
  · obtain ⟨hk, hstate, hlast, other, hdother, hrun⟩ := hlive
    obtain ⟨old, hold, hsame, -, hstates⟩ := stop_socket hk
    have heq : old.state = socket.state := by
      rcases hstates with ⟨heq, -⟩ | ⟨hclosing, -⟩
      · exact heq
      · rw [hstate] at hclosing
        cases hclosing
    by_cases hc : c = socket.connection
    · subst hc
      rw [hself] at hdother
      cases hdother
      simp at hrun
    · rw [hother hc] at hdother
      rw [hlength] at hlast
      cases hstopped : conn.stopped with
      | true =>
          refine htimely hstopped k old ⟨hold, heq.trans hstate, ?_, ?_⟩
          · rw [hsame]
            exact hlast
          · rw [hsame]
            exact ⟨other, hdother, hrun⟩
      | false =>
          have := h.shape.last c conn hconn hstopped
          omega

-- A handler that only moves a connection's loop on.
theorem Wf.moveLoop (h : Wf s) (hconn : s.connections[c]? = some conn)
    (hloop : conn.loop ≠ .connected) {conn' : Connection} (hstopped : conn'.stopped = conn.stopped)
    (ht : t.connections = s.connections.set c conn') (hsockets : t.sockets = s.sockets)
    (hcount : t.count = s.count) (hreleased : t.released = s.released) (hsend : t.send = s.send)
    (hopen : t.lastOpen = s.lastOpen ∨ ∀ k socket, ¬ Live s k socket) : Wf t := by
  have hlive : ∀ k socket, Live t k socket → Live s k socket := fun k socket hk =>
    hk.of_set hconn hstopped ht (hsockets ▸ hk.1)
  refine ⟨h.shape.setConnection hconn hstopped (fun k socket hk => ⟨socket, hk, rfl, .inl rfl⟩)
    (fun k socket hk hc hstate => ?_) ht hsockets, ?_, ?_, ?_⟩
  · exact absurd (h.shape.closed_of_loop hconn hloop hk hc) hstate
  · unfold Quiet
    rw [hsockets]
    exact h.quiet
  · rw [hcount, hreleased]
    exact h.count
  · rcases hopen with hopen | hnone
    · exact h.follows.same hlive hsend hcount hopen
    · exact Follows.of_none fun k socket hk => hnone k socket (hlive k socket hk)

-- A connection that waits for no socket has no live one.
theorem Shape.not_live (h : Shape s) (hconn : s.connections[c]? = some conn)
    (hrun : conn.stopped = false) (hloop : conn.loop ≠ .connected) (k : Nat) (socket : Socket) :
    ¬ Live s k socket :=
  fun hlive => hloop (h.live hlive hconn hrun).2.2

theorem Connection.retry_stopped (conn : Connection) : conn.retry.stopped = conn.stopped := by
  unfold Connection.retry
  split <;> rfl

theorem Wf.connect (h : Wf s) (hconn : s.connections[c]? = some conn)
    (hloop : conn.loop = .asking) : Wf (s.connect c conn) := by
  have hlt : c < s.connections.length := (List.getElem?_eq_some_iff.mp hconn).1
  have hnot : conn.loop ≠ .connected := by simp [hloop]
  unfold State.connect
  cases hstopped : conn.stopped with
  | true =>
      simp only [if_true]
      exact h.moveLoop hconn hnot hstopped.symm rfl rfl rfl rfl rfl (.inl rfl)
  | false =>
      have hc := h.shape.last c conn hconn hstopped
      simp only [Bool.false_eq_true, if_false]
      have hnew : ∀ {k : Nat} {socket : Socket},
          (s.sockets ++ [({ connection := c } : Socket)])[k]? = some socket →
          s.sockets[k]? = some socket ∨ k = s.sockets.length ∧ socket = { connection := c } := by
        intro k socket hk
        rw [List.getElem?_append] at hk
        split at hk
        · exact .inl hk
        · rw [List.getElem?_singleton] at hk
          split at hk
          · rename_i hk0
            cases hk
            exact .inr ⟨by omega, rfl⟩
          · cases hk
      refine ⟨⟨fun k socket hk hstate => ?_, fun k socket hk => ?_, fun d other hd hrun => ?_⟩,
        fun k socket hk hstate => ?_, h.count, Follows.of_none fun k socket hlive => ?_⟩
      · rcases hnew hk with hold | ⟨rfl, rfl⟩
        · have hne : c ≠ socket.connection := fun hsame =>
            hstate (h.shape.closed_of_loop hconn hnot hold hsame.symm)
          obtain ⟨conn₀, hconn₀, hrest⟩ := h.shape.loops k socket hold hstate
          exact ⟨conn₀, (List.getElem?_set_ne hne).trans hconn₀, hrest⟩
        · exact ⟨_, List.getElem?_set_self hlt, rfl, rfl, by simp⟩
      · simp only [List.length_set]
        rcases hnew hk with hold | ⟨-, rfl⟩
        · exact h.shape.known k socket hold
        · exact hlt
      · simp only [List.length_set]
        by_cases hcd : c = d
        · omega
        · exact h.shape.last d other ((List.getElem?_set_ne hcd).symm.trans hd) hrun
      · rcases hnew hk with hold | ⟨-, rfl⟩
        · exact h.quiet k socket hold hstate
        · rfl
      · obtain ⟨hk, hstate, hlast, -⟩ := hlive
        simp only [List.length_set] at hlast
        rcases hnew hk with hold | ⟨-, rfl⟩
        · have hclosed := h.shape.closed_of_loop hconn hnot hold (by omega)
          rw [hstate] at hclosed
          cases hclosed
        · cases hstate

theorem Wf.onopen (h : Wf s) (hk : s.sockets[k]? = some socket)
    (hstate : socket.state = .connecting) : Wf (s.onopen k socket) := by
  obtain ⟨conn, hconn, hsocket, hloop, hstop⟩ := h.shape.loops k socket hk (by simp [hstate])
  have hrun : conn.stopped = false := by
    cases hstopped : conn.stopped with
    | false => rfl
    | true =>
        rw [hstop hstopped] at hstate
        cases hstate
  have hget : ∀ d, (s.onopen k socket).connections[d]? = if socket.connection = d then
      s.connections[d]?.map fun conn => { conn with attempt := 0 } else s.connections[d]? := by
    intro d
    simp only [State.onopen, List.getElem?_modify]
    by_cases hd : socket.connection = d
    · simp [hd]
    · simp [hd]
  have hlength : (s.onopen k socket).connections.length = s.connections.length := by
    simp [State.onopen]
  have hsame : ∀ {d : Nat} {other : Connection}, s.connections[d]? = some other →
      ∃ new, (s.onopen k socket).connections[d]? = some new ∧ new.socket = other.socket ∧
        new.loop = other.loop ∧ new.stopped = other.stopped := by
    intro d other hd
    rw [hget]
    split
    · rw [hd]
      exact ⟨_, rfl, rfl, rfl, rfl⟩
    · exact ⟨other, hd, rfl, rfl, rfl⟩
  refine ⟨⟨fun j x hj hx => ?_, fun j x hj => ?_, fun d other hd hother => ?_⟩,
    fun j x hj hx => ?_, h.count, fun j x hlive => ?_⟩
  · rcases getElem?_set_some hj with ⟨rfl, rfl⟩ | ⟨-, hj⟩
    · obtain ⟨new, hnew, hs', hl', hst'⟩ := hsame hconn
      exact ⟨new, hnew, hs'.trans hsocket, hl'.trans hloop, by simp [hst', hrun]⟩
    · obtain ⟨conn₀, hconn₀, hsocket₀, hloop₀, hstop₀⟩ := h.shape.loops j x hj hx
      obtain ⟨new, hnew, hs', hl', hst'⟩ := hsame hconn₀
      exact ⟨new, hnew, hs'.trans hsocket₀, hl'.trans hloop₀, by rw [hst']; exact hstop₀⟩
  · rw [hlength]
    rcases getElem?_set_some hj with ⟨rfl, rfl⟩ | ⟨-, hj⟩
    · exact h.shape.known j socket hk
    · exact h.shape.known j x hj
  · rw [hlength]
    rw [hget] at hd
    split at hd
    · obtain ⟨old, hold, rfl⟩ := Option.map_eq_some_iff.mp hd
      exact h.shape.last d old hold hother
    · exact h.shape.last d other hd hother
  · rcases getElem?_set_some hj with ⟨-, rfl⟩ | ⟨-, hj⟩
    · cases hx
    · exact h.quiet j x hj hx
  · obtain ⟨hj, hx, hlast, -⟩ := hlive
    rw [hlength] at hlast
    rcases getElem?_set_some hj with ⟨rfl, rfl⟩ | ⟨hne, hj⟩
    · refine ⟨rfl, ?_, rfl⟩
      have hsent := h.quiet j socket hk hstate
      by_cases hcount : 0 < s.count
      · simp [State.onopen, hcount]
      · simp [State.onopen, hcount, hsent]
    · have hnewest := h.shape.last _ conn hconn hrun
      have hconnection : x.connection = socket.connection := by omega
      obtain ⟨conn₀, hconn₀, hsocket₀, -⟩ := h.shape.loops j x hj (by simp [hx])
      rw [hconnection, hconn] at hconn₀
      cases hconn₀
      rw [hsocket] at hsocket₀
      exact absurd (Option.some.inj hsocket₀).symm hne

theorem Wf.closing (h : Wf s) (hk : s.sockets[k]? = some socket)
    (hstate : socket.state = .opened) :
    Wf { s with sockets := s.sockets.set k { socket with state := .closing } } := by
  refine ⟨⟨fun j x hj hx => ?_, fun j x hj => ?_, h.shape.last⟩, fun j x hj hx => ?_, h.count, ?_⟩
  · rcases getElem?_set_some hj with ⟨rfl, rfl⟩ | ⟨-, hj⟩
    · obtain ⟨conn, hconn, hsocket, hloop, -⟩ := h.shape.loops j socket hk (by simp [hstate])
      exact ⟨conn, hconn, hsocket, hloop, fun _ => rfl⟩
    · exact h.shape.loops j x hj hx
  · rcases getElem?_set_some hj with ⟨rfl, rfl⟩ | ⟨-, hj⟩
    · exact h.shape.known j socket hk
    · exact h.shape.known j x hj
  · rcases getElem?_set_some hj with ⟨-, rfl⟩ | ⟨-, hj⟩
    · cases hx
    · exact h.quiet j x hj hx
  · refine h.follows.same (fun j x hlive => ?_) rfl rfl rfl
    obtain ⟨hj, hx, hrest⟩ := hlive
    rcases getElem?_set_some hj with ⟨-, rfl⟩ | ⟨-, hj⟩
    · cases hx
    · exact ⟨hj, hx, hrest⟩

theorem Wf.onclose (h : Wf s) (hk : s.sockets[k]? = some socket) (hstate : socket.state ≠ .closed)
    (hconn : s.connections[socket.connection]? = some conn)
    (htimely : conn.stopped = true → ∀ k socket, ¬ Live s k socket) :
    Wf (s.onclose k socket conn) := by
  obtain ⟨conn₀, hconn₀, hsocket, -⟩ := h.shape.loops k socket hk hstate
  rw [hconn] at hconn₀
  cases hconn₀
  -- The connection has no other socket that is not closed.
  have honly : ∀ {j : Nat} {x : Socket}, s.sockets[j]? = some x → x.state ≠ .closed →
      x.connection = socket.connection → j = k := by
    intro j x hj hx hsame
    obtain ⟨conn₁, hconn₁, hsocket₁, -⟩ := h.shape.loops j x hj hx
    rw [hsame, hconn] at hconn₁
    cases hconn₁
    rw [hsocket] at hsocket₁
    exact (Option.some.inj hsocket₁).symm
  refine ⟨h.shape.setConnection hconn conn.retry_stopped (fun j x hj => ?_)
    (fun j x hj hsame hx => ?_) rfl rfl, fun j x hj hx => ?_, h.count,
    Follows.of_none fun j x hlive => ?_⟩
  · rcases getElem?_set_some hj with ⟨rfl, rfl⟩ | ⟨-, hj⟩
    · exact ⟨socket, hk, rfl, .inr rfl⟩
    · exact ⟨x, hj, rfl, .inl rfl⟩
  · rcases getElem?_set_some hj with ⟨-, rfl⟩ | ⟨hne, hj⟩
    · exact absurd rfl hx
    · exact absurd (honly hj hx hsame) hne
  · rcases getElem?_set_some hj with ⟨-, rfl⟩ | ⟨-, hj⟩
    · cases hx
    · exact h.quiet j x hj hx
  · rcases getElem?_set_some hlive.1 with ⟨-, rfl⟩ | ⟨hne, hj⟩
    · cases hlive.2.1
    · have hold : Live s j x := hlive.of_set hconn conn.retry_stopped rfl hj
      cases hstopped : conn.stopped with
      | true => exact htimely hstopped j x hold
      | false =>
          obtain ⟨hsame, -⟩ := h.shape.live hold hconn hstopped
          exact hne (honly hj (by simp [hold.2.1]) hsame)

end Steps

section Runs

theorem not_live_of_offline (h : s.online = false) (k : Nat) (socket : Socket) :
    ¬ Live s k socket := by
  rintro ⟨hk, hstate, hlast, conn, hconn, hrun⟩
  rw [State.online, List.any_eq_false] at h
  refine h socket (List.mem_of_getElem? hk) ?_
  simp [hstate, hlast, hconn, hrun]

theorem stopped_eq (hconn : s.connections[c]? = some conn) : s.stopped c = conn.stopped := by
  simp [State.stopped, hconn]

theorem Wf.step (h : Wf s) (htimely : Timely s a) (hs : step s a = some t) : Wf t := by
  cases a with
  | wantStats =>
      cases hs
      exact h.wantStats
  | release handle =>
      simp only [Events.step] at hs
      split at hs
      · rename_i hheld
        cases hs
        exact h.release hheld
      · cases hs
        exact h
      · cases hs
  | connectEvents =>
      simp only [Events.step, Option.ite_none_right_eq_some] at hs
      obtain ⟨hstopped, hs⟩ := hs
      cases hs
      exact h.connectEvents hstopped
  | stop c =>
      obtain ⟨conn, hconn, rfl⟩ := Option.map_eq_some_iff.mp hs
      exact h.stop hconn fun hstopped =>
        not_live_of_offline (htimely ((stopped_eq hconn).trans hstopped))
  | urlReady c =>
      simp only [Events.step] at hs
      split at hs
      · rename_i conn hconn
        rw [Option.ite_none_right_eq_some] at hs
        obtain ⟨hloop, hs⟩ := hs
        cases hs
        exact h.connect hconn hloop
      · cases hs
  | urlFailed c =>
      simp only [Events.step] at hs
      split at hs
      · rename_i conn hconn
        rw [Option.ite_none_right_eq_some] at hs
        obtain ⟨hloop, hs⟩ := hs
        cases hs
        have hnot : conn.loop ≠ .connected := by simp [hloop]
        refine h.moveLoop hconn hnot conn.retry_stopped rfl rfl rfl rfl rfl (.inr ?_)
        cases hstopped : conn.stopped with
        | true => exact not_live_of_offline (htimely ((stopped_eq hconn).trans hstopped))
        | false => exact h.shape.not_live hconn hstopped hnot
      · cases hs
  | timer c =>
      simp only [Events.step] at hs
      split at hs
      · rename_i attempt stopped socket ms hconn
        cases hs
        have hstopped : (⟨attempt, stopped, socket, .asking⟩ : Connection).stopped = stopped := rfl
        exact h.moveLoop hconn (by simp) hstopped rfl rfl rfl rfl rfl (.inl rfl)
      · cases hs
  | opened k =>
      simp only [Events.step] at hs
      split at hs
      · rename_i socket hk
        rw [Option.ite_none_right_eq_some] at hs
        obtain ⟨hstate, hs⟩ := hs
        cases hs
        exact h.onopen hk hstate
      · cases hs
  | closing k =>
      simp only [Events.step] at hs
      split at hs
      · rename_i socket hk
        rw [Option.ite_none_right_eq_some] at hs
        obtain ⟨hstate, hs⟩ := hs
        cases hs
        exact h.closing hk hstate
      · cases hs
  | closed k =>
      simp only [Events.step] at hs
      split at hs
      · rename_i socket hk
        rw [Option.ite_none_left_eq_some] at hs
        obtain ⟨hstate, hs⟩ := hs
        obtain ⟨conn, hconn, rfl⟩ := Option.map_eq_some_iff.mp hs
        refine h.onclose hk hstate hconn fun hstopped => not_live_of_offline (htimely ?_)
        simpa [hk, stopped_eq hconn] using hstopped
      · cases hs

-- While no handler of a stopped connection runs beside an open socket of a
-- newer one, the subscription follows the pages.
theorem stats_follow_pages (acts : List Action) (s : State) (hrun : exec step {} acts = some s)
    (htimely : Along step Timely {} acts) : Follows s := by
  have hstart : Wf {} := by
    refine ⟨⟨by simp, by simp, by simp⟩, by simp [Quiet], by simp, Follows.of_none ?_⟩
    intro k socket hlive
    simp [Live] at hlive
  exact (exec_invariant Wf (fun _ _ _ h hok hs => h.step hok hs) hstart htimely hrun).follows

-- The close event of the first socket comes before the second socket opens.
def inTurn : List Action :=
  [.wantStats, .connectEvents, .urlReady 0, .opened 0, .stop 0, .closed 0, .connectEvents,
    .urlReady 1, .opened 1]

theorem stats_follow_pages_login :
    ∃ s, exec step {} inTurn = some s ∧
      Live s 1 ⟨1, .opened, [.subscribe]⟩ ∧ s.send = some 1 ∧ s.lastOpen = some true := by
  refine ⟨_, rfl, ?_⟩
  have hlive : Live ((exec step {} inTurn).get rfl) 1 ⟨1, .opened, [.subscribe]⟩ :=
    ⟨rfl, rfl, rfl, _, rfl, rfl⟩
  have hfollows := stats_follow_pages inTurn _ rfl (by decide) 1 _ hlive
  exact ⟨hlive, hfollows.1, hfollows.2.2⟩

-- The close event of the first socket comes after the second socket opened.
def lateClose : List Action :=
  [.wantStats, .connectEvents, .urlReady 0, .opened 0, .stop 0, .connectEvents, .urlReady 1,
    .opened 1, .closed 0]

theorem stats_lost_by_late_close :
    ∃ s, exec step {} lateClose = some s ∧
      Live s 1 ⟨1, .opened, [.subscribe]⟩ ∧ s.send = none ∧ s.lastOpen = some false ∧
      ¬ Follows s := by
  refine ⟨_, rfl, ?_⟩
  have hlive : Live ((exec step {} lateClose).get rfl) 1
      ⟨1, .opened, [.subscribe]⟩ := ⟨rfl, rfl, rfl, _, rfl, rfl⟩
  refine ⟨hlive, rfl, rfl, fun hfollows => ?_⟩
  cases (hfollows 1 _ hlive).1

end Runs

end Lodger.Events
