/-
What the threads of a session do to the client.

A session answers the client before it is connected where it wants to read a name, ends a
connection with a FIN or a RST on three of its exits only, and forgets what is queued when it is
closed.
-/
import Aether.Tun.Worker

namespace Aether.Tun

open List Machine

/-- What a segment does to a session: its payload is queued, or the queue stays as it is. -/
theorem TcpSession.arrive_cases (s : TcpSession) (g : Segment) (stale blocked : Bool) :
    let s' := s.arrive g stale blocked
    s'.connected = s.connected ∧
    ((s'.queue = s.queue ∧ s'.queued = s.queued ∧ (s'.closed = false → s.closed = false) ∧
        (s'.closed = true → s'.myAck = s.myAck)) ∨
      (s'.closed = false ∧ s.closed = false ∧ s.connected = true ∧
        s'.queue = s.queue ++ [g.payload] ∧ s'.queued = s.queued ++ [g.payload])) := by
  fun_cases TcpSession.arrive s g stale blocked
  · simp [TcpSession.close]
  · simp
  · simp [TcpSession.close]
  · fun_cases TcpSession.handleFromTun s g <;>
      simp_all +zetaDelta [TcpSession.close, TcpSession.sendAck, TcpSession.put]

/-- The route is not taken yet. -/
def Phase.early : Phase → Bool
  | .start | .sniffing | .decided _ => true
  | _ => false

/-- The reader is not started yet. -/
def Phase.opening : Phase → Bool
  | .connected | .answering => true
  | p => p.early

namespace Worker

variable {isn : BitVec 32} {w w' : Worker} {l : Label} {g : Segment}

/-- What holds of the threads: nothing is queued before `connected` is set, and an open session
has ended the connection where `close` is next behind a RST or the reader's FIN. -/
structure Sound (w : Worker) : Prop where
  unconnected : w.phase.early = true → w.session.connected = false
  empty : w.session.connected = false → w.session.queue = []
  unread : w.phase.opening = true → w.reader = .none
  ended : w.session.closed = false → (w.endSent = true ↔ w.phase = .reset ∨ w.reader = .finSent)

theorem Sound.step (h : w.Sound) (hstep : w.step l = .ok w') : w'.Sound := by
  obtain ⟨hunconnected, hempty, hunread, hended⟩ := h
  cases l with
  | arrive g stale blocked =>
    cases hstep
    obtain ⟨hconnected, hqueue⟩ := w.session.arrive_cases g stale blocked
    constructor <;> simp only [Worker.arrive, hconnected]
    · exact hunconnected
    · grind
    · exact hunread
    · grind
  | run a =>
    replace hstep : w.run a = .ok w' := hstep
    revert hstep
    fun_cases Worker.run w a <;> intro hstep <;> cases hstep
    all_goals try split
    all_goals constructor <;> simp_all +zetaDelta [Phase.early, Phase.opening, TcpSession.close]
  | read isRunning r =>
    replace hstep : w.read isRunning r = .ok w' := hstep
    revert hstep
    fun_cases Worker.read w isRunning r <;> intro hstep <;> cases hstep
    all_goals constructor <;> simp_all [TcpSession.close] <;> grind
  | close =>
    cases hstep
    exact ⟨hunconnected, hempty, hunread, by simp [TcpSession.close]⟩

/-- A closed session stays closed.  The step that closes it, and every one behind that, write
nothing and take nothing, and the former enqueues nothing. -/
theorem frame (hstep : w.step l = .ok w') :
    (w.session.closed = true → w'.session.closed = true) ∧
    (w'.session.closed = true →
      (w'.socket = w.socket ∧ w'.session.queued = w.session.queued ∧ w'.torn = w.torn) ∧
      (w.session.closed = false → w'.synAckSent = w.synAckSent ∧ w'.endSent = w.endSent)) := by
  cases l with
  | arrive g stale blocked =>
    cases hstep
    obtain ⟨-, ⟨-, hqueued, hopen, hack⟩ | ⟨hopen, hopen', -⟩⟩ :=
      w.session.arrive_cases g stale blocked
    · refine ⟨fun h => ?_, fun h => ⟨⟨rfl, hqueued, by simp [Worker.arrive, hack h]⟩,
        fun _ => ⟨rfl, rfl⟩⟩⟩
      by_contra hnot
      simp_all [Worker.arrive]
    · simp [Worker.arrive, hopen, hopen']
  | run a =>
    replace hstep : w.run a = .ok w' := hstep
    revert hstep
    fun_cases Worker.run w a <;> intro hstep <;> cases hstep
    all_goals grind [Worker.write, TcpSession.close]
  | read isRunning r =>
    replace hstep : w.read isRunning r = .ok w' := hstep
    revert hstep
    fun_cases Worker.read w isRunning r <;> intro hstep <;> cases hstep
    all_goals simp_all [TcpSession.close]
  | close =>
    cases hstep
    simp [TcpSession.close]

theorem write_open {broken : Bool} {data : Bytes} (hopen : w.session.closed = false)
    (hbroken : broken = false) : ∃ socket buffer, w.write broken data = some (socket, buffer) ∧
      socket ++ buffer = w.socket ++ (w.buffer ++ data) := by
  unfold Worker.write
  rw [hopen, hbroken]
  split
  · exact ⟨_, _, rfl, rfl⟩
  · split
    · contradiction
    · split
      · exact ⟨_, _, rfl, append_assoc _ _ _⟩
      · exact ⟨_, _, rfl, by simp⟩

/-- While the session is open, what was queued and is not written is on its way. -/
def Carried (w : Worker) : Prop :=
  w.session.closed = false → w.session.queued.flatten = w.socket ++ w.pending

theorem Carried.step (h : w.Carried) (hwrites : l.broken = false) (hstep : w.step l = .ok w') :
    w'.Carried := by
  cases l with
  | arrive g stale blocked =>
    cases hstep
    intro hopen
    obtain ⟨-, ⟨hqueue, hqueued, hclosed, -⟩ | ⟨-, hclosed, -, hqueue, hqueued⟩⟩ :=
      w.session.arrive_cases g stale blocked
    · simpa [Worker.arrive, pending, hqueue, hqueued] using h (hclosed hopen)
    · have hbefore := h hclosed
      simp only [pending] at hbefore
      simp [Worker.arrive, pending, hqueue, hqueued, hbefore]
  | run a =>
    replace hstep : w.run a = .ok w' := hstep
    revert hstep
    fun_cases Worker.run w a <;> intro hstep <;> cases hstep
    all_goals try split
    all_goals try simp_all +zetaDelta [Carried, pending, TcpSession.close, Label.broken]
    · intro hopen
      obtain ⟨socket, buffer, hsome, -⟩ := write_open (w := w) hopen rfl
      rename_i hfail
      rw [hfail] at hsome
      cases hsome
    · intro hopen
      obtain ⟨socket, buffer, hsome, happend⟩ := write_open (w := w) hopen rfl
      rename_i rest session socket' buffer' _ _ _ hwritten
      rw [hwritten] at hsome
      cases hsome
      have hrest := congrArg (· ++ rest.flatten) happend
      simpa using hrest.symm
  | read isRunning r =>
    replace hstep : w.read isRunning r = .ok w' := hstep
    revert hstep
    fun_cases Worker.read w isRunning r <;> intro hstep <;> cases hstep
    all_goals first | exact h | exact nofun
  | close =>
    cases hstep
    exact nofun

/-! ### Whole runs -/

/-- The proxy accepts at once, and no name is wanted. -/
def plain : Answer := ⟨false, .connect, true, true, false, false⟩

/-- Up to the SYN-ACK. -/
def connecting : List Label := replicate 4 (.run plain)

end Worker

end Aether.Tun
