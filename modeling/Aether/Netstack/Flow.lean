/-
The netstack as one TCP flow sees it.

From a flow's side the whole stack is small: an entry with its socket, the flow's
own messages waiting in the backlog, and a history.  `FlowStep` says what can happen
to these.  Messages of the flow arrive at the back of its queue and are handled at
the front; whether that happens at once (`ingest`) or in a later pass over the
shared backlog (`drain_backlog`) makes no difference here, and neither do the other
flows.

`T` is a condition on the flow's turns, for statements about runs in which every
turn meets it.
-/
import Aether.Netstack.World
import Mathlib.Logic.Relation

namespace Aether

variable {σ υ : Type}

structure FlowView (σ : Type) where
  /-- The entry in `tcp_conns` and its socket. -/
  conn : Option (TcpState × σ)
  /-- The flow's messages in the backlog, in queue order. -/
  waiting : List DataIn
  trace : List Event

def NetStack.view (s : NetStack σ υ) (waiting : List DataIn) (id : Nat) : FlowView σ :=
  { conn := s.conn id, waiting, trace := s.trace }

def World.view (w : World σ υ) (id : Nat) : FlowView σ :=
  w.stack.view (KeyedQueue.ofKey DataIn.id id w.backlog.queue) id

/-- The events that say something about TCP flow `id`. -/
def Event.about (id : Nat) : Event → Bool
  | .openedTcp i => i == id
  | .ingested d => d.id == id
  | .flow i _ => i == id
  | .polled _ _ => true
  | _ => false

/-- A condition on one turn: the lifetimes, the pass's clock, what the turn is
answered, and the entry and socket it starts from. -/
abbrev TurnCond (σ : Type) := TcpLimits → Nat → FlowEnv → TcpState → σ → Prop

/-- No condition. -/
def anyTurn : TurnCond σ := fun _ _ _ _ _ => True

/-- What handling the flow's front message does; what comes back stays in front. -/
inductive FlowHandled (tun : Tuning) :
    Option (TcpState × σ) → DataIn → Option (TcpState × σ) → Option DataIn → Prop
  /-- The flow is gone. -/
  | gone {d : DataIn} : FlowHandled tun none d none none
  /-- A UDP message with this flow's id. -/
  | foreign {conn : Option (TcpState × σ)} {d : DataIn}
      (hd : (∃ id dst data, d = .udp id dst data) ∨ ∃ id, d = .udpClose id) :
      FlowHandled tun conn d conn none
  | full {id : Nat} {data : Bytes} {st : TcpState} {sock : σ}
      (hfull : tun.maxTcpPending ≤ st.pending.length) :
      FlowHandled tun (some (st, sock)) (.tcp id data) (some (st, sock)) (some (.tcp id data))
  | taken {id : Nat} {data : Bytes} {st : TcpState} {sock : σ}
      (hroom : st.pending.length + data.length ≤ tun.maxTcpPending) :
      FlowHandled tun (some (st, sock)) (.tcp id data)
        (some ({ st with pending := st.pending ++ data }, sock)) none
  | split {id n : Nat} {data : Bytes} {st : TcpState} {sock : σ}
      (hn : st.pending.length + n = tun.maxTcpPending) (hmore : n < data.length) :
      FlowHandled tun (some (st, sock)) (.tcp id data)
        (some ({ st with pending := st.pending ++ data.take n }, sock))
        (some (.tcp id (data.drop n)))
  | halfClosed {id : Nat} {st : TcpState} {sock : σ} :
      FlowHandled tun (some (st, sock)) (.tcpClose id)
        (some ({ st with halfClosed := true }, sock)) none

/-- What can happen to a flow. -/
inductive FlowStep (m : Smoltcp σ υ) (tun : Tuning) (T : TurnCond σ) (id : Nat) :
    FlowView σ → FlowView σ → Prop
  /-- Something that does not concern it. -/
  | other {v : FlowView σ} {es : List Event} (hes : ∀ e ∈ es, e.about id = false) :
      FlowStep m tun T id v { v with trace := v.trace ++ es }
  | opened {v : FlowView σ} {env : OpenEnv} {limits : TcpLimits} {iface : List IpCidr}
      {dst : SocketAddr} {port : Nat} {sock : σ} (hconn : v.conn = none) (hwait : v.waiting = [])
      (hnew : Event.openedTcp id ∉ v.trace) (hfresh : ∀ e, Event.flow id e ∉ v.trace)
      (hconnect : m.connect iface
        (m.tcpNew tun.tcpRxBuf tun.tcpTxBuf limits.keepalive limits.deadPeer) dst port = .ok sock) :
      FlowStep m tun T id v
        { v with conn := some (.opening env limits, sock), trace := v.trace ++ [.openedTcp id] }
  | turn {v : FlowView σ} {limits : TcpLimits} {now : Nat} {env : FlowEnv} {st : TcpState}
      {sock : σ} (hconn : v.conn = some (st, sock)) (hT : T limits now env st sock) :
      FlowStep m tun T id v
        { v with
          conn := (serviceFlow m tun limits now env st sock).next
          trace := v.trace ++ (serviceFlow m tun limits now env st sock).log.map (.flow id) }
  | polled {v : FlowView σ} {st : TcpState} {sock sock' : σ} {arrived : Nat → Bytes}
      {state : Nat → Option Tcp.State} (hconn : v.conn = some (st, sock))
      (hpolled : m.polled sock sock') (harrived : arrived id = (m.rx sock').drop (m.rx sock).length)
      (hstate : state id = some (m.state sock')) :
      FlowStep m tun T id v
        { v with conn := some (st, sock'), trace := v.trace ++ [.polled arrived state] }
  /-- A poll while the flow is not there. -/
  | polledGone {v : FlowView σ} {arrived : Nat → Bytes} {state : Nat → Option Tcp.State}
      (hconn : v.conn = none) (harrived : arrived id = []) (hstate : state id = none) :
      FlowStep m tun T id v { v with trace := v.trace ++ [.polled arrived state] }
  | arrived {v : FlowView σ} {d : DataIn} (hd : d.id = id) :
      FlowStep m tun T id v
        { v with waiting := v.waiting ++ [d], trace := v.trace ++ [.ingested d] }
  | handled {v : FlowView σ} {d : DataIn} {rest : List DataIn} {conn' : Option (TcpState × σ)}
      {back : Option DataIn} (hwait : v.waiting = d :: rest)
      (h : FlowHandled tun v.conn d conn' back) :
      FlowStep m tun T id v { v with conn := conn', waiting := back.toList ++ rest }
  /-- The reset of a wedged or stalled flow, which also drops what it has waiting. -/
  | reset {v : FlowView σ} {st : TcpState} {sock : σ} (hconn : v.conn = some (st, sock)) :
      FlowStep m tun T id v
        { conn := some ({ st with pending := [], credit := st.credit.close }, m.abort sock)
          waiting := []
          trace := v.trace ++ [.flow id .abort] }
  /-- The same for a flow that is gone. -/
  | purged {v : FlowView σ} (hconn : v.conn = none) :
      FlowStep m tun T id v { v with waiting := [] }

/-- What a step from `w` to `w'` added to the history. -/
def newEvents (w w' : World σ υ) : List Event := w'.stack.trace.drop w.stack.trace.length

/-- Any number of flow steps. -/
abbrev FlowSteps (m : Smoltcp σ υ) (tun : Tuning) (T : TurnCond σ) (id : Nat) :
    FlowView σ → FlowView σ → Prop :=
  Relation.ReflTransGen (FlowStep m tun T id)

/-- The turns a step of the stack takes all meet `T`. -/
def Step.Turns (T : TurnCond σ) (w : World σ υ) : Step σ υ → Prop
  | .serviceTcp _ now env =>
    ∀ id st sock, w.stack.conn id = some (st, sock) → T w.stack.tcpLimits now (env id) st sock
  | _ => True

/-- Runs in which every turn meets `T`. -/
def RunsWith (m : Smoltcp σ υ) (tun : Tuning) (T : TurnCond σ) (w₀ : World σ υ)
    (steps : List (Step σ υ)) (w : World σ υ) : Prop :=
  Machine.Run (step m tun) (fun w l => l.Valid m w ∧ l.Turns T w) w₀ steps w

end Aether
