/-
App data on its way into the stack: `try_handle_data`, `ingest`, `drain_backlog`.
-/
import Aether.Lib.KeyedQueue
import Aether.Netstack.State

namespace Aether

variable {σ υ : Type}

/-- Hands one message to its flow; what comes back has to be deferred. -/
def tryHandleData (m : Smoltcp σ υ) (tun : Tuning) (s : NetStack σ υ) (d : DataIn) :
    Except Panic (NetStack σ υ × Option DataIn) :=
  match d with
  | .tcp id data =>
    match s.tcpConns id with
    | none => .ok (s, none)
    | some st =>
      let max := tun.maxTcpPending
      if st.pending.length ≥ max then .ok (s, some (.tcp id data))
      else
        let space := max - st.pending.length
        if data.length ≤ space then
          .ok (s.setTcp id { st with pending := st.pending ++ data }, none)
        else
          .ok (s.setTcp id { st with pending := st.pending ++ data.take space },
            some (.tcp id (data.drop space)))
  | .tcpClose id =>
    match s.tcpConns id with
    | none => .ok (s, none)
    | some st => .ok (s.setTcp id { st with halfClosed := true }, none)
  | .udp id dst data =>
    match s.udpConns id with
    | none => .ok (s, none)
    | some st => do
      let slot ← s.udpSocket st.handle
      return (s.setSocket st.handle (.udp slot.1 (m.udpSendSlice slot.2 data dst)), none)
  | .udpClose id =>
    match s.udpConns id with
    | none => .ok (s, none)
    | some st =>
      match s.sockets st.handle with
      | none => .error (.deadHandle st.handle)
      | some _ => .ok (s.dropUdp id st.handle, none)

/-- Places one message, behind the same flow's backlog when it has one. -/
def ingest (m : Smoltcp σ υ) (tun : Tuning) (s : NetStack σ υ) (backlog : Backlog)
    (d : DataIn) : Except Panic (NetStack σ υ × Backlog) :=
  let s := s.log [.ingested d]
  if backlog.holds d.id then .ok (s, backlog.push tun.target d)
  else do
    let r ← tryHandleData m tun s d
    match r.2 with
    | none => return (r.1, backlog)
    | some back => return (r.1, backlog.push tun.target back)

/-- One pass over the backlog. -/
def drainBacklog (m : Smoltcp σ υ) (tun : Tuning) (s : NetStack σ υ) (backlog : Backlog) :
    Except Panic (NetStack σ υ × Backlog) :=
  if backlog.queue.isEmpty then .ok (s, backlog)
  else do
    let r ← KeyedQueue.pass DataIn.id (tryHandleData m tun) s ∅ backlog.queue
    return (r.1,
      { queue := r.2.2
        blocked := r.2.1
        bytes := r.2.2.foldl (fun n d => tun.target.saturatingAdd n d.bytes) 0 })

end Aether
