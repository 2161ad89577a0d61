/-
Reading a run's history: what it says about one flow.
-/
import Aether.Netstack.State

namespace Aether

/-- What service passes and resets did for flow `id`, in order. -/
def flowLog (id : Nat) (trace : List Event) : List FlowEvent :=
  trace.filterMap fun e =>
    match e with
    | .flow i e => if i = id then some e else none
    | _ => none

/-- The bytes the socket took. -/
def accepted (log : List FlowEvent) : Bytes :=
  log.flatMap fun e =>
    match e with
    | .accepted bytes => bytes
    | _ => []

/-- The bytes sent into `to_app`. -/
def delivered (log : List FlowEvent) : Bytes :=
  log.flatMap fun e =>
    match e with
    | .toApp chunk => chunk
    | _ => []

/-- The bytes that polls put into the socket's receive queue. -/
def received (id : Nat) (trace : List Event) : Bytes :=
  trace.flatMap fun e =>
    match e with
    | .polled arrived _ => arrived id
    | _ => []

/-- The part of the history after flow `id` was opened. -/
def sinceOpened (id : Nat) : List Event → List Event
  | [] => []
  | .openedTcp i :: rest => if i = id then rest else sinceOpened id rest
  | _ :: rest => sinceOpened id rest

/-- The messages for flow `id` ingested since it was opened. -/
def messages (id : Nat) (trace : List Event) : List DataIn :=
  (sinceOpened id trace).filterMap fun e =>
    match e with
    | .ingested d => if d.id = id then some d else none
    | _ => none

/-- The bytes a message carries for a TCP stream. -/
def DataIn.payload : DataIn → Bytes
  | .tcp _ data => data
  | _ => []

/-- The stream that a list of messages carries. -/
def stream (q : List DataIn) : Bytes := q.flatMap DataIn.payload

end Aether
