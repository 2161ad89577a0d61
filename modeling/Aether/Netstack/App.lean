/-
The app's side of an upload: `TcpSender::send`, `FlowCredit::reserve` and the
`data_in` channel.

The writers run beside the netstack task, so the machine of `World.lean` gets their
steps in between its own.  `reserve` takes its loads one by one: `closed`, then
`sent` and `acked`, then `cap`, and the netstack may publish in between.  There is one
writer for each flow.  A flow's credit is shared by the two sides and is kept in the
flow's entry; once that is gone nothing is left that depends on what its writer reads.
-/
import Aether.Netstack.Flow
import Aether.Netstack.History

namespace Aether

variable {σ υ : Type}

/-- Where the writer of a flow is in `send`. -/
inductive Writer
  | idle
  /-- At the top of `reserve`'s loop. -/
  | waiting (data : Bytes)
  /-- `closed` was not set. -/
  | unclosed (data : Bytes)
  /-- With what `outstanding()` was. -/
  | counted (data : Bytes) (out : Nat)
  /-- Out of the loop. -/
  | admitted (data : Bytes)
  /-- Counted in `sent`, with the message on its way into the channel. -/
  | holding (data : Bytes)
deriving DecidableEq, Repr

/-- The bytes that are counted but not in the channel yet. -/
def Writer.hand : Writer → Bytes
  | holding data => data
  | _ => []

/-- The loads and stores of `reserve`. -/
inductive ReserveStep
  | sawOpen
  /-- Leaves the loop because the credit is closed. -/
  | sawClosed
  | count (out : Nat)
  /-- Leaves the loop because there is room. -/
  | room
  /-- Leaves the loop at `CREDIT_WAIT_MAX`. -/
  | timedOut
  | sleep
  /-- `sent.fetch_add`. -/
  | add
deriving DecidableEq, Repr

namespace FlowCredit

/-- The test `reserve` waits for, on an earlier reading of `outstanding()`. -/
def hasRoom (c : FlowCredit) (out len : Nat) : Bool :=
  out == 0 || decide (min (out + len) u64Max ≤ c.budget)

def addSent (c : FlowCredit) (len : Nat) : FlowCredit := { c with sent := c.sent + len }

end FlowCredit

/-- Whether `reserve` can take the step on what the shared credit holds now. -/
def ReserveStep.Enabled (credit : Option FlowCredit) : ReserveStep → Writer → Prop
  | .sawOpen, .waiting _ => ∀ c ∈ credit, c.closed = false
  | .sawClosed, .waiting _ => ∀ c ∈ credit, c.closed = true
  | .count out, .unclosed _ => ∀ c ∈ credit, out = c.outstanding
  | .room, .counted data out => ∀ c ∈ credit, c.hasRoom out data.length = true
  | .timedOut, .counted data out => ∀ c ∈ credit, c.hasRoom out data.length = false
  | .sleep, .counted data out => ∀ c ∈ credit, c.hasRoom out data.length = false
  | .add, .admitted _ => True
  | _, _ => False

def ReserveStep.next : ReserveStep → Writer → Writer
  | .sawOpen, .waiting data => .unclosed data
  | .sawClosed, .waiting data => .admitted data
  | .count out, .unclosed data => .counted data out
  | .room, .counted data _ => .admitted data
  | .timedOut, .counted data _ => .admitted data
  | .sleep, .counted data _ => .waiting data
  | .add, .admitted data => .holding data
  | _, w => w

/-! ### The machine -/

structure AppWorld (σ υ : Type) where
  world : World σ υ
  /-- `data_in`, from its head. -/
  channel : List DataIn
  writer : Nat → Writer

namespace AppWorld

def start (iface : List IpCidr) (mtu : Nat) (limits : TcpLimits) : AppWorld σ υ :=
  { world := .spawn iface mtu limits, channel := [], writer := fun _ => .idle }

abbrev stack (w : AppWorld σ υ) : NetStack σ υ := w.world.stack

def setWriter (w : AppWorld σ υ) (id : Nat) (p : Writer) : AppWorld σ υ :=
  { w with writer := Function.update w.writer id p }

/-- The credit the two sides of a flow share. -/
def credit (w : AppWorld σ υ) (id : Nat) : Option FlowCredit :=
  (w.stack.tcpConns id).map TcpState.credit

/-- `fetch_add` on the shared credit. -/
def addSent (w : AppWorld σ υ) (id len : Nat) : AppWorld σ υ :=
  match w.stack.tcpConns id with
  | none => w
  | some st =>
    { w with world := { w.world with
      stack := w.stack.setTcp id { st with credit := st.credit.addSent len } } }

/-- The messages of flow `id` in the channel. -/
def inChannel (w : AppWorld σ υ) (id : Nat) : List DataIn :=
  KeyedQueue.ofKey DataIn.id id w.channel

end AppWorld

inductive AppStep (σ υ : Type)
  /-- A call of the netstack's loop. -/
  | stack (l : Step σ υ)
  /-- The loop takes the next message out of the channel and ingests it. -/
  | deliver
  /-- A message that is not upload data. -/
  | post (d : DataIn)
  /-- `send` is called. -/
  | send (id : Nat) (data : Bytes)
  | reserve (id : Nat) (r : ReserveStep)
  /-- The message enters the channel, and `send` returns. -/
  | push (id : Nat)

def appStep (m : Smoltcp σ υ) (tun : Tuning) (w : AppWorld σ υ) :
    AppStep σ υ → Except Panic (AppWorld σ υ)
  | .stack l => do
    let world ← step m tun w.world l
    return { w with world }
  | .deliver =>
    match w.channel with
    | [] => .ok w
    | d :: rest => do
      let world ← step m tun w.world (.ingest d)
      return { w with world, channel := rest }
  | .post d => .ok { w with channel := w.channel ++ [d] }
  | .send id data => .ok (w.setWriter id (.waiting data))
  | .reserve id r =>
    match r, w.writer id with
    | .add, .admitted data => .ok ((w.addSent id data.length).setWriter id (.holding data))
    | r, p => .ok (w.setWriter id (r.next p))
  | .push id =>
    match w.writer id with
    | .holding data =>
      .ok { w.setWriter id .idle with channel := w.channel ++ [.tcp id data] }
    | _ => .ok w

/-- What is required of a step: the environment of the netstack's calls, one `send` at a
time and only on a connection that was handed out, and the loads of `reserve`. -/
def AppStep.Valid (m : Smoltcp σ υ) (w : AppWorld σ υ) : AppStep σ υ → Prop
  | .stack l => (∀ d, l ≠ .ingest d) ∧ l.Valid m w.world
  | .deliver => True
  | .post d => ∀ id data, d ≠ .tcp id data
  | .send id _ => w.writer id = .idle ∧ Event.flow id (.answered none) ∈ w.stack.trace
  | .reserve id r => r.Enabled (w.credit id) (w.writer id)
  | .push id => ∃ data, w.writer id = .holding data

/-- The runs of the netstack with its writers. -/
def AppRuns (m : Smoltcp σ υ) (tun : Tuning) (w₀ : AppWorld σ υ) (steps : List (AppStep σ υ))
    (w : AppWorld σ υ) : Prop :=
  Machine.Run (appStep m tun) (AppStep.Valid m) w₀ steps w

/-! ### The writers' side of one flow -/

/-- A condition on what writers do: the chunks they send and how `reserve` lets them go. -/
structure WriterCond where
  chunk : Bytes → Prop
  reserve : ReserveStep → Prop

/-- No condition. -/
def anyWriter : WriterCond := { chunk := fun _ => True, reserve := fun _ => True }

def AppStep.Writes (W : WriterCond) : AppStep σ υ → Prop
  | .send _ data => W.chunk data
  | .reserve _ r => W.reserve r
  | _ => True

/-- Runs in which every writer meets `W`. -/
def AppRunsWith (m : Smoltcp σ υ) (tun : Tuning) (W : WriterCond) (w₀ : AppWorld σ υ)
    (steps : List (AppStep σ υ)) (w : AppWorld σ υ) : Prop :=
  Machine.Run (appStep m tun) (fun w l => l.Valid m w ∧ l.Writes W) w₀ steps w

/-- What admission to a flow depends on. -/
structure Gate where
  credit : FlowCredit
  /-- The bytes ingested for the flow. -/
  ingested : Nat
  /-- The flow's messages in the channel. -/
  channel : List DataIn
  writer : Writer

def AppWorld.gate (w : AppWorld σ υ) (id : Nat) : Option Gate :=
  (w.stack.tcpConns id).map fun st =>
    { credit := st.credit
      ingested := (stream (messages id w.stack.trace)).length
      channel := w.inChannel id
      writer := w.writer id }

/-- The largest budget a turn publishes. -/
def maxBudget (tun : Tuning) : Nat := max tun.tcpTxBuf minFlowQueueBytes

/-- What can happen to a flow's gate. -/
inductive GateStep (tun : Tuning) (W : WriterCond) (id : Nat) : Gate → Gate → Prop
  /-- The netstack writes its part of the credit. -/
  | published {g : Gate} {c : FlowCredit} (hsent : c.sent = g.credit.sent)
      (hacked : g.credit.acked ≤ c.acked) (hcap : c.cap ≤ maxBudget tun) :
      GateStep tun W id g { g with credit := c }
  | delivered {g : Gate} {d : DataIn} {rest : List DataIn} (hchannel : g.channel = d :: rest) :
      GateStep tun W id g
        { g with ingested := g.ingested + d.payload.length, channel := rest }
  /-- A message that is not upload data. -/
  | posted {g : Gate} {d : DataIn} (hd : ∀ i data, d ≠ .tcp i data) :
      GateStep tun W id g { g with channel := g.channel ++ [d] }
  | called {g : Gate} {data : Bytes} (hidle : g.writer = .idle) (hW : W.chunk data) :
      GateStep tun W id g { g with writer := .waiting data }
  | reserved {g : Gate} {r : ReserveStep} (hr : r ≠ .add)
      (henabled : r.Enabled (some g.credit) g.writer) (hW : W.reserve r) :
      GateStep tun W id g { g with writer := r.next g.writer }
  | added {g : Gate} {data : Bytes} (hwriter : g.writer = .admitted data) :
      GateStep tun W id g
        { g with credit := g.credit.addSent data.length, writer := .holding data }
  | pushed {g : Gate} {data : Bytes} (hwriter : g.writer = .holding data) :
      GateStep tun W id g
        { g with channel := g.channel ++ [.tcp id data], writer := .idle }

/-- The gate of a flow nobody writes to yet. -/
structure Gate.Fresh (tun : Tuning) (g : Gate) : Prop where
  sent : g.credit.sent = 0
  cap : g.credit.cap ≤ maxBudget tun
  ingested : g.ingested = 0
  channel : ∀ i data, DataIn.tcp i data ∉ g.channel
  writer : g.writer = .idle

end Aether
