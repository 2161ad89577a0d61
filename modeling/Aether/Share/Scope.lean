/-
Where the listeners of `ShareBridge` are bound.

`bind` takes the address that `startSync` has put into `bindHost`, so a listener keeps the address
it was bound to whatever is asked for later.  The record of these addresses is kept beside the
bridge.  Here the calls do not overlap: each `startSync` has returned, and the thread of each `stop`
has run, before the next call begins.
-/
import Aether.Share.Session

namespace Aether.Share

inductive BindHost
  /-- `127.0.0.1`. -/
  | loopback
  /-- `0.0.0.0`. -/
  | any
deriving DecidableEq, Repr

def bindHost (localOnly : Bool) : BindHost := if localOnly then .loopback else .any

/-- The bridge with the address of every listener that was bound. -/
structure Exposure where
  bridge : Bridge
  hosts : Nat → Option BindHost

def Exposure.initial (upstreamPort : Nat) : Exposure where
  bridge := .initial upstreamPort
  hosts _ := none

/-- A step of the bridge; what it binds is bound to its `bindHost`. -/
def Exposure.step (e : Exposure) (l : Label) : Except String Exposure :=
  (Share.step e.bridge l).map fun b =>
    { bridge := b
      hosts := fun n =>
        if e.bridge.bound ≤ n ∧ n < b.bound then some (bindHost b.localOnly) else e.hosts n }

/-- A call that is completed before the next one begins. -/
inductive Call
  | startSync (localOnly : Bool) (upstreamPort : Option Nat) (minted : Text)
  | stop
deriving DecidableEq, Repr

/-- The steps of a call, the `n`th one. -/
def Call.labels (n : Nat) : Call → List Label
  | .startSync localOnly upstreamPort minted => [.startSync localOnly upstreamPort minted]
  | .stop => [.flag n, .number n, .spawn n, .close n]

/-- What is reached by a sequence of completed calls. -/
def Exposure.after (upstreamPort : Nat) (calls : List Call) : Except String Exposure :=
  (calls.zipIdx.flatMap fun (c, n) => c.labels n).foldlM Exposure.step (.initial upstreamPort)

/-- Both listeners are open, and bound to `host`. -/
def Exposure.Serves (e : Exposure) (host : BindHost) : Prop :=
  e.bridge.BothOpen ∧
    ∀ listener ∈ e.bridge.servers, e.hosts listener = some host

/-- The scope that a call asks for. -/
def Call.asks : Call → Option Bool
  | .startSync localOnly _ _ => some localOnly
  | .stop => none

/-- Two starts with no stop between them ask for the same scope. -/
def Steady (calls : List Call) : Prop :=
  ∀ front a b rest, calls = front ++ a :: b :: rest →
    ∀ l ∈ a.asks, ∀ l' ∈ b.asks, l = l'

end Aether.Share
