import ChatWire.Listener.Basic
import ChatWire.Session.Handshake

/-! Opening a connection. The token of the chain is looked at twice, before the connection is held and after:
a chain cancelled in between has a connection and gives it up. -/

namespace ChatWire.Listener

/-- milliseconds in a second -/
def second : Int := 1000

/-- Chooses the endpoint and begins to dial. -/
def beginDial (world : Surroundings) (l : Listener) : Dialing × Listener :=
  match l.rotation.current? with
  | none => (.finished (.error (.session .selectEndpoint .noEndpoints)), l)
  | some endpoint =>
    let time := world.wallClock l.now
    match l.session.handshakeUrl endpoint time with
    | .error e => (.finished (.error (.session .handshakeUrl e)), l)
    | .ok url =>
      let d : Dial := ⟨endpoint, url, l.session.handshakeHeaders (time / second)⟩
      let plan := world.dial l.dials.length d
      (.waiting plan endpoint (l.now + plan.delay), { l with dials := l.dials ++ [d] })

/-- The dial is answered. -/
def answerDial (plan : DialPlan) (endpoint : String) (l : Listener) : Dialing × Listener :=
  match plan.refusal with
  | some e => (.finished (.error (.transport .dial e)), l)
  | none => (.opened l.links.length endpoint, { l with links := l.links ++ [.opened l.fault] })

/-- From now on the new connection is the one held, unless the chain has been cancelled. One that is still held then was
left by a chain that was cancelled in between; its token is a child of that chain's and is not cancelled again. -/
def install (parent : Token) (link : Nat) (l : Listener) : Listener :=
  if l.isCancelled parent then l
  else
    let (token, tokens) := l.tokens.child parent
    { l with
      tokens, phase := .connected
      connection := some
        { link, cipherKey := none, requests := 0, token, keepalive := none } }

def stepDialing (world : Surroundings) (parent : Token) (d : Dialing) (l : Listener) :
    Option (Dialing × Listener) :=
  match d with
  | .select => some (l.beginDial world)
  | .waiting plan endpoint due => if l.now < due then none else some (l.answerDial plan endpoint)
  | .opened link endpoint => some (.installed link endpoint, l.install parent link)
  | .installed link endpoint =>
    some (if l.isCancelled parent then .abandoning link .request else .announcing link endpoint, l)
  | .announcing link endpoint => some (.finished (.ok link), l.publish (.connected endpoint))
  | .abandoning link .done => some (.finished (.error .cancelled), l.stopListening link)
  | .abandoning link stage => do
    let (stage, l) ← l.stepClosing link ⟨CloseCode.manual, "cancelled during dial"⟩ stage
    some (.abandoning link stage, l)
  | .finished _ => none

def Dialing.deadline? : Dialing → Option Nat
  | .waiting _ _ due => some due
  | .abandoning _ stage => stage.deadline?
  | _ => none

end ChatWire.Listener
