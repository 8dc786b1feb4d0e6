import TelemetryAgent.Host.Basic

/-!
# Session calls

Sessions are numbered in the order in which they were opened. A session that keeps a journal
sees exactly the calls that do not fail.
-/
namespace TelemetryAgent.Host

/-- Counts a call on any session. -/
def countSessionCall (h : Host) : Host :=
  { h with sessions := { h.sessions with calls := h.sessions.calls + 1 } }

/-- Lets the journal of a session see a call. What it says is heard in the main context only. -/
def journalStep (session : Nat) (context : Context) (step : Journal → Journal × List Notice)
    (h : Host) : Host :=
  match h.sessions.journals with
  | none => h
  | some journals =>
    match journals[session]? with
    | none => h
    | some j =>
      let (j, said) := step j
      let h := { h with sessions := { h.sessions with journals := some (journals.set session j) } }
      match context with
      | .main => { h with notices := h.notices ++ said }
      | .worker => h

def openSession (h : Host) : Except SessionFault Nat × Host :=
  let session := h.sessions.opened
  let fault := h.sessions.openFault h.sessions.calls
  let h := (h.record (.sessionOpen session)).countSessionCall
  match fault with
  | some f => (.error f, h)
  | none =>
    let journals := h.sessions.journals.map (· ++ [{}])
    (.ok session, { h with sessions := { h.sessions with opened := session + 1, journals } })

def connectSession (session : Nat) (h : Host) : Except SessionFault Unit × Host :=
  let fault := h.sessions.connectFault h.sessions.calls
  let h := (h.record (.sessionConnect session)).countSessionCall
  match fault with
  | some f => (.error f, h)
  | none => (.ok (), h.journalStep session .main Journal.connect)

def disconnectSession (session timeoutMillis : Nat) (h : Host) :
    Except SessionFault Unit × Host :=
  let fault := h.sessions.disconnectFault h.sessions.calls
  let h := (h.record (.sessionDisconnect session timeoutMillis)).countSessionCall
  match fault with
  | some f => (.error f, h)
  | none => (.ok (), h.journalStep session .main Journal.disconnect)

/-- The events that a poll delivers, given those that have arrived. A session with a journal
confirms connections by itself. -/
def pollSession (session : Nat) (arrived : List Event) (h : Host) : List Event × Host :=
  let h := h.record (.sessionPoll session)
  match h.sessions.journals.bind (·[session]?) with
  | none => (arrived, h)
  | some j =>
    let (delivered, j) := (arrived.foldl (fun j e => j.inject e) j).poll
    (delivered, h.journalStep session .main fun _ => (j, []))

def setProperty (session : Nat) (context : Context) (target : Endpoint) (value : Value)
    (h : Host) : Except SessionFault Unit × Host :=
  let fault := h.sessions.publishFault h.sessions.calls target.path
  let h := (h.record (.property session target value context)).countSessionCall
  match fault with
  | some f => (.error f, h)
  | none =>
    (.ok (), h.journalStep session context fun j => (j, [.sessionProperty target value]))

def streamObject (session : Nat) (context : Context) (target : Endpoint) (fields : Fields)
    (h : Host) : Except SessionFault Unit × Host :=
  let fault := h.sessions.publishFault h.sessions.calls target.path
  let h := (h.record (.object session target fields context)).countSessionCall
  match fault with
  | some f => (.error f, h)
  | none =>
    (.ok (), h.journalStep session context fun j => (j, [.sessionObject target fields]))

def startScan (context : Context) (h : Host) : Outcome × Host :=
  let fault := h.platform.scanFault h.platform.scans
  let h := h.record (.wifiScan context)
  (.ofFault? fault, { h with platform := { h.platform with scans := h.platform.scans + 1 } })

/-! ## The caller's side -/

/-- Passes an event to the caller's callbacks. -/
def callBack (e : Event) (h : Host) : Host := if h.callbacks then h.record (.callback e) else h

/-- Asks a service of the caller. -/
def serve (c : Call) (h : Host) : Outcome × Host :=
  match h.services.mode with
  | .answering =>
    let fault := h.services.fault h.services.requests
    let h := h.record c
    (.ofFault? fault,
      { h with services := { h.services with requests := h.services.requests + 1 } })
  | _ => (.error .unsupportedRequest, h)

end TelemetryAgent.Host
