import PixelHost.Cli.Service
import PixelHost.Server.Wire
import Std.Internal.UV.DNS
import Std.Internal.UV.Signal
import Std.Internal.UV.TCP

/-!
# The program

Brings the command line, files, sockets and the clock together with the service. Nothing is decided
here: bytes and times are handed to the reactor and to the scheduler, and what they send is sent.
-/

namespace PixelHost.Main

open Std.Net
open Std.Internal.UV

abbrev I := Sandbox.interpreter

/-- The code of a program that was broken off. -/
def brokenOffCode : UInt32 := 101

/-! ### Notes -/

/-- Notes something of a level. -/
def note (level message : String) : IO Unit := IO.eprintln s!"[{level}] {message}"

/-! ### Files -/

/-- The cause of a failed operation. -/
def causeOf : IO.Error → FileError
  | .noFileOrDirectory _ code _ | .permissionDenied _ code _ | .inappropriateType _ code _
  | .otherError code _ | .invalidArgument _ code _ | .resourceExhausted _ code _ =>
    .os code.toNat
  | _ => .os 5

/-- Looks at what there is at a path. The content of a file is read if it is asked for. -/
def lookAt (files : FileTree) (path : String) (withContent : Bool) : IO FileTree := do
  let put (node : FileNode) : FileTree :=
    let target := files.place path
    (files.withParents target).put target node
  let file := (← IO.currentDir) / path
  match ← file.metadata.toBaseIO with
  | .error e => return if causeOf e = .notFound then files else put (.barred (causeOf e))
  | .ok data =>
    if data.type == .dir then return put .directory
    else if data.type != .file then return put (.device .null)
    else if !withContent then return put (.file .empty)
    else match ← (IO.FS.readBinFile file).toBaseIO with
      | .ok content => return put (.file content)
      | .error e => return put (.barred (causeOf e))

/-- The files that a command line leads to. -/
def filesFor (around : Cli.Surroundings) (a : Cli.Arguments) : IO FileTree := do
  let mut files := around.files
  let usual := around.configDirectory.map Settings.usualPath
  for path in (a.config <|> usual).toList do files ← lookAt files path true
  files ← lookAt files a.device false
  match Settings.resolve files a.config usual a.overrides with
  | .ok { bootstrap := some path, .. } => lookAt files path true
  | _ => return files

/-- The names of the example scripts in a directory. -/
def examplesIn (directory : String) : IO (Except FileError (List String)) := do
  match ← ((← IO.currentDir) / directory).readDir.toBaseIO with
  | .error e => return .error (causeOf e)
  | .ok found =>
    let mut entries := #[]
    for e in found do
      match ← e.path.symlinkMetadata.toBaseIO with
      | .error e => return .error (causeOf e)
      | .ok data =>
        let node := if data.type == .file then FileNode.file .empty else .directory
        entries := entries.push { name := e.fileName.toUTF8, node : FileTree.Entry }
    return .ok (Http.exampleNames entries.toList)

/-- The directory for settings files. -/
def configDirectory : IO (Option String) := do
  match ← IO.getEnv "XDG_CONFIG_HOME", ← IO.getEnv "HOME" with
  | some d, home =>
    if d.startsWith "/" then return some d else return home.map fun h => s!"{h}/.config"
  | none, home => return home.map fun h => s!"{h}/.config"

/-! ### Sockets -/

/-- The value of a promise that has been kept, if it has. -/
def kept? {α : Type} (p : IO.Promise (Except IO.Error α)) : IO (Option (Except IO.Error α)) := do
  if ← p.isResolved then return (p.result?).get else return none

/-- Waits for a promise. -/
def awaitKept {α : Type} (p : IO.Promise (Except IO.Error α)) : IO α := do
  match ← IO.wait p.result? with
  | some (.ok a) => return a
  | some (.error e) => throw e
  | none => throw (IO.userError "the operation was given up")

/-- The addresses that a name stands for. -/
def addressesOf (host : String) : IO (List IPAddr) := do
  match IPv4Addr.ofString host, IPv6Addr.ofString host with
  | some a, _ => return [.v4 a]
  | none, some a => return [.v6 a]
  | none, none => return (← awaitKept (← DNS.getAddrInfo host "" 0)).toList

/-- Listens on an address. -/
def listen (address : IPAddr) (port : UInt16) : IO TCP.Socket := do
  let socket ← TCP.Socket.new
  socket.bind (match address with
    | .v4 addr => .v4 { addr, port }
    | .v6 addr => .v6 { addr, port })
  socket.listen 128
  return socket

/-- Listens on the first address of a name that can be listened on. -/
def listenOn (host : String) (port : Nat) : IO TCP.Socket := do
  let addresses ← addressesOf host
  let rec attempt : List IPAddr → IO TCP.Socket
    | [] => throw (IO.userError "no address to listen on")
    | [a] => listen a (UInt16.ofNat port)
    | a :: rest => do
      match ← (listen a (UInt16.ofNat port)).toBaseIO with
      | .ok socket => return socket
      | .error _ => attempt rest
  attempt addresses

/-- A connection with its socket. -/
structure Client where
  id : Nat
  socket : TCP.Socket
  /-- What is being read, if anything. -/
  reading : Option (IO.Promise (Except IO.Error (Option ByteArray))) := none
  wire : Wire := {}
  /-- The time since when it waits. -/
  since : Nat
  closing : Bool := false

/-! ### The service at work -/

/-- A service at work. -/
structure Host where
  reactor : Reactor I
  worker : Worker I
  listener : TCP.Socket
  device : Option IO.FS.Handle
  examplesDirectory : String
  clients : List Client := []
  /-- The time at which the slice of sleep of the scheduler ends. -/
  wakeAt : Nat := 0
  started : Nat

/-- Sends the frames of an engine to the device and the output of its scripts to the terminal. -/
def deliver (device : Option IO.FS.Handle) (engine : Engine I) : IO (Engine I) := do
  let mut engine := engine
  for frame in engine.sink.frames do
    match device with
    | some handle =>
      match ← (do handle.write frame; handle.flush : IO Unit).toBaseIO with
      | .ok () => pure ()
      | .error e =>
        note "WARN" s!"frame lost: {e}"
        engine := engine.count fun m => { m with
          framesWritten := m.framesWritten - 1, sinkErrors := m.sinkErrors + 1 }
    | none => pure ()
  let sandbox := engine.interpreter
  if sandbox.machine.output.size > 0 then
    let out ← IO.getStdout
    out.write sandbox.machine.output
    out.flush
  let machine := { sandbox.machine with output := .empty }
  return { engine with
    interpreter := { sandbox with machine }
    sink := { engine.sink with frames := #[] } }

/-- The engine at a time. -/
def Host.atTime (h : Host) (now : Nat) : Host :=
  let sandbox := h.reactor.engine.interpreter
  let machine := { sandbox.machine with clock := now - h.started }
  { h with reactor := { h.reactor with
      engine := { h.reactor.engine with interpreter := { sandbox with machine } } } }

/-- Registers the connections that have come in. -/
partial def acceptNew (h : Host) (now : Nat) : IO Host := do
  match ← h.listener.tryAccept with
  | .error _ | .ok none => return h
  | .ok (some socket) =>
    let (id, reactor) := h.reactor.accept true
    let h := { h with reactor }
    match id with
    | none => acceptNew h now
    | some id => acceptNew { h with clients := { id, socket, since := now } :: h.clients } now

/-- The number of bytes that are read at a time. -/
def readSize : UInt64 := 65536

/-- Takes the bytes that have arrived on a connection. -/
partial def takeArrived (c : Client) : IO Client := do
  match c.reading with
  | none =>
    if c.wire.ended then return c
    else takeArrived { c with reading := some (← c.socket.recv? readSize) }
  | some p =>
    match ← kept? p with
    | none => return c
    | some (.ok (some bytes)) =>
      takeArrived { c with wire := c.wire.receive bytes, reading := none }
    | some _ => return { c with wire := c.wire.finish, reading := none }

/-- Sends what is to be sent on a connection. -/
def sendUnsent (c : Client) : IO Client := do
  let (bytes, wire) := c.wire.takeUnsent
  if bytes.size > 0 then
    match ← (do awaitKept (← c.socket.send #[bytes]) : IO Unit).toBaseIO with
    | .ok () => pure ()
    | .error e => note "DEBUG" s!"write failed: {e}"
  return { c with wire }

/-- The time that a connection may wait, in milliseconds. -/
def patience (closing : Bool) : Nat := if closing then 2000 else 5000

/-- The connection waits for the other side. -/
def isWaiting (r : Reactor I) (c : Client) : Bool :=
  match r.connections.lookup c.id with
  | some (.upload u) => u.closing
  | _ => true

/-- A pass on a connection. Gives it back if it goes on. -/
def serveClient (r : Reactor I) (c : Client) (now : Nat)
    (examples : Except FileError (List String)) : IO (Option Client × Reactor I) := do
  let c ← takeArrived c
  let timedOut := isWaiting r c && now - c.since > patience c.closing
  let (wire, r) := r.serveWire c.id c.wire timedOut examples
  let c ← sendUnsent { c with wire }
  match r.connections.lookup c.id with
  | some (.upload u) =>
    let since := if u.closing && !c.closing then now else c.since
    return (some { c with since, closing := u.closing }, r)
  | some _ => return (some c, r)
  | none =>
    match ← (do awaitKept (← c.socket.shutdown) : IO Unit).toBaseIO with
    | .ok () | .error _ => return (none, r)

/-- A pass on all connections. -/
def serveClients (h : Host) (now : Nat) : IO Host := do
  let examples ← if h.clients.isEmpty then pure (.ok []) else examplesIn h.examplesDirectory
  let mut reactor := h.reactor
  let mut clients := []
  for c in h.clients.reverse do
    let (next, r) ← serveClient reactor c now examples
    reactor := r
    clients := next.toList ++ clients
  return { h with reactor, clients }

/-- Lets the scheduler work until it sleeps. -/
partial def schedule (h : Host) (now : Nat) : IO Host := do
  let wake (h : Host) : IO Host := do
    let (event, worker) := { h.worker with engine := h.reactor.engine }.step
    match event with
    | .cycle (.failed e) => note "WARN" s!"program failed: {e.text}"
    | _ => pure ()
    let engine ← deliver h.device worker.engine
    let wakeAt := match worker.phase with
      | .sleeping slice _ => now + slice.millis
      | _ => 0
    return { h with worker, wakeAt, reactor := { h.reactor with engine } }
  match h.worker.phase with
  | .sleeping _ _ => if h.wakeAt ≤ now then schedule (← wake h) now else return h
  | .ended => return h
  | _ => schedule (← wake h) now

/-- The pause between two passes in which nothing happened, in milliseconds. -/
def pause : UInt32 := 5

/-- Serves until a signal asks for the end. -/
partial def serve (h : Host) (signals : List (IO.Promise Int)) : IO Host := do
  if ← signals.anyM fun p => p.isResolved then return h
  let now ← IO.monoMsNow
  let h ← acceptNew (h.atTime now) now
  let h ← serveClients h now
  let engine ← deliver h.device h.reactor.engine
  let h ← schedule { h with reactor := { h.reactor with engine } } now
  IO.sleep pause
  serve h signals

/-- Ends all connections. -/
def shutDown (h : Host) : IO Unit := do
  let (sent, _) := h.reactor.shutdown
  for c in h.clients do
    let own := (sent.filter (·.1 == c.id)).map (·.2)
    discard <| sendUnsent { c with wire := own.foldl Wire.transmit c.wire }

/-- Listens and serves. -/
def run (a : Cli.Arguments) (s : Cli.Service) : IO UInt32 := do
  let here ← IO.currentDir
  let device ← s.line.mapM fun _ => IO.FS.Handle.mk (here / a.device) .readWrite
  match ← (listenOn a.host a.port).toBaseIO with
  | .error e =>
    let e := Cli.StartError.listener a.host a.port (toString e)
    note "ERROR" e.text
    return UInt32.ofNat e.code
  | .ok listener =>
    let signals ← [2, 15].mapM fun number => do (← Signal.mk number false).next
    let notes := s.notes a
    for n in notes.dropLast.dropLast do note "INFO" n
    let host ← serve {
      reactor := {
        config := {
          maxClients := s.settings.maxClients
          maxUpload := s.settings.maxUpload
          outboxDepth := s.settings.outboxDepth
          mount := a.mount }
        engine := s.worker.engine }
      worker := s.worker
      listener, device
      examplesDirectory := s.settings.examplesDir
      started := ← IO.monoMsNow } signals
    shutDown host
    let s := { s with worker := { s.worker with engine := host.reactor.engine } }
    for n in (s.notes a).reverse.take 2 |>.reverse do note "INFO" n
    return UInt32.ofNat Cli.successCode

end PixelHost.Main

open PixelHost

/-- Carries out a command line. -/
def main (arguments : List String) : IO UInt32 := do
  let around : Cli.Surroundings := {
    files := {}, configDirectory := ← Main.configDirectory, clock := 0 }
  let out ← IO.getStdout
  match Cli.parse arguments with
  | .error _ =>
    match Cli.carryOut around arguments with
    | none => return Main.brokenOffCode
    | some exit =>
      out.write exit.output
      for e in exit.error.toList do IO.eprintln e
      return UInt32.ofNat exit.code
  | .ok a =>
    let around := { around with files := ← Main.filesFor around a }
    let (service, output) := Cli.Service.start around a
    out.write output
    match service with
    | .error e =>
      Main.note "ERROR" e.text
      return UInt32.ofNat e.code
    | .lost => return Main.brokenOffCode
    | .ok s => Main.run a s
