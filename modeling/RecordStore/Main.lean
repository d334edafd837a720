import RecordStore.CommandLine.Execution
import RecordStore.Wire.Service
import Std.Async.Signal
import Std.Async.TCP
import Std.Sync.Mutex
import Std.Time.DateTime.Timestamp

/-!
# The program

Carries out the command line on the real file system and the real clock. `start` listens for clients
and answers each frame as it is complete; when the program is interrupted, it saves what is pending.

This is the outer layer: it moves bytes and texts in and out and decides nothing.
-/

namespace RecordStore.Main

open RecordStore.Storage (Path OsError SaveStep Disk)
open Std.Async (Async AsyncTask Signal)
open Std.Async.TCP.Socket (Server Client)

/-! ## The file system and the clock -/

/-- The number and the text of an error of the operating system. -/
def codeOf : IO.Error → UInt32 × String
  | .alreadyExists _ code text | .noFileOrDirectory _ code text | .inappropriateType _ code text
  | .invalidArgument _ code text | .permissionDenied _ code text | .resourceExhausted _ code text
  | .noSuchThing _ code text | .interrupted _ code text | .otherError code text
  | .resourceBusy code text | .resourceVanished code text | .unsupportedOperation code text
  | .hardwareFault code text | .unsatisfiedConstraints code text | .illegalOperation code text
  | .protocolError code text | .timeExpired code text => (code, text)
  | .unexpectedEof => (0, "unexpected end of file")
  | .userError text => (0, text)

/-- An error of the operating system. -/
def osError (e : IO.Error) : OsError :=
  match codeOf e with
  | (2, _) => .notFound
  | (16, _) => .busy
  | (17, _) => .alreadyExists
  | (20, _) => .notDirectory
  | (21, _) => .isDirectory
  | (36, _) => .nameTooLong
  | (39, _) => .notEmpty
  | (code, text) => .other code.toNat text

/-- Does something and returns what went wrong as a value. -/
def attempt {α : Type} (action : IO α) : IO (Except OsError α) := do
  try return .ok (← action) catch e => return .error (osError e)

/-- Carries out a step of saving. -/
def performStep : SaveStep → IO Unit
  | .makeDirectories path => IO.FS.createDirAll path.text
  | .create path => discard (IO.FS.Handle.mk path.text .write)
  | .write path content => IO.FS.writeFile path.text content
  | .sync path => do (← IO.FS.Handle.mk path.text .append).flush
  | .move source target => IO.FS.rename source.text target.text

/-- The real file system. -/
def disk : Disk IO where
  isPresent path := do
    match ← attempt (IO.FS.Handle.mk path.text .read) with
    | .error .notFound | .error .notDirectory | .error .nameTooLong => return false
    | _ => return true
  read path := attempt (IO.FS.readFile path.text)
  perform step := attempt (performStep step)

/-- The real clock. -/
def clock : IO Moment := do
  return ⟨(← Std.Time.Timestamp.now).toNanosecondsSinceUnixEpoch.toInt, 0⟩

/-! ## Serving -/

/-- The address of a text such as `127.0.0.1:6969`. -/
def address? (text : String) : Option Std.Net.SocketAddress := do
  let parts := text.splitOn ":"
  let port ← (← parts.getLast?).toNat?
  let ip ← Std.Net.IPv4Addr.ofString (":".intercalate parts.dropLast)
  if port < 65536 then some (.v4 ⟨ip, port.toUInt16⟩) else none

/-- Answers a request of a client. -/
def answerRequest (backend : Storage.Backend IO) (session : Std.Mutex Session) (client : Client)
    (payload : List UInt8) : Async Bool := do
  let reply ← session.atomically do
    let (reply, changed) ← ((Wire.reply backend clock payload).run (← get) : IO _)
    set changed
    return reply
  Wire.sendReply (fun frame => client.send ⟨frame.toArray⟩) reply

/-- Answers the frames of a client until it has sent its last. -/
partial def answerClient (backend : Storage.Backend IO) (session : Std.Mutex Session)
    (client : Client) (buffer : List UInt8) : Async Unit := do
  match ← Wire.receive (answerRequest backend session client) buffer with
  | none => return ()
  | some rest =>
    match ← client.recv? 65536 with
    | some bytes => answerClient backend session client (rest ++ bytes.toList)
    | none => return ()

/-- Accepts clients, each served on its own. -/
partial def acceptClients (backend : Storage.Backend IO) (session : Std.Mutex Session)
    (server : Server) : Async Unit := do
  let client ← server.accept
  Std.Async.background (answerClient backend session client [])
  acceptClients backend session server

/-- Serves clients until the program is interrupted, and saves what is pending. -/
def serve (settings : CommandLine.Settings) (address : String) : IO CommandLine.Exit := do
  match ← (settings.openStore disk).run with
  | .error e => return CommandLine.exitOf (.error e)
  | .ok opened =>
    match address? address with
    | none => return ⟨1, "", "Error: invalid socket address\n"⟩
    | some address =>
      let backend := settings.backend disk
      let session ← Std.Mutex.new opened
      let server ← Server.mk
      server.bind address
      server.listen 128
      let interrupted ← (← Signal.Waiter.mk .sigint false).wait
      Std.Async.background (acceptClients backend session server) |>.block
      discard interrupted.block
      let (saved, _) ← session.atomically do
        ((Session.flush backend).run.run (← get) : IO _)
      return CommandLine.exitOf (saved.map fun () => "")

/-! ## The command line -/

/-- The environment, as far as flags can be set in it. -/
def environment : IO (String → Option String) := do
  let flags : List CommandLine.Flag := [.database, .compact, .lenient, .deferred, .address]
  let entries ← (flags.filterMap CommandLine.Flag.environmentName?).filterMapM fun name => do
    return (← IO.getEnv name).map fun value => (name, value)
  return fun name => entries.lookup name

/-- Carries out a command line. -/
def exitOf (args : List String) : IO CommandLine.Exit := do
  let environment ← environment
  match CommandLine.read environment args with
  | .ok (.start settings address) => serve settings address
  | _ => CommandLine.execute disk clock environment args

end RecordStore.Main

def main (args : List String) : IO UInt32 := do
  let exit ← RecordStore.Main.exitOf args
  IO.print exit.output
  IO.eprint exit.error
  return exit.code.toUInt32
