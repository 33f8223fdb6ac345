import Cloudland.Core.Scheduler
import Cloudland.Core.RpcWorker

/-!
The back end (`cloudlet.cpp`) and the handler of the front end for what comes back (`handler.cpp`).
-/

open CString Packer Scheduler

namespace Cloudlet

inductive Job where
  -- the message is for the agents
  | dropped (id extra : Int32) (control : CString)
  | file (id extra : Int32) (control filepath : CString) (filesize checksum fileseek : Int32)
    (content : List UInt8)
  | run (id extra : Int32) (control command trace : CString)
  -- nobody is asked to run the command
  | idle (id extra : Int32) (control command : CString)
deriving DecidableEq

def drops (control : CString) : Bool :=
  if let some toall := strstr control "toall=" then
    has toall "toall=agent"
  else if let some inter := strstr control "inter=" then
    atoi (inter.drop 6) < 0
  else
    false

def unpackJob : Unpacker Job := do
  let id ← unpackInt
  let extra ← unpackInt
  let control ← unpackStr
  if drops control then
    return .dropped id extra control
  else if has control "type=file" then
    let filepath ← unpackStr
    let filesize ← unpackInt
    let checksum ← unpackInt
    let fileseek ← unpackInt
    let content ← unpackBuf
    return .file id extra control filepath filesize checksum fileseek content
  else
    let command ← unpackStr
    if has control "inter=" || has control "toall=" || has control "group=" || has control "select=" then
      let trace ← unpackStr
      return .run id extra control command trace
    else
      return .idle id extra control command

structure Outcome where
  pieces : List Text
  failed : Bool

def outputPieces (output : CString) : List CString := fgetsAll 1024 output.length output

def replies (myID : Int32) (outcome : Outcome) : Job → List Fields
  | .run id _ _ command trace =>
    outcome.pieces.map (fun piece => ⟨id, myID, "callback", piece.chars, trace⟩)
      ++ if outcome.failed then [⟨id, myID, "error", command, trace⟩] else []
  | _ => []

def report (myID : Int32) (result : Text) : Fields := ⟨0, myID, "report", result.chars, []⟩

end Cloudlet

namespace Handler

abbrev Call := Fields

def MARKER : CString := ofString "|:-COMMAND-:|"

/--
The commands in an output: what follows a marker and one more character, up to the end of the line. The
end of the line is overwritten when the next marker has been found, and if that stands in the same line
the rest of the output is lost.
-/
def commands : Nat → CString → List CString
  | 0, _ => []
  | fuel + 1, msg =>
    match strstr msg MARKER with
    | some found =>
      let cmd := found.drop (MARKER.length + 1)
      let line := cutAt NEWLINE cmd
      line :: commands fuel (if has line MARKER then line else cmd)
    | none => []

def frontHandler (size : Nat) (f : Fields) : List Call :=
  if size < 16 then
    []
  else if has f.control "error" then
    [f]
  else if has f.control "callback" then
    if has f.control "callback=agent" then
      [f]
    else
      (commands f.message.length f.message).map (fun cmd => { f with message := cmd })
  else if has f.control "report" then
    if f.beID = -1 then [f] else []
  else
    []

end Handler
