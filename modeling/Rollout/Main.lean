import Rollout.Command.Run
import Std.Time.DateTime.Timestamp

/-!
# The program

The command line on the real files, clock and environment of the device.
-/

namespace Rollout.Storage

/-- The number of a failed operation, without the sign that some operations give it. -/
def errorNumber (code : UInt32) : Nat := code.toInt32.toInt.natAbs

def FileError.ofIO : IO.Error → FileError
  | .alreadyExists _ code text | .otherError code text | .resourceBusy code text
  | .resourceVanished code text | .unsupportedOperation code text | .hardwareFault code text
  | .unsatisfiedConstraints code text | .illegalOperation code text | .protocolError code text
  | .timeExpired code text | .interrupted _ code text | .noFileOrDirectory _ code text
  | .invalidArgument _ code text | .permissionDenied _ code text
  | .resourceExhausted _ code text | .inappropriateType _ code text
  | .noSuchThing _ code text => ⟨text, errorNumber code⟩
  | .unexpectedEof => ⟨"unexpected end of file", 0⟩
  | .userError text => ⟨text, 0⟩

def attempt {α : Type} (operation : IO α) : IO (Except FileError α) :=
  try return .ok (← operation) catch e => return .error (FileError.ofIO e)

def realFiles : Files IO where
  isThere path := do return (← attempt (IO.FS.realPath path)).toBool
  read path := attempt do return (← IO.FS.readBinFile path).toList
  makeDirectory path := attempt (IO.FS.createDirAll path)
  write path content := attempt (IO.FS.writeBinFile path ⟨content.toArray⟩)
  rename source target := attempt (IO.FS.rename source target)

end Rollout.Storage

namespace Rollout

def realNow : IO Calendar.Instant := do
  let now ← Std.Time.Timestamp.now
  return ⟨now.val.second.val, now.val.nano.val.toNat⟩

def directoryVariables : List String :=
  ["HOME", "XDG_CONFIG_HOME", "XDG_STATE_HOME", "XDG_DATA_HOME"]

def realEnvironment : IO Environment := do
  let found ← directoryVariables.filterMapM fun name => do
    return (← IO.getEnv name).map fun value => (name, value)
  return ⟨NameMap.ofList found, none⟩

end Rollout

open Rollout in
def main (arguments : List String) : IO UInt32 := do
  let tag := toString (← IO.monoNanosNow)
  let host : Command.Host IO := ⟨Storage.realFiles, realNow, ← realEnvironment, tag⟩
  let response ← Command.execute host arguments
  IO.print response.output
  IO.eprint response.errors
  return response.exitCode.toUInt32
