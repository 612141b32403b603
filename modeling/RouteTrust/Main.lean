import RouteTrust.Crypto.Ed25519
import RouteTrust.Router.Node
import RouteTrust.Router.Options
import Std.Time.DateTime.Timestamp

namespace RouteTrust.Program

/-- The picture of the given files. -/
def picture (base : Path) (files : List Path) : IO Disk := do
  let mut disk := (Disk.empty.createDirectory base).disk
  for path in files do
    try
      let contents ← IO.FS.readBinFile path.text
      disk := (disk.save path contents.data.toList).disk
    catch _ => pure ()
  return disk

/-- Writes the files that differ between two pictures. -/
def writeBack (directories files : List Path) (before after : Disk) : IO Unit := do
  for directory in directories do
    IO.FS.createDirAll directory.text
  for path in files do
    match after.read? path with
    | some contents =>
      if before.read? path ≠ some contents then IO.FS.writeBinFile path.text ⟨contents.toArray⟩
    | none => pure ()

/-- A key from the computer's source of random bytes. -/
def freshKey : IO SigningKey := do
  return ⟨Octets.padded 32 (← IO.getRandomBytes 32).data.toList⟩

def systemTime : IO Time := do
  return UInt64.ofNat (← Std.Time.Timestamp.now).toMillisecondsSinceUnixEpoch.val.toNat

/-- The data directory of a user who names none. -/
def defaultDirectory : IO (Option Path) := do
  match ← IO.getEnv "XDG_CONFIG_HOME", ← IO.getEnv "HOME" with
  | some home, _ => return some ((⟨home⟩ : Path).join "nlsr")
  | none, some home => return some (((⟨home⟩ : Path).join ".config").join "nlsr")
  | none, none => return none

/-- Runs a router until the input ends. -/
def run (options : Options) (base : Path) : IO UInt32 := do
  match options.settings.resolve with
  | .error error =>
    IO.eprintln error.message
    return 1
  | .ok config =>
    let directory : DataDirectory := ⟨base⟩
    let files := config.files directory
    let directories := base :: config.sequenceDirectory.toList
    let before ← picture base files
    let scheme := Crypto.Ed25519.scheme
    let surroundings : Surroundings := ⟨← systemTime, ← freshKey, ← freshKey⟩
    let (outcome, after) := Node.start scheme surroundings config directory before
    writeBack directories files before after
    match outcome with
    | .error error =>
      IO.eprintln error.message
      return 1
    | .ok node =>
      IO.println ("Router: " ++ node.keyring.owner.routerName.uri)
      IO.println ("Process certificate: " ++ node.keyring.processCertificate.uri)
      if 0 < options.verbosity then IO.print node.keyring.store.text
      let _ ← (← IO.getStdin).readToEnd
      let (outcome, last) := node.shutdown after
      writeBack directories files after last
      match outcome with
      | .ok () => return 0
      | .error error =>
        IO.eprintln error.message
        return 1

end RouteTrust.Program

/-- Follows a command line. -/
def main (arguments : List String) : IO UInt32 := do
  match RouteTrust.Options.read arguments with
  | .error error =>
    IO.eprintln error.message
    return 2
  | .ok .help =>
    IO.println RouteTrust.Options.usage
    return 0
  | .ok .version =>
    IO.println "nlsrd 0.1.0"
    return 0
  | .ok (.run options) =>
    match options.dataDirectory.or (← RouteTrust.Program.defaultDirectory) with
    | some base => RouteTrust.Program.run options base
    | none =>
      IO.eprintln "no configuration directory, pass --data-dir"
      return 1
