import RouteTrust.Keyring.Credentials
import RouteTrust.Router.Config

namespace RouteTrust

/-- What the options of a run say. -/
structure Options where
  settings : Settings := {}
  dataDirectory : Option Path := none
  verbosity : Nat := 0

/-- What a command line asks for. -/
inductive Request
  | run (options : Options)
  | help
  | version

/-- Why a command line cannot be followed. -/
inductive OptionsError
  | unknown (argument : String)
  | noValue (option : String)
  | badValue (option value : String) (reason : NameError)
  | notGiven (option : String)
  deriving DecidableEq, Repr

def OptionsError.message : OptionsError → String
  | .unknown argument => "error: unexpected argument '" ++ argument ++ "' found"
  | .noValue option => "error: a value is required for '" ++ option ++ "' but none was supplied"
  | .badValue option value reason =>
    "error: invalid value '" ++ value ++ "' for '" ++ option ++ "': " ++ reason.message
  | .notGiven option => "error: the following required argument was not provided: " ++ option

namespace Options

def usage : String :=
  "NLSR trust daemon\n\n" ++
  "Usage: nlsrd [OPTIONS] --site <SITE> --router <ROUTER> --root-prefix <ROOT_PREFIX>\n\n" ++
  "Options:\n" ++
  "      --network <NETWORK>          Network prefix of extracted site and router names [default: /ndn]\n" ++
  "      --site <SITE>                Site name, e.g. /edu/memphis\n" ++
  "      --router <ROUTER>            Router name within the site, e.g. /pollux\n" ++
  "      --root-prefix <ROOT_PREFIX>  Root key prefix, e.g. /ndn/keys\n" ++
  "      --cert-dir <CERT_DIR>        Directory holding root.cert, site.cert, operator.cert and router.cert\n" ++
  "      --data-dir <DATA_DIR>        Base directory for keys and sequence files\n" ++
  "  -v, --verbose...                 Verbose logging (-v for debug, -vv for trace)\n" ++
  "  -h, --help                       Print help\n" ++
  "  -V, --version                    Print version"

/-- An argument with its value after an equals sign, as two. -/
def expand (argument : String) : List String :=
  let front := argument.toList.takeWhile (· ≠ '=')
  let back := argument.toList.dropWhile (· ≠ '=')
  match front, back with
  | '-' :: '-' :: _, '=' :: value => [String.ofList front, String.ofList value]
  | _, _ => [argument]

/-- The name that the value of an option denotes. -/
def nameOf (option value : String) : Except OptionsError Name :=
  match Name.ofUri value with
  | .ok name => .ok name
  | .error reason => .error (.badValue option value reason)

/-- Takes an option with a value; `none` if there is no such option. -/
def take (options : Options) (option value : String) : Option (Except OptionsError Options) :=
  let named (update : Name → Settings) : Option (Except OptionsError Options) :=
    some ((nameOf option value).map fun name => { options with settings := update name })
  match option with
  | "--network" => named fun name => { options.settings with network := some name }
  | "--site" => named fun name => { options.settings with site := some name }
  | "--router" => named fun name => { options.settings with router := some name }
  | "--root-prefix" => named fun name => { options.settings with rootPrefix := some name }
  | "--cert-dir" =>
    some (.ok { options with settings := { options.settings with certificateDirectory := some ⟨value⟩ } })
  | "--data-dir" => some (.ok { options with dataDirectory := some ⟨value⟩ })
  | _ => none

/-- The options that stand alone, by how much they raise the verbosity. -/
def verbosityOf? (argument : String) : Option Nat :=
  match argument.toList with
  | '-' :: letters => if argument = "--verbose" then some 1
    else if !letters.isEmpty && letters.all (· = 'v') then some letters.length else none
  | _ => none

/-- Checks that all options are there that a run needs. -/
def complete (options : Options) : Except OptionsError Request :=
  if options.settings.site.isNone then .error (.notGiven "--site <SITE>")
  else if options.settings.router.isNone then .error (.notGiven "--router <ROUTER>")
  else if options.settings.rootPrefix.isNone then .error (.notGiven "--root-prefix <ROOT_PREFIX>")
  else .ok (.run options)

/-- Reads expanded arguments one after another. -/
def readFrom (options : Options) (arguments : List String) : Except OptionsError Request :=
  match arguments with
  | [] => options.complete
  | argument :: rest =>
    if argument = "-h" ∨ argument = "--help" then .ok .help
    else if argument = "-V" ∨ argument = "--version" then .ok .version
    else
      match verbosityOf? argument with
      | some count => { options with verbosity := options.verbosity + count }.readFrom rest
      | none =>
        match rest with
        | [] =>
          .error (if (options.take argument "/").isSome then .noValue argument else .unknown argument)
        | value :: others =>
          match options.take argument value with
          | none => .error (.unknown argument)
          | some (.error error) => .error error
          | some (.ok next) => next.readFrom others
termination_by arguments.length

/-- Reads a command line. -/
def read (arguments : List String) : Except OptionsError Request :=
  readFrom {} (arguments.flatMap expand)

end Options

/-- The files that a run of a router reads or writes. -/
def Config.files (config : Config) (directory : DataDirectory) : List Path :=
  [directory.routerKey, config.lsaSequenceIn directory, config.certificateSequenceIn directory] ++
    [rootFile, siteFile, operatorFile, routerFile].map (config.certificatesIn directory).join

end RouteTrust
