import RouteTrust.Keyring.Owner
import RouteTrust.Name.Uri
import RouteTrust.Storage.Disk

namespace RouteTrust

/-- The directory that holds a router's state. -/
structure DataDirectory where
  base : Path
  deriving DecidableEq, Repr

def lsaSequenceFile : String := "nlsrSeqNo.txt"

def certificateSequenceFile : String := "nlsrCertSeqNo.txt"

namespace DataDirectory

def routerKey (directory : DataDirectory) : Path := directory.base.join "router.key"

def certificates (directory : DataDirectory) : Path := directory.base.join "nlsrCertDir"

def lsaSequence (directory : DataDirectory) : Path := directory.base.join lsaSequenceFile

def certificateSequence (directory : DataDirectory) : Path :=
  directory.base.join certificateSequenceFile

end DataDirectory

/-- What is said about a router, before it is known to be enough. -/
structure Settings where
  network : Option Name := none
  site : Option Name := none
  router : Option Name := none
  rootPrefix : Option Name := none
  certificateDirectory : Option Path := none
  sequenceDirectory : Option Path := none
  deriving DecidableEq

/-- A name that must be given and not be empty. -/
inductive ConfigError
  | missingSite
  | missingRouter
  | missingRootPrefix
  deriving DecidableEq, Repr

def ConfigError.message : ConfigError → String
  | .missingSite => "Config error: site name must not be empty"
  | .missingRouter => "Config error: router name must not be empty"
  | .missingRootPrefix => "Config error: root key prefix must not be empty"

/-- The configuration of a router. The two directories, if given, stand in for the
    places in its data directory. -/
structure Config where
  owner : Owner
  certificateDirectory : Option Path
  sequenceDirectory : Option Path
  deriving DecidableEq

namespace Settings

/-- The network prefix of settings that name none. -/
def defaultNetwork : Name := Name.ofList ["ndn"]

/-- A name that is given and not empty. -/
def required (value : Option Name) (error : ConfigError) : Except ConfigError Name :=
  match value with
  | some name => if name.isEmpty then .error error else .ok name
  | none => .error error

/-- The configuration that settings make, if they are enough. -/
def resolve (settings : Settings) : Except ConfigError Config := do
  let site ← required settings.site .missingSite
  let router ← required settings.router .missingRouter
  let rootPrefix ← required settings.rootPrefix .missingRootPrefix
  return ⟨⟨settings.network.getD defaultNetwork, rootPrefix, site, router⟩,
    settings.certificateDirectory, settings.sequenceDirectory⟩

end Settings

namespace Config

/-- Where the starting certificates are. -/
def certificatesIn (config : Config) (directory : DataDirectory) : Path :=
  config.certificateDirectory.getD directory.certificates

/-- Where the advertisement counters are. -/
def lsaSequenceIn (config : Config) (directory : DataDirectory) : Path :=
  match config.sequenceDirectory with
  | some place => place.join lsaSequenceFile
  | none => directory.lsaSequence

/-- Where the certificate number is. -/
def certificateSequenceIn (config : Config) (directory : DataDirectory) : Path :=
  match config.sequenceDirectory with
  | some place => place.join certificateSequenceFile
  | none => directory.certificateSequence

end Config
end RouteTrust
