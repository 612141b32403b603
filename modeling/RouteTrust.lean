import RouteTrust.Advertisement
import RouteTrust.Certificate.Basic
import RouteTrust.Certificate.Codec
import RouteTrust.Certificate.Issue
import RouteTrust.Certificate.Message
import RouteTrust.Clock
import RouteTrust.Crypto.Blake3
import RouteTrust.Crypto.Bytes
import RouteTrust.Crypto.Ed25519
import RouteTrust.Crypto.Edwards
import RouteTrust.Crypto.Scheme
import RouteTrust.Crypto.Sha512
import RouteTrust.Feed
import RouteTrust.Hierarchy.Markers
import RouteTrust.Hierarchy.Naming
import RouteTrust.Hierarchy.Policy
import RouteTrust.Hierarchy.Role
import RouteTrust.Keyring.Basic
import RouteTrust.Keyring.Credentials
import RouteTrust.Keyring.Owner
import RouteTrust.Main
import RouteTrust.Name.Basic
import RouteTrust.Name.Uri
import RouteTrust.Octets
import RouteTrust.Proofs.Accounting
import RouteTrust.Proofs.Admission
import RouteTrust.Proofs.Announcements
import RouteTrust.Proofs.Attempt
import RouteTrust.Proofs.Base64
import RouteTrust.Proofs.BitPlaces
import RouteTrust.Proofs.ComposedNames
import RouteTrust.Proofs.Contents
import RouteTrust.Proofs.Convergence
import RouteTrust.Proofs.Deferrals
import RouteTrust.Proofs.Displacement
import RouteTrust.Proofs.Fields
import RouteTrust.Proofs.Freshness
import RouteTrust.Proofs.Grammar
import RouteTrust.Proofs.Grounding
import RouteTrust.Proofs.History
import RouteTrust.Proofs.Identities
import RouteTrust.Proofs.InStep
import RouteTrust.Proofs.Insertion
import RouteTrust.Proofs.Installation
import RouteTrust.Proofs.Lookup
import RouteTrust.Proofs.NumberTexts
import RouteTrust.Proofs.Numbering
import RouteTrust.Proofs.OwnAdvertisements
import RouteTrust.Proofs.Packing
import RouteTrust.Proofs.Policy
import RouteTrust.Proofs.ProcessSites
import RouteTrust.Proofs.Provenance
import RouteTrust.Proofs.Quiescence
import RouteTrust.Proofs.ReadingBack
import RouteTrust.Proofs.Registration
import RouteTrust.Proofs.Rereading
import RouteTrust.Proofs.Resuming
import RouteTrust.Proofs.RootPrefix
import RouteTrust.Proofs.Saving
import RouteTrust.Proofs.SavingAgain
import RouteTrust.Proofs.SequenceFiles
import RouteTrust.Proofs.SignedBytes
import RouteTrust.Proofs.Speaking
import RouteTrust.Proofs.Spreading
import RouteTrust.Proofs.Stranding
import RouteTrust.Proofs.Trimming
import RouteTrust.Proofs.Unambiguous
import RouteTrust.Proofs.UriForm
import RouteTrust.Proofs.Waiting
import RouteTrust.Router.Config
import RouteTrust.Router.Node
import RouteTrust.Router.Options
import RouteTrust.Sequence.Counters
import RouteTrust.Sequence.File
import RouteTrust.Storage.CertificateFile
import RouteTrust.Storage.Disk
import RouteTrust.Storage.KeyFile
import RouteTrust.Storage.Path
import RouteTrust.Store.Basic
import RouteTrust.Store.Cascade
import RouteTrust.Store.Update
import RouteTrust.Text.Base64
import RouteTrust.Text.Blank
import RouteTrust.Text.CharLiteral
import RouteTrust.Text.Decimal
import RouteTrust.Text.Hex
import RouteTrust.Text.Pieces
import RouteTrust.Text.Utf8
import RouteTrust.WaitingList
import RouteTrust.Wire.Field
import RouteTrust.Wire.Varint
