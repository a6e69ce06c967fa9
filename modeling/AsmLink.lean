import AsmLink.Host.World
import AsmLink.Main
import AsmLink.Sink
import AsmLink.Proofs.Script
import AsmLink.Proofs.ProgramScript
import AsmLink.Proofs.Numbered
import AsmLink.Proofs.Characters
import AsmLink.Proofs.Layout
import AsmLink.Proofs.Gating
import AsmLink.Proofs.Numerals
import AsmLink.Proofs.Tokens
import AsmLink.Proofs.Runs
import AsmLink.Proofs.Classes
import AsmLink.Proofs.Numbering
import AsmLink.Proofs.FloatStub
import AsmLink.Proofs.References
import AsmLink.Proofs.Collisions
import AsmLink.Proofs.LocalReferences
import AsmLink.Proofs.Registers
import AsmLink.Proofs.Scanning
import AsmLink.Proofs.Diagnostics
import AsmLink.Proofs.Unreadable
import AsmLink.Proofs.LimitedSink
import AsmLink.Proofs.Accounts
import AsmLink.Proofs.Insertion
import AsmLink.Proofs.Relinking
import AsmLink.Proofs.Definitions
import AsmLink.Proofs.Directives
import AsmLink.Proofs.Mnemonics
import AsmLink.Proofs.Enumeration
import AsmLink.Proofs.SpuriousLabels
import AsmLink.Proofs.LineEnds
import AsmLink.Proofs.Precedence
import AsmLink.Proofs.Lockstep
import AsmLink.Proofs.Places
import AsmLink.Proofs.Beside
import AsmLink.Proofs.Logging
import AsmLink.Proofs.Watching
import AsmLink.Proofs.Ensures
import AsmLink.Proofs.Readings
