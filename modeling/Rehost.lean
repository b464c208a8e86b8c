import Rehost.Main
import Rehost.Pattern.Language
import Rehost.Proofs.Json
import Rehost.Proofs.Origin
import Rehost.Proofs.Rehosting
import Rehost.Proofs.Report
import Rehost.Proofs.Run.Aftermath
import Rehost.Proofs.Run.Agreement
import Rehost.Proofs.Run.Ledger
import Rehost.Proofs.Run.Records
import Rehost.Proofs.Run.Registry
import Rehost.Proofs.Run.Sequence
import Rehost.Proofs.Run.Settings
import Rehost.Proofs.Script.AnyOrder
import Rehost.Proofs.Script.Brackets
import Rehost.Proofs.Script.BuildHash
import Rehost.Proofs.Script.Consumed
import Rehost.Proofs.Script.Fragment
import Rehost.Proofs.Script.Guards
import Rehost.Proofs.Script.Literal
import Rehost.Proofs.Script.Search
import Rehost.Proofs.Script.Stripped
import Rehost.Proofs.Script.Wiring
import Rehost.Proofs.Summary
import Rehost.Run.Machine
import Rehost.Value.Document
