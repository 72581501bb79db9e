import CellNft.Command
import CellNft.Cota.Account
import CellNft.Logging.Sink
import CellNft.Main
import CellNft.Rpc.Recording
import CellNft.Settings
import CellNft.Yaml.Document
import CellNft.Proofs.Ascii
import CellNft.Proofs.Bytes
import CellNft.Proofs.Outcome
import CellNft.Proofs.Hex
import CellNft.Proofs.Molecule
import CellNft.Proofs.WitnessArgs
import CellNft.Proofs.Access
import CellNft.Proofs.RawTransaction
import CellNft.Proofs.Signing
import CellNft.Proofs.JsonString
import CellNft.Proofs.JsonText
import CellNft.Proofs.KeyCase
import CellNft.Proofs.Spelling
import CellNft.Proofs.Wire
import CellNft.Proofs.Carried
import CellNft.Proofs.Run
import CellNft.Proofs.Spending
import CellNft.Proofs.Submission
import CellNft.Proofs.Regrouping
import CellNft.Proofs.Checksum
import CellNft.Proofs.Bech32
import CellNft.Proofs.Address
import CellNft.Proofs.Exchange
import CellNft.Proofs.Capacity
import CellNft.Proofs.NodeForm
import CellNft.Proofs.TokenIndexes
import CellNft.Proofs.Delivery
import CellNft.Proofs.Decoding
import CellNft.Proofs.Faults
import CellNft.Proofs.Plans
import CellNft.Proofs.Polling
import CellNft.Proofs.Sending
import CellNft.Proofs.Courses
import CellNft.Proofs.Progress
import CellNft.Proofs.Abort
import CellNft.Proofs.Printing
import CellNft.Proofs.Formats
import CellNft.Proofs.Receipt
import CellNft.Proofs.Report
import CellNft.Proofs.Numbering
import CellNft.Proofs.Sessions
import CellNft.Proofs.Backoff
import CellNft.Proofs.Retrying
import CellNft.Proofs.Waiting
import CellNft.Proofs.LockFrame
import CellNft.Proofs.ScriptLayout
import CellNft.Proofs.OutPoints
import CellNft.Proofs.MintRequest
import CellNft.Proofs.HexGrammar
import CellNft.Proofs.Display
import CellNft.Proofs.SignerKeys
