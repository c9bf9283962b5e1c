import SegmentWire.BigEndian.Laws
import SegmentWire.CommandLine.Directory
import SegmentWire.Fingerprint.Json
import SegmentWire.IsdAsn.Text
import SegmentWire.Main
import SegmentWire.Message.Chain
import SegmentWire.Message.Delivery
import SegmentWire.Message.Inspection
import SegmentWire.Proofs.Deduplication
import SegmentWire.Proofs.Grammar
import SegmentWire.Proofs.Limits
import SegmentWire.Proofs.Pruning
import SegmentWire.Proofs.Reencoding
import SegmentWire.Sample
import SegmentWire.Segment.Json
import SegmentWire.Segment.Node.Fingerprints
import SegmentWire.Segment.Node.Heights
import SegmentWire.WireVector
import SegmentWire.Proofs.Framing
import SegmentWire.Proofs.DepthLimit
import SegmentWire.Proofs.RicherCaches
import SegmentWire.Proofs.Rounds
import SegmentWire.Proofs.Assembly
import SegmentWire.Proofs.Truncation
import SegmentWire.Proofs.CanonicalForm
import SegmentWire.Proofs.Deliveries
import SegmentWire.Proofs.Collisions
import SegmentWire.Proofs.Memos
import SegmentWire.IndexTable.Calls
import SegmentWire.Proofs.Registrations
import SegmentWire.Proofs.SingleRecords
import SegmentWire.Proofs.References
import SegmentWire.Proofs.Refusals
import SegmentWire.Proofs.JsonTokens
import SegmentWire.Proofs.JsonTexts
import SegmentWire.Proofs.SegmentFiles
import SegmentWire.Proofs.FingerprintTexts
import SegmentWire.Proofs.HeightGuards
import SegmentWire.Proofs.IsdAsnTexts
import SegmentWire.Proofs.SharedEncoding
import SegmentWire.Proofs.SharedDecoding
