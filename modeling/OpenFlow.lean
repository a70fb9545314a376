import OpenFlow.Match.Frame
import OpenFlow.Multipart.Wire
import OpenFlow.Proofs.Wire.Agree
import OpenFlow.Proofs.Oxm.Field
import OpenFlow.Proofs.Match.Length
import OpenFlow.Proofs.Element.Family
import OpenFlow.Proofs.Element.Step
import OpenFlow.Proofs.Element.Framing
import OpenFlow.Proofs.Element.Lawful
import OpenFlow.Proofs.Action.RoundTrip
import OpenFlow.Proofs.Instruction.RoundTrip
import OpenFlow.Proofs.Queue.RoundTrip
import OpenFlow.Proofs.Message.Header
import OpenFlow.Proofs.Hello.RoundTrip
import OpenFlow.Proofs.Meter.RoundTrip
import OpenFlow.Proofs.Table.RoundTrip
import OpenFlow.Proofs.Element.RoundTrip
import OpenFlow.Proofs.Match.RoundTrip
import OpenFlow.Proofs.Text.RoundTrip
import OpenFlow.Proofs.Statistics.RoundTrip
import OpenFlow.Proofs.Multipart.Body
import OpenFlow.Proofs.Multipart.RoundTrip
import OpenFlow.Proofs.Element.Fallback
import OpenFlow.Proofs.Match.Canonical
import OpenFlow.Proofs.Multipart.Region
import OpenFlow.Proofs.Wire.Accounts
import OpenFlow.Proofs.Element.Accounts
import OpenFlow.Proofs.Multipart.Accounts
import OpenFlow.Proofs.Element.Decoded
import OpenFlow.Proofs.Element.Stable
import OpenFlow.Proofs.Message.Relay
import OpenFlow.Proofs.Wire.Twin
import OpenFlow.Proofs.Multipart.Extent
import OpenFlow.Proofs.Oxm.Payload
import OpenFlow.Proofs.Match.Walk
import OpenFlow.Proofs.Match.OrderedMap
import OpenFlow.Proofs.Match.Projection
import OpenFlow.Proofs.Match.Doubled
import OpenFlow.Proofs.Wire.Refuses
import OpenFlow.Proofs.Element.Errors
import OpenFlow.Proofs.Match.Errors
import OpenFlow.Proofs.Multipart.Errors
import OpenFlow.Proofs.Wire.Follows
import OpenFlow.Proofs.Element.Eased
import OpenFlow.Proofs.Multipart.Eased
import OpenFlow.Proofs.Match.FixedLayout
import OpenFlow.Proofs.Match.Framed
import OpenFlow.Proofs.Element.CutShort
import OpenFlow.Proofs.Frame.Ethernet
import OpenFlow.Proofs.Frame.Arp
import OpenFlow.Proofs.Frame.Ipv4
import OpenFlow.Proofs.Oxm.SelfDelimiting
import OpenFlow.Proofs.Match.LengthByte
import OpenFlow.Proofs.Wire.Fitting
import OpenFlow.Proofs.Match.CutShort
import OpenFlow.Proofs.Multipart.CutShort
import OpenFlow.Proofs.Text.Cut
import OpenFlow.Proofs.Text.Kept
import OpenFlow.Proofs.Hello.Versions
import OpenFlow.Proofs.Message.Appending
import OpenFlow.Proofs.Element.Reused
import OpenFlow.Proofs.Text.Lossy
import OpenFlow.Proofs.Text.LongestFit
import OpenFlow.Proofs.Oxm.Packing
