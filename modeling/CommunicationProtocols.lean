import CommunicationProtocols.Library.Binary64
import CommunicationProtocols.Library.Bisection
import CommunicationProtocols.Library.Blocks
import CommunicationProtocols.Library.ByteBuffer
import CommunicationProtocols.Library.Channel
import CommunicationProtocols.Library.Decimal
import CommunicationProtocols.Library.Execution
import CommunicationProtocols.Library.FixedPoint
import CommunicationProtocols.Library.FloatText
import CommunicationProtocols.Library.HttpRequest
import CommunicationProtocols.Library.InetAddr
import CommunicationProtocols.Library.Json
import CommunicationProtocols.Library.KeyedList
import CommunicationProtocols.Library.LinkedList
import CommunicationProtocols.Library.Lomuto
import CommunicationProtocols.Library.OnesComplement
import CommunicationProtocols.Library.Printing
import CommunicationProtocols.Library.Search
import CommunicationProtocols.Library.TextInput
import CommunicationProtocols.Library.Tokens
import CommunicationProtocols.Library.Utf8
import CommunicationProtocols.Router.ArpCapacity
import CommunicationProtocols.Router.ArpExchange
import CommunicationProtocols.Router.ArpTable
import CommunicationProtocols.Router.Checksum
import CommunicationProtocols.Router.Forwarding
import CommunicationProtocols.Router.Frame
import CommunicationProtocols.Router.Handler
import CommunicationProtocols.Router.HeaderChecksum
import CommunicationProtocols.Router.IcmpMessages
import CommunicationProtocols.Router.InternetChecksum
import CommunicationProtocols.Router.Ipv4
import CommunicationProtocols.Router.LeftoverLeaks
import CommunicationProtocols.Router.Leftovers
import CommunicationProtocols.Router.LinkLayer
import CommunicationProtocols.Router.LongestPrefix
import CommunicationProtocols.Router.Parking
import CommunicationProtocols.Router.Queue
import CommunicationProtocols.Router.Rebuilding
import CommunicationProtocols.Router.RouteLookup
import CommunicationProtocols.Router.RouteTable
import CommunicationProtocols.Router.Sorting
import CommunicationProtocols.Router.TableFile
import CommunicationProtocols.Router.TableOrder
import CommunicationProtocols.Router.TableReads
import CommunicationProtocols.Router.Transparency
import CommunicationProtocols.Server.Allocation
import CommunicationProtocols.Server.Command
import CommunicationProtocols.Server.CommandLanguage
import CommunicationProtocols.Server.Conservation
import CommunicationProtocols.Server.Datagram
import CommunicationProtocols.Server.Delivery
import CommunicationProtocols.Server.Deployment
import CommunicationProtocols.Server.DeploymentInvariant
import CommunicationProtocols.Server.EndToEnd
import CommunicationProtocols.Server.FloatPayload
import CommunicationProtocols.Server.Loop
import CommunicationProtocols.Server.Numeric
import CommunicationProtocols.Server.Opaque
import CommunicationProtocols.Server.Overruns
import CommunicationProtocols.Server.Polling
import CommunicationProtocols.Server.PublishOrder
import CommunicationProtocols.Server.Residue
import CommunicationProtocols.Server.Segmentation
import CommunicationProtocols.Server.SentLines
import CommunicationProtocols.Server.Session
import CommunicationProtocols.Server.SessionInvariant
import CommunicationProtocols.Server.SessionSafety
import CommunicationProtocols.Server.Subscriber
import CommunicationProtocols.Server.Subscriptions
import CommunicationProtocols.Server.TextSizes
import CommunicationProtocols.Parson.Documents
import CommunicationProtocols.Parson.Doubles
import CommunicationProtocols.Parson.Equality
import CommunicationProtocols.Parson.ObjectTable
import CommunicationProtocols.Parson.Objects
import CommunicationProtocols.Parson.Parser
import CommunicationProtocols.Parson.Serializer
import CommunicationProtocols.Parson.Setters
import CommunicationProtocols.Parson.Strings
import CommunicationProtocols.Parson.Utf8Check
import CommunicationProtocols.Parson.Validation
import CommunicationProtocols.Client.Access
import CommunicationProtocols.Client.BookOutput
import CommunicationProtocols.Client.Buffer
import CommunicationProtocols.Client.Builders
import CommunicationProtocols.Client.Credentials
import CommunicationProtocols.Client.MessageSizes
import CommunicationProtocols.Client.PageCount
import CommunicationProtocols.Client.Payloads
import CommunicationProtocols.Client.RequestParsing
import CommunicationProtocols.Client.Requests
import CommunicationProtocols.Client.Response
import CommunicationProtocols.Client.Session
