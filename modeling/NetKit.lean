import NetKit.Address
import NetKit.Address.Class
import NetKit.Address.Ip
import NetKit.Address.Literal
import NetKit.Address.Subnet
import NetKit.Base64
import NetKit.Bindings
import NetKit.Bisection
import NetKit.Bytes
import NetKit.Calendar
import NetKit.Certificate
import NetKit.Certificate.AlternativeNames
import NetKit.Certificate.Extension
import NetKit.Certificate.Fault
import NetKit.Certificate.Name
import NetKit.Certificate.Time
import NetKit.Coded
import NetKit.Config
import NetKit.Contract
import NetKit.Cookie
import NetKit.Cookie.Date
import NetKit.Cookie.SetCookie
import NetKit.Datagram
import NetKit.Deadline
import NetKit.Der
import NetKit.Der.Object
import NetKit.Der.Oid
import NetKit.Device
import NetKit.Device.Buffer
import NetKit.Device.File
import NetKit.Digest
import NetKit.Digest.Sha2
import NetKit.Disk
import NetKit.Disk.Path
import NetKit.Encoding
import NetKit.Enumeration
import NetKit.EventLoop
import NetKit.EventLoop.Script
import NetKit.Failure
import NetKit.Flags
import NetKit.Handles
import NetKit.Headers
import NetKit.Instant
import NetKit.Interface
import NetKit.Interface.AddressEntry
import NetKit.Journal
import NetKit.Journal.Device
import NetKit.Journal.Setup
import NetKit.Journal.Socket
import NetKit.Json
import NetKit.Json.Reader
import NetKit.Json.Record
import NetKit.Key
import NetKit.Key.Identifier
import NetKit.Keyed
import NetKit.Log.Config
import NetKit.Log.Entry
import NetKit.Log.Filter
import NetKit.Log.Level
import NetKit.Log.Note
import NetKit.Log.Redaction
import NetKit.Log.Sink
import NetKit.Network
import NetKit.Network.Machine
import NetKit.OpenMode
import NetKit.Pem
import NetKit.Report
import NetKit.Report.Certificate
import NetKit.Report.Device
import NetKit.Report.Socket
import NetKit.Report.Values
import NetKit.Saturating
import NetKit.Settings
import NetKit.SetupError
import NetKit.Storage
import NetKit.SystemError
import NetKit.Tcp.Server
import NetKit.Tcp.Socket
import NetKit.Text.Blank
import NetKit.Text.Number
import NetKit.Text.Printable
import NetKit.Text.Quoted
import NetKit.Text.Search
import NetKit.Text.Shortest
import NetKit.Text.Units
import NetKit.Text.Utf8
import NetKit.Udp
import NetKit.Url
import NetKit.Url.Domain
import NetKit.Url.Punycode
import NetKit.Proofs.Handles.Counts
import NetKit.Proofs.Handles.Copies
import NetKit.Proofs.Handles.Edits
import NetKit.Proofs.Handles.Invariants
import NetKit.Proofs.Text.Trim
import NetKit.Proofs.EventLoop.Drains
import NetKit.Proofs.EventLoop.OneShot
import NetKit.Proofs.EventLoop.Order
import NetKit.Proofs.Interface.PrefixLength
import NetKit.Proofs.Headers.Safety
import NetKit.Proofs.Headers.Kept
import NetKit.Proofs.Key.Acceptance
import NetKit.Proofs.Device.Calls
import NetKit.Proofs.Device.Store
import NetKit.Proofs.Device.Sharing
import NetKit.Proofs.Device.Backends
import NetKit.Proofs.Deadline.Canonical
import NetKit.Proofs.Device.Offsets
import NetKit.Proofs.Device.Seeking
import NetKit.Proofs.Device.Appending
import NetKit.Proofs.Certificate.Bundles
import NetKit.Proofs.Certificate.Reloading
import NetKit.Proofs.AlternativeNames.Walks
import NetKit.Proofs.Tcp.AcceptQueue
import NetKit.Proofs.Device.Lifecycle
import NetKit.Proofs.Calendar.Days
import NetKit.Proofs.Text.Number
import NetKit.Proofs.Text.Pieces
import NetKit.Proofs.Text.Lossy
import NetKit.Proofs.Cookie.Dates
import NetKit.Proofs.Cookie.Lines
import NetKit.Proofs.Cookie.RoundTrip
import NetKit.Proofs.Cookie.Joined
import NetKit.Proofs.Cookie.Attributes
import NetKit.Proofs.Cookie.Expiry
import NetKit.Proofs.Url.Hosts
import NetKit.Proofs.Cookie.Defaults
import NetKit.Proofs.Config.Rebuilding
import NetKit.Proofs.Bindings.Trust
import NetKit.Proofs.Headers.Lookups
import NetKit.Proofs.Log.Redaction
import NetKit.Proofs.Log.Forwarding
import NetKit.Proofs.Log.Masking
import NetKit.Proofs.EventLoop.Receiver
import NetKit.Proofs.Deadline.Setting
import NetKit.Proofs.Deadline.Remaining
import NetKit.Proofs.Deadline.Millis
import NetKit.Proofs.Address.Ip
import NetKit.Proofs.Address.Literals
import NetKit.Proofs.Address.Grammar
import NetKit.Proofs.Address.RoundTrip
import NetKit.Proofs.Address.Identity
import NetKit.Proofs.Subnet.Bits
import NetKit.Proofs.Subnet.Membership
import NetKit.Proofs.Subnet.Canonical
import NetKit.Proofs.Interface.Netmask
import NetKit.Proofs.Address.Classes
import NetKit.Proofs.Headers.Changes
import NetKit.Proofs.Handles.Refusals
import NetKit.Proofs.Datagram.Replies
import NetKit.Proofs.Digest.Streaming
import NetKit.Proofs.Key.Readers
import NetKit.Proofs.Key.Reloading
import NetKit.Proofs.Key.Sizes
import NetKit.Proofs.Key.Rsa
import NetKit.Proofs.Certificate.Chains
import NetKit.Proofs.Pem.Sequences
import NetKit.Proofs.AlternativeNames.Bounds
import NetKit.Proofs.Tcp.FullQueue
import NetKit.Proofs.Udp.Failures
