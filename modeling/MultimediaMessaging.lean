import MultimediaMessaging.Text.Blank
import MultimediaMessaging.Text.Decimal
import MultimediaMessaging.Text.Encoding
import MultimediaMessaging.Text.Hexadecimal
import MultimediaMessaging.Text.Opening
import MultimediaMessaging.Text.Printable
import MultimediaMessaging.Text.Quoted
import MultimediaMessaging.Network.Address
import MultimediaMessaging.Network.AddressText
import MultimediaMessaging.Table
import MultimediaMessaging.Clock
import MultimediaMessaging.Message
import MultimediaMessaging.Subscriber
import MultimediaMessaging.Fragment.HeaderKey
import MultimediaMessaging.Fragment.Error
import MultimediaMessaging.Fragment.Header
import MultimediaMessaging.Fragment.Acknowledgement
import MultimediaMessaging.Fragment.Encoder
import MultimediaMessaging.Fragment.Decoder
import MultimediaMessaging.Assembler
import MultimediaMessaging.Pool
import MultimediaMessaging.Listener.Filter
import MultimediaMessaging.Listener.Observer
import MultimediaMessaging.Listener.Registry
import MultimediaMessaging.Router
import MultimediaMessaging.Waiting.Queue
import MultimediaMessaging.Waiting.Room
import MultimediaMessaging.Waiting.Consumers
import MultimediaMessaging.Sending.Tracker
import MultimediaMessaging.Sending.Room
import MultimediaMessaging.Json.Value
import MultimediaMessaging.Json.Reader
import MultimediaMessaging.Json.Printer
import MultimediaMessaging.Config.Basic
import MultimediaMessaging.Config.Document
import MultimediaMessaging.Config.Environment
import MultimediaMessaging.Transport.Error
import MultimediaMessaging.Transport.Delivery
import MultimediaMessaging.Transport.Socket
import MultimediaMessaging.Transport.Script
import MultimediaMessaging.Transport.Isolated
import MultimediaMessaging.Stack.Audience
import MultimediaMessaging.Stack.Basic
import MultimediaMessaging.Stack.Registration
import MultimediaMessaging.Stack.Call
import MultimediaMessaging.Stack.Device
import MultimediaMessaging.Stack.Inbound
import MultimediaMessaging.Command.Option
import MultimediaMessaging.Command.Line
import MultimediaMessaging.Command.Job
import MultimediaMessaging.Command.Session
import MultimediaMessaging.Command.Run
import MultimediaMessaging.Main
import MultimediaMessaging.Proofs.Fragment.Lines
import MultimediaMessaging.Proofs.Fragment.Printed
import MultimediaMessaging.Proofs.Fragment.Decoding
import MultimediaMessaging.Proofs.Fragment.RoundTrip
import MultimediaMessaging.Proofs.Fragment.Fields
import MultimediaMessaging.Proofs.Fragment.Grammar
import MultimediaMessaging.Proofs.Fragment.Cutting
import MultimediaMessaging.Proofs.Fragment.Reassembly
import MultimediaMessaging.Proofs.Transport.Sending
import MultimediaMessaging.Proofs.Transport.Discipline
import MultimediaMessaging.Proofs.Transport.Ending
import MultimediaMessaging.Proofs.Assembly
import MultimediaMessaging.Proofs.Transport.Receiving
import MultimediaMessaging.Proofs.Transport.Link
import MultimediaMessaging.Proofs.Transport.FlowControl
import MultimediaMessaging.Proofs.Transport.Integrity
import MultimediaMessaging.Proofs.Isolation
import MultimediaMessaging.Proofs.Pool
import MultimediaMessaging.Proofs.Router
import MultimediaMessaging.Proofs.Waiting.Room
import MultimediaMessaging.Proofs.Waiting.Exchange
import MultimediaMessaging.Proofs.Listener.Registry
import MultimediaMessaging.Proofs.Listener.Matching
import MultimediaMessaging.Proofs.Stack.Traffic
import MultimediaMessaging.Proofs.Stack.Turn
import MultimediaMessaging.Proofs.Stack.Handles
import MultimediaMessaging.Proofs.Stack.Seating
import MultimediaMessaging.Proofs.Stack.Attendance
import MultimediaMessaging.Proofs.Stack.Rest
import MultimediaMessaging.Proofs.Stack.Arrival
import MultimediaMessaging.Proofs.Listener.Interest
import MultimediaMessaging.Proofs.Stack.Audience
import MultimediaMessaging.Proofs.Stack.Line
import MultimediaMessaging.Proofs.Transport.Addressing
import MultimediaMessaging.Proofs.Stack.Holding
import MultimediaMessaging.Proofs.Stack.Posting
import MultimediaMessaging.Proofs.Stack.Closing
import MultimediaMessaging.Proofs.PoolCounts
import MultimediaMessaging.Proofs.Listener.Ownership
import MultimediaMessaging.Proofs.Stack.Registrations
import MultimediaMessaging.Proofs.Stack.Teardown
import MultimediaMessaging.Proofs.Stack.Operations
import MultimediaMessaging.Proofs.Stack.Balance
import MultimediaMessaging.Proofs.Stack.Tickets
import MultimediaMessaging.Proofs.Stack.Staleness
import MultimediaMessaging.Proofs.Fragment.Repetition
import MultimediaMessaging.Proofs.Fragment.Acknowledgement
import MultimediaMessaging.Proofs.Slots
import MultimediaMessaging.Proofs.Sending.Protocol
import MultimediaMessaging.Proofs.Transport.Oversize
import MultimediaMessaging.Proofs.Stack.Serving
import MultimediaMessaging.Proofs.Fragment.Independence
import MultimediaMessaging.Proofs.Fragment.Awaiting
import MultimediaMessaging.Proofs.Fragment.Workings
import MultimediaMessaging.Proofs.Text.Digits
import MultimediaMessaging.Proofs.Network.AddressText
import MultimediaMessaging.Proofs.Json.Reading
import MultimediaMessaging.Proofs.Config.Document
